import SaturnOS.Memory.HeapContents
import SaturnOS.Memory.HeapMerged
import SaturnOS.Memory.Pmm

/-!
# Memory/HeapPages — the two allocators on one memory

    │ kernel │ heap │ page │ heap │ … │ ramfb │ … │
               pmm_alloc_page ◂── grow_heap ◂── kmalloc

`grow_heap` takes its pages from `pmm_alloc_page`, as anyone may.  From `pmm_init` and `heap_init`
on, whatever is allocated, freed and written on either side and in any order, no byte has two
owners (`memory_owned`).
-/

open Machinery

namespace SaturnOS

/-! ## The calls on both -/

/-- The two allocators, and the pages that others have taken. -/
structure MemoryRun where
  pmm : Pmm
  heap : HeldRun
  taken : List Word

inductive MemoryOp
  | kmalloc (size : Word)
  | kzalloc (size : Word)
  | kfree (ptr : Word)
  | store (ptr : Word) (i : ℕ) (b : Byte)
  | allocPage
  | storePage (page : Word) (i : ℕ) (b : Byte)
  | freePage (page : Word)

/-- The call comes to `grow_heap`. -/
def asksPage (s : Heap) (size : Word) : Bool :=
  decide (size ≠ 0) && !decide (heapBlockCapacity < heapAlignUp size) &&
    findFreeBlock s (heapAlignUp size) == some 0

/-- …which calls `pmm_alloc_page`. -/
def pageFor (p : Pmm) (s : Heap) (size : Word) : Pmm × Word :=
  if asksPage s size then pmmAllocPage p else (p, 0)

/-- What the callers keep to: they give back and write into what they have, and the size of a
`kzalloc` does not wrap. -/
def Enabled (s : MemoryRun) : MemoryOp → Prop
  | .kmalloc _ => True
  | .kzalloc size =>
    ZeroesWithin s.heap.run (.kzalloc size (pageFor s.pmm s.heap.run.heap size).2)
  | .kfree ptr => ptr = 0 ∨ ptr ∈ s.heap.run.live.map Prod.fst
  | .store ptr i _ => AskedFor s.heap.run.live ptr i
  | .allocPage => True
  | .storePage page i _ => page ∈ s.taken ∧ i < 4096
  | .freePage page => page ∈ s.taken

instance (s : MemoryRun) : DecidablePred (Enabled s)
  | .kmalloc _ => isTrue trivial
  | .kzalloc size => inferInstanceAs (Decidable (ZeroesWithin s.heap.run
      (.kzalloc size (pageFor s.pmm s.heap.run.heap size).2)))
  | .kfree _ => inferInstanceAs (Decidable (_ ∨ _))
  | .store _ _ _ => inferInstanceAs (Decidable (AskedFor _ _ _))
  | .allocPage => isTrue trivial
  | .storePage _ _ _ => inferInstanceAs (Decidable (_ ∧ _))
  | .freePage _ => inferInstanceAs (Decidable (_ ∈ _))

/-- Someone else writes a byte. -/
def HeldRun.poke (s : HeldRun) (x : ℕ) (b : Byte) : HeldRun :=
  { s with run := { s.run with heap := { s.run.heap with
      memory := Function.update s.run.heap.memory x b } } }

def memoryCall (s : MemoryRun) : MemoryOp → Option MemoryRun
  | .kmalloc size =>
    let (pmm, page) := pageFor s.pmm s.heap.run.heap size
    (heldCall s.heap (.kmalloc size page)).map fun heap => { s with pmm, heap }
  | .kzalloc size =>
    let (pmm, page) := pageFor s.pmm s.heap.run.heap size
    (heldCall s.heap (.kzalloc size page)).map fun heap => { s with pmm, heap }
  | .kfree ptr => (heldCall s.heap (.kfree ptr)).map fun heap => { s with heap }
  | .store ptr i b => (heldStep s.heap (.store ptr i b)).map fun heap => { s with heap }
  | .allocPage =>
    let (pmm, page) := pmmAllocPage s.pmm
    some { s with pmm, taken := if page = 0 then s.taken else page :: s.taken }
  | .storePage page i b =>
    some { s with heap := s.heap.poke (page.toNat + i) b }
  | .freePage page =>
    some { s with pmm := pmmFreePage s.pmm page, taken := s.taken.erase page }

def memoryStep (s : MemoryRun) (op : MemoryOp) : Option MemoryRun :=
  if Enabled s op then memoryCall s op else none

/-! ## Owners -/

/-- The bytes of an allocation: those asked for, where the size does not wrap. -/
def askedRoom (a : Word × Word) : Set ℕ :=
  {x | ∃ i < a.2.toNat, a.2.toNat + 15 < 2 ^ 64 ∧ x = a.1.toNat + i}

/-- The bytes of a page. -/
def wholePage (page : Word) : Set ℕ := Set.Ico page.toNat (page.toNat + 4096)

/-- What is owned: the live allocations, and the pages others have. -/
def owned (s : MemoryRun) : List (Set ℕ) :=
  s.heap.run.live.map askedRoom ++ s.taken.map wholePage

/-- **What the memory promises**: no byte has two owners or is the kernel's or the frame buffer's,
an allocation holds what is written into it, and every call returns. -/
structure MemoryOk (kernelEnd : Word) (s : MemoryRun) : Prop where
  apart : (owned s).Pairwise Disjoint
  unreserved : ∀ room ∈ owned s, ∀ r ∈ reservedRanges kernelEnd,
    Disjoint room (Set.Ico r.1.toNat r.2.toNat)
  reads : ReadsHeld s.heap
  returns : ∀ op, Enabled s op → (memoryStep s op).isSome = true

/-! ## Pages -/

section Pages

variable {reserved : Finset ℕ} {p p' : Pmm} {pages pages' : List Word} {page : Word}
  {s s' : Heap} {bs : List Chunk} {size : Word}

/-- The pages that are out, in any order. -/
def PagesOut (reserved : Finset ℕ) (p : Pmm) (pages : List Word) : Prop :=
  HandsInv reserved ⟨p, pages, pages⟩

theorem PagesOut.perm (h : PagesOut reserved p pages) (hp : pages.Perm pages') :
    PagesOut reserved p pages' where
  counted := h.counted
  kept := h.kept
  returned page hpage := h.returned page (hp.mem_iff.mpr hpage)
  out page hpage := h.out page (hp.mem_iff.mpr hpage)
  distinct := hp.nodup_iff.mp h.distinct

theorem PagesOut.pageOk (h : PagesOut reserved p pages) (hpage : page ∈ pages) : PageOk page := by
  obtain ⟨i, hi, -, rfl⟩ := h.returned page hpage
  have haddr := toNat_pageAddr (Nat.le_of_lt hi)
  have hne := pageAddr_ne_zero hi
  rw [pmmTotalPages] at hi
  exact ⟨hne, by omega, by omega⟩

/-- **An allocation** is a page more, and it was not out. -/
theorem PagesOut.alloc (h : PagesOut reserved p pages) :
    PagesOut reserved (pmmAllocPage p).1
      (if (pmmAllocPage p).2 = 0 then pages else (pmmAllocPage p).2 :: pages) := by
  rcases hq : pmmAllocPage p with ⟨q, page⟩
  have hstep : pmmStep ⟨p, pages, pages⟩ .alloc =
      if page = 0 then some ⟨q, pages, pages⟩ else some ⟨q, page :: pages, page :: pages⟩ := by
    simp only [pmmStep, hq]
  show PagesOut reserved q (if page = 0 then pages else page :: pages)
  by_cases h0 : page = 0
  · rw [if_pos h0] at hstep ⊢
    exact pmmStep_hands h hstep trivial
  · rw [if_neg h0] at hstep ⊢
    exact pmmStep_hands h hstep trivial

theorem PagesOut.free (h : PagesOut reserved p pages) (hpage : page ∈ pages) :
    PagesOut reserved (pmmFreePage p page) (pages.erase page) := by
  have hmine : FreesReturned ⟨p, pages, pages⟩ (.free page) := hpage
  have hfreed := pmmStep_hands h rfl hmine
  exact ⟨hfreed.counted, hfreed.kept, fun a ha => hfreed.returned a (List.mem_of_mem_erase ha),
    hfreed.out, hfreed.distinct⟩

/-- **The page a call gets**, where it asks for one. -/
theorem PagesOut.pageFor (h : PagesOut reserved p pages) (s : Heap) (size : Word) :
    PagesOut reserved (pageFor p s size).1
        (if (pageFor p s size).2 = 0 then pages else (pageFor p s size).2 :: pages) ∧
      ((pageFor p s size).2 ≠ 0 → asksPage s size = true) := by
  rw [SaturnOS.pageFor]
  cases hasks : asksPage s size with
  | true => exact ⟨h.alloc, fun _ => rfl⟩
  | false => exact ⟨h, fun hn => absurd rfl hn⟩

/-- A call that asks for a page takes it. -/
theorem kmalloc_pages (h : Represents s bs) (hpage : FreshPage s page)
    (hasks : page ≠ 0 → asksPage s size = true) {ptr : Word}
    (hcall : kmalloc s size page = some (s', ptr)) :
    s'.pages = if page = 0 then s.pages else page :: s.pages := by
  obtain ⟨t, q, bs', hcall', hm⟩ := @kmalloc_cases s bs size page h hpage
  obtain ⟨rfl, rfl⟩ := Prod.mk.inj (Option.some.inj (hcall.symm.trans hcall'))
  have hasked : page ≠ 0 → size ≠ 0 ∧ ¬ heapBlockCapacity < heapAlignUp size ∧
      findFreeBlock s (heapAlignUp size) = some 0 := by
    intro h0
    have hall := hasks h0
    rw [asksPage, Bool.and_eq_true, Bool.and_eq_true, Bool.not_eq_true', decide_eq_true_eq,
      decide_eq_false_iff_not, beq_iff_eq] at hall
    exact ⟨hall.1.1, hall.1.2, hall.2⟩
  by_cases h0 : page = 0
  · rw [if_pos h0]
    cases hm with
    | refused => rfl
    | found => exact takeBlock_pages _ _ _
    | grown _ hpage => exact absurd h0 hpage.ne
  · obtain ⟨hsize, hcap, hnone⟩ := hasked h0
    rw [if_neg h0]
    cases hm with
    | refused hr =>
      rcases hr with hr | hr | ⟨-, hr⟩
      · exact absurd hr hsize
      · exact absurd hr hcap
      · exact absurd hr h0
    | @found l r b _ _ _ hfind => exact absurd (Option.some.inj (hfind.symm.trans hnone)) b.addr_ne
    | grown _ hpage _ _ => rw [takeBlock_pages, growHeap_pages hpage.ne]

end Pages

/-! ## The memory over its runs -/

/-- The invariant: the heap's, and every page that is out is the heap's or another's. -/
structure MemoryInv (reserved : Finset ℕ) (s : MemoryRun) (bs : List Chunk) : Prop where
  held : HeldInv s.heap bs
  pages : PagesOut reserved s.pmm (s.heap.run.heap.pages ++ s.taken)

section Runs

variable {reserved : Finset ℕ} {s s' : MemoryRun} {bs : List Chunk} {size : Word}

/-- The page a call gets is fresh. -/
theorem MemoryInv.fresh (h : MemoryInv reserved s bs) (size : Word) :
    FreshPage s.heap.run.heap (pageFor s.pmm s.heap.run.heap size).2 := by
  intro h0
  have hout := (h.pages.pageFor s.heap.run.heap size).1
  rw [if_neg h0] at hout
  have hok := hout.pageOk List.mem_cons_self
  exact ⟨hok.aligned, hok.below, fun hmem =>
    (List.nodup_cons.mp hout.distinct).1 (List.mem_append_left _ hmem)⟩

/-- A call on the heap returns. -/
theorem HeldInv.returns {t : HeldRun} (h : HeldInv t bs) {op : HeapOp} (hop : Allowed t.run op)
    (hwithin : ZeroesWithin t.run op) :
    ∃ t' bs', heldCall t op = some t' ∧ HeldInv t' bs' ∧ heapCall t.run op = some t'.run := by
  obtain ⟨run, hrun, -⟩ := heapCall_inv ⟨bs, h.represents, h.lent⟩ hop
  have hcall : heldCall t op
      = some ⟨run, Function.update t.held (pointerOf t.run.heap op) fun _ => leftBy op⟩ := by
    rw [heldCall, hrun]
    rfl
  obtain ⟨bs', h'⟩ := h.call hop hwithin hcall
  exact ⟨_, bs', hcall, h', hrun⟩

/-- The heap has its pages, and one more where it has asked for one. -/
theorem MemoryInv.grown (h : MemoryInv reserved s bs) {t : HeldRun} {bs' : List Chunk}
    (ht : HeldInv t bs')
    (hpages : t.run.heap.pages = if (pageFor s.pmm s.heap.run.heap size).2 = 0 then
      s.heap.run.heap.pages
      else (pageFor s.pmm s.heap.run.heap size).2 :: s.heap.run.heap.pages) :
    MemoryInv reserved { s with pmm := (pageFor s.pmm s.heap.run.heap size).1, heap := t } bs' := by
  refine ⟨ht, ?_⟩
  have hout := (h.pages.pageFor s.heap.run.heap size).1
  show PagesOut reserved _ (t.run.heap.pages ++ s.taken)
  rw [hpages]
  split
  · rwa [if_pos ‹_›] at hout
  · rwa [if_neg ‹_›] at hout

/-- What stands outside the blocks is not the heap's. -/
theorem HeldInv.poke {t : HeldRun} (h : HeldInv t bs) {x : ℕ}
    (hx : x ∉ pageRoom t.run.heap.pages) (b : Byte) : HeldInv (t.poke x b) bs := by
  have hout : ∀ d ∈ bs, ∀ y, d.addr.toNat ≤ y → y < d.stop →
      (t.poke x b).run.heap.memory y = t.run.heap.memory y := by
    intro d hd y hlow hhigh
    refine Function.update_of_ne (fun heq => hx ?_) _ _
    rw [← (tiles_iff.mp h.represents.tiles).2, ← heq]
    exact Set.mem_iUnion₂.mpr ⟨d.extent, List.mem_map_of_mem hd, hlow, hhigh⟩
  have hlinked : Links (Stands (t.poke x b).run.heap.memory) t.run.heap.heapHead bs 0 :=
    h.represents.listed.linked.imp fun d hd _ _ hs => stands_congr hs
      (heapBlockAt_congr fun y hlow hhigh => hout d hd y hlow
        (Nat.lt_of_lt_of_le hhigh d.header_le))
  refine ⟨{ h.represents with
    listed := ⟨hlinked, h.represents.listed.tail, h.represents.listed.apart⟩ }, h.lent, h.fits, ?_⟩
  intro ptr i b' hi hb'
  obtain ⟨d, hd, hpayload, hlt⟩ := h.lent.asked_block h.fits hi
  have hplace := d.toNat_payload
  have hstop : d.stop = d.addr.toNat + 24 + d.size.toNat := rfl
  rw [hpayload] at hplace
  exact (hout d (mem_inUse.mp hd).1 _ (by omega) (by omega)).trans (h.reads ptr i b' hi hb')

/-- **The step lemma**: a call that is enabled returns, and keeps the invariant. -/
theorem MemoryInv.call (h : MemoryInv reserved s bs) {op : MemoryOp} (hop : Enabled s op) :
    ∃ s' bs', memoryCall s op = some s' ∧ MemoryInv reserved s' bs' := by
  cases op with
  | kmalloc size =>
    have hasks := (h.pages.pageFor s.heap.run.heap size).2
    have hfresh : Allowed s.heap.run (.kmalloc size (pageFor s.pmm s.heap.run.heap size).2) :=
      h.fresh size
    obtain ⟨t, bs', hcall, ht, hrun⟩ := h.held.returns hfresh trivial
    obtain ⟨⟨u, p⟩, hmalloc, hu⟩ := Option.map_eq_some_iff.mp hrun
    refine ⟨_, bs', congrArg (Option.map _) hcall, h.grown ht ?_⟩
    rw [← hu]
    exact kmalloc_pages h.held.represents (h.fresh size) hasks hmalloc
  | kzalloc size =>
    have hasks := (h.pages.pageFor s.heap.run.heap size).2
    have hfresh : Allowed s.heap.run (.kzalloc size (pageFor s.pmm s.heap.run.heap size).2) :=
      h.fresh size
    obtain ⟨t, bs', hcall, ht, hrun⟩ := h.held.returns hfresh hop
    obtain ⟨⟨u, p⟩, hzalloc, hu⟩ := Option.map_eq_some_iff.mp hrun
    obtain ⟨⟨v, q⟩, hmalloc, hv⟩ := Option.map_eq_some_iff.mp hzalloc
    refine ⟨_, bs', congrArg (Option.map _) hcall, h.grown ht ?_⟩
    have hsame : u.pages = v.pages := by
      by_cases hq : q = 0
      · exact congrArg (fun r => r.1.pages) (hv.symm.trans (if_pos hq))
      · exact congrArg (fun r => r.1.pages) (hv.symm.trans (if_neg hq))
    rw [← hu]
    exact hsame.trans (kmalloc_pages h.held.represents (h.fresh size) hasks hmalloc)
  | kfree ptr =>
    have hlent : Allowed s.heap.run (.kfree ptr) := hop
    obtain ⟨t, bs', hcall, ht, hrun⟩ := h.held.returns hlent trivial
    obtain ⟨u, hfree, hu⟩ := Option.map_eq_some_iff.mp hrun
    refine ⟨_, bs', congrArg (Option.map _) hcall, ht, ?_⟩
    show PagesOut reserved s.pmm (t.run.heap.pages ++ s.taken)
    rw [← hu]
    show PagesOut reserved s.pmm (u.pages ++ s.taken)
    rw [(kfree_pages hfree).1]
    exact h.pages
  | store ptr i b =>
    obtain ⟨t, ht⟩ : ∃ t, heldStep s.heap (.store ptr i b) = some t := ⟨_, if_pos hop⟩
    have hpages : t.run.heap.pages = s.heap.run.heap.pages :=
      congrArg (fun t => t.run.heap.pages) (Option.some.inj (ht.symm.trans (if_pos hop)))
    refine ⟨_, bs, congrArg (Option.map _) ht, h.held.store hop ht, ?_⟩
    show PagesOut reserved s.pmm (t.run.heap.pages ++ s.taken)
    rw [hpages]
    exact h.pages
  | allocPage =>
    have hout := h.pages.alloc
    rcases hq : pmmAllocPage s.pmm with ⟨q, page⟩
    rw [hq] at hout
    have hcall : memoryCall s .allocPage =
        some { s with pmm := q, taken := if page = 0 then s.taken else page :: s.taken } := by
      simp only [memoryCall, hq]
    refine ⟨_, bs, hcall, h.held, ?_⟩
    show PagesOut reserved q (s.heap.run.heap.pages ++
      if page = 0 then s.taken else page :: s.taken)
    split
    · rwa [if_pos ‹_›] at hout
    · rw [if_neg ‹_›] at hout
      exact hout.perm List.perm_middle.symm
  | storePage page i b =>
    refine ⟨_, bs, rfl, h.held.poke (fun hin => ?_) b, h.pages⟩
    have hok : ∀ p ∈ s.heap.run.heap.pages ++ s.taken, PageOk p := fun p hp => h.pages.pageOk hp
    have hapart := disjoint_pageRoom (fun p hp => hok p (List.mem_append_left _ hp))
      (hok page (List.mem_append_right _ hop.1)) fun hheap =>
        (List.disjoint_of_nodup_append h.pages.distinct) hheap hop.1
    exact Set.disjoint_left.mp hapart hin ⟨Nat.le_add_right _ _, Nat.add_lt_add_left hop.2 _⟩
  | freePage page =>
    have hmem : page ∈ s.heap.run.heap.pages ++ s.taken := List.mem_append_right _ hop
    refine ⟨_, bs, rfl, h.held, ?_⟩
    have hout := h.pages.free hmem
    rwa [List.erase_append_right _ fun hheap =>
      (List.disjoint_of_nodup_append h.pages.distinct) hheap hop] at hout

/-- An allocation is in the pages of the heap. -/
theorem HeldInv.room {t : HeldRun} (h : HeldInv t bs) {a : Word × Word} (ha : a ∈ t.run.live) :
    askedRoom a ⊆ pageRoom t.run.heap.pages := by
  rintro x ⟨i, hi, hwraps, rfl⟩
  obtain ⟨d, hd, hpayload, hlt⟩ := h.lent.asked_block h.fits ⟨a, ha, rfl, hi, hwraps⟩
  have hplace := d.toNat_payload
  have hstop : d.stop = d.addr.toNat + 24 + d.size.toNat := rfl
  rw [hpayload] at hplace
  rw [← (tiles_iff.mp h.represents.tiles).2]
  exact Set.mem_iUnion₂.mpr ⟨d.extent, List.mem_map_of_mem (mem_inUse.mp hd).1,
    by omega, by omega⟩

/-- Two live allocations share no byte. -/
theorem HeldInv.rooms {t : HeldRun} (h : HeldInv t bs) :
    (t.run.live.map askedRoom).Pairwise Disjoint := by
  refine List.pairwise_map.mpr ((List.pairwise_map.mp h.lent.distinct).imp_of_mem ?_)
  intro a b ha hb hne
  refine Set.disjoint_left.mpr ?_
  rintro x ⟨i, hi, hwraps, rfl⟩ ⟨j, hj, hwraps', heq⟩
  obtain ⟨c, hc, hpayload, hlt⟩ := h.lent.asked_block h.fits ⟨a, ha, rfl, hi, hwraps⟩
  obtain ⟨d, hd, hpayload', hlt'⟩ := h.lent.asked_block h.fits ⟨b, hb, rfl, hj, hwraps'⟩
  refine asked_ne h.represents.listed.apart (mem_inUse.mp hc).1 (mem_inUse.mp hd).1 ?_ hlt hlt' ?_
  · rwa [hpayload, hpayload']
  · rwa [hpayload, hpayload']

/-- What is owned is in the pages that are out. -/
theorem MemoryInv.owned_subset (h : MemoryInv reserved s bs) {room : Set ℕ}
    (hroom : room ∈ owned s) : room ⊆ pageRoom (s.heap.run.heap.pages ++ s.taken) := by
  have hmono : ∀ pages pages' : List Word, pages ⊆ pages' → pageRoom pages ⊆ pageRoom pages' :=
    fun pages pages' hsub => Set.biUnion_subset_biUnion_left hsub
  rcases List.mem_append.mp hroom with hroom | hroom
  · obtain ⟨a, ha, rfl⟩ := List.mem_map.mp hroom
    exact (h.held.room ha).trans (hmono _ _ (List.subset_append_left _ _))
  · obtain ⟨page, hpage, rfl⟩ := List.mem_map.mp hroom
    exact Set.subset_biUnion_of_mem (u := fun page : Word => wholePage page)
      (show page ∈ {page | page ∈ s.heap.run.heap.pages ++ s.taken} from
        List.mem_append_right _ hpage)

theorem MemoryInv.apart (h : MemoryInv reserved s bs) : (owned s).Pairwise Disjoint := by
  have hok : ∀ page ∈ s.heap.run.heap.pages ++ s.taken, PageOk page := fun page hpage =>
    h.pages.pageOk hpage
  refine List.pairwise_append.mpr ⟨h.held.rooms, ?_, ?_⟩
  · have hdistinct := h.pages.distinct.of_append_right
    refine List.pairwise_map.mpr (hdistinct.imp_of_mem fun {a b} ha hb hne => ?_)
    have haligned := (hok a (List.mem_append_right _ ha)).aligned
    have haligned' := (hok b (List.mem_append_right _ hb)).aligned
    have hne' : a.toNat ≠ b.toNat := fun heq => hne (BitVec.eq_of_toNat_eq heq)
    rw [wholePage, wholePage, Set.Ico_disjoint_Ico]
    omega
  · intro room hroom room' hroom'
    obtain ⟨a, ha, rfl⟩ := List.mem_map.mp hroom
    obtain ⟨page, hpage, rfl⟩ := List.mem_map.mp hroom'
    refine (disjoint_pageRoom (fun p hp => hok p (List.mem_append_left _ hp))
      (hok page (List.mem_append_right _ hpage)) fun hheap => ?_).mono_left (h.held.room ha)
    exact (List.disjoint_of_nodup_append h.pages.distinct) hheap hpage

/-- No page that is out meets what was reserved. -/
theorem MemoryInv.ok (h : MemoryInv reserved s bs) {kernelEnd : Word}
    (hreserved : ∀ r ∈ reservedRanges kernelEnd, ∀ i < pmmTotalPages, PageMeets i r.1 r.2 →
      i ∈ reserved) : MemoryOk kernelEnd s where
  apart := h.apart
  unreserved := by
    intro room hroom r hr
    refine Set.disjoint_left.mpr fun x hx hxr => ?_
    obtain ⟨page, hpage, hxpage⟩ := Set.mem_iUnion₂.mp (h.owned_subset hroom hx)
    obtain ⟨i, hi, hnot, rfl⟩ := h.pages.returned page hpage
    exact hnot (hreserved r hr i hi
      ⟨Nat.lt_of_le_of_lt hxpage.1 hxr.2, Nat.lt_of_le_of_lt hxr.1 hxpage.2⟩)
  reads := h.held.reads
  returns := by
    intro op hop
    obtain ⟨s', bs', hcall, -⟩ := h.call hop
    rw [memoryStep, if_pos hop, hcall]
    rfl

end Runs

/-- **No byte of the memory has two owners**, from `pmm_init` and `heap_init` on: in every run of
both allocators, live allocations and pages that others have share no byte with each other, with the
kernel or with the frame buffer; what is written into an allocation stands there; and every call
returns. -/
theorem memory_owned (p : Pmm) (h : Heap) (kernelEnd : Word) :
    ∃ p', pmmInit p kernelEnd = some p' ∧
      ∀ ops, Always memoryStep (MemoryOk kernelEnd) ⟨p', heldInit h, []⟩ ops := by
  obtain ⟨p', hinit, hcounted, hreserved⟩ := pmmInit_spec p kernelEnd
  refine ⟨p', hinit, fun ops => ?_⟩
  refine Always.of_inv (I := fun s => ∃ bs, MemoryInv p'.used s bs) ?_
    (fun s ⟨_, hs⟩ => hs.ok hreserved) ⟨[], heldInv_init h, ?_⟩ ops
  · rintro s op s' ⟨bs, hs⟩ hstep
    obtain ⟨hop, hcall⟩ := Option.ite_none_right_eq_some.mp hstep
    obtain ⟨t, bs', ht, hinv⟩ := hs.call hop
    obtain rfl := Option.some.inj (ht.symm.trans hcall)
    exact ⟨bs', hinv⟩
  · exact ⟨hcounted, Finset.Subset.refl _, List.forall_mem_nil _, List.forall_mem_nil _,
      List.nodup_nil⟩

end SaturnOS
