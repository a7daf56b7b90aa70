import SaturnOS.Machinery.Runs
import SaturnOS.Memory.HeapRoom

/-!
# Memory/HeapRuns — allocations over the life of the heap

    heap_init ──▸ kmalloc ──▸ kzalloc ──▸ kfree ──▸ ⋯

`live` records what has been handed out and not given back, with the size that was asked for.  Along
every run the live allocations are the payloads of the blocks in use (`heap_representation`), as
long as `kzalloc` zeroes no more than it has been given: a size that wraps in `align_up` gets a
block of no bytes, and `kzalloc` zeroes the size it was asked for.
-/

open Machinery

namespace SaturnOS

/-! ## Runs -/

/-- The heap and the live allocations, each with the size asked for. -/
structure HeapRun where
  heap : Heap
  live : List (Word × Word)

/-- A call; `page` is what `pmm_alloc_page` returns when the call asks for a page. -/
inductive HeapOp
  | kmalloc (size page : Word)
  | kzalloc (size page : Word)
  | kfree (ptr : Word)

/-- A page the heap does not have, or none. -/
def FreshPage (s : Heap) (page : Word) : Prop :=
  page ≠ 0 → page.toNat % 4096 = 0 ∧ page.toNat + 4096 < 2 ^ 64 ∧ page ∉ s.pages

/-- Pages are fresh, and only what is live is given back. -/
def Allowed (s : HeapRun) : HeapOp → Prop
  | .kmalloc _ page => FreshPage s.heap page
  | .kzalloc _ page => FreshPage s.heap page
  | .kfree ptr => ptr = 0 ∨ ptr ∈ s.live.map Prod.fst

instance (s : Heap) (page : Word) : Decidable (FreshPage s page) :=
  inferInstanceAs (Decidable (_ → _))

instance (s : HeapRun) : DecidablePred (Allowed s)
  | .kmalloc _ _ => inferInstanceAs (Decidable (FreshPage _ _))
  | .kzalloc _ _ => inferInstanceAs (Decidable (FreshPage _ _))
  | .kfree _ => inferInstanceAs (Decidable (_ ∨ _))

/-- What has been handed out, after a call that returned `ptr`. -/
def lend (live : List (Word × Word)) (ptr size : Word) : List (Word × Word) :=
  if ptr = 0 then live else (ptr, size) :: live

/-- `none` where the call does not return. -/
def heapCall (s : HeapRun) : HeapOp → Option HeapRun
  | .kmalloc size page => (kmalloc s.heap size page).map fun r => ⟨r.1, lend s.live r.2 size⟩
  | .kzalloc size page => (kzalloc s.heap size page).map fun r => ⟨r.1, lend s.live r.2 size⟩
  | .kfree ptr => (kfree s.heap ptr).map fun h => ⟨h, s.live.filter fun a => a.1 ≠ ptr⟩

def heapStep (s : HeapRun) (op : HeapOp) : Option HeapRun :=
  if Allowed s op then heapCall s op else none

def heapRunInit (s : Heap) : HeapRun := ⟨heapInit s, []⟩

/-! ## What the heap promises -/

/-- **The heap's representation.** -/
structure HeapOk (s : HeapRun) (bs : List Chunk) : Prop where
  linked : Links (Stands s.heap.memory) s.heap.heapHead bs 0
  acyclic : (bs.map Chunk.addr).Nodup
  tail : s.heap.heapTail = lastAddr bs
  disjoint : bs.Pairwise fun a b => Disjoint a.extent b.extent
  union : ⋃ b ∈ bs, b.extent = ⋃ page ∈ s.heap.pages, Set.Ico page.toNat (page.toNat + 4096)
  live : ∀ p, p ∈ s.live.map Prod.fst ↔ ∃ b ∈ bs, b.free = false ∧ b.payload = p
  distinct : (s.live.map Prod.fst).Nodup
  sizes : ∀ a ∈ s.live, a.2.toNat ≤ 4064 →
    ∃ b ∈ bs, b.free = false ∧ b.payload = a.1 ∧ a.2.toNat ≤ b.size.toNat
  used : s.heap.heapUsed.toNat = ((bs.filter fun b => !b.free).map fun b => b.size.toNat).sum

/-- …which some list of blocks has, and every call returns. -/
def HeapSound (s : HeapRun) : Prop :=
  (∃ bs, HeapOk s bs) ∧ ∀ op, Allowed s op → (heapCall s op).isSome = true

/-- `kzalloc` zeroes no more than it has been given: its size does not wrap in `align_up`, or it
gets nothing at all, no block being free and no page left. -/
def ZeroesWithin (s : HeapRun) : HeapOp → Prop
  | .kzalloc size page => size.toNat + 15 < 2 ^ 64 ∨ findFreeBlock s.heap 0 = some 0 ∧ page = 0
  | _ => True

instance (s : HeapRun) : DecidablePred (ZeroesWithin s)
  | .kzalloc _ _ => inferInstanceAs (Decidable (_ ∨ _))
  | .kmalloc _ _ => isTrue trivial
  | .kfree _ => isTrue trivial

/-- A call that returns: a fill of `2⁶⁴ - 15` bytes or more comes to an address that nothing is
mapped at. -/
def heapReturn (s : HeapRun) (op : HeapOp) : Option HeapRun :=
  if ZeroesWithin s op then heapStep s op else none

/-! ## What is lent -/

/-- The live allocations are the payloads in use. -/
structure Lent (live : List (Word × Word)) (bs : List Chunk) : Prop where
  payloads : ∀ p, p ∈ live.map Prod.fst ↔ p ∈ (inUse bs).map Chunk.payload
  distinct : (live.map Prod.fst).Nodup
  sizes : ∀ a ∈ live, a.2.toNat ≤ 4064 →
    ∃ b ∈ inUse bs, b.payload = a.1 ∧ a.2.toNat ≤ b.size.toNat

section Lending

variable {live : List (Word × Word)} {l r bs : List Chunk} {b c : Chunk} {size asked : Word}

theorem payload_inj (h : b.payload = c.payload) : b.addr = c.addr := by
  rw [← b.payload_sub, h, c.payload_sub]

theorem Lent.congr (h : Lent live bs) {bs' : List Chunk} (hsame : inUse bs' = inUse bs) :
    Lent live bs' :=
  ⟨hsame ▸ h.payloads, h.distinct, hsame ▸ h.sizes⟩

/-- No block in use stands where a block of the list stands that is none of them. -/
theorem payload_notMem (happart : (l ++ b :: r).Pairwise Chunk.Apart) :
    b.payload ∉ (inUse l ++ inUse r).map Chunk.payload := by
  intro hmem
  obtain ⟨d, hd, hpayload⟩ := List.mem_map.mp hmem
  have hne : d.Apart b := by
    obtain ⟨-, hbr, hlb⟩ := List.pairwise_append.mp happart
    rcases List.mem_append.mp hd with hd | hd
    · exact hlb d (mem_inUse.mp hd).1 b List.mem_cons_self
    · exact ((List.pairwise_cons.mp hbr).1 d (mem_inUse.mp hd).1).symm
  exact hne.addr_ne (payload_inj hpayload)

/-- **A free block is lent**… -/
theorem Lent.take (h : Lent live (l ++ b :: r)) (happart : (l ++ b :: r).Pairwise Chunk.Apart)
    (hfits : b.fits size = true) (hsize : asked.toNat ≤ 4064 → asked.toNat ≤ size.toNat) :
    Lent ((b.payload, asked) :: live) (l ++ b.taken size ++ r) := by
  rw [Chunk.fits, Bool.and_eq_true, decide_eq_true_eq, BitVec.le_def] at hfits
  obtain ⟨hfree, hle⟩ := hfits
  obtain ⟨c, htaken, haddr, -, hcsize⟩ := inUse_taken b size
  have hbefore : inUse (l ++ b :: r) = inUse l ++ inUse r := by
    rw [inUse_append, inUse_cons_free hfree]
  have hafter : inUse (l ++ b.taken size ++ r) = inUse l ++ c :: inUse r := by
    rw [inUse_append, inUse_append, htaken, List.append_assoc, List.singleton_append]
  have hpayload : c.payload = b.payload := by rw [Chunk.payload, haddr, Chunk.payload]
  have hcle : size.toNat ≤ c.size.toNat := by
    rw [hcsize]
    split
    · exact Nat.le_refl _
    · exact hle
  refine ⟨fun p => ?_, ?_, ?_⟩
  · have hp := h.payloads p
    rw [hbefore, List.map_append, List.mem_append] at hp
    rw [List.map_cons, List.mem_cons, hp, hafter, List.map_append, List.mem_append, List.map_cons,
      List.mem_cons, hpayload]
    exact or_left_comm
  · rw [List.map_cons, List.nodup_cons, h.payloads, hbefore]
    exact ⟨payload_notMem happart, h.distinct⟩
  · intro a ha hasked
    rw [hafter]
    rcases List.mem_cons.mp ha with rfl | ha
    · exact ⟨c, by simp, hpayload, Nat.le_trans (hsize hasked) hcle⟩
    · obtain ⟨d, hd, hd'⟩ := h.sizes a ha hasked
      rw [hbefore, List.mem_append] at hd
      exact ⟨d, by simp only [List.mem_append, List.mem_cons]; tauto, hd'⟩

/-- …and a used block given back. -/
theorem Lent.release (h : Lent live (l ++ b :: r)) (happart : (l ++ b :: r).Pairwise Chunk.Apart)
    (hused : b.free = false) :
    Lent (live.filter fun a => a.1 ≠ b.payload) (l ++ [b.mark true] ++ r) := by
  have hbefore : inUse (l ++ b :: r) = inUse l ++ b :: inUse r := by
    rw [inUse_append, inUse_cons_used hused]
  have hafter : inUse (l ++ [b.mark true] ++ r) = inUse l ++ inUse r := by
    rw [inUse_append, inUse_append, inUse_cons_free rfl]
    exact congrArg (· ++ inUse r) (List.append_nil _)
  have hnot := payload_notMem happart
  have hmem : ∀ p, p ∈ (live.filter fun a => a.1 ≠ b.payload).map Prod.fst ↔
      p ∈ live.map Prod.fst ∧ p ≠ b.payload := by
    intro p
    simp only [List.mem_map, List.mem_filter, decide_eq_true_eq]
    constructor
    · rintro ⟨a, ⟨ha, hne⟩, rfl⟩
      exact ⟨⟨a, ha, rfl⟩, hne⟩
    · rintro ⟨⟨a, ha, rfl⟩, hne⟩
      exact ⟨a, ⟨ha, hne⟩, rfl⟩
  refine ⟨fun p => ?_, ?_, ?_⟩
  · rw [hmem, h.payloads, hbefore, hafter, List.map_append, List.map_cons, List.mem_append,
      List.mem_cons]
    rw [List.map_append, List.mem_append] at hnot ⊢
    constructor
    · rintro ⟨hl | rfl | hr, hne⟩
      · exact Or.inl hl
      · exact absurd rfl hne
      · exact Or.inr hr
    · intro hp
      refine ⟨hp.imp_right Or.inr, fun heq => hnot (heq ▸ hp)⟩
  · exact h.distinct.sublist (List.Sublist.map _ List.filter_sublist)
  · intro a ha hasked
    obtain ⟨ha, hne⟩ := List.mem_filter.mp ha
    obtain ⟨d, hd, hpayload, hle⟩ := h.sizes a ha hasked
    refine ⟨d, ?_, hpayload, hle⟩
    rw [hbefore, List.mem_append, List.mem_cons] at hd
    rw [hafter, List.mem_append]
    rcases hd with hd | rfl | hd
    · exact Or.inl hd
    · exact absurd hpayload.symm (by simpa using hne)
    · exact Or.inr hd

end Lending

/-! ## The calls -/

section Calls

variable {s s' : Heap} {live : List (Word × Word)} {l r bs : List Chunk} {b : Chunk}
  {size asked page p : Word}

/-- `p` was asked for with `asked`: it is 0, or the payload of a block of at least that size. -/
def Serves (bs : List Chunk) (p asked : Word) : Prop :=
  p ≠ 0 → ∃ b ∈ bs, b.payload = p ∧ (asked.toNat + 15 < 2 ^ 64 → asked.toNat ≤ b.size.toNat)

/-- What a call that allocates leaves. -/
structure Allocates (live : List (Word × Word)) (asked : Word) (s' : Heap) (p : Word)
    (bs' : List Chunk) :
    Prop where
  represents : Represents s' bs'
  lent : Lent (lend live p asked) bs'
  serves : Serves bs' p asked

theorem allocates_nothing (h : Represents s bs) (hl : Lent live bs) : Allocates live asked s 0 bs :=
  ⟨h, by rwa [lend, if_pos rfl], fun hn => absurd rfl hn⟩

/-- The sizes that are not refused. -/
theorem heapAlignUp_bounds (h : ¬ heapBlockCapacity < heapAlignUp asked) :
    (heapAlignUp asked).toNat + 56 < 2 ^ 64 ∧
      (asked.toNat + 15 < 2 ^ 64 → asked.toNat ≤ (heapAlignUp asked).toNat) := by
  rw [BitVec.lt_def, show heapBlockCapacity.toNat = 4072 from by decide] at h
  refine ⟨by omega, fun hasked => ?_⟩
  rw [toNat_heapAlignUp hasked]
  omega

/-- **A block that fits is taken.** -/
theorem allocates_take (h : Represents s (l ++ b :: r)) (hl : Lent live (l ++ b :: r))
    (hfits : b.fits (heapAlignUp asked) = true) (hcap : ¬ heapBlockCapacity < heapAlignUp asked) :
    Allocates live asked (takeBlock s b.addr (heapAlignUp asked)) b.payload
      (l ++ b.taken (heapAlignUp asked) ++ r) := by
  obtain ⟨hsmall, hround⟩ := heapAlignUp_bounds hcap
  have hboth := hfits
  rw [Chunk.fits, Bool.and_eq_true, decide_eq_true_eq, BitVec.le_def] at hboth
  obtain ⟨hfree, hle⟩ := hboth
  obtain ⟨c, htaken, haddr, -, hcsize⟩ := inUse_taken b (heapAlignUp asked)
  refine ⟨h.take hfree hsmall, ?_, fun _ => ?_⟩
  · rw [lend, if_neg b.payload_ne]
    exact hl.take h.listed.apart hfits fun h4064 => hround (by omega)
  · have hc : c ∈ b.taken (heapAlignUp asked) :=
      (mem_inUse.mp (htaken ▸ List.mem_singleton_self c)).1
    refine ⟨c, by simp [hc], by rw [Chunk.payload, haddr, Chunk.payload], fun hasked => ?_⟩
    refine Nat.le_trans (hround hasked) ?_
    rw [hcsize]
    split
    · exact Nat.le_refl _
    · exact hle

/-- The block found, or a new page. -/
theorem kmalloc_eq (hasked : asked ≠ 0) (hcap : ¬ heapBlockCapacity < heapAlignUp asked)
    {found : Word}
    (hfound : findFreeBlock s (heapAlignUp asked) = some found) :
    kmalloc s asked page = some
      (let (s, block) := if found = 0 then growHeap s page else (s, found)
       if block = 0 then (s, 0)
       else (takeBlock s block (heapAlignUp asked), block + heapBlockSizeof)) := by
  rw [kmalloc, if_neg hasked]
  exact (if_neg hcap).trans (by rw [hfound]; rfl)

/-- Why a call gets nothing. -/
def Refused (s : Heap) (asked page : Word) : Prop :=
  asked = 0 ∨ heapBlockCapacity < heapAlignUp asked ∨
    findFreeBlock s (heapAlignUp asked) = some 0 ∧ page = 0

/-- What `kmalloc` makes of the list: nothing else, or the first block that fits is taken, or a page
is added and taken. -/
inductive Mallocs (s : Heap) (bs : List Chunk) (asked page : Word) :
    Heap → Word → List Chunk → Prop
  | refused (h : Refused s asked page) : Mallocs s bs asked page s 0 bs
  | found {l r : List Chunk} {b : Chunk} (hnot : ¬ Refused s asked page) (hbs : bs = l ++ b :: r)
      (hfits : b.fits (heapAlignUp asked) = true)
      (hfind : findFreeBlock s (heapAlignUp asked) = some b.addr) :
      Mallocs s bs asked page (takeBlock s b.addr (heapAlignUp asked)) b.payload
        (l ++ b.taken (heapAlignUp asked) ++ r)
  | grown (hnot : ¬ Refused s asked page) (hpage : PageOk page) (hnew : page ∉ s.pages)
      (hfind : findFreeBlock s (heapAlignUp asked) = some 0) :
      Mallocs s bs asked page (takeBlock (growHeap s page).1 page (heapAlignUp asked))
        (pageChunk page hpage.ne hpage.below).payload
        (bs ++ (pageChunk page hpage.ne hpage.below).taken (heapAlignUp asked))

/-- **`kmalloc`, case by case.** -/
theorem kmalloc_cases (h : Represents s bs) (hpage : FreshPage s page) :
    ∃ s' p bs', kmalloc s asked page = some (s', p) ∧ Mallocs s bs asked page s' p bs' := by
  have hfound : findFreeBlock s (heapAlignUp asked) = _ := find_listed h.listed.linked h.length_lt
  by_cases hrefused : Refused s asked page
  · refine ⟨s, 0, bs, ?_, .refused hrefused⟩
    by_cases hasked : asked = 0
    · exact if_pos hasked
    by_cases hcap : heapBlockCapacity < heapAlignUp asked
    · exact (if_neg hasked).trans (if_pos hcap)
    obtain ⟨hnone, rfl⟩ := (hrefused.resolve_left hasked).resolve_left hcap
    rw [kmalloc_eq hasked hcap hnone]
    simp [growHeap]
  obtain ⟨hasked, hcap, hroom⟩ : asked ≠ 0 ∧ ¬ heapBlockCapacity < heapAlignUp asked ∧
      ¬ (findFreeBlock s (heapAlignUp asked) = some 0 ∧ page = 0) := by
    simpa only [Refused, not_or] using hrefused
  rw [kmalloc_eq hasked hcap hfound]
  cases hfind : bs.find? (Chunk.fits (heapAlignUp asked)) with
  | some b =>
    rw [hfind] at hfound
    obtain ⟨hfits, l, r, hbs, -⟩ := List.find?_eq_some_iff_append.mp hfind
    refine ⟨_, _, _, ?_, .found hrefused hbs hfits hfound⟩
    simp only [Option.map_some, Option.getD_some, b.addr_ne, if_false]
    rfl
  | none =>
    rw [hfind] at hfound
    have h0 : page ≠ 0 := fun h0 => hroom ⟨hfound, h0⟩
    obtain ⟨haligned, hbelow, hnew⟩ := hpage h0
    have hblock : (growHeap s page).2 = page := by rw [growHeap, if_neg h0]
    refine ⟨_, _, _, ?_, .grown hrefused ⟨h0, haligned, hbelow⟩ hnew hfound⟩
    simp only [Option.map_none, Option.getD_none, if_true, hblock, h0, if_false]
    rfl

theorem capacity_of_not_refused (h : ¬ Refused s asked page) :
    ¬ heapBlockCapacity < heapAlignUp asked := fun hcap => h (.inr (.inl hcap))

/-- **`kmalloc`.** -/
theorem Mallocs.allocates (h : Represents s bs) (hl : Lent live bs) {bs' : List Chunk}
    (hm : Mallocs s bs asked page s' p bs') : Allocates live asked s' p bs' := by
  cases hm with
  | refused => exact allocates_nothing h hl
  | found hnot hbs hfits _ =>
    subst hbs
    exact allocates_take h hl hfits (capacity_of_not_refused hnot)
  | grown hnot hpage hnew _ =>
    have hcap := capacity_of_not_refused hnot
    have hlent : Lent live (bs ++ [pageChunk page hpage.ne hpage.below]) := hl.congr (by
      rw [inUse_append, inUse_cons_free rfl]
      exact List.append_nil _)
    have htaken := allocates_take (h.grow hpage hnew) hlent
      (decide_eq_true (BitVec.not_lt.mp hcap)) hcap
    rwa [List.append_nil] at htaken

theorem kmalloc_allocates (h : Represents s bs) (hl : Lent live bs) (hpage : FreshPage s page) :
    ∃ s' p bs', kmalloc s asked page = some (s', p) ∧ Allocates live asked s' p bs' := by
  obtain ⟨s', p, bs', hcall, hm⟩ := @kmalloc_cases s bs asked page h hpage
  exact ⟨s', p, bs', hcall, hm.allocates h hl⟩

/-- Nothing free and no page: nothing is allocated. -/
theorem kmalloc_none (hfind : findFreeBlock s 0 = some 0) (hwraps : ¬ asked.toNat + 15 < 2 ^ 64) :
    kmalloc s asked 0 = some (s, 0) := by
  have hzero : heapAlignUp asked = 0 := heapAlignUp_wraps (by omega)
  have hasked : asked ≠ 0 := by
    rintro rfl
    exact hwraps (by decide)
  have hfound : findFreeBlock s (heapAlignUp asked) = some 0 := by rw [hzero, hfind]
  rw [kmalloc_eq hasked (by rw [hzero]; decide) hfound]
  simp [growHeap]

/-- **`kzalloc`** is `kmalloc` and a payload written into. -/
theorem kzalloc_cases (h : Represents s bs) (hl : Lent live bs) (hpage : FreshPage s page)
    (hwithin : asked.toNat + 15 < 2 ^ 64 ∨ findFreeBlock s 0 = some 0 ∧ page = 0) :
    ∃ s' p bs' m, kzalloc s asked page = some ({ s' with memory := m }, p)
      ∧ Mallocs s bs asked page s' p bs' ∧ Represents { s' with memory := m } bs' := by
  obtain ⟨s', p, bs', hcall, hm⟩ := @kmalloc_cases s bs asked page h hpage
  have hall := hm.allocates h hl
  refine ⟨s', p, bs', if p = 0 then s'.memory else zeroBytes s'.memory p asked.toNat, ?_, hm, ?_⟩
  · rw [kzalloc, hcall]
    by_cases hp : p = 0
    · simp [hp]
    · exact congrArg some ((if_neg hp).trans (by rw [if_neg hp]))
  by_cases hp : p = 0
  · rw [if_pos hp]
    exact hall.represents
  rw [if_neg hp]
  have hasked : asked.toNat + 15 < 2 ^ 64 := by
    by_contra hwraps
    obtain ⟨hfind, rfl⟩ := hwithin.resolve_left hwraps
    have hnone := (kmalloc_none hfind hwraps).symm.trans hcall
    exact hp (congrArg Prod.snd (Option.some.inj hnone)).symm
  obtain ⟨b, hb, hpayload, hsize⟩ := hall.serves hp
  refine hall.represents.write hb ?_
  have hplace := b.toNat_payload
  have hstop : b.stop = b.addr.toNat + 24 + b.size.toNat := rfl
  have hlt := b.stop_lt
  have hle := hsize hasked
  rw [hpayload] at hplace ⊢
  exact (eqOutside_zeroBytes (by omega)).mono (Nat.le_refl _) (by omega)

theorem kzalloc_allocates (h : Represents s bs) (hl : Lent live bs) (hpage : FreshPage s page)
    (hwithin : asked.toNat + 15 < 2 ^ 64 ∨ findFreeBlock s 0 = some 0 ∧ page = 0) :
    ∃ s' p bs', kzalloc s asked page = some (s', p) ∧ Allocates live asked s' p bs' := by
  obtain ⟨s', p, bs', m, hcall, hm, hr⟩ := kzalloc_cases h hl hpage hwithin
  have hall := hm.allocates h hl
  exact ⟨_, p, bs', hcall, hr, hall.lent, hall.serves⟩

/-- What `kfree` makes of the list: nothing else, or a used block is free and free neighbours are
joined. -/
inductive Released (bs : List Chunk) (p : Word) : List Chunk → Prop
  | null (h : p = 0) : Released bs p bs
  | freed {l r : List Chunk} {b : Chunk} (hbs : bs = l ++ b :: r) (hused : b.free = false)
      (hp : p = b.payload) : Released bs p (merge (l ++ [b.mark true] ++ r))

/-- **`kfree`**, of what is live. -/
theorem kfree_cases (h : Represents s bs) (hl : Lent live bs)
    (hp : p = 0 ∨ p ∈ live.map Prod.fst) :
    ∃ s' bs', kfree s p = some s' ∧ Represents s' bs' ∧ Released bs p bs' := by
  by_cases h0 : p = 0
  · exact ⟨s, bs, if_pos h0, h, .null h0⟩
  · obtain ⟨b, hb, rfl⟩ := List.mem_map.mp ((hl.payloads p).mp (hp.resolve_left h0))
    obtain ⟨hb, hused⟩ := mem_inUse.mp hb
    obtain ⟨l, r, rfl⟩ := List.append_of_mem hb
    obtain ⟨next, hheader, -⟩ := h.listed.header
    have hfree : (heapBlockAt s.memory b.addr).free = 0 := by
      rw [hheader]
      show (if b.free then 1 else 0 : BitVec 32) = 0
      rw [hused]
      rfl
    set s₁ : Heap := { s with
      memory := putFree s.memory b.addr 1
      heapUsed := s.heapUsed - b.size } with hs₁
    have hreleased : Represents s₁ (l ++ [b.mark true] ++ r) :=
      h.release hused rfl rfl rfl rfl rfl
    obtain ⟨s', hs', hmerged⟩ := hreleased.coalesce
    refine ⟨s', _, ?_, hmerged, .freed rfl hused rfl⟩
    rw [kfree, if_neg h0, b.payload_sub]
    refine (if_neg (fun hn => hn hfree)).trans ?_
    rw [hheader]
    exact hs'

theorem Released.lent (h : Represents s bs) (hl : Lent live bs) {bs' : List Chunk}
    (hf : Released bs p bs') : Lent (live.filter fun a => a.1 ≠ p) bs' := by
  cases hf with
  | null h0 =>
    have hnone : (live.filter fun a => a.1 ≠ p) = live := by
      refine List.filter_eq_self.mpr fun a ha => decide_eq_true fun heq => ?_
      obtain ⟨b, -, hb⟩ := List.mem_map.mp ((hl.payloads a.1).mp (List.mem_map_of_mem ha))
      exact b.payload_ne (hb.trans (heq.trans h0))
    exact hnone.symm ▸ hl
  | freed hbs hused hp =>
    subst hbs hp
    exact (hl.release h.listed.apart hused).congr (inUse_merge _)

theorem kfree_represents (h : Represents s bs) (hl : Lent live bs)
    (hp : p = 0 ∨ p ∈ live.map Prod.fst) :
    ∃ s' bs', kfree s p = some s' ∧ Represents s' bs' ∧ Lent (live.filter fun a => a.1 ≠ p)
    bs' := by
  obtain ⟨s', bs', hcall, hr, hf⟩ := kfree_cases h hl hp
  exact ⟨s', bs', hcall, hr, hf.lent h hl⟩

end Calls

/-! ## What a call makes of the list -/

/-- The list of blocks before and after a call. -/
inductive Reshaped (s : HeapRun) (bs : List Chunk) : HeapOp → HeapRun → List Chunk → Prop
  | kmalloc {size page p : Word} {h : Heap} {bs' : List Chunk}
      (hm : Mallocs s.heap bs size page h p bs') :
      Reshaped s bs (.kmalloc size page) ⟨h, lend s.live p size⟩ bs'
  | kzalloc {size page p : Word} {h : Heap} {bs' : List Chunk} (m : ℕ → Byte)
      (hm : Mallocs s.heap bs size page h p bs') :
      Reshaped s bs (.kzalloc size page) ⟨{ h with memory := m }, lend s.live p size⟩ bs'
  | kfree {ptr : Word} {h : Heap} {bs' : List Chunk} (hcall : kfree s.heap ptr = some h)
      (hf : Released bs ptr bs') :
      Reshaped s bs (.kfree ptr) ⟨h, s.live.filter fun a => a.1 ≠ ptr⟩ bs'

/-- Two lists that stand in the same memory are one list. -/
theorem links_unique {m : ℕ → Byte} : ∀ {bs bs' : List Chunk} {p : Word},
    Links (Stands m) p bs 0 → Links (Stands m) p bs' 0 → bs = bs'
  | [], bs', p, h, h' => ((links_zero_iff h').mp h).symm
  | b :: bs, [], p, h, h' => (links_zero_iff h).mp h'
  | b :: bs, b' :: bs', p, ⟨next, ⟨hb, hheader⟩, hrest⟩, ⟨next', ⟨hb', hheader'⟩, hrest'⟩ => by
    have heq : b.header next = b'.header next' := hheader.symm.trans hheader'
    obtain rfl : next = next' := congrArg HeapBlock.next heq
    have hfree : b.free = b'.free := by
      have hbits : (if b.free then 1 else 0 : BitVec 32) = if b'.free then 1 else 0 :=
        congrArg HeapBlock.free heq
      cases hbf : b.free <;> cases hbf' : b'.free <;> simp_all
    rw [Chunk.ext (hb.symm.trans hb') (congrArg HeapBlock.size heq) hfree,
      links_unique hrest hrest']

/-- **The list after a call that returns.** -/
theorem heapReturn_reshaped {s s' : HeapRun} {bs : List Chunk} (h : Represents s.heap bs)
    (hl : Lent s.live bs) {op : HeapOp} (hstep : heapReturn s op = some s') :
    ∃ bs', Represents s'.heap bs' ∧ Lent s'.live bs' ∧ Reshaped s bs op s' bs' := by
  obtain ⟨hwithin, hstep⟩ := Option.ite_none_right_eq_some.mp hstep
  obtain ⟨hop, hstep⟩ := Option.ite_none_right_eq_some.mp hstep
  cases op with
  | kmalloc size page =>
    obtain ⟨⟨t, p⟩, hcall, rfl⟩ := Option.map_eq_some_iff.mp hstep
    obtain ⟨t', p', bs', hcall', hm⟩ := @kmalloc_cases s.heap bs size page h hop
    obtain ⟨rfl, rfl⟩ := Prod.mk.inj (Option.some.inj (hcall.symm.trans hcall'))
    have hall := hm.allocates h hl
    exact ⟨bs', hall.represents, hall.lent, .kmalloc hm⟩
  | kzalloc size page =>
    obtain ⟨⟨t, p⟩, hcall, rfl⟩ := Option.map_eq_some_iff.mp hstep
    obtain ⟨t', p', bs', m, hcall', hm, hr⟩ := kzalloc_cases h hl hop hwithin
    obtain ⟨rfl, rfl⟩ := Prod.mk.inj (Option.some.inj (hcall.symm.trans hcall'))
    exact ⟨bs', hr, (hm.allocates h hl).lent, .kzalloc m hm⟩
  | kfree ptr =>
    obtain ⟨t, hcall, rfl⟩ := Option.map_eq_some_iff.mp hstep
    obtain ⟨t', bs', hcall', hr, hf⟩ := kfree_cases h hl hop
    obtain rfl := Option.some.inj (hcall.symm.trans hcall')
    exact ⟨bs', hr, hf.lent h hl, .kfree hcall hf⟩

/-! ## The representation -/

/-- The invariant of the runs. -/
def HeapInv (s : HeapRun) : Prop := ∃ bs, Represents s.heap bs ∧ Lent s.live bs

theorem heapInv_init (s : Heap) : HeapInv (heapRunInit s) :=
  ⟨[], represents_init s, fun _ => Iff.rfl, List.nodup_nil, fun _ h => absurd h List.not_mem_nil⟩

/-- **The step lemma**: a call that is allowed returns, and one that zeroes within its block keeps
the invariant. -/
theorem heapCall_inv {s : HeapRun} (h : HeapInv s) {op : HeapOp} (hop : Allowed s op) :
    ∃ s', heapCall s op = some s' ∧ (ZeroesWithin s op → HeapInv s') := by
  obtain ⟨bs, hr, hl⟩ := h
  cases op with
  | kmalloc size page =>
    obtain ⟨s', p, bs', hcall, hall⟩ := @kmalloc_allocates s.heap s.live bs size page hr hl hop
    rw [heapCall, hcall]
    exact ⟨_, rfl, fun _ => ⟨bs', hall.represents, hall.lent⟩⟩
  | kzalloc size page =>
    by_cases hwithin : ZeroesWithin s (.kzalloc size page)
    · obtain ⟨s', p, bs', hcall, hall⟩ := @kzalloc_allocates s.heap s.live bs size page hr hl hop
        hwithin
      rw [heapCall, hcall]
      exact ⟨_, rfl, fun _ => ⟨bs', hall.represents, hall.lent⟩⟩
    · obtain ⟨s', p, bs', hcall, -⟩ := @kmalloc_allocates s.heap s.live bs size page hr hl hop
      rw [heapCall, kzalloc, hcall]
      exact ⟨_, rfl, fun h => absurd h hwithin⟩
  | kfree ptr =>
    obtain ⟨s', bs', hcall, hr', hl'⟩ := kfree_represents hr hl hop
    rw [heapCall, hcall]
    exact ⟨_, rfl, fun _ => ⟨bs', hr', hl'⟩⟩

theorem HeapInv.sound {s : HeapRun} (h : HeapInv s) : HeapSound s := by
  refine ⟨?_, fun op hop => ?_⟩
  · obtain ⟨bs, hr, hl⟩ := h
    obtain ⟨hdisjoint, hunion⟩ := tiles_iff.mp hr.tiles
    refine ⟨bs, hr.listed.linked, ?_, hr.listed.tail, ?_, ?_, fun p => ?_, hl.distinct, ?_, ?_⟩
    · exact (List.pairwise_map.mpr (hr.listed.apart.imp Chunk.Apart.addr_ne))
    · exact hr.listed.apart.imp Chunk.apart_iff.mp
    · rw [← pageRoom, ← hunion]
      ext x
      simp
    · rw [hl.payloads, List.mem_map]
      exact exists_congr fun b => by rw [mem_inUse, and_assoc]
    · intro a ha hasked
      obtain ⟨b, hb, hrest⟩ := hl.sizes a ha hasked
      exact ⟨b, (mem_inUse.mp hb).1, (mem_inUse.mp hb).2, hrest⟩
    · exact hr.toNat_used
  · obtain ⟨s', hs', -⟩ := heapCall_inv h hop
    rw [hs']
    rfl

/-- **The heap's representation holds along every run** whose calls to `kzalloc` zero within the
block they are given. -/
theorem heap_representation (s : Heap) (ops : List HeapOp)
    (h : Along heapStep (fun s op _ => ZeroesWithin s op) (heapRunInit s) ops) :
    Always heapStep HeapSound (heapRunInit s) ops := by
  refine Always.of_along (I := HeapInv) (fun s op s' hinv hstep hwithin => ?_)
    (fun s hinv => hinv.sound) (heapInv_init s) h
  rw [heapStep] at hstep
  have hop : Allowed s op := by
    by_contra hn
    rw [if_neg hn] at hstep
    cases hstep
  rw [if_pos hop] at hstep
  obtain ⟨t, ht, hkeep⟩ := heapCall_inv hinv hop
  obtain rfl := Option.some.inj (ht.symm.trans hstep)
  exact hkeep hwithin

/-- A heap with nothing in it, in a memory of zeros. -/
def emptyHeap : Heap := heapInit ⟨fun _ => 0, 0, 0, 0, 0, 0, 0, []⟩

/-- One call to each, and the block back. -/
theorem heap_representation_small :
    (run heapStep (heapRunInit emptyHeap)
      [.kmalloc 64 0x40300000, .kzalloc 128 0, .kfree 0x40300018]).isSome = true ∧
    Always heapStep HeapSound (heapRunInit emptyHeap)
      [.kmalloc 64 0x40300000, .kzalloc 128 0, .kfree 0x40300018] :=
  ⟨by decide +kernel, heap_representation emptyHeap _ fun _ _ =>
    ⟨trivial, fun _ _ => ⟨.inl (by decide), fun _ _ => ⟨trivial, trivial⟩⟩⟩⟩

/-- A memory of zeros, once the loop has gone all the way round. -/
theorem zeroBytes_all {m : ℕ → Byte} {ptr : Word} (hptr : m (ptr - 1).toNat = 0) {x : ℕ}
    (hx : x < 2 ^ 64) : zeroBytes m ptr (2 ^ 64 - 1) x = 0 := by
  rw [zeroBytes_apply (by omega)]
  split
  · rfl
  · rename_i h
    have hlast : x = (ptr - 1).toNat := by
      have := ptr.isLt
      rw [BitVec.toNat_sub, BitVec.toNat_ofNat] at h
      rw [BitVec.toNat_sub]
      show x = (2 ^ 64 - 1 + ptr.toNat) % 2 ^ 64
      omega
    rw [hlast, hptr]

/-- **The defect**: `kzalloc(2⁶⁴ - 1)` is given a block of no bytes and zeroes the header behind
it. -/
theorem kzalloc_wipes_heap : ¬ Always heapStep HeapSound (heapRunInit emptyHeap)
    [.kzalloc (BitVec.ofNat 64 (2 ^ 64 - 1)) 0x40300000] := by
  intro hall
  have hgot : ((kmalloc emptyHeap (BitVec.ofNat 64 (2 ^ 64 - 1)) 0x40300000).map fun r =>
      (r.1.heapHead, r.1.heapTail, r.1.memory 0x40300017, r.2))
        = some (0x40300000, 0x40300018, 0, 0x40300018) := by decide +kernel
  obtain ⟨⟨s, ptr⟩, hcall, hfields⟩ := Option.map_eq_some_iff.mp hgot
  simp only [Prod.mk.injEq] at hfields
  obtain ⟨hhead, htail, hlast, rfl⟩ := hfields
  have hstep : heapStep (heapRunInit emptyHeap) (.kzalloc (BitVec.ofNat 64 (2 ^ 64 - 1)) 0x40300000)
    =
      some ⟨{ s with memory := zeroBytes s.memory 0x40300018 (2 ^ 64 - 1) },
        [(0x40300018, BitVec.ofNat 64 (2 ^ 64 - 1))]⟩ := by
    rw [heapStep, if_pos (by decide), heapCall, kzalloc]
    show ((kmalloc emptyHeap _ _).map _).map _ = _
    rw [hcall]
    rfl
  obtain ⟨bs, hok⟩ := (hall.2 _ hstep).1.1
  -- the fill has gone round the whole memory: the header at the head reads as zeros
  have hheader : heapBlockAt (zeroBytes s.memory 0x40300018 (2 ^ 64 - 1)) 0x40300000
      = ⟨0, 0, 0⟩ := by
    refine (heapBlockAt_congr (m := fun _ => 0) fun i _ hi => ?_).trans (by decide)
    refine zeroBytes_all hlast ?_
    have hi : i < 0x40300000 + 24 := hi
    omega
  have hlinked : Links _ s.heapHead bs 0 := hok.linked
  have htail' : s.heapTail = lastAddr bs := hok.tail
  rw [hhead] at hlinked
  rw [htail] at htail'
  cases bs with
  | nil =>
    have hnull : (0x40300000 : Word) = 0 := hlinked
    exact absurd hnull (by decide)
  | cons b r =>
    obtain ⟨next, ⟨haddr, hb⟩, hr⟩ := hlinked
    obtain rfl : next = 0 := congrArg HeapBlock.next (hb.symm.trans hheader)
    obtain rfl := (links_zero_iff hr).mp rfl
    rw [lastAddr_singleton, ← haddr] at htail'
    exact absurd htail' (by decide)

end SaturnOS
