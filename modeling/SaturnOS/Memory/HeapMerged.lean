import SaturnOS.Machinery.Stretches
import SaturnOS.Memory.HeapRuns

/-!
# Memory/HeapMerged — coalescing is complete

    │ page │ page │   │ page │            pages, in the order they came
    │ b₁ │ b₂ │b₃ │   │ b₄   │            no two neighbours are free and touch
    │      b      │   │  b′  │            all free: one block for each run of pages

One pass of `coalesce_blocks` leaves no free neighbours that touch, whatever it starts from
(`merged_merge`), and the list keeps the bytes of the pages in their order (`InOrder`).  A list of
free blocks is therefore the list of the maximal runs of pages, however they came to be free.
-/

open Machinery

namespace SaturnOS

/-! ## No free neighbours that touch -/

/-- No two consecutive blocks are free and touch. -/
def Merged (bs : List Chunk) : Prop := bs.IsChain fun b c => ¬ b.Joins c

section Merged

variable {b c d : Chunk} {l r bs : List Chunk} {size : Word}

theorem not_joins_left (h : b.free = false) : ¬ b.Joins c := fun hj => by
  rw [hj.1] at h
  cases h

theorem not_joins_right (h : c.free = false) : ¬ b.Joins c := fun hj => by
  rw [hj.2.1] at h
  cases h

/-- What coalescing starts with is free where the block was, and stands where it stood. -/
theorem mergeFrom_head : ∀ (b : Chunk) (r : List Chunk),
    ∃ c r', mergeFrom b r = c :: r' ∧ c.addr = b.addr ∧ c.free = b.free
  | b, [] => ⟨b, [], rfl, rfl, rfl⟩
  | b, c :: r => by
    rw [mergeFrom]
    split
    · rename_i h
      obtain ⟨d, r', heq, haddr, hfree⟩ := mergeFrom_head (b.join c h) r
      exact ⟨d, r', heq, haddr, hfree.trans h.1.symm⟩
    · exact ⟨b, _, rfl, rfl, rfl⟩

/-- **One pass is enough.** -/
theorem merged_mergeFrom : ∀ (b : Chunk) (r : List Chunk), Merged (mergeFrom b r)
  | b, [] => List.isChain_singleton b
  | b, c :: r => by
    rw [mergeFrom]
    split
    · exact merged_mergeFrom _ r
    · rename_i h
      have htail := merged_mergeFrom c r
      obtain ⟨d, r', heq, haddr, hfree⟩ := mergeFrom_head c r
      rw [heq] at htail ⊢
      refine List.isChain_cons_cons.mpr ⟨fun hj => h ⟨hj.1, hfree ▸ hj.2.1, ?_⟩, htail⟩
      rw [hj.2.2, haddr]

theorem merged_merge : ∀ bs : List Chunk, Merged (merge bs)
  | [] => List.isChain_nil
  | b :: r => merged_mergeFrom b r

/-- A free block whose first part is used joins nothing that it did not. -/
theorem merged_taken (h : Merged (l ++ b :: r)) (hfree : b.free = true) :
    Merged (l ++ b.taken size ++ r) := by
  obtain ⟨hl, hbr, -⟩ := List.isChain_append.mp h
  obtain ⟨hhead, hr⟩ := List.isChain_cons.mp hbr
  rw [Chunk.taken]
  split
  · rename_i hfit
    rw [List.append_assoc]
    refine List.isChain_append.mpr ⟨hl, ?_, fun x _ y hy => ?_⟩
    · refine List.isChain_cons_cons.mpr ⟨not_joins_left rfl, List.isChain_cons.mpr ⟨?_, hr⟩⟩
      rintro d hd ⟨-, hdfree, hstop⟩
      exact hhead d hd ⟨hfree, hdfree, (b.stop_high _).symm.trans hstop⟩
    · obtain rfl := Option.some.inj hy
      exact not_joins_right rfl
  · rw [List.append_assoc]
    refine List.isChain_append.mpr ⟨hl, List.isChain_cons.mpr ⟨?_, hr⟩, fun x _ y hy => ?_⟩
    · exact fun d _ => not_joins_left rfl
    · obtain rfl := Option.some.inj hy
      exact not_joins_right rfl

/-- Nor does a page whose first part is. -/
theorem merged_taken_last (h : Merged bs) : Merged (bs ++ b.taken size) := by
  rw [Chunk.taken]
  split
  · refine List.isChain_append.mpr ⟨h, List.isChain_cons_cons.mpr
      ⟨not_joins_left rfl, List.isChain_singleton _⟩, fun x _ y hy => ?_⟩
    obtain rfl := Option.some.inj hy
    exact not_joins_right rfl
  · refine List.isChain_append.mpr ⟨h, List.isChain_singleton _, fun x _ y hy => ?_⟩
    obtain rfl := Option.some.inj hy
    exact not_joins_right rfl

end Merged

/-! ## The bytes in their order -/

/-- The bytes of the block, header and payload. -/
def Chunk.span (b : Chunk) : Span := ⟨b.addr.toNat, b.bytes⟩

/-- The blocks have the bytes of the pages, in the order in which the pages came. -/
def InOrder (pages : List Word) (bs : List Chunk) : Prop :=
  pointsOf (bs.map Chunk.span) = pointsOf (pages.reverse.map fun page => ⟨page.toNat, 4096⟩)

section Order

variable {b c : Chunk} {l old mid r bs : List Chunk} {pages : List Word} {size page : Word}

theorem InOrder.replace (h : InOrder pages (l ++ old ++ r))
    (hmid : pointsOf (mid.map Chunk.span) = pointsOf (old.map Chunk.span)) :
    InOrder pages (l ++ mid ++ r) := by
  rw [InOrder, List.map_append, List.map_append, pointsOf_append, pointsOf_append] at h ⊢
  rwa [hmid]

theorem points_cut (h : size.toNat + 24 ≤ b.size.toNat) :
    pointsOf ([(b.low size h).mark false, b.high size h].map Chunk.span) = b.span.points := by
  have hmid := b.toNat_high_addr h
  have hsize := b.toNat_high_size h
  have htouch : ((b.low size h).mark false).span.Touches (b.high size h).span := by
    rw [Span.Touches, Chunk.span, Chunk.span, hmid]
    exact (Nat.add_assoc _ _ _).symm
  rw [List.map_cons, ← List.singleton_append, pointsOf_append, List.map_singleton,
    pointsOf_singleton, pointsOf_singleton, points_touch htouch]
  refine congrArg Span.points (Span.ext rfl ?_)
  show 24 + size.toNat + (24 + (b.high size h).size.toNat) = 24 + b.size.toNat
  omega

theorem points_taken (b : Chunk) (size : Word) :
    pointsOf ((b.taken size).map Chunk.span) = b.span.points := by
  rw [Chunk.taken]
  split
  · exact points_cut _
  · exact pointsOf_singleton _

theorem points_join (h : b.Joins c) :
    (b.join c h).span.points = b.span.points ++ c.span.points := by
  have hstop : b.addr.toNat + 24 + b.size.toNat = c.addr.toNat := h.2.2
  have hsize := Chunk.toNat_join_size h
  have htouch : b.span.Touches c.span := by
    show b.addr.toNat + (24 + b.size.toNat) = c.addr.toNat
    omega
  rw [points_touch htouch]
  refine congrArg Span.points (Span.ext rfl ?_)
  show 24 + (b.join c h).size.toNat = 24 + b.size.toNat + (24 + c.size.toNat)
  omega

theorem points_mergeFrom : ∀ (b : Chunk) (r : List Chunk),
    pointsOf ((mergeFrom b r).map Chunk.span) = pointsOf ((b :: r).map Chunk.span)
  | _, [] => rfl
  | b, c :: r => by
    rw [mergeFrom]
    split
    · rename_i h
      rw [points_mergeFrom]
      show (b.join c h).span.points ++ _ = b.span.points ++ (c.span.points ++ _)
      rw [points_join, List.append_assoc]
    · show b.span.points ++ pointsOf ((mergeFrom c r).map Chunk.span) = b.span.points ++ _
      rw [points_mergeFrom]
      rfl

theorem points_merge : ∀ bs : List Chunk,
    pointsOf ((merge bs).map Chunk.span) = pointsOf (bs.map Chunk.span)
  | [] => rfl
  | b :: r => points_mergeFrom b r

theorem InOrder.grow (h : InOrder pages bs) (hpage : PageOk page) :
    InOrder (page :: pages) (bs ++ (pageChunk page hpage.ne hpage.below).taken size) := by
  rw [InOrder, List.map_append, pointsOf_append, h, points_taken, List.reverse_cons,
    List.map_append, pointsOf_append]
  exact congrArg _ (pointsOf_singleton _).symm

end Order

/-! ## The list, once everything is free -/

/-- What the blocks of a run of pages are when they are free: one. -/
def runBlock (run : List ℕ) : ℕ × ℕ × Bool := (run.headD 0, 4096 * run.length, true)

/-- The maximal runs of pages that touch, in the order in which they came. -/
def pageRuns (pages : List Word) : List (List ℕ) := runsOf 4096 (pages.reverse.map BitVec.toNat)

/-- **Free blocks no two of which touch are the runs of pages.** -/
theorem blocks_of_runs {pages : List Word} {bs : List Chunk} (hmerged : Merged bs)
    (horder : InOrder pages bs) (hfree : ∀ b ∈ bs, b.free = true) :
    bs.map (fun b => (b.addr.toNat, b.bytes, b.free)) = (pageRuns pages).map runBlock := by
  have hstretches : Stretches (bs.map Chunk.span) := by
    refine ⟨fun s hs => ?_, ?_⟩
    · obtain ⟨b, -, rfl⟩ := List.mem_map.mp hs
      exact Nat.add_pos_left (by decide) _
    · rw [List.isChain_map]
      refine hmerged.imp_of_mem_imp fun b c hb hc hbc htouch => hbc ⟨hfree b hb, hfree c hc, ?_⟩
      rw [Chunk.stop, Nat.add_assoc]
      exact htouch
  obtain ⟨hruns, hpoints⟩ := runs_stretches (show 0 < 4096 by decide)
    (pages.reverse.map BitVec.toNat)
  have hspans : bs.map Chunk.span = (pageRuns pages).map (runSpan 4096) := by
    refine eq_of_points_eq hstretches hruns (horder.trans ?_)
    rw [pageRuns, hpoints, List.map_map]
    rfl
  have hblock : ∀ b ∈ bs, (b.addr.toNat, b.bytes, b.free) = (b.span.start, b.span.len, true) :=
    fun b hb => by rw [hfree b hb]; rfl
  rw [List.map_congr_left hblock]
  have hall := congrArg (List.map fun s : Span => (s.start, s.len, true)) hspans
  rwa [List.map_map, List.map_map] at hall

/-! ## Runs -/

/-- Nothing is free beside what is free, and the bytes are in order. -/
structure HeapTidy (s : HeapRun) (bs : List Chunk) : Prop where
  represents : Represents s.heap bs
  lent : Lent s.live bs
  merged : Merged bs
  order : InOrder s.heap.pages bs

theorem takeBlock_pages (s : Heap) (block size : Word) :
    (takeBlock s block size).pages = s.pages := by
  rw [takeBlock, splitBlock]
  dsimp only
  split <;> rfl

theorem growHeap_pages {s : Heap} {page : Word} (h : page ≠ 0) :
    (growHeap s page).1.pages = page :: s.pages := by
  rw [growHeap, if_neg h]
  dsimp only
  split <;> rfl

/-- Coalescing has to do with the list alone. -/
theorem coalesceBlocks_pages {s s' : Heap} (h : coalesceBlocks s = some s') :
    s'.pages = s.pages ∧ s'.heapPages = s.heapPages := by
  rw [coalesceBlocks] at h
  refine loop_keeps (I := fun t : Heap × Word => t.1.pages = s.pages ∧ t.1.heapPages = s.heapPages)
    (J := fun t => t.pages = s.pages ∧ t.heapPages = s.heapPages)
    (fun t t' ht hbody => ?_) (fun t r ht hbody => ?_) ⟨rfl, rfl⟩ h
  · simp only [coalesceBody] at hbody
    split at hbody
    · split at hbody
      · obtain rfl := Sum.inl.inj hbody
        exact ht
      · obtain rfl := Sum.inl.inj hbody
        exact ht
    · cases hbody
  · simp only [coalesceBody] at hbody
    split at hbody
    · split at hbody <;> cases hbody
    · obtain rfl := Sum.inr.inj hbody
      exact ht

theorem kfree_pages {s s' : Heap} {ptr : Word} (h : kfree s ptr = some s') :
    s'.pages = s.pages ∧ s'.heapPages = s.heapPages := by
  rw [kfree] at h
  split at h
  · obtain rfl := Option.some.inj h
    exact ⟨rfl, rfl⟩
  · dsimp only at h
    split at h
    · obtain rfl := Option.some.inj h
      exact ⟨rfl, rfl⟩
    · have hkept := coalesceBlocks_pages h
      exact hkept

theorem Mallocs.tidy {s s' : Heap} {bs bs' : List Chunk} {size page p : Word}
    (h : Mallocs s bs size page s' p bs') (hm : Merged bs) (ho : InOrder s.pages bs) :
    Merged bs' ∧ InOrder s'.pages bs' := by
  cases h with
  | refused => exact ⟨hm, ho⟩
  | @found l r b _ hbs hfits _ =>
    subst hbs
    rw [Chunk.fits, Bool.and_eq_true] at hfits
    refine ⟨merged_taken hm hfits.1, ?_⟩
    rw [takeBlock_pages]
    rw [List.append_cons] at ho
    refine ho.replace ?_
    rw [points_taken, List.map_singleton, pointsOf_singleton]
  | grown _ hpage _ _ =>
    refine ⟨merged_taken_last hm, ?_⟩
    rw [takeBlock_pages, growHeap_pages hpage.ne]
    exact ho.grow hpage

theorem Released.tidy {bs bs' : List Chunk} {p : Word} {pages : List Word}
    (h : Released bs p bs') (hm : Merged bs) (ho : InOrder pages bs) :
    Merged bs' ∧ InOrder pages bs' := by
  cases h with
  | null => exact ⟨hm, ho⟩
  | @freed l r b hbs _ _ =>
    subst hbs
    refine ⟨merged_merge _, ?_⟩
    rw [List.append_cons] at ho
    have hmarked : InOrder pages (l ++ [b.mark true] ++ r) := ho.replace rfl
    rw [InOrder, points_merge]
    exact hmarked

theorem heapTidy_step {s s' : HeapRun} {bs : List Chunk} (h : HeapTidy s bs) {op : HeapOp}
    (hstep : heapReturn s op = some s') : ∃ bs', HeapTidy s' bs' := by
  obtain ⟨bs', hr, hl, hshape⟩ := heapReturn_reshaped h.represents h.lent hstep
  have hkept : Merged bs' ∧ InOrder s'.heap.pages bs' := by
    cases hshape with
    | kmalloc hm => exact hm.tidy h.merged h.order
    | kzalloc m hm => exact hm.tidy h.merged h.order
    | kfree hcall hf =>
      rw [(kfree_pages hcall).1]
      exact hf.tidy h.merged h.order
  exact ⟨bs', hr, hl, hkept.1, hkept.2⟩

theorem heapTidy_init (s : Heap) : HeapTidy (heapRunInit s) [] where
  represents := represents_init s
  lent := ⟨fun _ => Iff.rfl, List.nodup_nil, fun _ h => absurd h List.not_mem_nil⟩
  merged := List.isChain_nil
  order := rfl

/-- A call that is allowed and zeroes within its block returns. -/
theorem HeapTidy.returns {s : HeapRun} {bs : List Chunk} (h : HeapTidy s bs) {op : HeapOp}
    (hop : Allowed s op) (hwithin : ZeroesWithin s op) : (heapReturn s op).isSome = true := by
  obtain ⟨s', hs', -⟩ := heapCall_inv ⟨bs, h.represents, h.lent⟩ hop
  rw [heapReturn, if_pos hwithin, heapStep, if_pos hop, hs']
  rfl

/-- **What coalescing promises**: no two consecutive blocks are free and touch, when nothing is lent
the list is one free block for each maximal run of pages, and what is lent can be given back. -/
structure Coalesced (s : HeapRun) (bs : List Chunk) : Prop where
  linked : Links (Stands s.heap.memory) s.heap.heapHead bs 0
  apart : bs.IsChain fun b c => ¬ (b.free = true ∧ c.free = true ∧ b.stop = c.addr.toNat)
  runs : s.live = [] →
    bs.map (fun b => (b.addr.toNat, b.bytes, b.free)) = (pageRuns s.heap.pages).map runBlock
  frees : ∀ ptr ∈ s.live.map Prod.fst, (heapReturn s (.kfree ptr)).isSome = true

theorem HeapTidy.coalesced {s : HeapRun} {bs : List Chunk} (h : HeapTidy s bs) :
    Coalesced s bs where
  linked := h.represents.listed.linked
  apart := h.merged
  runs hlive := by
    refine blocks_of_runs h.merged h.order fun b hb => ?_
    by_contra hused
    have hmem := (h.lent.payloads b.payload).mpr
      (List.mem_map_of_mem (mem_inUse.mpr ⟨hb, Bool.eq_false_iff.mpr hused⟩))
    rw [hlive] at hmem
    exact List.not_mem_nil hmem
  frees ptr hptr :=
    have hop : Allowed s (.kfree ptr) := .inr hptr
    h.returns hop trivial

/-- **Coalescing is complete**, in every state of every run. -/
theorem coalescing_complete (s : Heap) (ops : List HeapOp) :
    Always heapReturn (fun s => ∃ bs, Coalesced s bs) (heapRunInit s) ops :=
  Always.of_inv (I := fun s => ∃ bs, HeapTidy s bs)
    (fun _ _ _ ⟨_, h⟩ hstep => heapTidy_step h hstep) (fun _ ⟨bs, h⟩ => ⟨bs, h.coalesced⟩)
    ⟨[], heapTidy_init s⟩ ops

end SaturnOS
