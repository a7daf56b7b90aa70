import Mathlib.Order.Interval.Set.Disjoint
import SaturnOS.Machinery.Tilings
import SaturnOS.Memory.HeapList

/-!
# Memory/HeapRoom — the blocks tile the pages

    │      page      │      page      │
    │ b₁ │   b₂   │b₃│  b₄  │   b₅    │

The room of the blocks is that of the pages, byte for byte: cutting, joining and marking keep it,
and a page adds its own.  Of what is in use nothing is lost either: joining touches free blocks
only.  `Represents` puts this together with the list in memory, and `heap_used` with the sizes in
use.
-/

open Machinery

namespace SaturnOS

/-! ## Rooms -/

/-- The addresses of the block, header and payload. -/
def Chunk.extent (b : Chunk) : Set ℕ := Set.Ico b.addr.toNat b.stop

theorem Chunk.apart_iff {a b : Chunk} : a.Apart b ↔ Disjoint a.extent b.extent := by
  rw [Chunk.extent, Chunk.extent, Set.Ico_disjoint_Ico, Chunk.Apart, Chunk.stop, Chunk.stop]
  omega

/-- The bytes of the block, header and payload. -/
def Chunk.bytes (b : Chunk) : ℕ := 24 + b.size.toNat

/-- The blocks that are not free. -/
def inUse (bs : List Chunk) : List Chunk := bs.filter fun b => !b.free

/-- …and their sizes, added up. -/
def usedBytes (bs : List Chunk) : ℕ := ((inUse bs).map fun b => b.size.toNat).sum

/-- The same bytes, in blocks of other sizes. -/
structure SameRoom (old mid : List Chunk) : Prop where
  extents : ∀ x, layers (mid.map Chunk.extent) x = layers (old.map Chunk.extent) x
  bytes : (mid.map Chunk.bytes).sum = (old.map Chunk.bytes).sum

section Rooms

variable {old mid l l' r bs : List Chunk} {b c : Chunk} {size : Word}

theorem SameRoom.refl (l : List Chunk) : SameRoom l l := ⟨fun _ => rfl, rfl⟩

theorem SameRoom.trans (h : SameRoom old mid) (h' : SameRoom mid l) : SameRoom old l :=
  ⟨fun x => (h'.extents x).trans (h.extents x), h'.bytes.trans h.bytes⟩

theorem SameRoom.append (h : SameRoom old mid) (h' : SameRoom l l') :
    SameRoom (old ++ l) (mid ++ l') := by
  refine ⟨fun x => ?_, ?_⟩
  · rw [List.map_append, List.map_append, layers_append, layers_append, h.extents, h'.extents]
  · rw [List.map_append, List.map_append, List.sum_append, List.sum_append, h.bytes, h'.bytes]

theorem sameRoom_mark (b : Chunk) (free : Bool) : SameRoom [b] [b.mark free] := ⟨fun _ => rfl, rfl⟩

/-- A block cut in two. -/
theorem sameRoom_cut (h : size.toNat + 24 ≤ b.size.toNat) :
    SameRoom [b] [(b.low size h).mark false, b.high size h] := by
  have hmid := b.toNat_high_addr h
  have hstop := b.stop_high h
  refine ⟨fun x => ?_, ?_⟩
  · refine layers_cut (a := Set.Ico b.addr.toNat (b.addr.toNat + 24 + size.toNat))
      (b := Set.Ico (b.high size h).addr.toNat (b.high size h).stop) ?_ ?_
    · have hhigh := (b.high size h).header_le
      rw [hmid, hstop] at hhigh
      rw [hmid, hstop, Chunk.extent, Set.Ico_union_Ico_eq_Ico (by omega) (by omega)]
    · rw [Set.Ico_disjoint_Ico, hmid]
      omega
  · have hsize := b.toNat_high_size h
    simp only [List.map_cons, List.map_nil, List.sum_cons, List.sum_nil, Chunk.bytes, hsize]
    show 24 + size.toNat + _ = _
    omega

/-- Two blocks joined. -/
theorem sameRoom_join (h : b.Joins c) : SameRoom [b, c] [b.join c h] := by
  have hstop := b.stop_join h
  have htouch : b.stop = c.addr.toNat := h.2.2
  refine ⟨fun x => (layers_cut ?_ ?_).symm, ?_⟩
  · show Set.Ico b.addr.toNat (b.join c h).stop = Set.Ico b.addr.toNat b.stop ∪ Set.Ico c.addr.toNat
      c.stop
    have hb := b.header_le
    have hc := c.header_le
    rw [hstop, htouch, Set.Ico_union_Ico_eq_Ico (by omega) (by omega)]
  · exact Chunk.apart_iff.mp (Or.inl (Nat.le_of_eq htouch))
  · have hsize := Chunk.toNat_join_size h
    simp only [List.map_cons, List.map_nil, List.sum_cons, List.sum_nil, Chunk.bytes, hsize]
    omega

theorem sameRoom_taken (b : Chunk) (size : Word) : SameRoom [b] (b.taken size) := by
  rw [Chunk.taken]
  split
  · exact sameRoom_cut _
  · exact sameRoom_mark b false

/-- **Coalescing keeps the room**… -/
theorem sameRoom_mergeFrom : ∀ (b : Chunk) (r : List Chunk), SameRoom (b :: r) (mergeFrom b r)
  | b, [] => SameRoom.refl [b]
  | b, c :: r => by
    rw [mergeFrom]
    split
    · rename_i h
      exact ((sameRoom_join h).append (SameRoom.refl r)).trans (sameRoom_mergeFrom (b.join c h) r)
    · exact (SameRoom.refl [b]).append (sameRoom_mergeFrom c r)

theorem sameRoom_merge : ∀ bs : List Chunk, SameRoom bs (merge bs)
  | [] => SameRoom.refl []
  | b :: r => sameRoom_mergeFrom b r

/-! ## In use -/

theorem inUse_append (l r : List Chunk) :
    inUse (l ++ r) = inUse l ++ inUse r := List.filter_append ..

theorem inUse_cons_free (h : b.free = true) (r : List Chunk) : inUse (b :: r) = inUse r :=
  List.filter_cons_of_neg (by rw [h]; exact Bool.false_ne_true)

theorem inUse_cons_used (h : b.free = false) (r : List Chunk) : inUse (b :: r) = b :: inUse r :=
  List.filter_cons_of_pos (by rw [h]; rfl)

theorem mem_inUse : b ∈ inUse bs ↔ b ∈ bs ∧ b.free = false := by
  rw [inUse, List.mem_filter, Bool.not_eq_true']

/-- …and what is in use. -/
theorem inUse_mergeFrom : ∀ (b : Chunk) (r : List Chunk), inUse (mergeFrom b r) = inUse (b :: r)
  | _, [] => rfl
  | b, c :: r => by
    rw [mergeFrom]
    split
    · rename_i h
      rw [inUse_mergeFrom, inUse_cons_free rfl, inUse_cons_free h.1, inUse_cons_free h.2.1]
    · rw [← List.singleton_append, inUse_append, inUse_mergeFrom, ← inUse_append,
        List.singleton_append]

theorem inUse_merge : ∀ bs : List Chunk, inUse (merge bs) = inUse bs
  | [] => rfl
  | b :: r => inUse_mergeFrom b r

/-- Of a block that is taken one is in use: it stands where the block stood. -/
theorem inUse_taken (b : Chunk) (size : Word) : ∃ c, inUse (b.taken size) = [c] ∧ c.addr = b.addr ∧
    c.free = false ∧ c.size = if size.toNat + 56 ≤ b.size.toNat then size else b.size := by
  rw [Chunk.taken]
  split
  · exact ⟨_, rfl, rfl, rfl, rfl⟩
  · exact ⟨_, rfl, rfl, rfl, rfl⟩

theorem usedBytes_append (l r : List Chunk) : usedBytes (l ++ r) = usedBytes l + usedBytes r := by
  rw [usedBytes, inUse_append, List.map_append, List.sum_append, usedBytes, usedBytes]

/-- What is in use, and the headers of all blocks, is at most the room. -/
theorem usedBytes_le (bs : List Chunk) :
    usedBytes bs + 24 * bs.length ≤ (bs.map Chunk.bytes).sum := by
  induction bs with
  | nil => exact Nat.le_refl 0
  | cons b r ih =>
    rw [← List.singleton_append, usedBytes_append, List.map_append, List.sum_append,
      List.length_append]
    have hone : usedBytes [b] ≤ b.size.toNat := by
      cases hb : b.free with
      | true =>
        rw [usedBytes, inUse_cons_free hb]
        exact Nat.zero_le _
      | false =>
        rw [usedBytes, inUse_cons_used hb]
        exact Nat.le_refl _
    show _ + 24 * (1 + r.length) ≤ (24 + b.size.toNat + 0) + _
    omega

end Rooms

/-! ## Pages -/

/-- The addresses of the pages. -/
def pageRoom (pages : List Word) : Set ℕ := ⋃ page ∈ pages, Set.Ico page.toNat (page.toNat + 4096)

/-- What `pmm_alloc_page` returns: a page of the memory. -/
structure PageOk (page : Word) : Prop where
  ne : page ≠ 0
  aligned : page.toNat % 4096 = 0
  below : page.toNat + 4096 < 2 ^ 64

section Pages

variable {pages : List Word} {page : Word}

theorem pageRoom_cons (page : Word) (pages : List Word) : pageRoom (page :: pages) =
    pageRoom pages ∪ Set.Ico page.toNat (page.toNat + 4096) := by
  ext x
  simp only [pageRoom, Set.mem_iUnion, List.mem_cons, Set.mem_union, exists_prop, or_and_right,
    exists_or, exists_eq_left]
  exact or_comm

/-- A page that is none of the pages shares no address with them. -/
theorem disjoint_pageRoom (hpages : ∀ p ∈ pages, PageOk p) (hpage : PageOk page)
    (hnew : page ∉ pages) :
    Disjoint (pageRoom pages) (Set.Ico page.toNat (page.toNat + 4096)) := by
  rw [pageRoom, Set.disjoint_iUnion₂_left]
  intro p hp
  have hne : p.toNat ≠ page.toNat := fun h => hnew (BitVec.eq_of_toNat_eq h ▸ hp)
  have haligned := (hpages p hp).aligned
  have haligned' := hpage.aligned
  rw [Set.Ico_disjoint_Ico]
  omega

/-- There are no more pages than the memory has. -/
theorem length_pages (hpages : ∀ p ∈ pages, PageOk p) (hnodup : pages.Nodup) :
    pages.length ≤ 2 ^ 52 - 1 := by
  have hinj : (pages.map fun p => p.toNat / 4096 - 1).Nodup := by
    refine hnodup.map_on fun p hp q hq h => BitVec.eq_of_toNat_eq ?_
    have hp' := hpages p hp
    have hq' := hpages q hq
    have hpne : p.toNat ≠ 0 := fun h => hp'.ne (BitVec.eq_of_toNat_eq h)
    have hqne : q.toNat ≠ 0 := fun h => hq'.ne (BitVec.eq_of_toNat_eq h)
    have := hp'.aligned
    have := hq'.aligned
    omega
  have hsub : (pages.map fun p => p.toNat / 4096 - 1) ⊆ List.range (2 ^ 52 - 1) := by
    intro n hn
    obtain ⟨p, hp, rfl⟩ := List.mem_map.mp hn
    have := (hpages p hp).below
    have := (hpages p hp).aligned
    rw [List.mem_range]
    omega
  have hle := (List.subperm_of_subset hinj hsub).length_le
  rwa [List.length_map, List.length_range] at hle

end Pages

/-! ## The heap -/

/-- **What the heap is**: a list of blocks in memory that tile the pages, and a count of what is in
use. -/
structure Represents (s : Heap) (bs : List Chunk) : Prop where
  listed : Listed s bs
  tiles : Tiles (pageRoom s.pages) (bs.map Chunk.extent)
  pages : ∀ page ∈ s.pages, PageOk page
  nodup : s.pages.Nodup
  bytes : (bs.map Chunk.bytes).sum = 4096 * s.pages.length
  used : s.heapUsed = BitVec.ofNat 64 (usedBytes bs)

section Represents

variable {s s' : Heap} {l r bs old mid : List Chunk} {b : Chunk} {size page : Word}

theorem represents_init (s : Heap) : Represents (heapInit s) [] where
  listed := ⟨rfl, rfl, List.Pairwise.nil⟩
  tiles := by
    have hnone : pageRoom [] = ∅ := by
      rw [pageRoom]
      simp
    show Tiles (pageRoom []) []
    rw [hnone]
    exact tiles_nil
  pages := fun _ h => absurd h List.not_mem_nil
  nodup := List.nodup_nil
  bytes := rfl
  used := rfl

theorem Represents.room_lt (h : Represents s bs) : usedBytes bs + 24 * bs.length < 2 ^ 64 := by
  have hle := usedBytes_le bs
  have hpages := length_pages h.pages h.nodup
  rw [h.bytes] at hle
  omega

theorem Represents.length_lt (h : Represents s bs) : bs.length < heapTurns := by
  have := h.room_lt
  rw [heapTurns]
  omega

theorem Represents.toNat_used (h : Represents s bs) : s.heapUsed.toNat = usedBytes bs := by
  have := h.room_lt
  rw [h.used, BitVec.toNat_ofNat, Nat.mod_eq_of_lt (by omega)]

/-- **Some blocks are replaced by others of the same room.** -/
theorem Represents.replace (h : Represents s (l ++ old ++ r)) (hroom : SameRoom old mid)
    (hlisted : Listed s' (l ++ mid ++ r)) (hpages : s'.pages = s.pages)
    (hused : s'.heapUsed = BitVec.ofNat 64 (usedBytes (l ++ mid ++ r))) :
    Represents s' (l ++ mid ++ r) where
  listed := hlisted
  tiles := by
    have htiles := h.tiles
    rw [List.map_append, List.map_append] at htiles ⊢
    rw [hpages]
    exact htiles.replace hroom.extents
  pages := hpages ▸ h.pages
  nodup := hpages ▸ h.nodup
  bytes := by
    rw [hpages, ← h.bytes]
    exact (((SameRoom.refl l).append hroom).append (SameRoom.refl r)).bytes
  used := hused

/-- **A free block is taken.** -/
theorem Represents.take (h : Represents s (l ++ b :: r)) (hfree : b.free = true)
    (hsize : size.toNat + 56 < 2 ^ 64) :
    Represents (takeBlock s b.addr size) (l ++ b.taken size ++ r) := by
  have hlisted := h.listed.take hsize
  have hused := h.listed.take_used hsize
  have hpages : (takeBlock s b.addr size).pages = s.pages := by
    rw [takeBlock, splitBlock]
    dsimp only
    split <;> rfl
  obtain ⟨c, hc, -, -, hcsize⟩ := inUse_taken b size
  rw [List.append_cons] at h
  refine h.replace (sameRoom_taken b size) hlisted hpages ?_
  have hone : usedBytes (b.taken size) = c.size.toNat := by
    rw [usedBytes, hc]
    rfl
  have hnone : usedBytes [b] = 0 := by
    rw [usedBytes, inUse_cons_free hfree]
    rfl
  rw [hused, h.used, usedBytes_append, usedBytes_append, usedBytes_append, usedBytes_append, hone,
    hnone,
    ← hcsize, Nat.add_zero, Nat.add_right_comm, BitVec.ofNat_add _ c.size.toNat, BitVec.ofNat_toNat,
    BitVec.setWidth_eq]

/-- **A used block is given back.** -/
theorem Represents.release (h : Represents s (l ++ b :: r)) (hused : b.free = false)
    (hmemory : s'.memory = putFree s.memory b.addr 1) (hhead : s'.heapHead = s.heapHead)
    (htail : s'.heapTail = s.heapTail) (hpages : s'.pages = s.pages)
    (hcount : s'.heapUsed = s.heapUsed - b.size) : Represents s' (l ++ [b.mark true] ++ r) := by
  have hlisted := h.listed.mark true hmemory hhead htail
  rw [List.append_cons] at h hlisted
  refine h.replace (sameRoom_mark b true) hlisted hpages ?_
  have hone : usedBytes [b] = b.size.toNat := by
    rw [usedBytes, inUse_cons_used hused]
    exact Nat.add_zero _
  have hnone : usedBytes [b.mark true] = 0 := rfl
  rw [hcount, h.used, usedBytes_append, usedBytes_append, usedBytes_append, usedBytes_append, hone,
    hnone,
    Nat.add_zero, Nat.add_right_comm, BitVec.ofNat_add _ b.size.toNat, BitVec.ofNat_toNat,
    BitVec.setWidth_eq, BitVec.add_sub_cancel]

/-- **Free neighbours are joined.** -/
theorem Represents.coalesce (h : Represents s bs) :
    ∃ s', coalesceBlocks s = some s' ∧ Represents s' (merge bs) := by
  obtain ⟨s', hs', hlisted, hused, hpages⟩ := coalesce_listed h.listed h.length_lt
  have hsame : usedBytes (merge bs) = usedBytes bs := by rw [usedBytes, inUse_merge, usedBytes]
  refine ⟨s', hs', ?_⟩
  have hreplaced := @Represents.replace s s' [] [] bs (merge bs)
    (by rwa [List.nil_append, List.append_nil]) (sameRoom_merge bs)
    (by rwa [List.nil_append, List.append_nil]) hpages
    (by rw [List.nil_append, List.append_nil, hsame, hused, h.used])
  rwa [List.nil_append, List.append_nil] at hreplaced

/-- **A page is added.** -/
theorem Represents.grow (h : Represents s bs) (hpage : PageOk page) (hnew : page ∉ s.pages) :
    Represents (growHeap s page).1 (bs ++ [pageChunk page hpage.ne hpage.below]) := by
  have hextent : (pageChunk page hpage.ne hpage.below).extent =
      Set.Ico page.toNat (page.toNat + 4096) := rfl
  have hbeside := disjoint_pageRoom h.pages hpage hnew
  have hunion := (tiles_iff.mp h.tiles).2
  have hapart : ∀ b ∈ bs, b.Apart (pageChunk page hpage.ne hpage.below) := by
    intro b hb
    rw [Chunk.apart_iff, hextent]
    refine hbeside.mono_left ?_
    rw [← hunion]
    exact fun x hx => Set.mem_iUnion₂.mpr ⟨b.extent, List.mem_map_of_mem hb, hx⟩
  have hpages : (growHeap s page).1.pages = page :: s.pages := by
    rw [growHeap, if_neg hpage.ne]
    dsimp only
    split <;> rfl
  have hused : (growHeap s page).1.heapUsed = s.heapUsed := by
    rw [growHeap, if_neg hpage.ne]
    dsimp only
    split <;> rfl
  refine ⟨h.listed.grow hpage.ne hpage.below hapart, ?_, ?_, ?_, ?_, ?_⟩
  · rw [hpages, pageRoom_cons, List.map_append]
    exact h.tiles.snoc hbeside
  · rw [hpages]
    exact List.forall_mem_cons.mpr ⟨hpage, h.pages⟩
  · rw [hpages]
    exact List.nodup_cons.mpr ⟨hnew, h.nodup⟩
  · rw [hpages, List.map_append, List.sum_append, h.bytes, List.length_cons, Nat.mul_succ]
    rfl
  · rw [hused, h.used, usedBytes_append]
    rfl

/-- **A payload is written into.** -/
theorem Represents.write (h : Represents s bs) (hb : b ∈ bs) {m : ℕ → Byte}
    (hm : EqOutside b.payload.toNat b.stop s.memory m) : Represents { s with memory := m } bs := by
  obtain ⟨l, r, rfl⟩ := List.append_of_mem hb
  have hpayload := b.toNat_payload
  have hframe : heapBlockAt m b.addr = heapBlockAt s.memory b.addr :=
    heapBlockAt_of_eqOutside hm (Or.inl (by omega))
  have hlisted : Listed { s with memory := m } (l ++ [b] ++ r) := by
    refine h.listed.replace_one rfl ?_ (List.cons_ne_nil _ _) (hm.mono (by omega) (Nat.le_refl _))
      (fun next hnext => ⟨next, ⟨rfl, hframe.trans hnext⟩, rfl⟩) (List.pairwise_singleton _ _) ?_
    · show s.heapTail = _
      rw [lastAddr_singleton]
      split
      · exact h.listed.tail_iff.mpr ‹_›
      · rfl
    · intro c hc
      obtain rfl := List.mem_singleton.mp hc
      exact ⟨Nat.le_refl _, Nat.le_refl _⟩
  rw [List.append_cons] at h ⊢
  exact h.replace (SameRoom.refl [b]) hlisted rfl h.used

end Represents

end SaturnOS
