import SaturnOS.Machinery.Chains
import SaturnOS.Memory.Heap

/-!
# Memory/HeapList — the heap as a list of blocks

    heap_head ──▸ b₁ ──▸ b₂ ──▸ ⋯ ──▸ bₖ = heap_tail ──▸ 0        l ++ b :: r

What the functions of `heap.c` do to the headers in memory they do to the list: splitting puts two
blocks in the place of one (`Listed.split`), growing puts a page at the end (`Listed.grow`), and
coalescing joins free neighbours that touch (`coalesce_listed`).  Each is a replacement of some
blocks by others (`Listed.replace`) that nothing outside them notices.
-/

open Machinery

namespace SaturnOS

/-! ## Blocks -/

/-- A block of the list: a header and its payload, inside the memory. -/
@[ext] structure Chunk where
  addr : Word
  size : Word
  free : Bool
  addr_ne : addr ≠ 0
  stop_lt : addr.toNat + 24 + size.toNat < 2 ^ 64

namespace Chunk

/-- Where the block ends. -/
def stop (b : Chunk) : ℕ := b.addr.toNat + 24 + b.size.toNat

/-- What `kmalloc` returns. -/
def payload (b : Chunk) : Word := b.addr + heapBlockSizeof

def header (b : Chunk) (next : Word) : HeapBlock := ⟨b.size, if b.free then 1 else 0, next⟩

/-- Two blocks share no address. -/
def Apart (a b : Chunk) : Prop := a.stop ≤ b.addr.toNat ∨ b.stop ≤ a.addr.toNat

/-- The block, free or not. -/
def mark (b : Chunk) (free : Bool) : Chunk := { b with free }

/-- What a split leaves of the block. -/
def low (b : Chunk) (size : Word) (h : size.toNat + 24 ≤ b.size.toNat) : Chunk where
  addr := b.addr
  size := size
  free := b.free
  addr_ne := b.addr_ne
  stop_lt := by
    have := b.stop_lt
    omega

/-- …and what it makes of the rest. -/
def high (b : Chunk) (size : Word) (h : size.toNat + 24 ≤ b.size.toNat) : Chunk where
  addr := b.addr + heapBlockSizeof + size
  size := b.size - size - heapBlockSizeof
  free := true
  addr_ne := by
    have := b.stop_lt
    rw [heapBlockSizeof]
    bv_omega
  stop_lt := by
    have := b.stop_lt
    rw [heapBlockSizeof]
    bv_omega

/-- `split_block` on the list. -/
def split (b : Chunk) (size : Word) : List Chunk :=
  if h : size.toNat + 56 ≤ b.size.toNat then [b.low size (by omega), b.high size (by omega)]
    else [b]

/-- Free neighbours that touch. -/
def Joins (b c : Chunk) : Prop := b.free = true ∧ c.free = true ∧ b.stop = c.addr.toNat

instance (b c : Chunk) : Decidable (b.Joins c) := inferInstanceAs (Decidable (_ ∧ _))

def join (b c : Chunk) (h : b.Joins c) : Chunk where
  addr := b.addr
  size := b.size + (heapBlockSizeof + c.size)
  free := true
  addr_ne := b.addr_ne
  stop_lt := by
    have hb := b.stop_lt
    have hc := c.stop_lt
    have htouch : b.addr.toNat + 24 + b.size.toNat = c.addr.toNat := h.2.2
    rw [heapBlockSizeof]
    bv_omega

end Chunk

/-- `coalesce_blocks` on the list, from `b` on. -/
def mergeFrom : Chunk → List Chunk → List Chunk
  | b, [] => [b]
  | b, c :: r => if h : b.Joins c then mergeFrom (b.join c h) r else b :: mergeFrom c r

/-- `coalesce_blocks` on the list. -/
def merge : List Chunk → List Chunk
  | [] => []
  | b :: r => mergeFrom b r

/-- The whole page, free. -/
def pageChunk (page : Word) (h : page ≠ 0) (hlt : page.toNat + 4096 < 2 ^ 64) : Chunk where
  addr := page
  size := heapBlockCapacity
  free := true
  addr_ne := h
  stop_lt := by
    rw [show heapBlockCapacity.toNat = 4072 from by decide]
    omega

/-! ## Where blocks stand -/

section Geometry

variable {a b c : Chunk} {size : Word}

theorem Chunk.Apart.symm (h : a.Apart b) : b.Apart a := Or.symm h

theorem Chunk.header_le (b : Chunk) : b.addr.toNat + 24 ≤ b.stop := Nat.le_add_right _ _

theorem Chunk.Apart.addr_ne (h : a.Apart b) : a.addr ≠ b.addr := by
  intro heq
  have : a.addr.toNat = b.addr.toNat := congrArg BitVec.toNat heq
  rw [Chunk.Apart, Chunk.stop, Chunk.stop] at h
  omega

theorem Chunk.toNat_payload (b : Chunk) : b.payload.toNat = b.addr.toNat + 24 := by
  have := b.stop_lt
  rw [Chunk.payload, heapBlockSizeof]
  bv_omega

theorem Chunk.payload_ne (b : Chunk) : b.payload ≠ 0 := by
  intro h
  have := b.toNat_payload
  rw [h] at this
  exact absurd this (by simp)

theorem Chunk.payload_sub (b : Chunk) : b.payload - heapBlockSizeof = b.addr := by
  rw [Chunk.payload, BitVec.add_sub_cancel]

variable (h : size.toNat + 24 ≤ b.size.toNat)

include h

theorem Chunk.toNat_high_addr : (b.high size h).addr.toNat = b.addr.toNat + 24 + size.toNat := by
  have := b.stop_lt
  simp only [Chunk.high, heapBlockSizeof]
  bv_omega

theorem Chunk.toNat_high_size : (b.high size h).size.toNat = b.size.toNat - size.toNat - 24 := by
  simp only [Chunk.high, heapBlockSizeof]
  bv_omega

theorem Chunk.stop_high : (b.high size h).stop = b.stop := by
  rw [Chunk.stop, Chunk.toNat_high_addr, Chunk.toNat_high_size, Chunk.stop]
  omega

theorem Chunk.stop_low : (b.low size h).stop = (b.high size h).addr.toNat :=
  (Chunk.toNat_high_addr h).symm

end Geometry

theorem Chunk.toNat_join_size {b c : Chunk} (h : b.Joins c) :
    (b.join c h).size.toNat = b.size.toNat + 24 + c.size.toNat := by
  have hb := b.stop_lt
  have hc := c.stop_lt
  have htouch : b.addr.toNat + 24 + b.size.toNat = c.addr.toNat := h.2.2
  simp only [Chunk.join, heapBlockSizeof]
  bv_omega

theorem Chunk.stop_join {b c : Chunk} (h : b.Joins c) : (b.join c h).stop = c.stop := by
  have htouch : b.addr.toNat + 24 + b.size.toNat = c.addr.toNat := h.2.2
  rw [Chunk.stop, Chunk.toNat_join_size, Chunk.stop]
  show b.addr.toNat + 24 + _ = _
  omega

/-! ## The list in memory -/

/-- The block stands at `p` and links to `next`. -/
def Stands (m : ℕ → Byte) (b : Chunk) (p next : Word) : Prop :=
  p = b.addr ∧ heapBlockAt m p = b.header next

/-- Where the last block stands, 0 where there is none. -/
def lastAddr (bs : List Chunk) : Word := (bs.getLast?.map Chunk.addr).getD 0

/-- **The blocks in memory**, linked from the head to the tail and apart from each other. -/
structure Listed (s : Heap) (bs : List Chunk) : Prop where
  linked : Links (Stands s.memory) s.heapHead bs 0
  tail : s.heapTail = lastAddr bs
  apart : bs.Pairwise Chunk.Apart

theorem lastAddr_append {l r : List Chunk} (h : r ≠ []) : lastAddr (l ++ r) = lastAddr r := by
  rw [lastAddr, List.getLast?_append_of_ne_nil l h, lastAddr]

theorem lastAddr_singleton (b : Chunk) : lastAddr [b] = b.addr := rfl

theorem stands_congr {m m' : ℕ → Byte} {b : Chunk} {p next : Word} (h : Stands m b p next)
    (hm : heapBlockAt m' b.addr = heapBlockAt m b.addr) : Stands m' b p next := by
  obtain ⟨rfl, hp⟩ := h
  exact ⟨rfl, hm.trans hp⟩

/-- **Some blocks are replaced by others**, where the others take only their room and the rest of
the list is left alone. -/
theorem Listed.replace {s s' : Heap} {l old mid r : List Chunk} (h : Listed s (l ++ old ++ r))
    (hhead : s'.heapHead = s.heapHead)
    (htail : s'.heapTail = if r = [] then lastAddr mid else s.heapTail) (hne : mid ≠ [])
    (hmid : ∀ p next, Links (Stands s.memory) p old next → Links (Stands s.memory) next r 0 →
      Links (Stands s'.memory) p mid next)
    (hpairs : mid.Pairwise Chunk.Apart)
    (hrest : ∀ d ∈ l ++ r, (∀ c ∈ old, c.Apart d) →
      heapBlockAt s'.memory d.addr = heapBlockAt s.memory d.addr ∧ ∀ c ∈ mid, c.Apart d) :
    Listed s' (l ++ mid ++ r) := by
  obtain ⟨hlo, hr, hlor⟩ := List.pairwise_append.mp h.apart
  obtain ⟨hl, -, hlold⟩ := List.pairwise_append.mp hlo
  have hleft : ∀ d ∈ l, heapBlockAt s'.memory d.addr = heapBlockAt s.memory d.addr ∧
      ∀ c ∈ mid, c.Apart d := fun d hd =>
    hrest d (List.mem_append_left r hd) fun c hc => (hlold d hd c hc).symm
  have hright : ∀ d ∈ r, heapBlockAt s'.memory d.addr = heapBlockAt s.memory d.addr ∧
      ∀ c ∈ mid, c.Apart d := fun d hd =>
    hrest d (List.mem_append_right l hd) fun c hc => hlor c (List.mem_append_right l hc) d hd
  have hlinked := h.linked
  rw [List.append_assoc, links_append] at hlinked
  obtain ⟨p, hcl, hold⟩ := hlinked
  obtain ⟨next, hold, hcr⟩ := links_append.mp hold
  refine ⟨?_, ?_, ?_⟩
  · rw [hhead, List.append_assoc]
    exact links_append.mpr ⟨p, hcl.imp fun d hd _ _ hs => stands_congr hs (hleft d hd).1,
      links_append.mpr ⟨next, hmid p next hold hcr,
        hcr.imp fun d hd _ _ hs => stands_congr hs (hright d hd).1⟩⟩
  · rw [htail]
    by_cases hr : r = []
    · rw [if_pos hr, hr, List.append_nil, lastAddr_append hne]
    · rw [if_neg hr, h.tail, lastAddr_append hr, lastAddr_append hr]
  · refine List.pairwise_append.mpr
      ⟨List.pairwise_append.mpr ⟨hl, hpairs, fun d hd c hc => ?_⟩, hr, ?_⟩
    · exact ((hleft d hd).2 c hc).symm
    · intro c hc d hd
      rcases List.mem_append.mp hc with hc | hc
      · exact hlor c (List.mem_append_left old hc) d hd
      · exact (hright d hd).2 c hc

/-! ## What the list says of the memory -/

section Reading

variable {s : Heap} {l r bs : List Chunk} {b : Chunk} {m : ℕ → Byte} {p : Word}

/-- A list that ends in 0 starts at 0 exactly when it is empty. -/
theorem links_zero_iff (h : Links (Stands m) p bs 0) : p = 0 ↔ bs = [] := by
  cases bs with
  | nil => exact iff_of_true h rfl
  | cons b r =>
    obtain ⟨next, ⟨rfl, -⟩, -⟩ := h
    exact iff_of_false b.addr_ne (List.cons_ne_nil b r)

/-- A block's header, and the list that goes on from it. -/
theorem Listed.header (h : Listed s (l ++ b :: r)) :
    ∃ next, heapBlockAt s.memory b.addr = b.header next ∧ Links (Stands s.memory) next r 0 := by
  obtain ⟨p, next, -, ⟨rfl, hheader⟩, hr⟩ := links_middle.mp h.linked
  exact ⟨next, hheader, hr⟩

/-- The tail is the block that no other follows. -/
theorem Listed.tail_iff (h : Listed s (l ++ b :: r)) : s.heapTail = b.addr ↔ r = [] := by
  rw [h.tail, lastAddr_append (List.cons_ne_nil b r)]
  constructor
  · intro hlast
    by_contra hr
    have hbr := (List.pairwise_append.mp h.apart).2.1
    have hmem : r.getLast hr ∈ r := List.getLast_mem hr
    refine ((List.pairwise_cons.mp hbr).1 _ hmem).addr_ne ?_
    rw [← List.singleton_append, lastAddr_append hr, lastAddr, List.getLast?_eq_some_getLast
      hr] at hlast
    exact hlast.symm
  · rintro rfl
    rfl

theorem heapBlockAt_putSize_of_ne {q v : Word}
    (h : q.toNat + 24 ≤ p.toNat ∨ p.toNat + 24 ≤ q.toNat) :
    heapBlockAt (putSize m p v) q = heapBlockAt m q :=
  heapBlockAt_of_eqOutside eqOutside_putSize h

theorem heapBlockAt_putFree_of_ne {q : Word} {f : BitVec 32}
    (h : q.toNat + 24 ≤ p.toNat ∨ p.toNat + 24 ≤ q.toNat) :
    heapBlockAt (putFree m p f) q = heapBlockAt m q :=
  heapBlockAt_of_eqOutside eqOutside_putFree h

theorem heapBlockAt_putNext_of_ne {q v : Word}
    (h : q.toNat + 24 ≤ p.toNat ∨ p.toNat + 24 ≤ q.toNat) :
    heapBlockAt (putNext m p v) q = heapBlockAt m q :=
  heapBlockAt_of_eqOutside eqOutside_putNext h

/-- Where blocks are apart, their headers are. -/
theorem Chunk.Apart.headers {b c : Chunk} (h : b.Apart c) :
    c.addr.toNat + 24 ≤ b.addr.toNat ∨ b.addr.toNat + 24 ≤ c.addr.toNat := by
  rw [Chunk.Apart, Chunk.stop, Chunk.stop] at h
  omega

end Reading

/-! ## Marking and splitting -/

section Taking

variable {s s' : Heap} {l r : List Chunk} {b : Chunk}

/-- **One block is replaced by blocks in its room.** -/
theorem Listed.replace_one {mid : List Chunk} (h : Listed s (l ++ b :: r))
    (hhead : s'.heapHead = s.heapHead)
    (htail : s'.heapTail = if r = [] then lastAddr mid else s.heapTail) (hne : mid ≠ [])
    (hmemory : EqOutside b.addr.toNat b.stop s.memory s'.memory)
    (hmid : ∀ next, heapBlockAt s.memory b.addr = b.header next →
      Links (Stands s'.memory) b.addr mid next)
    (hpairs : mid.Pairwise Chunk.Apart)
    (hroom : ∀ c ∈ mid, b.addr.toNat ≤ c.addr.toNat ∧ c.stop ≤ b.stop) :
    Listed s' (l ++ mid ++ r) := by
  rw [List.append_cons] at h
  refine h.replace hhead htail hne (fun p next hp _ => ?_) hpairs fun d _ hd => ?_
  · obtain ⟨_, ⟨rfl, hheader⟩, rfl⟩ := hp
    exact hmid _ hheader
  · have hapart := hd b List.mem_cons_self
    rw [Chunk.Apart] at hapart
    refine ⟨heapBlockAt_of_eqOutside hmemory ?_, fun c hc => ?_⟩
    · rw [Chunk.stop, Chunk.stop] at *
      omega
    · obtain ⟨hlo, hhi⟩ := hroom c hc
      rw [Chunk.Apart]
      omega

/-- **`block->free = …` marks the block.** -/
theorem Listed.mark (h : Listed s (l ++ b :: r)) (free : Bool)
    (hmemory : s'.memory = putFree s.memory b.addr (if free then 1 else 0))
    (hhead : s'.heapHead = s.heapHead) (htail : s'.heapTail = s.heapTail) :
    Listed s' (l ++ b.mark free :: r) := by
  rw [List.append_cons]
  refine h.replace_one hhead ?_ (List.cons_ne_nil _ _) ?_ (fun next hnext => ?_)
    (List.pairwise_singleton _ _) ?_
  · rw [htail, lastAddr_singleton]
    split
    · exact h.tail_iff.mpr ‹_›
    · rfl
  · rw [hmemory]
    exact eqOutside_putFree.mono (Nat.le_refl _) (by rw [Chunk.stop]; omega)
  · refine ⟨next, ⟨rfl, ?_⟩, rfl⟩
    rw [hmemory, heapBlockAt_putFree, hnext]
    rfl
  · intro c hc
    obtain rfl := List.mem_singleton.mp hc
    exact ⟨Nat.le_refl _, Nat.le_refl _⟩

/-- What the five writes of a split leave in the two headers. -/
theorem split_memory {m m' : ℕ → Byte} {b c : Chunk} {size next : Word}
    (hb : heapBlockAt m b.addr = b.header next) (hfree : c.free = true)
    (hroom : b.addr.toNat + 24 ≤ c.addr.toNat)
    (hm' : m' = putNext (putSize (putNext (putFree (putSize m c.addr c.size) c.addr 1) c.addr
      (heapBlockAt (putFree (putSize m c.addr c.size) c.addr 1) b.addr).next) b.addr size) b.addr
      c.addr) :
    heapBlockAt m' b.addr = ⟨size, if b.free then 1 else 0, c.addr⟩ ∧
      heapBlockAt m' c.addr = c.header next ∧
      EqOutside b.addr.toNat (c.addr.toNat + 24) m m' := by
  have hbc := Or.inl hroom (b := c.addr.toNat + 24 ≤ b.addr.toNat)
  rw [heapBlockAt_putFree_of_ne hbc, heapBlockAt_putSize_of_ne hbc, hb] at hm'
  subst hm'
  refine ⟨?_, ?_, ?_⟩
  · rw [heapBlockAt_putNext, heapBlockAt_putSize, heapBlockAt_putNext_of_ne hbc,
      heapBlockAt_putFree_of_ne hbc, heapBlockAt_putSize_of_ne hbc, hb]
    rfl
  · rw [heapBlockAt_putNext_of_ne hbc.symm, heapBlockAt_putSize_of_ne hbc.symm, heapBlockAt_putNext,
      heapBlockAt_putFree, heapBlockAt_putSize]
    show (⟨c.size, 1, next⟩ : HeapBlock) = ⟨c.size, if c.free then 1 else 0, next⟩
    rw [hfree]
    rfl
  · have hc : ∀ {m₁ m₂ : ℕ → Byte}, EqOutside c.addr.toNat (c.addr.toNat + 24) m₁ m₂ →
        EqOutside b.addr.toNat (c.addr.toNat + 24) m₁ m₂ := fun h =>
        h.mono (by omega) (Nat.le_refl _)
    have hb : ∀ {m₁ m₂ : ℕ → Byte}, EqOutside b.addr.toNat (b.addr.toNat + 24) m₁ m₂ →
        EqOutside b.addr.toNat (c.addr.toNat + 24) m₁ m₂ := fun h =>
        h.mono (Nat.le_refl _) (by omega)
    exact ((((hc eqOutside_putSize).trans (hc eqOutside_putFree)).trans
      (hc eqOutside_putNext)).trans
      (hb eqOutside_putSize)).trans (hb eqOutside_putNext)

/-- **`split_block` splits the block of the list.** -/
theorem Listed.split (h : Listed s (l ++ b :: r)) {size : Word} (hsize : size.toNat + 56 < 2 ^ 64) :
    Listed (splitBlock s b.addr size) (l ++ b.split size ++ r) := by
  obtain ⟨next, hheader, -⟩ := h.header
  have hsmall : (heapBlockAt s.memory b.addr).size < size + heapBlockSizeof + heapMinSplit ↔
      ¬ size.toNat + 56 ≤ b.size.toNat := by
    rw [hheader, Chunk.header, heapBlockSizeof, heapMinSplit]
    bv_omega
  rw [splitBlock, Chunk.split]
  by_cases hfit : size.toNat + 56 ≤ b.size.toNat
  · rw [if_neg (by rw [hsmall]; exact fun hn => hn hfit), dif_pos hfit]
    have hle : size.toNat + 24 ≤ b.size.toNat := by omega
    have haddr := b.toNat_high_addr hle
    have hstop := b.stop_high hle
    have hrest : (heapBlockAt s.memory b.addr).size - size - heapBlockSizeof
        = (b.high size hle).size := by
      rw [hheader]
      rfl
    obtain ⟨hlow, hhigh, hout⟩ := @split_memory s.memory _ b (b.high size hle) size next hheader rfl
      (by omega) rfl
    rw [hrest]
    refine h.replace_one rfl ?_ (List.cons_ne_nil _ _) ?_ (fun next' hnext' => ?_) ?_ ?_
    · show (if s.heapTail = b.addr then (b.high size hle).addr else s.heapTail) = _
      simp only [h.tail_iff]
      rfl
    · refine hout.mono (Nat.le_refl _) ?_
      rw [← hstop, Chunk.stop]
      omega
    · obtain rfl : next = next' := congrArg HeapBlock.next (hheader.symm.trans hnext')
      exact ⟨_, ⟨rfl, hlow⟩, next, ⟨rfl, hhigh⟩, rfl⟩
    · refine List.pairwise_cons.mpr ⟨fun c hc => ?_, List.pairwise_singleton _ _⟩
      obtain rfl := List.mem_singleton.mp hc
      exact Or.inl (Nat.le_of_eq (b.stop_low hle))
    · intro c hc
      rcases List.mem_cons.mp hc with rfl | hc
      · refine ⟨Nat.le_refl _, ?_⟩
        rw [b.stop_low hle, ← hstop, Chunk.stop]
        omega
      · obtain rfl := List.mem_singleton.mp hc
        exact ⟨by omega, Nat.le_of_eq hstop⟩
  · rw [if_pos (hsmall.mpr hfit), dif_neg hfit]
    rwa [List.append_cons] at h

/-- A block is handed out whole, whatever the count. -/
theorem Listed.used (h : Listed s (l ++ b :: r)) (used : Word) :
    Listed { s with memory := putFree s.memory b.addr 0, heapUsed := used }
      (l ++ b.mark false :: r) :=
  h.mark false rfl rfl rfl

/-- What `takeBlock` makes of the block: its first part, used, and what was split off. -/
def Chunk.taken (b : Chunk) (size : Word) : List Chunk :=
  if h : size.toNat + 56 ≤ b.size.toNat then
    [(b.low size (by omega)).mark false, b.high size (by omega)]
  else [b.mark false]

/-- **The block is taken.** -/
theorem Listed.take (h : Listed s (l ++ b :: r)) {size : Word} (hsize : size.toNat + 56 < 2 ^ 64) :
    Listed (takeBlock s b.addr size) (l ++ b.taken size ++ r) := by
  have hsplit := h.split hsize
  rw [Chunk.split] at hsplit
  rw [Chunk.taken, takeBlock]
  split at hsplit
  · rename_i hfit
    rw [dif_pos hfit]
    rw [List.append_assoc] at hsplit ⊢
    exact hsplit.used _
  · rename_i hfit
    rw [dif_neg hfit]
    rw [List.append_assoc] at hsplit ⊢
    exact hsplit.used _

/-- …and its size is counted. -/
theorem Listed.take_used (h : Listed s (l ++ b :: r)) {size : Word}
    (hsize : size.toNat + 56 < 2 ^ 64) :
    (takeBlock s b.addr size).heapUsed =
      s.heapUsed + if size.toNat + 56 ≤ b.size.toNat then size else b.size := by
  have hused : (splitBlock s b.addr size).heapUsed = s.heapUsed := by
    rw [splitBlock]
    dsimp only
    split <;> rfl
  have hread : (heapBlockAt (splitBlock s b.addr size).memory b.addr).size =
      if size.toNat + 56 ≤ b.size.toNat then size else b.size := by
    have hsplit := h.split hsize
    rw [Chunk.split] at hsplit
    split at hsplit
    · rename_i hfit
      rw [List.append_assoc] at hsplit
      obtain ⟨next, hheader, -⟩ := hsplit.header
      rw [if_pos hfit]
      exact congrArg HeapBlock.size hheader
    · rename_i hfit
      rw [List.append_assoc] at hsplit
      obtain ⟨next, hheader, -⟩ := hsplit.header
      rw [if_neg hfit]
      exact congrArg HeapBlock.size hheader
  rw [takeBlock]
  show (splitBlock s b.addr size).heapUsed + _ = _
  rw [hused, hread]

end Taking

/-! ## Searching -/

/-- The block can be taken for `size`. -/
def Chunk.fits (size : Word) (b : Chunk) : Bool := b.free && decide (size ≤ b.size)

theorem stands_free {m : ℕ → Byte} {b : Chunk} {p next : Word} (h : Stands m b p next) :
    (heapBlockAt m p).free ≠ 0 ↔ b.free = true := by
  rw [h.2]
  show (if b.free then 1 else 0 : BitVec 32) ≠ 0 ↔ b.free = true
  cases b.free with
  | true => exact iff_of_true (by decide) rfl
  | false => exact iff_of_false (by decide) (by decide)

/-- **The search finds the first block that fits**, and ends where the list does. -/
theorem find_listed {m : ℕ → Byte} {size : Word} : ∀ {bs : List Chunk} {p : Word} {n : ℕ},
    Links (Stands m) p bs 0 → bs.length < n →
    loop (findBody m size) n p = some (((bs.find? (Chunk.fits size)).map Chunk.addr).getD 0)
  | _, _, 0, _, hn => absurd hn (Nat.not_lt_zero _)
  | [], p, n + 1, h, _ => by
    have hp : p = 0 := h
    have hbody : findBody m size p = .inr 0 := by
      rw [findBody, if_neg (fun hne => hne hp)]
    rw [loop_end hbody]
    rfl
  | b :: r, p, n + 1, h, hn => by
    obtain ⟨next, hb, hr⟩ := h
    have hp : p ≠ 0 := hb.1 ▸ b.addr_ne
    have hfits : (heapBlockAt m p).free ≠ 0 ∧ size ≤ (heapBlockAt m p).size ↔ b.fits size
        = true := by
      rw [stands_free hb, hb.2, Chunk.fits, Bool.and_eq_true, decide_eq_true_eq]
      rfl
    cases hfit : b.fits size with
    | true =>
      have hbody : findBody m size p = .inr p := by
        rw [findBody, if_pos hp]
        exact if_pos (hfits.mpr hfit)
      rw [loop_end hbody, List.find?_cons_of_pos hfit, hb.1]
      rfl
    | false =>
      have hbody : findBody m size p = .inl next := by
        rw [findBody, if_pos hp]
        refine (if_neg (fun h => Bool.noConfusion (hfit.symm.trans (hfits.mp h)))).trans ?_
        rw [hb.2]
        rfl
      rw [loop_next hbody, List.find?_cons_of_neg (by rw [hfit]; exact Bool.false_ne_true)]
      exact find_listed hr (Nat.lt_of_succ_lt_succ hn)

/-! ## Growing -/

section Growing

variable {s : Heap} {bs : List Chunk} {page : Word}

/-- What growing writes into the page. -/
def pageHeader (m : ℕ → Byte) (page : Word) : ℕ → Byte :=
  putNext (putFree (putSize m page heapBlockCapacity) page 1) page 0

theorem heapBlockAt_pageHeader (m : ℕ → Byte) (page : Word) :
    heapBlockAt (pageHeader m page) page = ⟨heapBlockCapacity, 1, 0⟩ := by
  rw [pageHeader, heapBlockAt_putNext, heapBlockAt_putFree, heapBlockAt_putSize]

theorem eqOutside_pageHeader (m : ℕ → Byte) (page : Word) :
    EqOutside page.toNat (page.toNat + 24) m (pageHeader m page) :=
  (eqOutside_putSize.trans eqOutside_putFree).trans eqOutside_putNext

/-- **A page at the end of the list.** -/
theorem Listed.grow (h : Listed s bs) (hpage : page ≠ 0) (hlt : page.toNat + 4096 < 2 ^ 64)
    (hapart : ∀ b ∈ bs, b.Apart (pageChunk page hpage hlt)) :
    Listed (growHeap s page).1 (bs ++ [pageChunk page hpage hlt]) := by
  have hstands : ∀ b : Chunk, b.Apart (pageChunk page hpage hlt) →
      b.addr.toNat + 24 ≤ page.toNat ∨ page.toNat + 24 ≤ b.addr.toNat := fun b hb => hb.symm.headers
  have hframe : ∀ b : Chunk, b.Apart (pageChunk page hpage hlt) →
      heapBlockAt (pageHeader s.memory page) b.addr = heapBlockAt s.memory b.addr := fun b hb =>
    heapBlockAt_of_eqOutside (eqOutside_pageHeader s.memory page) (hstands b hb)
  rw [growHeap, if_neg hpage]
  rcases List.eq_nil_or_concat bs with rfl | ⟨l, b, rfl⟩
  · have hhead : s.heapHead = 0 := h.linked
    simp only [hhead, if_true]
    exact ⟨⟨0, ⟨rfl, heapBlockAt_pageHeader s.memory page⟩, rfl⟩, rfl, List.pairwise_singleton _ _⟩
  · have hhead : s.heapHead ≠ 0 := fun h0 => by
      have := (links_zero_iff h.linked).mp h0
      simp at this
    have htail : s.heapTail = b.addr := by
      rw [h.tail, List.concat_eq_append, lastAddr_append (List.cons_ne_nil _ _), lastAddr_singleton]
    rw [List.concat_eq_append] at h hapart ⊢
    have hb : b.Apart (pageChunk page hpage hlt) := hapart b (by simp)
    simp only [hhead, if_false, htail]
    have hpages : l ++ [b] ++ [pageChunk page hpage hlt] = l ++ [b, pageChunk page hpage hlt]
        ++ [] := by
      rw [List.append_nil, List.append_assoc]
      rfl
    rw [hpages]
    rw [← List.append_nil (l ++ [b])] at h
    refine h.replace rfl rfl (List.cons_ne_nil _ _) (fun p next hp hr => ?_) ?_ fun d hd hdb => ?_
    · obtain ⟨_, ⟨rfl, hheader⟩, rfl⟩ := hp
      obtain rfl : _ = (0 : Word) := hr
      refine ⟨page, ⟨rfl, ?_⟩, 0, ⟨rfl, ?_⟩, rfl⟩
      · show heapBlockAt (putNext (pageHeader s.memory page) b.addr page) b.addr = _
        rw [heapBlockAt_putNext, hframe b hb, hheader]
        rfl
      · show heapBlockAt (putNext (pageHeader s.memory page) b.addr page) page = _
        rw [heapBlockAt_putNext_of_ne (hstands b hb).symm, heapBlockAt_pageHeader]
        rfl
    · refine List.pairwise_cons.mpr ⟨fun c hc => ?_, List.pairwise_singleton _ _⟩
      rwa [List.mem_singleton.mp hc]
    · rw [List.append_nil] at hd
      have hpage := hapart d (List.mem_append_left [b] hd)
      have hdb := hdb b List.mem_cons_self
      refine ⟨?_, fun c hc => ?_⟩
      · show heapBlockAt (putNext (pageHeader s.memory page) b.addr page) d.addr = _
        rw [heapBlockAt_putNext_of_ne hdb.headers, hframe d hpage]
      · rcases List.mem_cons.mp hc with rfl | hc
        · exact hdb
        · rw [List.mem_singleton.mp hc]
          exact hpage.symm

end Growing

/-! ## Joining -/

section Joining

variable {s : Heap} {l r : List Chunk} {b c : Chunk} {next : Word}

/-- The headers of a block and of the one it links to. -/
theorem Listed.header_next (h : Listed s (l ++ b :: c :: r)) :
    heapBlockAt s.memory b.addr = b.header c.addr ∧
      ∃ next, heapBlockAt s.memory c.addr = c.header next ∧ Links (Stands s.memory) next r 0 := by
  obtain ⟨_, hheader, _, ⟨rfl, hc⟩, hr⟩ := h.header
  exact ⟨hheader, _, hc, hr⟩

/-- `block_end == block->next`, and both are free. -/
theorem joins_iff (h : Listed s (l ++ b :: c :: r)) :
    ((heapBlockAt s.memory b.addr).free ≠ 0 ∧
      (heapBlockAt s.memory (heapBlockAt s.memory b.addr).next).free ≠ 0 ∧
      b.addr + heapBlockSizeof + (heapBlockAt s.memory b.addr).size
        = (heapBlockAt s.memory b.addr).next) ↔ b.Joins c := by
  obtain ⟨hb, next, hc, -⟩ := h.header_next
  have hend : b.addr + heapBlockSizeof + b.size = c.addr ↔ b.stop = c.addr.toNat := by
    have := b.stop_lt
    rw [Chunk.stop, heapBlockSizeof]
    bv_omega
  rw [stands_free ⟨rfl, hb⟩, hb]
  show _ ∧ (heapBlockAt s.memory c.addr).free ≠ 0 ∧ b.addr + heapBlockSizeof + b.size = c.addr ↔ _
  rw [stands_free ⟨rfl, hc⟩, hend]
  rfl

/-- The loop ends at the last block… -/
theorem coalesceBody_last (h : Listed s (l ++ [b])) : coalesceBody (s, b.addr) = .inr s := by
  obtain ⟨next, hb, hr⟩ := h.header
  obtain rfl : next = 0 := hr
  rw [coalesceBody, hb]
  exact if_neg fun hn => hn.2 rfl

/-- …goes on from a block that does not join its neighbour… -/
theorem coalesceBody_next (h : Listed s (l ++ b :: c :: r)) (hbc : ¬ b.Joins c) :
    coalesceBody (s, b.addr) = .inl (s, c.addr) := by
  rw [← joins_iff h] at hbc
  obtain ⟨hb, -⟩ := h.header_next
  rw [coalesceBody, if_pos ⟨b.addr_ne, by rw [hb]; exact c.addr_ne⟩]
  refine (if_neg hbc).trans ?_
  rw [hb]
  rfl

/-- What a turn makes of a block that does: `next` is what its neighbour links to. -/
def joined (s : Heap) (b c : Chunk) (next : Word) : Heap :=
  { s with
    memory := putNext (putSize s.memory b.addr (b.size + (heapBlockSizeof + c.size))) b.addr next
    heapTail := if next = 0 then b.addr else s.heapTail }

/-- …and stays at one that does. -/
theorem coalesceBody_join (h : Listed s (l ++ b :: c :: r)) (hbc : b.Joins c)
    (hnext : heapBlockAt s.memory c.addr = c.header next) :
    coalesceBody (s, b.addr) = .inl (joined s b c next, b.addr) := by
  obtain ⟨hb, -⟩ := h.header_next
  have hcond := (joins_iff h).mpr hbc
  rw [hb] at hcond
  rw [coalesceBody, hb, if_pos ⟨b.addr_ne, c.addr_ne⟩]
  refine (if_pos hcond).trans ?_
  show _ = Sum.inl (joined s b c next, b.addr)
  rw [show (b.header c.addr).next = c.addr from rfl, hnext]
  rfl

/-- **A turn that joins two blocks.** -/
theorem Listed.join (h : Listed s (l ++ b :: c :: r)) (hbc : b.Joins c)
    (hnext : heapBlockAt s.memory c.addr = c.header next) :
    Listed (joined s b c next) (l ++ b.join c hbc :: r) := by
  obtain ⟨hb, next', hc, hr⟩ := h.header_next
  obtain rfl : next' = next := congrArg HeapBlock.next (hc.symm.trans hnext)
  have hstop : b.stop = c.addr.toNat := hbc.2.2
  have hout : EqOutside b.addr.toNat (b.addr.toNat + 24) s.memory (joined s b c next').memory :=
    eqOutside_putSize.trans eqOutside_putNext
  have hold : Listed s (l ++ [b, c] ++ r) := by rwa [List.append_assoc]
  rw [List.append_cons]
  refine hold.replace rfl ?_ (List.cons_ne_nil _ _) (fun p x hp hx => ?_)
    (List.pairwise_singleton _ _) fun d _ hd => ?_
  · rw [lastAddr_singleton]
    show (if next' = 0 then b.addr else s.heapTail) = if r = [] then b.addr else s.heapTail
    simp only [links_zero_iff hr]
  · obtain ⟨_, ⟨rfl, -⟩, _, ⟨rfl, hx'⟩, rfl⟩ := hp
    obtain rfl : _ = next' := congrArg HeapBlock.next (hx'.symm.trans hnext)
    refine ⟨_, ⟨rfl, ?_⟩, rfl⟩
    show heapBlockAt (putNext (putSize s.memory b.addr _) b.addr _) b.addr = _
    rw [heapBlockAt_putNext, heapBlockAt_putSize, hb]
    show (⟨_, if b.free then 1 else 0, _⟩ : HeapBlock) = ⟨_, if true then 1 else 0, _⟩
    rw [hbc.1]
    rfl
  · have hbd := hd b List.mem_cons_self
    have hcd := hd c (List.mem_cons_of_mem b List.mem_cons_self)
    refine ⟨heapBlockAt_of_eqOutside hout hbd.headers, fun e he => ?_⟩
    rw [List.mem_singleton.mp he, Chunk.Apart, Chunk.stop_join]
    show c.stop ≤ d.addr.toNat ∨ d.stop ≤ b.addr.toNat
    have hpos : d.addr.toNat < d.stop := by
      rw [Chunk.stop]
      omega
    rw [Chunk.Apart] at hbd hcd
    omega

end Joining

/-- **Coalescing is `merge`**: the loop from a block on, in no more turns than there are blocks. -/
theorem coalesce_from : ∀ {r : List Chunk} {s : Heap} {l : List Chunk} {b : Chunk} {n : ℕ},
    Listed s (l ++ b :: r) → r.length < n →
    ∃ s', loop coalesceBody n (s, b.addr) = some s' ∧ Listed s' (l ++ mergeFrom b r)
      ∧ s'.heapUsed = s.heapUsed ∧ s'.pages = s.pages
  | _, _, _, _, 0, _, hn => absurd hn (Nat.not_lt_zero _)
  | [], s, l, b, n + 1, h, _ => ⟨s, loop_end (coalesceBody_last h) n, h, rfl, rfl⟩
  | c :: r, s, l, b, n + 1, h, hn => by
    have hlt : r.length < n := Nat.lt_of_succ_lt_succ hn
    rw [mergeFrom]
    by_cases hbc : b.Joins c
    · obtain ⟨-, next, hnext, -⟩ := h.header_next
      rw [loop_next (coalesceBody_join h hbc hnext), dif_pos hbc]
      exact coalesce_from (h.join hbc hnext) hlt
    · rw [loop_next (coalesceBody_next h hbc), dif_neg hbc, List.append_cons]
      rw [List.append_cons] at h
      exact coalesce_from h hlt

/-- …and from the head. -/
theorem coalesce_listed {s : Heap} {bs : List Chunk} (h : Listed s bs)
    (hn : bs.length < heapTurns) :
    ∃ s', coalesceBlocks s = some s' ∧ Listed s' (merge bs)
      ∧ s'.heapUsed = s.heapUsed ∧ s'.pages = s.pages := by
  cases bs with
  | nil =>
    have hhead : s.heapHead = 0 := h.linked
    have hbody : coalesceBody (s, s.heapHead) = .inr s := if_neg fun hne => hne.1 hhead
    have hpos : heapTurns = heapTurns - 1 + 1 := (Nat.succ_pred_eq_of_pos hn).symm
    rw [coalesceBlocks, hpos, loop_end hbody]
    exact ⟨s, rfl, h, rfl, rfl⟩
  | cons b r =>
    obtain ⟨_, ⟨hhead, -⟩, -⟩ := h.linked
    rw [coalesceBlocks, hhead]
    exact coalesce_from (l := []) h (Nat.lt_of_succ_lt hn)

end SaturnOS
