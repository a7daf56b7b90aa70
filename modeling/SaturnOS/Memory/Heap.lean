import SaturnOS.Machinery.Bits
import SaturnOS.Machinery.Bytes
import SaturnOS.Machinery.Loops
import SaturnOS.Memory.AddressSpace

/-!
# Memory/Heap — the kernel's heap

`kernel/memory/heap.c`: one list of blocks, each a header and its payload, over pages that are never
given back.

    heap_head ──▸ │ size free next │ payload │ ──▸ │ size free next │ payload │ ──▸ 0

The headers are bytes of the memory, 24 of them; nothing but the list says where they stand.
`kmalloc` splits the first free block that is large enough, or a new page at the tail; `kfree` joins
free neighbours.  What `pmm_alloc_page` would return is an argument, and a fresh page.
-/

open Machinery

namespace SaturnOS

/-! ## Headers in memory -/

/-- Sizes are rounded up to this… -/
def heapAlign : Word := 16
/-- …and a block is split if this much is left behind a second header. -/
def heapMinSplit : Word := 32
def pmmPageSize : Word := 4096

/-- `struct heap_block`. -/
structure HeapBlock where
  size : Word
  free : BitVec 32
  next : Word
  deriving DecidableEq

/-- `sizeof(struct heap_block)`, padding included. -/
def heapBlockSizeof : Word := 24

/-- The header at `p`; `free` is followed by four bytes of padding. -/
def heapBlockAt (m : ℕ → Byte) (p : Word) : HeapBlock where
  size := .ofNat 64 (getLe m p.toNat 8)
  free := .ofNat 32 (getLe m (p.toNat + 8) 4)
  next := .ofNat 64 (getLe m (p.toNat + 16) 8)

/-- The assignments to the fields of the header at `p`. -/
def putSize (m : ℕ → Byte) (p v : Word) : ℕ → Byte := putLe m p.toNat 8 v.toNat
def putFree (m : ℕ → Byte) (p : Word) (v : BitVec 32) : ℕ → Byte := putLe m (p.toNat + 8) 4 v.toNat
def putNext (m : ℕ → Byte) (p v : Word) : ℕ → Byte := putLe m (p.toNat + 16) 8 v.toNat

section Headers

variable {m m' : ℕ → Byte} {p q v : Word} {f : BitVec 32}

/-- **An assignment changes its field** and reads back, the others stay. -/
@[simp] theorem heapBlockAt_putSize :
    heapBlockAt (putSize m p v) p = { heapBlockAt m p with size := v } := by
  rw [heapBlockAt, putSize, ofNat_getLe_put (w := 64) rfl, getLe_put_of_ne (by omega),
    getLe_put_of_ne (by omega), heapBlockAt]

@[simp] theorem heapBlockAt_putFree :
    heapBlockAt (putFree m p f) p = { heapBlockAt m p with free := f } := by
  rw [heapBlockAt, putFree, ofNat_getLe_put (w := 32) rfl, getLe_put_of_ne (by omega),
    getLe_put_of_ne (by omega), heapBlockAt]

@[simp] theorem heapBlockAt_putNext :
    heapBlockAt (putNext m p v) p = { heapBlockAt m p with next := v } := by
  rw [heapBlockAt, putNext, ofNat_getLe_put (w := 64) rfl, getLe_put_of_ne (by omega),
    getLe_put_of_ne (by omega), heapBlockAt]

/-- A header is its 24 bytes. -/
theorem heapBlockAt_congr (h : ∀ i, p.toNat ≤ i → i < p.toNat + 24 → m' i = m i) :
    heapBlockAt m' p = heapBlockAt m p := by
  have hfield : ∀ a width, p.toNat ≤ a → a + width ≤ p.toNat + 24 →
      getLe m' a width = getLe m a width := fun a width ha hw =>
    getLe_congr fun i hi => h (a + i) (by omega) (by omega)
  rw [heapBlockAt, hfield _ _ (by omega) (by omega), hfield _ _ (by omega) (by omega),
    hfield _ _ (by omega) (by omega)]
  rfl

/-- A header apart from what is written is as it was… -/
theorem heapBlockAt_of_eqOutside {a b : ℕ} (h : EqOutside a b m m')
    (hp : p.toNat + 24 ≤ a ∨ b ≤ p.toNat) : heapBlockAt m' p = heapBlockAt m p :=
  heapBlockAt_congr fun i h1 h2 => h i (by omega)

/-- …and each assignment writes inside its header. -/
theorem eqOutside_putSize : EqOutside p.toNat (p.toNat + 24) m (putSize m p v) :=
  (eqOutside_putLe m p.toNat 8 _).mono (Nat.le_refl _) (by omega)

theorem eqOutside_putFree : EqOutside p.toNat (p.toNat + 24) m (putFree m p f) :=
  (eqOutside_putLe m (p.toNat + 8) 4 _).mono (by omega) (by omega)

theorem eqOutside_putNext : EqOutside p.toNat (p.toNat + 24) m (putNext m p v) :=
  (eqOutside_putLe m (p.toNat + 16) 8 _).mono (by omega) (by omega)

end Headers

/-! ## The heap -/

/-- The statics of the file, the memory its blocks stand in, and the pages `pmm_alloc_page` has
given it, the last first. -/
structure Heap where
  memory : ℕ → Byte
  heapHead : Word
  heapTail : Word
  heapPages : Word
  heapUsed : Word
  heapStart : Word
  heapEnd : Word
  pages : List Word

/-- `align_up` of `heap.c`. -/
def heapAlignUp (value : Word) : Word := (value + heapAlign - 1) &&& ~~~(heapAlign - 1)

/-- What a page has behind its header. -/
def heapBlockCapacity : Word := pmmPageSize - heapBlockSizeof

/-- `split_block`: the rest of the block becomes a free block behind it, and the tail if the block
was. -/
def splitBlock (s : Heap) (block size : Word) : Heap :=
  let header := heapBlockAt s.memory block
  if header.size < size + heapBlockSizeof + heapMinSplit then s
  else
    let remaining := header.size - size - heapBlockSizeof
    let next := block + heapBlockSizeof + size
    let m := putSize s.memory next remaining
    let m := putFree m next 1
    let m := putNext m next (heapBlockAt m block).next
    let m := putSize m block size
    let m := putNext m block next
    { s with memory := m, heapTail := if s.heapTail = block then next else s.heapTail }

/-- A turn of the loop of `coalesce_blocks`: the heap, and the block the loop is at. -/
def coalesceBody : Heap × Word → (Heap × Word) ⊕ Heap
  | (s, block) =>
    let header := heapBlockAt s.memory block
    if block ≠ 0 ∧ header.next ≠ 0 then
      let blockEnd := block + heapBlockSizeof + header.size
      let next := heapBlockAt s.memory header.next
      if header.free ≠ 0 ∧ next.free ≠ 0 ∧ blockEnd = header.next then
        let m := putSize s.memory block (header.size + (heapBlockSizeof + next.size))
        let m := putNext m block next.next
        .inl ({ s with memory := m, heapTail := if next.next = 0 then block else s.heapTail },
          block)
      else .inl (s, header.next)
    else .inr s

/-- A turn of the loop of `find_free_block`. -/
def findBody (m : ℕ → Byte) (size block : Word) : Word ⊕ Word :=
  if block ≠ 0 then
    let header := heapBlockAt m block
    if header.free ≠ 0 ∧ size ≤ header.size then .inr block
    else .inl header.next
  else .inr 0

/-- More turns than a list in memory has blocks. -/
def heapTurns : ℕ := 2 ^ 64

/-- `coalesce_blocks`, from the head to the tail; `none` where the list does not end. -/
def coalesceBlocks (s : Heap) : Option Heap := loop coalesceBody heapTurns (s, s.heapHead)

/-- `find_free_block`: the first free block that is large enough, 0 where there is none. -/
def findFreeBlock (s : Heap) (size : Word) : Option Word :=
  loop (findBody s.memory size) heapTurns s.heapHead

/-- `page` is what `pmm_alloc_page` returns. -/
def growHeap (s : Heap) (page : Word) : Heap × Word :=
  if page = 0 then (s, 0)
  else
    let m := putSize s.memory page heapBlockCapacity
    let m := putFree m page 1
    let m := putNext m page 0
    let s :=
      if s.heapHead = 0 then { s with memory := m, heapHead := page, heapTail := page }
      else { s with memory := putNext m s.heapTail page, heapTail := page }
    ({ s with
        heapPages := s.heapPages + 1
        heapStart := if s.heapStart = 0 ∨ page < s.heapStart then page else s.heapStart
        heapEnd := if s.heapEnd < page + pmmPageSize then page + pmmPageSize else s.heapEnd
        pages := page :: s.pages }, page)

/-- `heap_init`: no block, and no page. -/
def heapInit (s : Heap) : Heap :=
  { s with heapHead := 0, heapTail := 0, heapPages := 0, heapUsed := 0, heapStart := 0, heapEnd := 0
           pages := [] }

/-- What `kmalloc` does with the block it has: split it, mark it used, count it. -/
def takeBlock (s : Heap) (block size : Word) : Heap :=
  let s := splitBlock s block size
  { s with memory := putFree s.memory block 0
           heapUsed := s.heapUsed + (heapBlockAt s.memory block).size }

/-- `none` where the search does not end. -/
def kmalloc (s : Heap) (size page : Word) : Option (Heap × Word) :=
  if size = 0 then some (s, 0)
  else
    let size := heapAlignUp size
    if heapBlockCapacity < size then some (s, 0)
    else
      (findFreeBlock s size).map fun found =>
        let (s, block) := if found = 0 then growHeap s page else (s, found)
        if block = 0 then (s, 0) else (takeBlock s block size, block + heapBlockSizeof)

/-- The loop of `kzalloc`: `ptr[i] = 0` for the `i` below `n`. -/
def zeroBytes (m : ℕ → Byte) (ptr : Word) : ℕ → ℕ → Byte
  | 0 => m
  | n + 1 => fun x => if x = (ptr + BitVec.ofNat 64 n).toNat then 0 else zeroBytes m ptr n x

/-- `kzalloc`: it clears the size it was asked for, not the rounded one that `kmalloc` looks for. -/
def kzalloc (s : Heap) (size page : Word) : Option (Heap × Word) :=
  (kmalloc s size page).map fun (s, ptr) =>
    if ptr = 0 then (s, 0) else ({ s with memory := zeroBytes s.memory ptr size.toNat }, ptr)

/-- `kfree`: a block that is free already is left alone. -/
def kfree (s : Heap) (ptr : Word) : Option Heap :=
  if ptr = 0 then some s
  else
    let block := ptr - heapBlockSizeof
    let header := heapBlockAt s.memory block
    if header.free ≠ 0 then some s
    else
      coalesceBlocks { s with
        memory := putFree s.memory block 1
        heapUsed := s.heapUsed - header.size }

/-! ## Numbers -/

/-- **The rounding**, as a number, where it does not wrap. -/
theorem toNat_heapAlignUp {size : Word} (h : size.toNat + 15 < 2 ^ 64) :
    (heapAlignUp size).toNat = (size.toNat + 15) / 16 * 16 := by
  have hsum : (size + heapAlign - 1).toNat = size.toNat + 15 := by
    rw [heapAlign]
    bv_omega
  rw [heapAlignUp, show heapAlign - 1 = BitVec.ofNat 64 (2 ^ 4 - 1)
    from by decide, toNat_and_not, hsum]
  rfl

/-- **Where the rounding wraps there is nothing left to ask for.** -/
theorem heapAlignUp_wraps {size : Word} (h : 2 ^ 64 ≤ size.toNat + 15) : heapAlignUp size = 0 := by
  have hsum : (size + heapAlign - 1).toNat = size.toNat + 15 - 2 ^ 64 := by
    rw [heapAlign]
    bv_omega
  refine BitVec.eq_of_toNat_eq ?_
  rw [heapAlignUp, show heapAlign - 1 = BitVec.ofNat 64 (2 ^ 4 - 1)
    from by decide, toNat_and_not, hsum]
  have := size.isLt
  show _ = 0
  omega

/-- What the loop has zeroed. -/
theorem zeroBytes_apply {m : ℕ → Byte} {ptr : Word} {n : ℕ} (hn : n ≤ 2 ^ 64) (x : ℕ) :
    zeroBytes m ptr n x = if x < 2 ^ 64 ∧ (BitVec.ofNat 64 x - ptr).toNat < n then 0 else m x := by
  induction n with
  | zero => rw [zeroBytes, if_neg (by omega)]
  | succ n ih =>
    have hx : x = (ptr + BitVec.ofNat 64 n).toNat ↔ x < 2 ^ 64 ∧ (BitVec.ofNat 64 x - ptr).toNat
        = n := by
      have := ptr.isLt
      rw [BitVec.toNat_add, BitVec.toNat_sub, BitVec.toNat_ofNat, BitVec.toNat_ofNat]
      omega
    show (if x = (ptr + BitVec.ofNat 64 n).toNat then 0 else zeroBytes m ptr n x) = _
    rw [ih (by omega)]
    by_cases h : x = (ptr + BitVec.ofNat 64 n).toNat
    · obtain ⟨hlt, heq⟩ := hx.mp h
      rw [if_pos h, if_pos ⟨hlt, by omega⟩]
    · rw [if_neg h]
      by_cases hin : x < 2 ^ 64 ∧ (BitVec.ofNat 64 x - ptr).toNat < n
      · rw [if_pos hin, if_pos ⟨hin.1, by omega⟩]
      · rw [if_neg hin, if_neg]
        rintro ⟨hlt, hle⟩
        exact h (hx.mpr ⟨hlt, by omega⟩)

/-- A fill that does not run over the end of the memory stays within its bytes. -/
theorem eqOutside_zeroBytes {m : ℕ → Byte} {ptr : Word} {n : ℕ} (h : ptr.toNat + n ≤ 2 ^ 64) :
    EqOutside ptr.toNat (ptr.toNat + n) m (zeroBytes m ptr n) := by
  intro x hx
  have := ptr.isLt
  rw [zeroBytes_apply (by omega), if_neg]
  rintro ⟨hlt, hlow⟩
  rw [BitVec.toNat_sub, BitVec.toNat_ofNat] at hlow
  omega

end SaturnOS
