import SaturnOS.Memory.HeapRuns

/-!
# Memory/HeapSizes — as many bytes as were asked for

    size ──align_up──▸ size'         size' = 0 from 2⁶⁴ - 15 on
    size' ≤ │ header │ payload … │

A block that is handed out has as many bytes as were asked for, and `kzalloc` clears no others
(`Grants`), exactly where the size does not wrap in `align_up` or nothing is handed out at all
(`grants_iff`).
-/

open Machinery

namespace SaturnOS

/-- The payload size of the block whose payload is at `ptr`. -/
def payloadSize (s : Heap) (ptr : Word) :
    Word := (heapBlockAt s.memory (ptr - heapBlockSizeof)).size

/-- **A call gives what it was asked for**, and clears within it. -/
def Grants (s : Heap) : HeapOp → Prop
  | .kmalloc size page => ∀ s' ptr, kmalloc s size page = some (s', ptr) → ptr ≠ 0 →
      size.toNat ≤ (payloadSize s' ptr).toNat
  | .kzalloc size page => ∀ s' ptr, kzalloc s size page = some (s', ptr) → ptr ≠ 0 →
      size.toNat ≤ (payloadSize s' ptr).toNat
        ∧ ∃ s₀, kmalloc s size page = some (s₀, ptr) ∧ size.toNat ≤ (payloadSize s₀ ptr).toNat
          ∧ EqOutside ptr.toNat (ptr.toNat + (payloadSize s₀ ptr).toNat) s₀.memory s'.memory
  | .kfree _ => True

/-- The size does not wrap, or no block is free and no page is left. -/
def Rounds (s : Heap) : HeapOp → Prop
  | .kmalloc size page => size.toNat + 15 < 2 ^ 64 ∨ findFreeBlock s 0 = some 0 ∧ page = 0
  | .kzalloc size page => size.toNat + 15 < 2 ^ 64 ∨ findFreeBlock s 0 = some 0 ∧ page = 0
  | .kfree _ => True

section Calls

variable {s s' : Heap} {live : List (Word × Word)} {bs : List Chunk} {b : Chunk}
    {size page ptr : Word}

/-- The header of a block says its size. -/
theorem Represents.payloadSize (h : Represents s bs) (hb : b ∈ bs) :
    SaturnOS.payloadSize s b.payload = b.size := by
  obtain ⟨l, r, rfl⟩ := List.append_of_mem hb
  obtain ⟨next, hheader, -⟩ := h.listed.header
  rw [SaturnOS.payloadSize, b.payload_sub]
  exact congrArg HeapBlock.size hheader

/-- …and stands in front of its payload. -/
theorem payloadSize_congr {n : ℕ} (h : EqOutside ptr.toNat n s.memory s'.memory)
    (hlow : 24 ≤ ptr.toNat) :
    payloadSize s' ptr = payloadSize s ptr := by
  have hplace : (ptr - heapBlockSizeof).toNat + 24 = ptr.toNat := by
    rw [heapBlockSizeof]
    bv_omega
  exact congrArg HeapBlock.size (heapBlockAt_of_eqOutside h (.inl hplace.le))

/-- **What `kmalloc` hands out**: large enough where the size does not wrap, and never larger than
the memory. -/
theorem kmalloc_payloadSize (h : Represents s bs) (hl : Lent live bs) (hpage : FreshPage s page)
    (hcall : kmalloc s size page = some (s', ptr)) (hptr : ptr ≠ 0) :
    (size.toNat + 15 < 2 ^ 64 → size.toNat ≤ (payloadSize s' ptr).toNat)
      ∧ ptr.toNat + (payloadSize s' ptr).toNat < 2 ^ 64 ∧ 24 ≤ ptr.toNat := by
  obtain ⟨t, p, bs', ht, hall⟩ : ∃ t p bs', kmalloc s size page = some (t, p)
    ∧ Allocates live size t p bs' := kmalloc_allocates h hl hpage
  obtain ⟨rfl, rfl⟩ := Prod.mk.inj (Option.some.inj (ht.symm.trans hcall))
  obtain ⟨b, hb, rfl, hsize⟩ := hall.serves hptr
  have hplace := b.toNat_payload
  have hlt := b.stop_lt
  rw [hall.represents.payloadSize hb]
  exact ⟨hsize, by omega, by omega⟩

/-- Where the size wraps, a block that is free or a page is handed out. -/
theorem kmalloc_wraps_ne_zero (h : Represents s bs) (hpage : FreshPage s page)
    (hwraps : ¬ size.toNat + 15 < 2 ^ 64) (hroom : ¬ (findFreeBlock s 0 = some 0 ∧ page = 0))
    (hcall : kmalloc s size page = some (s', ptr)) : ptr ≠ 0 := by
  have hzero : heapAlignUp size = 0 := heapAlignUp_wraps (by omega)
  obtain ⟨t, p, bs', ht, hm⟩ : ∃ t p bs', kmalloc s size page = some (t, p)
    ∧ Mallocs s bs size page t p bs' := kmalloc_cases h hpage
  obtain ⟨-, rfl⟩ := Prod.mk.inj (Option.some.inj (ht.symm.trans hcall))
  cases hm with
  | refused hrefused =>
    rw [Refused, hzero] at hrefused
    rcases hrefused with rfl | hcap | hnone
    · exact absurd (by decide) hwraps
    · exact absurd hcap (by decide)
    · exact absurd hnone hroom
  | found => exact Chunk.payload_ne _
  | grown => exact Chunk.payload_ne _

/-- **`kmalloc` gives what it was asked for**, exactly where its size does not wrap. -/
theorem kmalloc_grants (h : Represents s bs) (hl : Lent live bs) (hpage : FreshPage s page) :
    Grants s (.kmalloc size page) ↔ Rounds s (.kmalloc size page) := by
  constructor
  · intro hgrants
    by_contra hno
    obtain ⟨hwraps, hroom⟩ := not_or.mp hno
    obtain ⟨s', ptr, bs', hcall, -⟩ : ∃ s' p bs', kmalloc s size page = some (s', p)
      ∧ Allocates live size s' p bs' := kmalloc_allocates h hl hpage
    have hptr := kmalloc_wraps_ne_zero h hpage hwraps hroom hcall
    obtain ⟨-, hlt, hlow⟩ := kmalloc_payloadSize h hl hpage hcall hptr
    have := hgrants s' ptr hcall hptr
    omega
  · rintro (hround | ⟨hfind, rfl⟩) s' ptr hcall hptr
    · exact (kmalloc_payloadSize h hl hpage hcall hptr).1 hround
    · by_cases hround : size.toNat + 15 < 2 ^ 64
      · exact (kmalloc_payloadSize h hl hpage hcall hptr).1 hround
      · rw [kmalloc_none hfind hround] at hcall
        obtain ⟨-, rfl⟩ := Prod.mk.inj (Option.some.inj hcall)
        exact absurd rfl hptr

/-- …and so does `kzalloc`, which clears what it was given. -/
theorem kzalloc_grants (h : Represents s bs) (hl : Lent live bs) (hpage : FreshPage s page) :
    Grants s (.kzalloc size page) ↔ Grants s (.kmalloc size page) := by
  constructor
  · intro hgrants s₀ ptr hcall hptr
    have hzeroed : kzalloc s size page
        = some ({ s₀ with memory := zeroBytes s₀.memory ptr size.toNat }, ptr) := by
      rw [kzalloc, hcall]
      exact congrArg some (if_neg hptr)
    obtain ⟨-, s₁, hcall', hle, -⟩ := hgrants _ ptr hzeroed hptr
    obtain ⟨rfl, -⟩ := Prod.mk.inj (Option.some.inj (hcall.symm.trans hcall'))
    exact hle
  · intro hgrants s' ptr hzeroed hptr
    obtain ⟨⟨s₀, p⟩, hcall, heq⟩ := Option.map_eq_some_iff.mp hzeroed
    have hp : p ≠ 0 := by
      rintro rfl
      exact hptr (congrArg Prod.snd heq).symm
    dsimp only at heq
    rw [if_neg hp] at heq
    obtain ⟨rfl, rfl⟩ := Prod.mk.inj heq
    have hle := hgrants s₀ p hcall hptr
    obtain ⟨-, hlt, hlow⟩ := kmalloc_payloadSize h hl hpage hcall hptr
    have hcleared : EqOutside p.toNat (p.toNat + (payloadSize s₀ p).toNat) s₀.memory
        (zeroBytes s₀.memory p size.toNat) :=
      (eqOutside_zeroBytes (by omega)).mono (Nat.le_refl _) (by omega)
    have hheader : payloadSize { s₀ with memory := zeroBytes s₀.memory p size.toNat } p
        = payloadSize s₀ p := payloadSize_congr hcleared hlow
    exact ⟨by rw [hheader]; exact hle, s₀, hcall, hle, hcleared⟩

end Calls

theorem HeapInv.grants_iff {s : HeapRun} (h : HeapInv s) {op : HeapOp} (hop : Allowed s op) :
    Grants s.heap op ↔ Rounds s.heap op := by
  obtain ⟨bs, hr, hl⟩ := h
  cases op with
  | kmalloc size page => exact kmalloc_grants hr hl hop
  | kzalloc size page => exact (kzalloc_grants hr hl hop).trans (kmalloc_grants hr hl hop)
  | kfree ptr => exact Iff.rfl

/-- **A block has the bytes that were asked for exactly where the size does not wrap**, in every
state of a run in which `kzalloc` clears within its blocks. -/
theorem allocations_large_enough (s : Heap) (ops : List HeapOp)
    (h : Along heapStep (fun s op _ => ZeroesWithin s op) (heapRunInit s) ops) :
    Always heapStep (fun s => ∀ op, Allowed s op → (Grants s.heap op ↔ Rounds s.heap op))
      (heapRunInit s) ops := by
  refine Always.of_along (I := HeapInv) (fun s op s' hinv hstep hwithin => ?_)
    (fun s hinv op hop => hinv.grants_iff hop) (heapInv_init s) h
  obtain ⟨hop, hstep⟩ := Option.ite_none_right_eq_some.mp hstep
  obtain ⟨t, ht, hkeep⟩ := heapCall_inv hinv hop
  obtain rfl := Option.some.inj (ht.symm.trans hstep)
  exact hkeep hwithin

theorem allocations_large_enough_small :
    (run heapStep (heapRunInit emptyHeap) [.kmalloc 64 0x40300000, .kzalloc 128 0]).isSome = true ∧
    Always heapStep (fun s => ∀ op, Allowed s op → (Grants s.heap op ↔ Rounds s.heap op))
      (heapRunInit emptyHeap) [.kmalloc 64 0x40300000, .kzalloc 128 0] :=
  ⟨by decide +kernel, allocations_large_enough emptyHeap _ fun _ _ =>
    ⟨trivial, fun _ _ => ⟨.inl (by decide), trivial⟩⟩⟩

/-- **The defect**: for `2⁶⁴ - 1` bytes `kmalloc` hands out a block of none. -/
theorem kmalloc_grants_nothing : ¬ Always heapStep
    (fun s => ∀ op, Allowed s op → Grants s.heap op) (heapRunInit emptyHeap) [] := by
  intro hall
  have hgot : ((kmalloc emptyHeap (BitVec.ofNat 64 (2 ^ 64 - 1)) 0x40300000).map fun r =>
      (payloadSize r.1 r.2, r.2)) = some (0, 0x40300018) := by decide +kernel
  obtain ⟨⟨s, ptr⟩, hcall, hfields⟩ := Option.map_eq_some_iff.mp hgot
  obtain ⟨hsize, rfl⟩ := Prod.mk.inj hfields
  have hle := hall.1 (.kmalloc (BitVec.ofNat 64 (2 ^ 64 - 1)) 0x40300000) (by decide) s _ hcall
    (by decide)
  rw [hsize] at hle
  exact absurd hle (by decide)

end SaturnOS
