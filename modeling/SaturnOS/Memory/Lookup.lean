import SaturnOS.Memory.Identity

/-!
# Memory/Lookup — where the kernel's map takes an address

    address ──▸ block of the device window ──▸ itself
            ──▸ page of the kernel's 2 MiB ──▸ itself, or a guard: nothing
            ──▸ block of the RAM           ──▸ itself

`kernelTranslation` says it in one definition.  The hardware's walk from the kernel's root
(`walk_built`) and the lookup that `vm.c` does itself (`translationForAddress_built`) both compute
it.
-/

open Machinery

namespace SaturnOS

variable {L : Layout} {img : Image}

/-! ## What a block gives back -/

/-- An address a block descriptor can carry. -/
structure BlockAddress (p : Word) : Prop where
  aligned : 2 ^ 21 ∣ p.toNat
  below : p.toNat < 2 ^ 48

theorem blockAddress_ok {b : ℕ} (h : b < 2 ^ 18) : BlockAddress (blockAddress b) := by
  refine ⟨?_, ?_⟩ <;> rw [toNat_blockAddress h]
  · exact Nat.dvd_mul_left _ _
  · omega

theorem pageAddress_ok {p : ℕ} (h : p < 2 ^ 27) : PageAddress (pageAddress p) := by
  refine ⟨?_, ?_⟩ <;> rw [toNat_pageAddress h]
  · exact Nat.dvd_mul_left _ _
  · omega

/-- **A block descriptor carries its block.** -/
theorem l2BlockAddress_l2BlockDesc {p attributes : Word} (hp : BlockAddress p)
    (ha : LeafAttr attributes) : arm64MmuL2BlockAddress (arm64MmuL2BlockDesc p attributes) = p := by
  have hmask : arm64DescL2BlockAddrMask
      = arm64DescAddrMask &&& arm64DescL2BlockAddrMask := by decide
  have hattr : attributes &&& arm64DescL2BlockAddrMask = 0 := by
    rw [hmask, ← BitVec.and_assoc, ha.addr_bits]
    exact BitVec.zero_and
  have haligned : p &&& ~~~(arm64L2BlockSize - 1) = p :=
    and_eq_self_of_aligned hp.aligned p.isLt (by decide)
  rw [arm64MmuL2BlockAddress, arm64MmuL2BlockDesc, haligned, BitVec.and_or_distrib_right,
    BitVec.and_or_distrib_right, hattr,
    show arm64DescBlock &&& arm64DescL2BlockAddrMask = 0 from by decide,
    and_eq_self_of_aligned hp.aligned hp.below (by decide)]
  simp

theorem block_offset {a : Word} (h : a.toNat < 2 ^ 39) :
    blockAddress (a.toNat / 2 ^ 21) + (a &&& (arm64L2BlockSize - 1)) = a := by
  refine BitVec.eq_of_toNat_eq ?_
  have hlow : (a &&& (arm64L2BlockSize - 1)).toNat = a.toNat % 2 ^ 21 := by
    rw [BitVec.toNat_and, show (arm64L2BlockSize - 1).toNat = 2 ^ 21 - 1 from by decide,
      Nat.and_two_pow_sub_one_eq_mod]
  rw [BitVec.toNat_add, toNat_blockAddress (by omega), hlow]
  omega

theorem page_offset {a : Word} (h : a.toNat < 2 ^ 39) :
    pageAddress (a.toNat / 2 ^ 12) + (a &&& (arm64PageSize - 1)) = a := by
  refine BitVec.eq_of_toNat_eq ?_
  have hlow : (a &&& (arm64PageSize - 1)).toNat = a.toNat % 2 ^ 12 := by
    rw [BitVec.toNat_and, show (arm64PageSize - 1).toNat = 2 ^ 12 - 1 from by decide,
      Nat.and_two_pow_sub_one_eq_mod]
  rw [BitVec.toNat_add, toNat_pageAddress (by omega), hlow]
  omega

/-! ## The map -/

/-- **The kernel's map.** -/
def kernelTranslation (img : Image) (a : Word) : Option Translation :=
  let block := a.toNat / 2 ^ 21
  let page := pageAddress (a.toNat / 2 ^ 12)
  if 64 ≤ block ∧ block < 81 then
    some ⟨a, arm64MmuL2BlockDesc (blockAddress block) arm64DeviceMemoryAttr, 2⟩
  else if block = 512 then
    if vmAddressIsGuardPage img page = false then
      some ⟨a, arm64MmuL3PageDesc page (kernelPageAttributes img page), 3⟩
    else none
  else if 512 < block ∧ block < 576 then
    some ⟨a, arm64MmuL2BlockDesc (blockAddress block) vmNormalXnMemoryAttr, 2⟩
  else none

section Walk

variable {T : Tables} {a : Word}

/-- A block entry maps its block. -/
theorem walkL2_of_block {slot : Fin 4} {attributes : Word} (hattr : LeafAttr attributes)
    (ha : a.toNat < 2 ^ 39) (h : T (.vmL2 slot) (tableIndex (arm64MmuL2Index a))
      = arm64MmuL2BlockDesc (blockAddress (a.toNat / 2 ^ 21)) attributes) :
    walkL2 L T (L.table (.vmL2 slot)) a
      = some ⟨a, arm64MmuL2BlockDesc (blockAddress (a.toNat / 2 ^ 21)) attributes, 2⟩ := by
  have hok : BlockAddress (blockAddress (a.toNat / 2 ^ 21)) := blockAddress_ok (by omega)
  simp only [walkL2, L.read_table, h, descIsL2Block_l2BlockDesc _ hattr, if_true,
    l2BlockAddress_l2BlockDesc hok hattr, block_offset ha]

variable (hT : BuiltTables L img T) (ha : a.toNat < 2 ^ 39)

include hT ha

/-- The walk through the device window. -/
theorem walkL2_devices (h : a.toNat / 2 ^ 30 = 0) :
    walkL2 L T (L.table (.vmL2 0)) a = kernelTranslation img a := by
  have hindex : (tableIndex (arm64MmuL2Index a)).val = a.toNat / 2 ^ 21 := by
    rw [tableIndex_l2]
    omega
  have hentry := hT.devices (tableIndex (arm64MmuL2Index a))
  rw [hindex] at hentry
  rw [kernelTranslation]
  by_cases hin : 64 ≤ a.toNat / 2 ^ 21 ∧ a.toNat / 2 ^ 21 < 81
  · rw [if_pos hin] at hentry ⊢
    exact walkL2_of_block kernelOnly_device.leaf ha hentry
  · rw [if_neg hin] at hentry ⊢
    rw [if_neg (by omega), if_neg (by omega)]
    exact walkL2_of_zero hentry

/-- …through the kernel's pages… -/
theorem walkL3_pages (h : a.toNat / 2 ^ 21 = 512) :
    walkL3 L T (L.table .vmKernelL3) a = kernelTranslation img a := by
  have hindex : 0x40000 + (tableIndex (arm64MmuL3Index a)).val = a.toNat / 2 ^ 12 := by
    rw [tableIndex_l3]
    omega
  have hpage : kernelPage (tableIndex (arm64MmuL3Index a)) = pageAddress (a.toNat / 2 ^ 12) := by
    rw [kernelPage, hindex]
  have hentry := hT.l3 (tableIndex (arm64MmuL3Index a))
  rw [kernelPageDesc, hpage] at hentry
  rw [kernelTranslation]
  rw [if_neg (by omega), if_pos h]
  by_cases hguard : vmAddressIsGuardPage img (pageAddress (a.toNat / 2 ^ 12)) = false
  · rw [if_pos hguard] at hentry ⊢
    have hleaf := (kernelOnly_kernelPageAttributes img (pageAddress (a.toNat / 2 ^ 12))).leaf
    rw [walkL3_of_page (pageAddress_ok (by omega)) hleaf hentry, page_offset ha]
  · rw [if_neg hguard] at hentry ⊢
    exact walkL3_of_zero hentry

/-- …and through the RAM. -/
theorem walkL2_ram (h : a.toNat / 2 ^ 30 = 1) :
    walkL2 L T (L.table (.vmL2 1)) a = kernelTranslation img a := by
  have hindex : 512 + (tableIndex (arm64MmuL2Index a)).val = a.toNat / 2 ^ 21 := by
    rw [tableIndex_l2]
    omega
  have hentry := hT.ram (tableIndex (arm64MmuL2Index a))
  by_cases hfirst : a.toNat / 2 ^ 21 = 512
  · rw [if_pos (by omega)] at hentry
    rw [walkL2_of_l2 hentry]
    exact walkL3_pages hT ha hfirst
  · rw [if_neg (by omega), hindex] at hentry
    rw [kernelTranslation]
    rw [if_neg (by omega), if_neg hfirst]
    by_cases hin : 512 < a.toNat / 2 ^ 21 ∧ a.toNat / 2 ^ 21 < 576
    · rw [if_pos (by omega)] at hentry
      rw [if_pos hin]
      exact walkL2_of_block kernelOnly_normalXn.leaf ha hentry
    · rw [if_neg (by omega)] at hentry
      rw [if_neg hin]
      exact walkL2_of_zero hentry

/-- **The walk from the kernel's root.** -/
theorem walk_built : walk L T (vmRootTable L) a = kernelTranslation img a := by
  have hindex : (tableIndex (arm64MmuL1Index a)).val = a.toNat / 2 ^ 30 := by
    rw [tableIndex_l1]
    omega
  have hentry := hT.l1 (tableIndex (arm64MmuL1Index a))
  rw [vmRootTable]
  by_cases h0 : tableIndex (arm64MmuL1Index a) = 0
  · rw [if_pos h0] at hentry
    rw [walk_of_l1 hentry]
    exact walkL2_devices hT ha (by rw [← hindex, h0]; rfl)
  by_cases h1 : tableIndex (arm64MmuL1Index a) = 1
  · rw [if_neg h0, if_pos h1] at hentry
    rw [walk_of_l1 hentry]
    exact walkL2_ram hT ha (by rw [← hindex, h1]; rfl)
  · rw [if_neg h0, if_neg h1] at hentry
    have hne0 : a.toNat / 2 ^ 30 ≠ 0 := fun h => h0 (Fin.ext (hindex.trans h))
    have hne1 : a.toNat / 2 ^ 30 ≠ 1 := fun h => h1 (Fin.ext (hindex.trans h))
    rw [kernelTranslation]
    rw [if_neg (by omega), if_neg (by omega), if_neg (by omega)]
    simp [walk, hentry]

end Walk

/-! ## The lookup of `vm.c` -/

/-- `translation_for_address`; the L2 table is found by its L1 index, the L3 table by its
address. -/
def translationForAddress (L : Layout) (st : VmState) (address : Word) : Option Translation :=
  let l1Descriptor := st.tables .vmL1 (tableIndex (arm64MmuL1Index address))
  if !arm64MmuDescIsTable l1Descriptor then none
  else
    match findL2Table (arm64MmuL1Index address) st with
    | none => none
    | some slot =>
      let l2Descriptor := st.tables (.vmL2 slot) (tableIndex (arm64MmuL2Index address))
      if arm64MmuDescIsL2Block l2Descriptor then
        some ⟨arm64MmuL2BlockAddress l2Descriptor + (address &&& (arm64L2BlockSize - 1)),
          l2Descriptor, 2⟩
      else if !arm64MmuDescIsTable l2Descriptor then none
      else
        let l3Descriptor := L.read st.tables (arm64MmuDescAddress l2Descriptor)
          (arm64MmuL3Index address)
        if !arm64MmuDescIsL3Page l3Descriptor then none
        else
          some ⟨arm64MmuL3PageAddress l3Descriptor + (address &&& (arm64PageSize - 1)),
            l3Descriptor, 3⟩

/-- The pool of the built state: the low gigabyte, then the RAM's. -/
theorem Built.pool {st : VmState} (h : Built L img st) {l1Index : Word} {slot : Fin 4}
    (hslot : slot = 0 ∧ l1Index = 0 ∨ slot = 1 ∧ l1Index = 1) :
    findL2Table l1Index st = some slot := by
  have h4 : List.finRange 4 = [0, 1, 2, 3] := by decide
  rcases hslot with ⟨rfl, rfl⟩ | ⟨rfl, rfl⟩
  · simp [findL2Table, h4, h.used, h.slot0]
  · simp [findL2Table, h4, h.used, h.slot0, h.slot1]

/-- The lookup goes on as the walk does. -/
theorem translationForAddress_of_slot {st : VmState} {slot : Fin 4} {address : Word}
    (htable : arm64MmuDescIsTable (st.tables .vmL1 (tableIndex (arm64MmuL1Index address))) = true)
    (hfind : findL2Table (arm64MmuL1Index address) st = some slot) :
    translationForAddress L st address = walkL2 L st.tables (L.table (.vmL2 slot)) address := by
  have hnot : ∀ (b : Bool) (t : Option Translation),
      (if (!b) = true then none else t) = if b = true then t else none := by
    intro b t
    cases b <;> rfl
  simp only [translationForAddress, htable, hfind, walkL2, walkL3, L.read_table, hnot, if_true]

/-- **The lookup of the built state.** -/
theorem translationForAddress_built {st : VmState} (h : Built L img st) {a : Word}
    (ha : a.toNat < 2 ^ 39) : translationForAddress L st a = kernelTranslation img a := by
  have hindex : (tableIndex (arm64MmuL1Index a)).val = a.toNat / 2 ^ 30 := by
    rw [tableIndex_l1]
    omega
  have hword : arm64MmuL1Index a = BitVec.ofNat 64 (a.toNat / 2 ^ 30) := by
    rw [l1Index_eq, Nat.mod_eq_of_lt (by omega)]
  have hentry := h.tables.l1 (tableIndex (arm64MmuL1Index a))
  by_cases h0 : a.toNat / 2 ^ 30 = 0
  · rw [if_pos (Fin.ext (hindex.trans h0))] at hentry
    rw [@translationForAddress_of_slot L st 0 a (by rw [hentry]; exact descIsTable_tableDesc _)
      (h.pool (.inl ⟨rfl, by rw [hword, h0]; rfl⟩))]
    exact walkL2_devices h.tables ha h0
  have hne0 : tableIndex (arm64MmuL1Index a) ≠ 0 := by
    intro heq
    rw [heq] at hindex
    exact h0 hindex.symm
  by_cases h1 : a.toNat / 2 ^ 30 = 1
  · rw [if_neg hne0, if_pos (Fin.ext (hindex.trans h1))] at hentry
    rw [@translationForAddress_of_slot L st 1 a (by rw [hentry]; exact descIsTable_tableDesc _)
      (h.pool (.inr ⟨rfl, by rw [hword, h1]; rfl⟩))]
    exact walkL2_ram h.tables ha h1
  · have hne1 : tableIndex (arm64MmuL1Index a) ≠ 1 := by
      intro heq
      rw [heq] at hindex
      exact h1 hindex.symm
    rw [if_neg hne0, if_neg hne1] at hentry
    rw [kernelTranslation, if_neg (by omega), if_neg (by omega), if_neg (by omega),
      translationForAddress, hentry]
    rfl

end SaturnOS
