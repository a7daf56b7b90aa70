import SaturnOS.Memory.UserTables

/-!
# Memory/UserRange — the range validator against the tables

`address_space_user_range_valid` reads region metadata (1 MiB of code, 1 MiB of data, 64 KiB of
stack); the tables back one page of each.  `userRange_sound_iff` is the exact agreement: the
validator's answer is right for a range precisely when a range inside a region stays inside the
region's first page.
-/

namespace SaturnOS

/-! ## What a byte of user memory must be -/

/-- The byte at `address` translates to a page EL0 may access. -/
def UserReadable (L : Layout) (T : Tables) (root address : Word) : Prop :=
  ∃ t, walk L T root address = some t ∧ arm64MmuDescHasUserAccess t.descriptor = true

/-- The byte at `address` translates to a page EL0 may write. -/
def UserWritable (L : Layout) (T : Tables) (root address : Word) : Prop :=
  ∃ t, walk L T root address = some t ∧ t.descriptor &&& arm64DescApMask = arm64DescApRwEl0

/-- `[address, address + size)` inside a region, over the integers. -/
def InRegion (i : Fin 3) (address size : Word) : Prop :=
  (userRegionTable i).start.toNat ≤ address.toNat
    ∧ address.toNat + size.toNat ≤ (userRegionTable i).stop.toNat

instance (i : Fin 3) (address size : Word) : Decidable (InRegion i address size) :=
  inferInstanceAs (Decidable (_ ∧ _))

/-- The last byte of the range is backed: it ends inside the region's first page. -/
def EndsInFirstPage (i : Fin 3) (address size : Word) : Prop :=
  address.toNat + size.toNat ≤ (userRegionTable i).start.toNat + 4096

instance (i : Fin 3) (address size : Word) : Decidable (EndsInFirstPage i address size) :=
  inferInstanceAs (Decidable (_ ≤ _))

/-! ## The validator, over the integers -/

section Validator

variable {space : AddressSpace} (hkind : space.kind = .user)
  (hregions : space.userRegions = userRegionTable) {address size : Word} (hsize : size ≠ 0)

/-- A sum that does not come out smaller did not wrap. -/
theorem toNat_add_of_not_lt (h : ¬ address + size < address) :
    (address + size).toNat = address.toNat + size.toNat := by
  have h' := h
  rw [BitVec.lt_def] at h'
  rw [BitVec.toNat_add] at h' ⊢
  have := address.isLt
  have := size.isLt
  omega

/-- …and one that stays below `2⁶⁴` did not either. -/
theorem not_lt_of_sum_lt (h : address.toNat + size.toNat < 2 ^ 64) :
    ¬ address + size < address := by
  rw [BitVec.lt_def, BitVec.toNat_add, Nat.mod_eq_of_lt h]
  omega

theorem region_named (i : Fin 3) :
    (userRegionTable i).name.isSome ∧ (userRegionTable i).userAccess = true := by
  revert i; decide

/-- Every region ends in the low gigabyte. -/
theorem stop_le_gigabyte (i : Fin 3) : (userRegionTable i).stop.toNat ≤ 2 ^ 30 := by
  have := stop_le i
  have := (regionL2 i).isLt
  omega

include hkind hregions hsize

/-- **A range is accepted exactly when it lies in a region.** -/
theorem userRangeValid_iff :
    addressSpaceUserRangeValid (some space) address size = true ↔ ∃ i, InRegion i address size := by
  simp only [addressSpaceUserRangeValid, hkind, hregions, hsize, ne_eq, not_true_eq_false, if_false]
  split
  · rename_i hwrap
    simp only [Bool.false_eq_true, false_iff, not_exists]
    rintro i ⟨-, h2⟩
    have := stop_le_gigabyte i
    exact not_lt_of_sum_lt (by omega) hwrap
  · rename_i hwrap
    simp only [List.any_eq_true, List.mem_finRange, true_and, Bool.and_eq_true, region_named,
      decide_eq_true_eq, BitVec.le_def, toNat_add_of_not_lt hwrap, InRegion]

/-- **…and accepted for writing exactly when it lies in a writable one.** -/
theorem userWritableRangeValid_iff :
    addressSpaceUserWritableRangeValid (some space) address size = true
      ↔ ∃ i, (userRegionTable i).writable = true ∧ InRegion i address size := by
  simp only [addressSpaceUserWritableRangeValid, hkind, hregions, hsize, ne_eq, not_true_eq_false,
    or_self, if_false]
  split
  · rename_i hwrap
    simp only [Bool.false_eq_true, false_iff, not_exists]
    rintro i ⟨-, -, h2⟩
    have := stop_le_gigabyte i
    exact not_lt_of_sum_lt (by omega) hwrap
  · rename_i hwrap
    simp only [List.any_eq_true, List.mem_finRange, true_and, Bool.and_eq_true, region_named,
      decide_eq_true_eq, BitVec.le_def, toNat_add_of_not_lt hwrap, InRegion, and_assoc]

end Validator

/-! ## Bytes of a region -/

section Bytes

variable {L : Layout} {slot : Fin 4} {k₁ k₂ : Table} {T : Tables}
  (hT : SlotTables L slot k₁ k₂ T) {address size : Word} {i : Fin 3}

/-- The `k`-th byte of a range that does not wrap. -/
theorem toNat_byte (address : Word) {k : ℕ} (hk : k < size.toNat)
    (h : address.toNat + size.toNat < 2 ^ 64) :
    (address + BitVec.ofNat 64 k).toNat = address.toNat + k := by
  rw [BitVec.toNat_add, BitVec.toNat_ofNat, Nat.mod_eq_of_lt (a := k) (by omega),
    Nat.mod_eq_of_lt (by omega)]

theorem hasUserAccess_region (i : Fin 3) :
    arm64MmuDescHasUserAccess (regionDesc L slot i) = true := by
  have h := accessBits_l3PageDesc (L.base (.region slot i)) (userRegionTable i).attributes
  have ha : ∀ i, ((userRegionTable i).attributes &&& arm64DescApMask == arm64DescApRwEl0
      || (userRegionTable i).attributes &&& arm64DescApMask == arm64DescApRoEl0) = true := by decide
  simp only [arm64MmuDescHasUserAccess, regionDesc, h, ha i]

theorem accessBits_writable (hw : (userRegionTable i).writable = true) :
    regionDesc L slot i &&& arm64DescApMask = arm64DescApRwEl0 := by
  rw [regionDesc, accessBits_l3PageDesc]
  revert hw
  revert i
  decide

/-- The bytes of a range that ends in a region's first page all lie in it. -/
theorem byte_inFirstPage (hin : InRegion i address size) (hend : EndsInFirstPage i address size)
    {k : ℕ} (hk : k < size.toNat) : InFirstPage i (address + BitVec.ofNat 64 k) := by
  have := stop_le_gigabyte i
  have hb := toNat_byte address hk (by have := hin.2; omega)
  refine ⟨?_, ?_⟩ <;> rw [hb]
  · have := hin.1
    omega
  · have := hend
    unfold EndsInFirstPage at this
    omega

include hT

/-- **The last byte of a range that leaves the first page maps to nothing.** -/
theorem walk_lastByte (hsize : size ≠ 0) (hin : InRegion i address size)
    (hend : ¬ EndsInFirstPage i address size) :
    walk L T (L.table (.userL1 slot)) (address + BitVec.ofNat 64 (size.toNat - 1)) = none := by
  obtain ⟨hlo, hhi⟩ := hin
  have hpos : 0 < size.toNat := by
    rcases Nat.eq_zero_or_pos size.toNat with h | h
    · exact absurd (BitVec.eq_of_toNat_eq h) hsize
    · exact h
  have hs := start_eq i
  have he := stop_le i
  have h2 := (regionL2 i).isLt
  have hb := toNat_byte address (show size.toNat - 1 < size.toNat by omega) (by omega)
  unfold EndsInFirstPage at hend
  set last := address + BitVec.ofNat 64 (size.toNat - 1)
  -- the last byte stays in the region's L1 and L2 entry, so only the L3 index can differ
  have hl1 : tableIndex (arm64MmuL1Index last) = 0 := Fin.ext (by
    rw [tableIndex_l1, hb, Fin.val_zero]
    omega)
  have hl2 : tableIndex (arm64MmuL2Index last) = regionL2 i := Fin.ext (by
    rw [tableIndex_l2, hb]
    omega)
  refine walk_user_beyond hT hl1 hl2 fun hl3 => ?_
  have hpage := (inFirstPage_iff (by omega)).mpr ⟨hl1, hl2, hl3⟩
  have := hpage.2
  omega

end Bytes

/-! ## The exact agreement -/

/-- **The validators are right about a range exactly when a range inside a region ends in the
region's first page.** -/
theorem userRange_sound_iff (L : Layout) (name : Option String) (root : Word) (st : SpaceStatics)
    (hready : (addressSpaceInitUser L name root st).2.validationReady = true)
    (address size : Word) (hsize : size ≠ 0) :
    (addressSpaceUserRangeValid (some (addressSpaceInitUser L name root st).2) address size = true →
        ∀ k < size.toNat, UserReadable L (addressSpaceInitUser L name root st).1.tables
          (addressSpaceInitUser L name root st).2.userRootTable (address + BitVec.ofNat 64 k))
      ∧ (addressSpaceUserWritableRangeValid (some (addressSpaceInitUser L name root st).2) address
          size = true →
        ∀ k < size.toNat, UserWritable L (addressSpaceInitUser L name root st).1.tables
          (addressSpaceInitUser L name root st).2.userRootTable (address + BitVec.ofNat 64 k))
    ↔ ∀ i, InRegion i address size → EndsInFirstPage i address size := by
  cases hslot : lowestFreeSlot st with
  | none => exact absurd hready (by simp [(addressSpaceInitUser_none L name root hslot).2.2])
  | some slot =>
    obtain ⟨shared, hinit⟩ := addressSpaceInitUser_some L name root hslot
    rw [hinit, userRangeValid_iff rfl rfl hsize, userWritableRangeValid_iff rfl rfl hsize]
    have hT : SlotTables L slot _ _ (takeSlot L root slot st).tables :=
      slotTables_buildSlot L root slot _
    have hroot : (builtSpace L name root slot shared).userRootTable = L.table (.userL1 slot) := rfl
    simp only [hroot]
    constructor
    · rintro ⟨hread, -⟩ i hin
      by_contra hend
      have hnone := walk_lastByte hT hsize hin hend
      have hlast : size.toNat - 1 < size.toNat := Nat.sub_one_lt fun h =>
        hsize (BitVec.eq_of_toNat_eq h)
      obtain ⟨t, ht, -⟩ := hread ⟨i, hin⟩ _ hlast
      rw [hnone] at ht
      exact nomatch ht
    · intro hfit
      refine ⟨?_, ?_⟩
      · rintro ⟨i, hin⟩ k hk
        exact ⟨_, walk_user_firstPage hT (byte_inFirstPage hin (hfit i hin) hk),
          hasUserAccess_region i⟩
      · rintro ⟨i, hw, hin⟩ k hk
        exact ⟨_, walk_user_firstPage hT (byte_inFirstPage hin (hfit i hin) hk),
          accessBits_writable hw⟩

/-- A fresh system has a free slot, and 16 bytes of the data page are one good range. -/
theorem userRange_sound_bss :
    (addressSpaceInitUser bssLayout none (bssLayout.table .vmL1) {}).2.validationReady = true
      ∧ ∀ k < 16, UserWritable bssLayout
          (addressSpaceInitUser bssLayout none (bssLayout.table .vmL1) {}).1.tables
          (addressSpaceInitUser bssLayout none (bssLayout.table .vmL1) {}).2.userRootTable
          (0x200000 + BitVec.ofNat 64 k) := by
  have hready : (addressSpaceInitUser bssLayout none (bssLayout.table .vmL1) {}).2.validationReady
      = true := by decide
  refine ⟨hready, ((userRange_sound_iff bssLayout none (bssLayout.table .vmL1) {} hready 0x200000 16
    (by decide)).mpr (by decide)).2 (by decide)⟩

/-- **A page past the first is accepted and unmapped** — a one-byte `read` into `0x201000` passes
both checks, and the kernel's own access faults. -/
theorem userRange_accepts_unmapped :
    (addressSpaceInitUser bssLayout none (bssLayout.table .vmL1) {}).2.validationReady = true
      ∧ addressSpaceUserRangeValid
          (some (addressSpaceInitUser bssLayout none (bssLayout.table .vmL1) {}).2) 0x201000 1
          = true
      ∧ addressSpaceUserWritableRangeValid
          (some (addressSpaceInitUser bssLayout none (bssLayout.table .vmL1) {}).2) 0x201000 1
          = true
      ∧ ¬ UserReadable bssLayout
          (addressSpaceInitUser bssLayout none (bssLayout.table .vmL1) {}).1.tables
          (addressSpaceInitUser bssLayout none (bssLayout.table .vmL1) {}).2.userRootTable
          (0x201000 + BitVec.ofNat 64 0) := by
  refine ⟨by decide, by decide, by decide, ?_⟩
  rintro ⟨t, ht, -⟩
  have hnone : walk bssLayout (addressSpaceInitUser bssLayout none (bssLayout.table .vmL1)
    {}).1.tables
      (addressSpaceInitUser bssLayout none (bssLayout.table .vmL1) {}).2.userRootTable
      (0x201000 + BitVec.ofNat 64 0) = none := by decide
  rw [hnone] at ht
  exact nomatch ht

end SaturnOS
