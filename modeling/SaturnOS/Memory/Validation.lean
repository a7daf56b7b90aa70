import SaturnOS.Machinery.Loops
import SaturnOS.Memory.Lookup

/-!
# Memory/Validation — what `validate_tables` looks at

    va ──▸ guard?   ──▸ must not translate,   va + 4 KiB
       ──▸ page     ──▸ must be itself,       va + 4 KiB
       ──▸ block    ──▸ must be itself,       va + 2 MiB

The validator goes through each region by what it meets, and asks for a guard only where it stops.
In the kernel's 2 MiB it stops at every page; in the rest of the RAM it stops at the blocks, so a
guard inside a block is not seen.
-/

open Machinery

namespace SaturnOS

/-! ## The validator -/

/-- The counters of the validation, zero after `build_tables`. -/
structure VmValidation where
  blocksValidated : Word := 0
  pagesValidated : Word := 0
  guardPagesValidated : Word := 0
  errorCount : Word := 0

def validationError (c : VmValidation) : VmValidation := { c with errorCount := c.errorCount + 1 }

/-- The locals of the loop of `validate_region`. -/
structure ValidateState where
  va : Word
  pa : Word
  remaining : Word
  counters : VmValidation

section Validate

variable (L : Layout) (img : Image) (st : VmState)

/-- One turn of the loop of `validate_region`. -/
def validateTurn (s : ValidateState) : ValidateState ⊕ (VmValidation × Bool) :=
  let c := s.counters
  if s.remaining = 0 then .inr (c, true)
  else if vmAddressIsGuardPage img s.va then
    if (translationForAddress L st s.va).isSome then .inr (validationError c, false)
    else .inl ⟨s.va + arm64PageSize, s.pa + arm64PageSize, s.remaining - arm64PageSize,
      { c with guardPagesValidated := c.guardPagesValidated + 1 }⟩
  else
    match translationForAddress L st s.va with
    | none => .inr (validationError c, false)
    | some t =>
      if t.physical ≠ s.pa then .inr (validationError c, false)
      else if t.level = 2 then
        .inl ⟨s.va + arm64L2BlockSize, s.pa + arm64L2BlockSize, s.remaining - arm64L2BlockSize,
          { c with blocksValidated := c.blocksValidated + 1 }⟩
      else
        .inl ⟨s.va + arm64PageSize, s.pa + arm64PageSize, s.remaining - arm64PageSize,
          { c with pagesValidated := c.pagesValidated + 1 }⟩

/-- `validate_region`, for at most so many turns. -/
def validateRegion (turns : ℕ) (region : VmRegion) (c : VmValidation) :
    Option (VmValidation × Bool) :=
  if !regionIsL2Aligned region then some (validationError c, false)
  else loop (validateTurn L img st) turns
    ⟨region.virtualStart, region.physicalStart, region.size, c⟩

/-- The regions in turn, up to the first that fails. -/
def validateRegions (turns : ℕ) : List VmRegion → VmValidation → Option (VmValidation × Bool)
  | [], c => some (c, true)
  | region :: rest, c =>
    match validateRegion L img st turns region c with
    | none => none
    | some (c, false) => some (c, false)
    | some (c, true) => validateRegions turns rest c

/-- The tables in use start at a table's size. -/
def tablesAligned : Bool :=
  L.table .vmL1 &&& (4096 - 1) == 0
    && (List.finRange 4).all (fun slot =>
      !decide (slot.val < st.usedL2Tables) || L.table (.vmL2 slot) &&& (4096 - 1) == 0)
    && (!st.kernelL3Mapped || L.table .vmKernelL3 &&& (4096 - 1) == 0)

/-- `validate_tables`, after `build_tables` has cleared the counters. -/
def validateTables (turns : ℕ) : Option (VmValidation × Bool) :=
  let c : VmValidation := {}
  if !tablesAligned L st then some (validationError c, false)
  else
    match validateRegions L img st turns vmRegions c with
    | none => none
    | some (c, false) => some (c, false)
    | some (c, true) =>
      if c.blocksValidated ≠ st.blocksMapped ∨ c.pagesValidated ≠ st.pagesMapped
          ∨ c.guardPagesValidated ≠ st.guardPages then some (validationError c, false)
      else some (c, true)

/-- **`validate_tables` returns**, with its counters and its result. -/
def Validates (r : VmValidation × Bool) : Prop := ∃ turns, validateTables L img st turns = some r

end Validate

/-! ## Guards -/

/-- **The stack region**, page-aligned and in the RAM. -/
structure StackInRam (img : Image) : Prop where
  aligned : img.taskStackRegion.toNat % 4096 = 0
  above : 0x40000000 ≤ img.taskStackRegion.toNat
  below : img.taskStackRegion.toNat + 0x11000 ≤ 0x48000000

/-- The start of the `i`-th guard page. -/
def guardStart (img : Image) (i : ℕ) : ℕ := img.taskStackRegion.toNat + i * 0x2000

section Guards

variable {img : Image} (h : StackInRam img)

include h

theorem toNat_stackGuardStart {i : ℕ} (hi : i ≤ 8) :
    (schedulerStackGuardStart img.taskStackRegion (BitVec.ofNat 64 i)).toNat = guardStart img i
      ∧ (schedulerStackGuardEnd img.taskStackRegion (BitVec.ofNat 64 i)).toNat
        = guardStart img i + 4096 := by
  have hlow := h.below
  have hnot : ¬ (8 : Word) < BitVec.ofNat 64 i := by
    rw [BitVec.lt_def, BitVec.toNat_ofNat, Nat.mod_eq_of_lt (by omega)]
    exact Nat.not_lt.mpr hi
  have hslot : schedStackSlotSize.toNat = 0x2000 := by decide
  have hsize : schedStackGuardSize.toNat = 4096 := by decide
  have hmul : (BitVec.ofNat 64 i * schedStackSlotSize).toNat = i * 0x2000 := by
    rw [BitVec.toNat_mul, BitVec.toNat_ofNat, hslot, Nat.mod_eq_of_lt (by omega : i < 2 ^ 64),
      Nat.mod_eq_of_lt (by omega)]
  have hstart : (schedulerStackGuardStart img.taskStackRegion (BitVec.ofNat 64 i)).toNat
      = guardStart img i := by
    rw [schedulerStackGuardStart, if_neg hnot, BitVec.toNat_add, hmul, guardStart]
    exact Nat.mod_eq_of_lt (by omega)
  refine ⟨hstart, ?_⟩
  rw [schedulerStackGuardEnd, BitVec.toNat_add, hstart, hsize, guardStart]
  exact Nat.mod_eq_of_lt (by omega)

/-- **An address is guarded** when it lies in one of the nine guard pages. -/
theorem isGuard_iff (a : Word) : vmAddressIsGuardPage img a = true
    ↔ ∃ i ≤ 8, guardStart img i ≤ a.toNat ∧ a.toNat < guardStart img i + 4096 := by
  rw [vmAddressIsGuardPage, schedulerAddressIsStackGuard, List.any_eq_true]
  constructor
  · rintro ⟨i, hi, hin⟩
    have hi' : i ≤ 8 := Nat.le_of_lt_succ (List.mem_range.mp hi)
    obtain ⟨hs, he⟩ := toNat_stackGuardStart h hi'
    rw [Bool.and_eq_true, decide_eq_true_eq, decide_eq_true_eq, BitVec.le_def, BitVec.lt_def, hs,
      he]
      at hin
    exact ⟨i, hi', hin⟩
  · rintro ⟨i, hi, hin⟩
    obtain ⟨hs, he⟩ := toNat_stackGuardStart h hi
    refine ⟨i, List.mem_range.mpr (Nat.lt_succ_of_le hi), ?_⟩
    rw [Bool.and_eq_true, decide_eq_true_eq, decide_eq_true_eq, BitVec.le_def, BitVec.lt_def, hs,
      he]
    exact hin

/-- Guards are whole pages. -/
theorem isGuard_page {a : Word} (ha : a.toNat < 2 ^ 39) :
    vmAddressIsGuardPage img (pageAddress (a.toNat / 2 ^ 12)) = vmAddressIsGuardPage img a := by
  have haligned := h.aligned
  rw [Bool.eq_iff_iff, isGuard_iff h, isGuard_iff h, toNat_pageAddress (by omega)]
  refine exists_congr fun i => and_congr_right fun _ => ?_
  rw [guardStart]
  omega

/-- No guard lies outside the RAM. -/
theorem not_isGuard_of_ram {a : Word} (ha : a.toNat < 0x40000000 ∨ 0x48000000 ≤ a.toNat) :
    vmAddressIsGuardPage img a = false := by
  have habove := h.above
  have hbelow := h.below
  rw [← Bool.not_eq_true, isGuard_iff h]
  rintro ⟨i, hi, hin⟩
  rw [guardStart] at hin
  omega

/-- A block starts with a guard when a guard starts there. -/
theorem isGuard_block {b : ℕ} (hb : b < 2 ^ 18) : vmAddressIsGuardPage img (blockAddress b) = true
    ↔ ∃ i ≤ 8, guardStart img i = b * 2 ^ 21 := by
  have haligned := h.aligned
  rw [isGuard_iff h, toNat_blockAddress hb]
  refine exists_congr fun i => and_congr_right fun _ => ?_
  rw [guardStart]
  omega

end Guards

/-! ## Turns -/

section Turns

variable {L : Layout} {img : Image} {st : VmState} {c : VmValidation}

theorem remaining_ne_zero {n k : ℕ} (hpos : 0 < n) (hk : 0 < k) (hlt : n * k < 2 ^ 64) :
    BitVec.ofNat 64 (n * k) ≠ 0 := by
  intro hzero
  have := congrArg BitVec.toNat hzero
  rw [BitVec.toNat_ofNat, Nat.mod_eq_of_lt hlt] at this
  exact absurd this (Nat.mul_pos hpos hk).ne'

/-- A turn at a block. -/
theorem validateTurn_block {va remaining : Word} {d : Word} (hne : remaining ≠ 0)
    (hguard : vmAddressIsGuardPage img va = false)
    (hva : translationForAddress L st va = some ⟨va, d, 2⟩) :
    validateTurn L img st ⟨va, va, remaining, c⟩
      = .inl ⟨va + arm64L2BlockSize, va + arm64L2BlockSize, remaining - arm64L2BlockSize,
        { c with blocksValidated := c.blocksValidated + 1 }⟩ := by
  rw [validateTurn]
  dsimp only
  rw [if_neg hne, hguard, hva]
  simp

/-- …at a page… -/
theorem validateTurn_page {va remaining : Word} {d : Word} (hne : remaining ≠ 0)
    (hguard : vmAddressIsGuardPage img va = false)
    (hva : translationForAddress L st va = some ⟨va, d, 3⟩) :
    validateTurn L img st ⟨va, va, remaining, c⟩
      = .inl ⟨va + arm64PageSize, va + arm64PageSize, remaining - arm64PageSize,
        { c with pagesValidated := c.pagesValidated + 1 }⟩ := by
  rw [validateTurn]
  dsimp only
  rw [if_neg hne, hguard, hva]
  simp

/-- …and at a guard. -/
theorem validateTurn_guard {va remaining : Word} (hne : remaining ≠ 0)
    (hguard : vmAddressIsGuardPage img va = true) (hva : translationForAddress L st va = none) :
    validateTurn L img st ⟨va, va, remaining, c⟩
      = .inl ⟨va + arm64PageSize, va + arm64PageSize, remaining - arm64PageSize,
        { c with guardPagesValidated := c.guardPagesValidated + 1 }⟩ := by
  rw [validateTurn]
  dsimp only
  rw [if_neg hne, hguard, hva]
  simp

/-- A guard that translates fails the region. -/
theorem validateTurn_mapped {va remaining : Word} (hne : remaining ≠ 0)
    (hguard : vmAddressIsGuardPage img va = true)
    (hva : (translationForAddress L st va).isSome = true) :
    validateTurn L img st ⟨va, va, remaining, c⟩ = .inr (validationError c, false) := by
  rw [validateTurn]
  dsimp only
  rw [if_neg hne, if_pos hguard, if_pos hva]

theorem validateTurn_done {va pa : Word} :
    validateTurn L img st ⟨va, pa, 0, c⟩ = .inr (c, true) := by
  rw [validateTurn]
  rfl

end Turns

/-! ## Stretches -/

section Stretches

variable {L : Layout} {img : Image} {st : VmState} (hst : Built L img st) {c : VmValidation}
  {r : VmValidation × Bool}

include hst

/-- **A stretch of blocks.** -/
theorem leaves_blocks {b n m : ℕ} (hb : b + n ≤ 2 ^ 18) (hnm : n ≤ m) (hm : m < 2 ^ 18)
    (hblocks : ∀ j, j < n → vmAddressIsGuardPage img (blockAddress (b + j)) = false
      ∧ ∃ d, kernelTranslation img (blockAddress (b + j)) = some ⟨blockAddress (b + j), d, 2⟩) :
    Leaves (validateTurn L img st)
        ⟨blockAddress b, blockAddress b, BitVec.ofNat 64 (m * 2 ^ 21), c⟩ r
      ↔ Leaves (validateTurn L img st)
        ⟨blockAddress (b + n), blockAddress (b + n), BitVec.ofNat 64 ((m - n) * 2 ^ 21),
          { c with blocksValidated := c.blocksValidated + BitVec.ofNat 64 n }⟩ r := by
  have hthrough := @leaves_through _ _ (validateTurn L img st) r
    (fun j => ⟨blockAddress (b + j), blockAddress (b + j), BitVec.ofNat 64 ((m - j) * 2 ^ 21),
      { c with blocksValidated := c.blocksValidated + BitVec.ofNat 64 j }⟩) n fun j hj => ?_
  · have hzero : c.blocksValidated + BitVec.ofNat 64 0 = c.blocksValidated := BitVec.add_zero _
    rwa [hzero] at hthrough
  · obtain ⟨hguard, d, hd⟩ := hblocks j hj
    have hlt : (blockAddress (b + j)).toNat < 2 ^ 39 := by
      rw [toNat_blockAddress (by omega)]
      omega
    have hrem : BitVec.ofNat 64 ((m - j) * 2 ^ 21) - arm64L2BlockSize
        = BitVec.ofNat 64 ((m - (j + 1)) * 2 ^ 21) := by
      have hsub : (m - j) * 2 ^ 21 - 2 ^ 21 = (m - (j + 1)) * 2 ^ 21 := by omega
      rw [← hsub]
      exact BitVec.ofNat_sub_ofNat_of_le _ _ (by omega) (by omega)
    have hcount : c.blocksValidated + BitVec.ofNat 64 j + 1
        = c.blocksValidated + BitVec.ofNat 64 (j + 1) := by
      rw [BitVec.ofNat_add, BitVec.add_assoc]
      rfl
    rw [validateTurn_block (remaining_ne_zero (by omega) (by omega) (by omega)) hguard
      ((translationForAddress_built hst hlt).trans hd), blockAddress_succ, hrem, Nat.add_assoc,
      hcount]

/-- The guards among the first pages of the kernel's 2 MiB. -/
def guardsBelow (img : Image) (k : ℕ) : ℕ :=
  (List.range k).countP fun j => vmAddressIsGuardPage img (pageAddress (0x40000 + j))

omit hst in
theorem guardsBelow_succ (k : ℕ) : guardsBelow img (k + 1) = guardsBelow img k
    + if vmAddressIsGuardPage img (pageAddress (0x40000 + k)) = true then 1 else 0 := by
  rw [guardsBelow, List.range_succ, List.countP_append, List.countP_singleton, guardsBelow]

omit hst in
theorem guardsBelow_le (k : ℕ) : guardsBelow img k ≤ k :=
  List.countP_le_length.trans (List.length_range).le

omit hst in
theorem guardsBelow_all : guardsBelow img 512 = guardCount img (List.finRange 512) := by
  rw [guardsBelow, guardCount, ← List.map_coe_finRange_eq_range, List.countP_map]
  rfl

/-- The counters after the first pages of the kernel's 2 MiB. -/
def countPages (img : Image) (k : ℕ) (c : VmValidation) : VmValidation :=
  { c with
    pagesValidated := c.pagesValidated + BitVec.ofNat 64 (k - guardsBelow img k)
    guardPagesValidated := c.guardPagesValidated + BitVec.ofNat 64 (guardsBelow img k) }

omit hst in
theorem countPages_guard {k : ℕ}
    (hguard : vmAddressIsGuardPage img (pageAddress (0x40000 + k)) = true) :
    { countPages img k c with
      guardPagesValidated := (countPages img k c).guardPagesValidated + 1 }
      = countPages img (k + 1) c := by
  have hsucc : guardsBelow img (k + 1) = guardsBelow img k + 1 := by
    rw [guardsBelow_succ, if_pos hguard]
  simp only [countPages, hsucc, Nat.add_sub_add_right, BitVec.ofNat_add, BitVec.add_assoc]
  rfl

omit hst in
theorem countPages_page {k : ℕ}
    (hguard : ¬ vmAddressIsGuardPage img (pageAddress (0x40000 + k)) = true) :
    { countPages img k c with pagesValidated := (countPages img k c).pagesValidated + 1 }
      = countPages img (k + 1) c := by
  have hle := @guardsBelow_le img k
  have hsame : guardsBelow img (k + 1) = guardsBelow img k := by
    rw [guardsBelow_succ, if_neg hguard]
    rfl
  have hsub : k + 1 - guardsBelow img k = k - guardsBelow img k + 1 := by omega
  simp only [countPages, hsame, hsub, BitVec.ofNat_add, BitVec.add_assoc]
  rfl

omit hst in
theorem pageAddress_succ (p : ℕ) : pageAddress p + arm64PageSize = pageAddress (p + 1) := by
  rw [pageAddress, pageAddress, show arm64PageSize = BitVec.ofNat 64 (2 ^ 12) from rfl,
    ← BitVec.ofNat_add, Nat.succ_mul]

omit hst in
theorem kernelTranslation_page {k : ℕ} (hk : k < 512) :
    kernelTranslation img (pageAddress (0x40000 + k)) =
      if vmAddressIsGuardPage img (pageAddress (0x40000 + k)) = false
      then some ⟨pageAddress (0x40000 + k), arm64MmuL3PageDesc (pageAddress (0x40000 + k))
        (kernelPageAttributes img (pageAddress (0x40000 + k))), 3⟩
      else none := by
  have hpage : (pageAddress (0x40000 + k)).toNat = (0x40000 + k) * 2 ^ 12 :=
    toNat_pageAddress (by omega)
  have hself : (pageAddress (0x40000 + k)).toNat / 2 ^ 12 = 0x40000 + k := by omega
  rw [kernelTranslation, hself, if_neg (by omega), if_pos (by omega)]

/-- **The pages of the kernel's 2 MiB**, guards among them. -/
theorem leaves_pages :
    Leaves (validateTurn L img st) ⟨pageAddress 0x40000, pageAddress 0x40000, 0x08000000, c⟩ r
      ↔ Leaves (validateTurn L img st)
        ⟨blockAddress 513, blockAddress 513, BitVec.ofNat 64 (63 * 2 ^ 21), countPages img 512 c⟩
        r := by
  have hthrough := @leaves_through _ _ (validateTurn L img st) r
    (fun k => ⟨pageAddress (0x40000 + k), pageAddress (0x40000 + k),
      BitVec.ofNat 64 ((0x8000 - k) * 2 ^ 12), countPages img k c⟩) 512 fun k hk => ?_
  · have hzero : countPages img 0 c = c := by
      simp [countPages, guardsBelow]
    have hblock : pageAddress (0x40000 + 512) = blockAddress 513 := by decide
    have hrem : BitVec.ofNat 64 ((0x8000 - 512) * 2 ^ 12)
        = BitVec.ofNat 64 (63 * 2 ^ 21) := by decide
    have hstart : BitVec.ofNat 64 ((0x8000 - 0) * 2 ^ 12) = 0x08000000 := by decide
    rwa [hzero, hblock, hrem, hstart] at hthrough
  · have hlt : (pageAddress (0x40000 + k)).toNat < 2 ^ 39 := by
      rw [toNat_pageAddress (by omega)]
      omega
    have hne : BitVec.ofNat 64 ((0x8000 - k) * 2 ^ 12) ≠ 0 :=
      remaining_ne_zero (by omega) (by omega) (by omega)
    have hrem : BitVec.ofNat 64 ((0x8000 - k) * 2 ^ 12) - arm64PageSize
        = BitVec.ofNat 64 ((0x8000 - (k + 1)) * 2 ^ 12) := by
      have hsub : (0x8000 - k) * 2 ^ 12 - 2 ^ 12 = (0x8000 - (k + 1)) * 2 ^ 12 := by omega
      rw [← hsub]
      exact BitVec.ofNat_sub_ofNat_of_le _ _ (by omega) (by omega)
    have hva := (translationForAddress_built hst hlt).trans (@kernelTranslation_page img k hk)
    by_cases hguard : vmAddressIsGuardPage img (pageAddress (0x40000 + k)) = true
    · rw [if_neg (by rw [hguard]; simp)] at hva
      rw [validateTurn_guard hne hguard hva, pageAddress_succ, hrem, Nat.add_assoc,
        countPages_guard hguard]
    · have hguard' : vmAddressIsGuardPage img (pageAddress (0x40000 + k))
          = false := by simpa using hguard
      rw [if_pos hguard'] at hva
      rw [validateTurn_page hne hguard' hva, pageAddress_succ, hrem, Nat.add_assoc,
        countPages_page hguard]

end Stretches

/-! ## Results -/

section Results

variable {L : Layout} {img : Image} {st : VmState}

theorem tablesAligned_true (L : Layout) (st : VmState) : tablesAligned L st = true := by
  have haligned : ∀ id, L.table id &&& (4096 - 1) = 0 := fun id =>
    and_eq_zero_of_aligned (L.pageAddress_table id).aligned (by decide)
  simp only [tablesAligned, haligned]
  simp

theorem validateRegion_mono {n m : ℕ} (hle : n ≤ m) {region : VmRegion} {c : VmValidation}
    {r : VmValidation × Bool} (h : validateRegion L img st n region c = some r) :
    validateRegion L img st m region c = some r := by
  rw [validateRegion] at h ⊢
  split at h
  · rename_i haligned
    rw [if_pos haligned]
    exact h
  · rename_i haligned
    rw [if_neg haligned]
    exact loop_mono h hle

theorem validateRegions_mono {n m : ℕ} (hle : n ≤ m) {regions : List VmRegion} {c : VmValidation}
    {r : VmValidation × Bool} (h : validateRegions L img st n regions c = some r) :
    validateRegions L img st m regions c = some r := by
  induction regions generalizing c with
  | nil => exact h
  | cons region rest ih =>
    rw [validateRegions] at h ⊢
    cases hregion : validateRegion L img st n region c with
    | none =>
      rw [hregion] at h
      cases h
    | some p =>
      obtain ⟨c', ok⟩ := p
      rw [hregion] at h
      rw [validateRegion_mono hle hregion]
      cases ok with
      | false => exact h
      | true => exact ih h

theorem validateTables_mono {n m : ℕ} (hle : n ≤ m) {r : VmValidation × Bool}
    (h : validateTables L img st n = some r) : validateTables L img st m = some r := by
  rw [validateTables] at h ⊢
  split at h
  · rename_i haligned
    rw [if_pos haligned]
    exact h
  rename_i haligned
  rw [if_neg haligned]
  cases hregions : validateRegions L img st n vmRegions {} with
  | none =>
    rw [hregions] at h
    cases h
  | some p =>
    rw [hregions] at h
    rw [validateRegions_mono hle hregions]
    exact h

/-- Two results are one. -/
theorem Validates.unique {r r' : VmValidation × Bool} (h : Validates L img st r)
    (h' : Validates L img st r') : r = r' := by
  obtain ⟨n, hn⟩ := h
  obtain ⟨m, hm⟩ := h'
  have hn' := validateTables_mono (Nat.le_max_left n m) hn
  rw [validateTables_mono (Nat.le_max_right n m) hm] at hn'
  exact (Option.some.inj hn').symm

/-- A region's loop, with what it leaves. -/
def RegionLeaves (L : Layout) (img : Image) (st : VmState) (region : VmRegion) (c : VmValidation)
    (r : VmValidation × Bool) : Prop :=
  Leaves (validateTurn L img st) ⟨region.virtualStart, region.physicalStart, region.size, c⟩ r

theorem RegionLeaves.region {region : VmRegion} {c : VmValidation} {r : VmValidation × Bool}
    (h : RegionLeaves L img st region c r) (haligned : regionIsL2Aligned region = true) :
    ∃ turns, ∀ m, turns ≤ m → validateRegion L img st m region c = some r := by
  obtain ⟨n, hn⟩ := h
  refine ⟨n, fun m hle => validateRegion_mono hle ?_⟩
  rw [validateRegion, haligned]
  exact hn

/-- The counts agree with the map's. -/
def CountsAgree (st : VmState) (c : VmValidation) : Prop :=
  c.blocksValidated = st.blocksMapped ∧ c.pagesValidated = st.pagesMapped
    ∧ c.guardPagesValidated = st.guardPages

/-- **The validation succeeds** when both regions do and the counts agree. -/
theorem validates_true {c₁ c : VmValidation} (hdevices : RegionLeaves L img st vmMmio {} (c₁, true))
    (hram : RegionLeaves L img st vmRam c₁ (c, true)) (hcounts : CountsAgree st c) :
    Validates L img st (c, true) := by
  obtain ⟨n₁, h₁⟩ := hdevices.region (by decide)
  obtain ⟨n₂, h₂⟩ := hram.region (by decide)
  refine ⟨max n₁ n₂, ?_⟩
  rw [validateTables, tablesAligned_true, vmRegions, validateRegions, h₁ _ (Nat.le_max_left _ _)]
  dsimp only
  rw [validateRegions, h₂ _ (Nat.le_max_right _ _)]
  dsimp only
  rw [validateRegions, if_neg (by simp)]
  refine if_neg ?_
  rintro (hb | hp | hg)
  · exact hb hcounts.1
  · exact hp hcounts.2.1
  · exact hg hcounts.2.2

/-- …and fails when the RAM does. -/
theorem validates_false {c₁ c : VmValidation}
    (hdevices : RegionLeaves L img st vmMmio {} (c₁, true))
    (hram : RegionLeaves L img st vmRam c₁ (c, false)) : Validates L img st (c, false) := by
  obtain ⟨n₁, h₁⟩ := hdevices.region (by decide)
  obtain ⟨n₂, h₂⟩ := hram.region (by decide)
  refine ⟨max n₁ n₂, ?_⟩
  rw [validateTables, tablesAligned_true, vmRegions, validateRegions, h₁ _ (Nat.le_max_left _ _)]
  dsimp only
  rw [validateRegions, h₂ _ (Nat.le_max_right _ _)]
  rfl

/-- A block of the RAM beyond the kernel's 2 MiB. -/
theorem kernelTranslation_block {b : ℕ} (hb : 513 ≤ b ∧ b < 576) :
    kernelTranslation img (blockAddress b)
      = some ⟨blockAddress b, arm64MmuL2BlockDesc (blockAddress b) vmNormalXnMemoryAttr, 2⟩ := by
  have hnat : (blockAddress b).toNat = b * 2 ^ 21 := toNat_blockAddress (by omega)
  have hself : (blockAddress b).toNat / 2 ^ 21 = b := by omega
  rw [kernelTranslation, hself, if_neg (by omega), if_neg (by omega), if_pos (by omega)]

variable (hst : Built L img st)

include hst

/-- The device window validates. -/
theorem devices_leave (hstack : StackInRam img) :
    RegionLeaves L img st vmMmio {} ({ blocksValidated := 17 }, true) := by
  have hblocks : ∀ j, j < 17 → vmAddressIsGuardPage img (blockAddress (64 + j)) = false
      ∧ ∃ d, kernelTranslation img (blockAddress (64 + j))
      = some ⟨blockAddress (64 + j), d, 2⟩ := by
    intro j hj
    have hnat : (blockAddress (64 + j)).toNat = (64 + j) * 2 ^ 21 := toNat_blockAddress (by omega)
    have hself : (blockAddress (64 + j)).toNat / 2 ^ 21 = 64 + j := by omega
    refine ⟨not_isGuard_of_ram hstack (.inl (by omega)), ?_⟩
    rw [kernelTranslation, hself, if_pos (by omega)]
    exact ⟨_, rfl⟩
  have hstretch := leaves_blocks (c := {}) (r := ({ blocksValidated := 17 }, true)) hst (b := 64)
    (by omega) (le_refl 17) (by omega) hblocks
  exact hstretch.mpr ((leaves_end validateTurn_done).mpr rfl)

/-- The counters of a whole validation. -/
def fullCount (img : Image) : VmValidation :=
  { countPages img 512 { blocksValidated := 17 } with blocksValidated := 80 }

/-- **Without a guard at the start of a block, the RAM validates.** -/
theorem ram_leaves (hnone : ∀ b, 513 ≤ b → b < 576 → vmAddressIsGuardPage img (blockAddress b)
    = false) :
    RegionLeaves L img st vmRam { blocksValidated := 17 } (fullCount img, true) := by
  refine (leaves_pages hst).mpr ?_
  have hstretch := leaves_blocks (c := countPages img 512 { blocksValidated := 17 })
    (r := (fullCount img, true)) hst (b := 513) (n := 63) (by omega) le_rfl (by omega) fun j hj =>
      ⟨hnone _ (by omega) (by omega), _, kernelTranslation_block (by omega)⟩
  exact hstretch.mpr ((leaves_end validateTurn_done).mpr rfl)

/-- **…and with one it fails**, at the first. -/
theorem ram_fails {b : ℕ} (hb : 513 ≤ b ∧ b < 576)
    (hguard : vmAddressIsGuardPage img (blockAddress b) = true) :
    ∃ c, RegionLeaves L img st vmRam { blocksValidated := 17 } (c, false) := by
  have hex : ∃ n, 513 + n < 576 ∧ vmAddressIsGuardPage img (blockAddress (513 + n)) = true :=
    ⟨b - 513, by omega, by rwa [Nat.add_sub_cancel' hb.1]⟩
  obtain ⟨hlt, hfirst⟩ := Nat.find_spec hex
  have hbefore : ∀ j, j < Nat.find hex →
      vmAddressIsGuardPage img (blockAddress (513 + j)) = false
      ∧ ∃ d, kernelTranslation img (blockAddress (513 + j))
        = some ⟨blockAddress (513 + j), d, 2⟩ := by
    intro j hj
    refine ⟨?_, _, kernelTranslation_block (by omega)⟩
    have hmin := Nat.find_min hex hj
    rw [not_and, Bool.not_eq_true] at hmin
    exact hmin (by omega)
  generalize Nat.find hex = n at hlt hfirst hbefore
  have hnat : (blockAddress (513 + n)).toNat = (513 + n) * 2 ^ 21 := toNat_blockAddress (by omega)
  have hmapped : (translationForAddress L st (blockAddress (513 + n))).isSome = true := by
    rw [translationForAddress_built hst (by omega), kernelTranslation_block (by omega)]
    rfl
  have hne : BitVec.ofNat 64 ((63 - n) * 2 ^ 21) ≠ 0 :=
    remaining_ne_zero (by omega) (by omega) (by omega)
  refine ⟨_, (leaves_pages hst).mpr ((leaves_blocks hst (b := 513) (n := n) (by omega) (by omega)
    (by omega) hbefore).mpr ((leaves_end (validateTurn_mapped hne hfirst hmapped)).mpr rfl))⟩

theorem fullCount_agree : CountsAgree st (fullCount img) := by
  have hzero : ∀ n : ℕ, (0 : Word) + BitVec.ofNat 64 n = BitVec.ofNat 64 n := fun n =>
    BitVec.zero_add _
  refine ⟨hst.blocks.symm, ?_, ?_⟩
  · rw [hst.pages, ← guardsBelow_all]
    exact hzero _
  · rw [hst.guards, ← guardsBelow_all]
    exact hzero _

/-- **When the validation succeeds**: no block beyond the kernel's 2 MiB starts with a guard. -/
theorem validates_iff (hstack : StackInRam img) : (∃ c, Validates L img st (c, true))
    ↔ ∀ b, 513 ≤ b → b < 576 → vmAddressIsGuardPage img (blockAddress b) = false := by
  have hdevices := devices_leave hst hstack
  constructor
  · rintro ⟨c, hc⟩ b hlo hhi
    by_contra hguard
    obtain ⟨c', hfails⟩ := ram_fails hst ⟨hlo, hhi⟩ (by simpa using hguard)
    have heq := hc.unique (validates_false hdevices hfails)
    exact Bool.noConfusion (congrArg Prod.snd heq)
  · intro hnone
    exact ⟨_, validates_true hdevices (ram_leaves hst hnone) (fullCount_agree hst)⟩

end Results

end SaturnOS
