import SaturnOS.Memory.Validation

/-!
# Memory/Protection — who may write, who may execute

    .text    read-only, executable      guard    nothing
    .rodata  read-only                  other    writable

With the image and the stacks in the first 2 MiB of the RAM the map is the identity of the plan less
the guards, nothing is writable and executable, and the validation succeeds (`identity_map`).  It
also succeeds where the stacks lie beyond, inside a block: there the guards stay mapped
(`guards_unmapped_iff`).
-/

open Machinery

namespace SaturnOS

/-! ## Permission bits -/

/-- EL1 may fetch: `PXN` is clear. -/
def El1Executable (descriptor : Word) : Prop := descriptor &&& arm64DescPxn = 0

/-- EL0 may fetch: `UXN` is clear. -/
def El0Executable (descriptor : Word) : Prop := descriptor &&& arm64DescUxn = 0

instance (d : Word) : Decidable (El1Executable d) := inferInstanceAs (Decidable (_ = _))
instance (d : Word) : Decidable (El0Executable d) := inferInstanceAs (Decidable (_ = _))

/-- A page descriptor shows the bits of its attributes beyond the address. -/
theorem pageDesc_and {p attributes m : Word} (hp : PageAddress p)
    (haddr : arm64DescAddrMask &&& m = 0)
    (htype : arm64DescPage &&& m = 0) :
    arm64MmuL3PageDesc p attributes &&& m = attributes &&& m := by
  have hpm : p &&& m = 0 := by
    rw [← hp.and_addrMask, BitVec.and_assoc, haddr]
    exact BitVec.and_zero
  rw [arm64MmuL3PageDesc, hp.and_pageMask, BitVec.and_or_distrib_right, BitVec.and_or_distrib_right,
    hpm, htype]
  simp

/-- …and so does a block descriptor. -/
theorem blockDesc_and {p attributes m : Word} (hp : BlockAddress p)
    (haddr : arm64DescAddrMask &&& m = 0)
    (htype : arm64DescBlock &&& m = 0) :
    arm64MmuL2BlockDesc p attributes &&& m = attributes &&& m := by
  have hmask : p &&& ~~~(arm64L2BlockSize - 1) = p :=
    and_eq_self_of_aligned hp.aligned p.isLt (by decide)
  have hself : p &&& arm64DescAddrMask = p :=
    and_eq_self_of_aligned ((by decide : 2 ^ 12 ∣ 2 ^ 21).trans hp.aligned) hp.below (by decide)
  have hpm : p &&& m = 0 := by
    rw [← hself, BitVec.and_assoc, haddr]
    exact BitVec.and_zero
  rw [arm64MmuL2BlockDesc, hmask, BitVec.and_or_distrib_right, BitVec.and_or_distrib_right, hpm,
    htype]
  simp

/-- What the attributes of a leaf allow. -/
structure Allows (descriptor attributes : Word) : Prop where
  el1 : El1Executable descriptor ↔ El1Executable attributes
  el0 : El0Executable descriptor ↔ El0Executable attributes
  readOnly : arm64MmuDescIsReadOnly descriptor = arm64MmuDescIsReadOnly attributes

theorem allows_page {p : ℕ} (hp : p < 2 ^ 27) (attributes : Word) :
    Allows (arm64MmuL3PageDesc (pageAddress p) attributes) attributes := by
  have hok := pageAddress_ok hp
  refine ⟨?_, ?_, ?_⟩
  · rw [El1Executable, pageDesc_and hok (by decide) (by decide)]
    exact Iff.rfl
  · rw [El0Executable, pageDesc_and hok (by decide) (by decide)]
    exact Iff.rfl
  · rw [arm64MmuDescIsReadOnly, arm64MmuDescIsReadOnly, accessBits_l3PageDesc]

theorem allows_block {b : ℕ} (hb : b < 2 ^ 18) (attributes : Word) :
    Allows (arm64MmuL2BlockDesc (blockAddress b) attributes) attributes := by
  have hok := blockAddress_ok hb
  refine ⟨?_, ?_, ?_⟩
  · rw [El1Executable, blockDesc_and hok (by decide) (by decide)]
    exact Iff.rfl
  · rw [El0Executable, blockDesc_and hok (by decide) (by decide)]
    exact Iff.rfl
  · rw [arm64MmuDescIsReadOnly, arm64MmuDescIsReadOnly, accessBits_l2BlockDesc]

/-! ## Sections -/

/-- The address lies in a page of the section `[start, stop)`. -/
def InPagesOf (start stop a : Word) : Prop :=
  ∃ b : Word, start ≤ b ∧ b < stop ∧ b.toNat / 4096 = a.toNat / 4096

variable {img : Image}

/-- **The rounded range of a section is its pages**, where the section starts a page. -/
theorem addressInRange_iff {start stop a : Word} (haligned : start.toNat % 4096 = 0)
    (hstop : stop.toNat ≤ 0x40200000) (ha : a.toNat < 2 ^ 39) :
    addressInRange (pageAddress (a.toNat / 2 ^ 12)) (alignDown start arm64PageSize)
        (alignUp stop arm64PageSize) = true ↔ InPagesOf start stop a := by
  have hmask : arm64PageSize - 1 = BitVec.ofNat 64 (2 ^ 12 - 1) := by decide
  have hdown : (alignDown start arm64PageSize).toNat = start.toNat := by
    rw [alignDown, hmask, toNat_and_not]
    omega
  have hup : (alignUp stop arm64PageSize).toNat = (stop.toNat + 4095) / 2 ^ 12 * 2 ^ 12 := by
    have hsum : (stop + arm64PageSize - 1).toNat = stop.toNat + 4095 := by
      have hps : stop + arm64PageSize - 1 = stop + BitVec.ofNat 64 4095 := by
        have hsize : arm64PageSize = 4096 := by decide
        rw [hsize]
        bv_omega
      rw [hps, BitVec.toNat_add, BitVec.toNat_ofNat]
      omega
    rw [alignUp, hmask, toNat_and_not, hsum]
  have hpage : (pageAddress (a.toNat / 2 ^ 12)).toNat = a.toNat / 2 ^ 12 * 2 ^ 12 :=
    toNat_pageAddress (by omega)
  rw [addressInRange, Bool.and_eq_true, decide_eq_true_eq, decide_eq_true_eq, BitVec.le_def,
    BitVec.lt_def, hdown, hup, hpage]
  constructor
  · rintro ⟨hlo, hhi⟩
    refine ⟨pageAddress (a.toNat / 2 ^ 12), ?_, ?_, ?_⟩
    · rw [BitVec.le_def, hpage]
      exact hlo
    · rw [BitVec.lt_def, hpage]
      omega
    · rw [hpage]
      omega
  · rintro ⟨b, hlo, hhi, hb⟩
    rw [BitVec.le_def] at hlo
    rw [BitVec.lt_def] at hhi
    omega

/-! ## The map, address by address -/

theorem kernelTranslation_physical {a : Word} {t : Translation}
    (h : kernelTranslation img a = some t) :
    t.physical = a := by
  rw [kernelTranslation] at h
  split_ifs at h <;> obtain rfl := Option.some.inj h <;> rfl

/-- **A mapped address** lies in a page of the kernel's 2 MiB, or in a block. -/
theorem kernelTranslation_cases {a : Word} {t : Translation}
    (h : kernelTranslation img a = some t) :
    (a.toNat / 2 ^ 21 = 512 ∧ vmAddressIsGuardPage img (pageAddress (a.toNat / 2 ^ 12)) = false
        ∧ Allows t.descriptor (kernelPageAttributes img (pageAddress (a.toNat / 2 ^ 12))))
      ∨ (a.toNat / 2 ^ 21 ≠ 512 ∧ ∃ attributes, (attributes = arm64DeviceMemoryAttr
          ∨ attributes = vmNormalXnMemoryAttr) ∧ Allows t.descriptor attributes) := by
  rw [kernelTranslation] at h
  split_ifs at h with h1 h2 h3 h4
  · obtain rfl := Option.some.inj h
    exact .inr ⟨by omega, _, .inl rfl, allows_block (by omega) _⟩
  · obtain rfl := Option.some.inj h
    exact .inl ⟨h2, h3, allows_page (by omega) _⟩
  · obtain rfl := Option.some.inj h
    exact .inr ⟨h2, _, .inr rfl, allows_block (by omega) _⟩

/-- The planned regions. -/
def InPlan (a : Word) : Prop :=
  ∃ region ∈ vmRegions, region.virtualStart ≤ a ∧ a < region.virtualStart + region.size

theorem inPlan_iff {a : Word} : InPlan a
    ↔ (64 ≤ a.toNat / 2 ^ 21 ∧ a.toNat / 2 ^ 21 < 81)
    ∨ (512 ≤ a.toNat / 2 ^ 21 ∧ a.toNat / 2 ^ 21 < 576) := by
  have hmmio : (vmMmio.virtualStart ≤ a ∧ a < vmMmio.virtualStart + vmMmio.size)
      ↔ (64 ≤ a.toNat / 2 ^ 21 ∧ a.toNat / 2 ^ 21 < 81) := by
    rw [BitVec.le_def, BitVec.lt_def, show vmMmio.virtualStart.toNat = 0x08000000 from by decide,
      show (vmMmio.virtualStart + vmMmio.size).toNat = 0x0a200000 from by decide]
    omega
  have hram : (vmRam.virtualStart ≤ a ∧ a < vmRam.virtualStart + vmRam.size)
      ↔ (512 ≤ a.toNat / 2 ^ 21 ∧ a.toNat / 2 ^ 21 < 576) := by
    rw [BitVec.le_def, BitVec.lt_def, show vmRam.virtualStart.toNat = 0x40000000 from by decide,
      show (vmRam.virtualStart + vmRam.size).toNat = 0x48000000 from by decide]
    omega
  rw [InPlan, vmRegions, ← hmmio, ← hram]
  simp

/-- **The image and the stacks in the first 2 MiB of the RAM**, each section at the start of a
page. -/
structure ImageInPlace (img : Image) : Prop where
  textAligned : img.textStart.toNat % 4096 = 0
  textAbove : 0x40000000 ≤ img.textStart.toNat
  textBelow : img.textEnd.toNat ≤ 0x40200000
  rodataAligned : img.rodataStart.toNat % 4096 = 0
  rodataAbove : 0x40000000 ≤ img.rodataStart.toNat
  rodataBelow : img.rodataEnd.toNat ≤ 0x40200000
  stackAligned : img.taskStackRegion.toNat % 4096 = 0
  stackAbove : 0x40000000 ≤ img.taskStackRegion.toNat
  stackBelow : img.taskStackRegion.toNat + 0x11000 ≤ 0x40200000

theorem ImageInPlace.stackInRam (h : ImageInPlace img) : StackInRam img where
  aligned := h.stackAligned
  above := h.stackAbove
  below := h.stackBelow.trans (by decide)

/-- What the attributes of a page of the kernel's 2 MiB allow. -/
theorem kernelPageAttributes_allow (h : ImageInPlace img) {a : Word} (ha : a.toNat < 2 ^ 39) :
    (El1Executable (kernelPageAttributes img (pageAddress (a.toNat / 2 ^ 12)))
        ↔ InPagesOf img.textStart img.textEnd a)
      ∧ (arm64MmuDescIsReadOnly (kernelPageAttributes img (pageAddress (a.toNat / 2 ^ 12))) = true
        ↔ InPagesOf img.textStart img.textEnd a ∨ InPagesOf img.rodataStart img.rodataEnd a) := by
  have htext := addressInRange_iff h.textAligned h.textBelow ha
  have hrodata := addressInRange_iff h.rodataAligned h.rodataBelow ha
  rw [kernelPageAttributes, addressInKernelText, addressInKernelRodata]
  split_ifs with ht hr
  · exact ⟨iff_of_true (by decide) (htext.mp ht), iff_of_true (by decide) (.inl (htext.mp ht))⟩
  · have hno := fun h => ht (htext.mpr h)
    exact ⟨iff_of_false (by decide) hno, iff_of_true (by decide) (.inr (hrodata.mp hr))⟩
  · have hno := fun h => ht (htext.mpr h)
    refine ⟨iff_of_false (by decide) hno, iff_of_false (by decide) ?_⟩
    rintro (h | h)
    · exact hno h
    · exact hr (hrodata.mpr h)

/-- A section in place lies in the kernel's 2 MiB. -/
theorem InPagesOf.block {start stop a : Word} (h : InPagesOf start stop a)
    (habove : 0x40000000 ≤ start.toNat) (hbelow : stop.toNat ≤ 0x40200000) :
    a.toNat / 2 ^ 21 = 512 := by
  obtain ⟨b, hlo, hhi, hb⟩ := h
  rw [BitVec.le_def] at hlo
  rw [BitVec.lt_def] at hhi
  omega

/-- **What an address is mapped to**: itself, if it is planned and unguarded, with the permissions
of its section. -/
structure MapsIdentically (img : Image) (a : Word) (r : Option Translation) : Prop where
  mapped : (∃ t, r = some t) ↔ InPlan a ∧ vmAddressIsGuardPage img a = false
  identity : ∀ t, r = some t → t.physical = a
  executable : ∀ t, r = some t →
    (El1Executable t.descriptor ↔ InPagesOf img.textStart img.textEnd a)
  readOnly : ∀ t, r = some t → (arm64MmuDescIsReadOnly t.descriptor = true
    ↔ InPagesOf img.textStart img.textEnd a ∨ InPagesOf img.rodataStart img.rodataEnd a)
  exclusive : ∀ t, r = some t →
    ¬ (El1Executable t.descriptor ∧ arm64MmuDescIsReadOnly t.descriptor = false)

/-- No guard of an image in place lies beyond the first 2 MiB. -/
theorem ImageInPlace.not_isGuard (h : ImageInPlace img) {a : Word} (ha : 0x40200000 ≤ a.toNat) :
    vmAddressIsGuardPage img a = false := by
  have hbelow := h.stackBelow
  rw [← Bool.not_eq_true, isGuard_iff h.stackInRam]
  rintro ⟨i, hi, hin⟩
  rw [guardStart] at hin
  omega

theorem kernelTranslation_mapped (h : ImageInPlace img) {a : Word} (ha : a.toNat < 2 ^ 39) :
    (∃ t, kernelTranslation img a = some t) ↔ InPlan a ∧ vmAddressIsGuardPage img a = false := by
  have hpage := isGuard_page h.stackInRam ha
  rw [inPlan_iff, kernelTranslation]
  split_ifs with h1 h2 h3 h4
  · exact iff_of_true ⟨_, rfl⟩ ⟨.inl h1, not_isGuard_of_ram h.stackInRam (.inl (by omega))⟩
  · exact iff_of_true ⟨_, rfl⟩ ⟨.inr (by omega), hpage.symm.trans h3⟩
  · exact iff_of_false (by rintro ⟨t, ht⟩; cases ht) fun hno => h3 (hpage.trans hno.2)
  · exact iff_of_true ⟨_, rfl⟩ ⟨.inr (by omega), h.not_isGuard (by omega)⟩
  · exact iff_of_false (by rintro ⟨t, ht⟩; cases ht) (by rintro ⟨h5 | h5, -⟩ <;> omega)

theorem kernelTranslation_identically (h : ImageInPlace img) {a : Word} (ha : a.toNat < 2 ^ 39) :
    MapsIdentically img a (kernelTranslation img a) := by
  have hallow := kernelPageAttributes_allow h ha
  have htext : a.toNat / 2 ^ 21 ≠ 512 → ¬ InPagesOf img.textStart img.textEnd a := fun hne hin =>
    hne (hin.block h.textAbove h.textBelow)
  have hrodata : a.toNat / 2 ^ 21 ≠ 512 → ¬ InPagesOf img.rodataStart img.rodataEnd a :=
    fun hne hin => hne (hin.block h.rodataAbove h.rodataBelow)
  have hexec : ∀ t, kernelTranslation img a = some t →
      (El1Executable t.descriptor ↔ InPagesOf img.textStart img.textEnd a) := by
    intro t ht
    rcases kernelTranslation_cases ht with ⟨-, -, hd⟩ | ⟨hne, attributes, hattr, hd⟩
    · exact hd.el1.trans hallow.1
    · refine hd.el1.trans (iff_of_false ?_ (htext hne))
      rcases hattr with rfl | rfl <;> decide
  have hro : ∀ t, kernelTranslation img a = some t → (arm64MmuDescIsReadOnly t.descriptor = true
      ↔ InPagesOf img.textStart img.textEnd a ∨ InPagesOf img.rodataStart img.rodataEnd a) := by
    intro t ht
    rcases kernelTranslation_cases ht with ⟨-, -, hd⟩ | ⟨hne, attributes, hattr, hd⟩
    · rw [hd.readOnly]
      exact hallow.2
    · rw [hd.readOnly]
      refine iff_of_false ?_ (not_or.mpr ⟨htext hne, hrodata hne⟩)
      rcases hattr with rfl | rfl <;> decide
  refine ⟨kernelTranslation_mapped h ha, fun t => kernelTranslation_physical, hexec, hro,
    fun t ht => ?_⟩
  rintro ⟨hx, hw⟩
  rw [(hro t ht).mpr (.inl ((hexec t ht).mp hx))] at hw
  cases hw

/-! ## The identity map -/

/-- The blocks in the L2 tables in use. -/
def blockEntries (st : VmState) : ℕ :=
  (((List.finRange 4).filter fun slot => decide (slot.val < st.usedL2Tables)).map fun slot =>
    (List.finRange 512).countP fun j => arm64MmuDescIsL2Block (st.tables (.vmL2 slot) j)).sum

/-- The pages in the L3 table. -/
def pageEntries (st : VmState) : ℕ :=
  (List.finRange 512).countP fun i => arm64MmuDescIsL3Page (st.tables .vmKernelL3 i)

theorem Built.blockEntries {L : Layout} {st : VmState} (h : Built L img st) :
    blockEntries st = 80 := by
  have hused : (List.finRange 4).filter (fun slot => decide (slot.val < st.usedL2Tables))
      = [0, 1] := by
    rw [h.used]
    decide
  have hdevices : ∀ j : Fin 512, arm64MmuDescIsL2Block (st.tables (.vmL2 0) j)
      = decide (64 ≤ j.val ∧ j.val < 81) := by
    intro j
    rw [h.tables.devices]
    split_ifs with hj
    · rw [descIsL2Block_l2BlockDesc _ kernelOnly_device.leaf, decide_eq_true hj]
    · rw [decide_eq_false hj]
      rfl
  have hram : ∀ j : Fin 512, arm64MmuDescIsL2Block (st.tables (.vmL2 1) j)
      = decide (j.val ≠ 0 ∧ j.val < 64) := by
    intro j
    rw [h.tables.ram]
    split_ifs with h0 hj
    · rw [descIsL2Block_tableDesc, decide_eq_false fun hno => hno.1 h0]
    · rw [descIsL2Block_l2BlockDesc _ kernelOnly_normalXn.leaf, decide_eq_true ⟨h0, hj⟩]
    · rw [decide_eq_false fun hno => hj hno.2]
      rfl
  rw [SaturnOS.blockEntries, hused]
  simp only [List.map_cons, List.map_nil, List.sum_cons, List.sum_nil, hdevices, hram]
  decide +kernel

theorem Built.pageEntries {L : Layout} {st : VmState} (h : Built L img st) :
    pageEntries st = 512 - guardCount img (List.finRange 512) := by
  have hentry : ∀ i : Fin 512, arm64MmuDescIsL3Page (st.tables .vmKernelL3 i)
      = !vmAddressIsGuardPage img (kernelPage i) := by
    intro i
    rw [h.tables.l3]
    cases vmAddressIsGuardPage img (kernelPage i) with
    | true =>
      rw [if_neg (by decide)]
      rfl
    | false =>
      rw [if_pos rfl]
      exact descIsL3Page_l3PageDesc (pageAddress_ok (by omega))
        (kernelOnly_kernelPageAttributes img _).leaf
  have hlen := List.length_eq_countP_add_countP (fun i => vmAddressIsGuardPage img (kernelPage i))
    (l := List.finRange 512)
  rw [List.length_finRange] at hlen
  rw [SaturnOS.pageEntries, guardCount]
  simp only [hentry]
  have hnot : ∀ i : Fin 512, (!vmAddressIsGuardPage img (kernelPage i))
      = decide ¬ vmAddressIsGuardPage img (kernelPage i) = true := by
    intro i
    cases vmAddressIsGuardPage img (kernelPage i) <;> rfl
  simp only [hnot]
  omega

/-- The counts of a validation are those of the map: what was counted while it was built, and what
its tables hold. -/
structure CountsMatch (img : Image) (st : VmState) (c : VmValidation) : Prop where
  agree : CountsAgree st c
  blocks : c.blocksValidated = BitVec.ofNat 64 (blockEntries st)
  pages : c.pagesValidated = BitVec.ofNat 64 (pageEntries st)
  guards : c.guardPagesValidated = BitVec.ofNat 64 (guardCount img (List.finRange 512))

theorem CountsAgree.counts {L : Layout} {st : VmState} (h : Built L img st) {c : VmValidation}
    (hc : CountsAgree st c) : CountsMatch img st c where
  agree := hc
  blocks := by
    rw [hc.1, h.blocks, h.blockEntries]
    rfl
  pages := by rw [hc.2.1, h.pages, h.pageEntries]
  guards := hc.2.2.trans h.guards

/-- **The identity map.**  Over every image in place the build succeeds, every address below `2³⁹`
is mapped to itself if it is planned and unguarded and to nothing otherwise, the text alone is
executable, the text and the read-only data alone are read-only, and the validation succeeds with
the counts of the map. -/
theorem identity_map (L : Layout) (T : Tables) (h : ImageInPlace img) :
    (buildTables L img T).2 = true
      ∧ (∀ a : Word, a.toNat < 2 ^ 39 →
        MapsIdentically img a (translationForAddress L (buildTables L img T).1 a))
      ∧ ∃ c, Validates L img (buildTables L img T).1 (c, true)
        ∧ CountsMatch img (buildTables L img T).1 c := by
  obtain ⟨hok, hbuilt⟩ := buildTables_built L img T
  refine ⟨hok, fun a ha => ?_, ?_⟩
  · rw [translationForAddress_built hbuilt ha]
    exact kernelTranslation_identically h ha
  · have hnone : ∀ b, 513 ≤ b → b < 576 → vmAddressIsGuardPage img (blockAddress b) = false := by
      intro b hlo hhi
      refine h.not_isGuard ?_
      rw [toNat_blockAddress (by omega)]
      omega
    exact ⟨_, validates_true (devices_leave hbuilt h.stackInRam) (ram_leaves hbuilt hnone)
      (fullCount_agree hbuilt), (fullCount_agree hbuilt).counts hbuilt⟩

/-- An image of a few pages. -/
def smallImage : Image where
  textStart := 0x40000000
  textEnd := 0x40008120
  rodataStart := 0x40009000
  rodataEnd := 0x4000a340
  taskStackRegion := 0x40010000

theorem identity_map_small : ImageInPlace smallImage
    ∧ (∀ a : Word, a.toNat < 2 ^ 39 → MapsIdentically smallImage a
      (translationForAddress bssLayout (buildTables bssLayout smallImage fun _ _ => 0).1 a)) := by
  have hplace : ImageInPlace smallImage := by constructor <;> decide
  exact ⟨hplace, (identity_map bssLayout (fun _ _ => 0) hplace).2.1⟩

/-! ## Guards beyond the first 2 MiB -/

/-- No guard translates. -/
def GuardsUnmapped (L : Layout) (img : Image) (st : VmState) : Prop :=
  ∀ a, vmAddressIsGuardPage img a = true → translationForAddress L st a = none

/-- The validator stops at a guard that it can tell from the map: all of them lie in the first 2 MiB
of the RAM, or one beyond starts a block. -/
def GuardsVisited (img : Image) : Prop :=
  (∀ i ≤ 8, guardStart img i < 0x40200000)
    ∨ ∃ i ≤ 8, 0x40200000 ≤ guardStart img i ∧ guardStart img i % 2 ^ 21 = 0

/-- A guard in the kernel's 2 MiB does not translate. -/
theorem kernelTranslation_guard (h : StackInRam img) {a : Word}
    (hguard : vmAddressIsGuardPage img a = true) (hblock : a.toNat / 2 ^ 21 = 512) :
    kernelTranslation img a = none := by
  have hpage := isGuard_page h (a := a) (by omega)
  rw [kernelTranslation, if_neg (by omega), if_pos hblock, hpage, hguard, if_neg (by decide)]

/-- …and one beyond does. -/
theorem kernelTranslation_guard_beyond (h : StackInRam img) {i : ℕ} (hi : i ≤ 8)
    (hbeyond : 0x40200000 ≤ guardStart img i) :
    ∃ a, vmAddressIsGuardPage img a = true ∧ a.toNat < 2 ^ 39 ∧ kernelTranslation img a ≠ none := by
  have hbelow := h.below
  have hlt : guardStart img i < 0x48000000 := by
    rw [guardStart]
    omega
  have hnat : (BitVec.ofNat 64 (guardStart img i)).toNat = guardStart img i := by
    rw [BitVec.toNat_ofNat, Nat.mod_eq_of_lt (by omega)]
  refine ⟨BitVec.ofNat 64 (guardStart img i), (isGuard_iff h _).mpr ⟨i, hi, by omega, by omega⟩,
    by omega, ?_⟩
  rw [kernelTranslation, hnat, if_neg (by omega), if_neg (by omega), if_pos (by omega)]
  exact Option.some_ne_none _

/-- **What the validation says of the guards.**  For every placement of the stacks in the RAM: a
successful validation means that no guard translates exactly where the validator visits the
guards. -/
theorem guards_unmapped_iff (L : Layout) (T : Tables) (h : StackInRam img) :
    ((buildTables L img T).2 = true → (∃ c, Validates L img (buildTables L img T).1 (c, true)) →
      GuardsUnmapped L img (buildTables L img T).1) ↔ GuardsVisited img := by
  obtain ⟨hok, hbuilt⟩ := buildTables_built L img T
  have habove := h.above
  have hbelow := h.below
  rw [validates_iff hbuilt h]
  constructor
  · intro hsound
    by_contra hno
    rw [GuardsVisited, not_or] at hno
    obtain ⟨hout, hstart⟩ := hno
    push Not at hout hstart
    obtain ⟨i, hi, hbeyond⟩ := hout
    obtain ⟨a, hguard, hlt, hmapped⟩ := kernelTranslation_guard_beyond h hi hbeyond
    refine hmapped ?_
    rw [← translationForAddress_built hbuilt hlt]
    refine hsound hok (fun b hlo hhi => ?_) a hguard
    rw [← Bool.not_eq_true, isGuard_block h (by omega)]
    rintro ⟨j, hj, hjb⟩
    exact hstart j hj (by omega) (by omega)
  · rintro (hin | ⟨i, hi, hbeyond, hstart⟩) - hnone a hguard
    · obtain ⟨j, hj, hlo, hhi⟩ := (isGuard_iff h a).mp hguard
      have hj' := hin j hj
      have haligned := h.aligned
      rw [guardStart] at hj' hlo hhi
      rw [translationForAddress_built hbuilt (by omega)]
      exact kernelTranslation_guard h hguard (by omega)
    · have hlt : guardStart img i < 0x48000000 := by
        rw [guardStart]
        omega
      have hblock : vmAddressIsGuardPage img (blockAddress (guardStart img i / 2 ^ 21)) = true :=
        (isGuard_block h (by omega)).mpr ⟨i, hi, by omega⟩
      rw [hnone _ (by omega) (by omega)] at hblock
      cases hblock

/-- The stacks one page into the second 2 MiB. -/
def shiftedImage : Image := { smallImage with taskStackRegion := 0x40201000 }

theorem guards_unmapped_small : StackInRam smallImage ∧ (((buildTables bssLayout smallImage
      fun _ _ => 0).2 = true →
    (∃ c, Validates bssLayout smallImage (buildTables bssLayout smallImage fun _ _ => 0).1
    (c, true)) →
      GuardsUnmapped bssLayout smallImage (buildTables bssLayout smallImage fun _ _ => 0).1)
    ↔ GuardsVisited smallImage) := by
  have hstack : StackInRam smallImage := by constructor <;> decide
  exact ⟨hstack, guards_unmapped_iff bssLayout (fun _ _ => 0) hstack⟩

/-- **A validated map with a mapped guard.** -/
theorem shifted_guard_mapped :
    StackInRam shiftedImage ∧ (buildTables bssLayout shiftedImage fun _ _ => 0).2 = true
      ∧ (∃ c, Validates bssLayout shiftedImage (buildTables bssLayout shiftedImage fun _ _ => 0).1
        (c, true))
      ∧ vmAddressIsGuardPage shiftedImage 0x40201000 = true
      ∧ translationForAddress bssLayout (buildTables bssLayout shiftedImage fun _ _ => 0).1
      0x40201000
        ≠ none := by
  have hstack : StackInRam shiftedImage := by constructor <;> decide
  obtain ⟨hok, hbuilt⟩ := buildTables_built bssLayout shiftedImage fun _ _ => 0
  refine ⟨hstack, hok, (validates_iff hbuilt hstack).mpr fun b hlo hhi => ?_, by decide, ?_⟩
  · rw [← Bool.not_eq_true, isGuard_block hstack (by omega)]
    rintro ⟨i, hi, hib⟩
    have hregion : shiftedImage.taskStackRegion.toNat = 0x40201000 := by decide
    rw [guardStart, hregion] at hib
    omega
  · rw [translationForAddress_built hbuilt (by decide)]
    decide

end SaturnOS
