import SaturnOS.Memory.AddressSpace

/-!
# Memory/UserTables — what a fresh user space maps

    L1[0] ──▸ L2 ──┬ [regionL2 0] ──▸ L3 code  ── one page
                   ├ [regionL2 1] ──▸ L3 data  ── one page
                   ├ [regionL2 2] ──▸ L3 stack ── one page
                   └ elsewhere the kernel's own L2

`SlotTables` records this shape for a slot and `addressSpaceInitUser_slot` produces it.  The walk
from the slot's root is then read off level by level: the first page of a region maps to the
slot's own page (`walk_user_firstPage`), the rest of the region's 2 MiB maps to nothing
(`walk_user_beyond`), and every other address follows the kernel's entries
(`walk_user_elsewhere`).
-/

namespace SaturnOS

/-! ## The entries a region occupies -/

/-- The L2 entry a region's table hangs from. -/
def regionL2 (i : Fin 3) : Fin 512 := tableIndex (arm64MmuL2Index (userRegionTable i).start)

/-- The L3 entry of a region's first page. -/
def regionL3 (i : Fin 3) : Fin 512 := tableIndex (arm64MmuL3Index (userRegionTable i).start)

/-- The descriptor of a region's one page. -/
def regionDesc (L : Layout) (slot : Fin 4) (i : Fin 3) : Word :=
  arm64MmuL3PageDesc (L.base (.region slot i)) (userRegionTable i).attributes

theorem regionL2_ne {i k : Fin 3} (h : i ≠ k) : regionL2 i ≠ regionL2 k := by
  revert i k; decide

/-- A region starts at the page its L2 and L3 entries name, in the low gigabyte. -/
theorem start_eq (i : Fin 3) :
    (userRegionTable i).start.toNat = (regionL2 i).val * 2 ^ 21 + (regionL3 i).val * 2 ^ 12 := by
  revert i; decide

/-- …and does not leave its L2 entry. -/
theorem stop_le (i : Fin 3) :
    (userRegionTable i).stop.toNat ≤ ((regionL2 i).val + 1) * 2 ^ 21 := by
  revert i; decide

theorem leafAttr_region (i : Fin 3) : LeafAttr (userRegionTable i).attributes :=
  ⟨by revert i; decide, by revert i; decide⟩

/-- **The shape of a slot's tables**, over the kernel's own `kernelL1` and `kernelL2`. -/
structure SlotTables (L : Layout) (slot : Fin 4) (kernelL1 kernelL2 : Table) (T : Tables) :
    Prop where
  l1_zero : T (.userL1 slot) 0 = arm64MmuTableDesc (L.table (.userL2 slot))
  l1_rest : ∀ i, i ≠ 0 → T (.userL1 slot) i = kernelL1 i
  l2_region : ∀ i, T (.userL2 slot) (regionL2 i) = arm64MmuTableDesc (L.table (.userL3 slot i))
  l2_rest : ∀ j, (∀ i, j ≠ regionL2 i) → T (.userL2 slot) j = kernelL2 j
  l3_page : ∀ i, T (.userL3 slot i) (regionL3 i) = regionDesc L slot i
  l3_rest : ∀ i j, j ≠ regionL3 i → T (.userL3 slot i) j = 0

/-- A slot's tables are read at no other table. -/
theorem SlotTables.congr {L : Layout} {slot : Fin 4} {k₁ k₂ : Table} {T T' : Tables}
    (h : SlotTables L slot k₁ k₂ T) (h1 : T' (.userL1 slot) = T (.userL1 slot))
    (h2 : T' (.userL2 slot) = T (.userL2 slot))
    (h3 : ∀ i, T' (.userL3 slot i) = T (.userL3 slot i)) : SlotTables L slot k₁ k₂ T' where
  l1_zero := by rw [h1, h.l1_zero]
  l1_rest i hi := by rw [h1, h.l1_rest i hi]
  l2_region i := by rw [h2, h.l2_region]
  l2_rest j hj := by rw [h2, h.l2_rest j hj]
  l3_page i := by rw [h3, h.l3_page]
  l3_rest i j hj := by rw [h3, h.l3_rest i j hj]

/-! ## The walk from a slot's root -/

/-- The first page of a region: the only part of it that is backed. -/
def InFirstPage (i : Fin 3) (address : Word) : Prop :=
  (userRegionTable i).start.toNat ≤ address.toNat
    ∧ address.toNat < (userRegionTable i).start.toNat + 4096

instance (i : Fin 3) (address : Word) : Decidable (InFirstPage i address) :=
  inferInstanceAs (Decidable (_ ∧ _))

/-- **Below `2³⁹`, a region's first page is one L1, L2 and L3 entry.** -/
theorem inFirstPage_iff {i : Fin 3} {address : Word} (h : address.toNat < 2 ^ 39) :
    InFirstPage i address ↔ tableIndex (arm64MmuL1Index address) = 0
      ∧ tableIndex (arm64MmuL2Index address) = regionL2 i
      ∧ tableIndex (arm64MmuL3Index address) = regionL3 i := by
  have hs := start_eq i
  have h2 := (regionL2 i).isLt
  have h3 := (regionL3 i).isLt
  simp only [Fin.ext_iff, tableIndex_l1, tableIndex_l2, tableIndex_l3, InFirstPage, Fin.val_zero]
  omega

section Walk

variable {L : Layout} {slot : Fin 4} {k₁ k₂ : Table} {T : Tables}
  (hT : SlotTables L slot k₁ k₂ T) {address : Word}

include hT

/-- The low gigabyte is looked up in the slot's L2. -/
theorem walk_user_low (h : tableIndex (arm64MmuL1Index address) = 0) :
    walk L T (L.table (.userL1 slot)) address = walkL2 L T (L.table (.userL2 slot)) address :=
  walk_of_l1 (by rw [h, hT.l1_zero])

/-- A region's 2 MiB is looked up in its own L3. -/
theorem walk_user_region {i : Fin 3} (h1 : tableIndex (arm64MmuL1Index address) = 0)
    (h2 : tableIndex (arm64MmuL2Index address) = regionL2 i) :
    walk L T (L.table (.userL1 slot)) address = walkL3 L T (L.table (.userL3 slot i)) address :=
  (walk_user_low hT h1).trans (walkL2_of_l2 (by rw [h2, hT.l2_region]))

/-- **A region's first page maps to the slot's own page.** -/
theorem walk_user_firstPage {i : Fin 3} (h : InFirstPage i address) :
    walk L T (L.table (.userL1 slot)) address
      = some ⟨L.base (.region slot i) + (address &&& (arm64PageSize - 1)), regionDesc L slot i,
      3⟩ := by
  have hlt : address.toNat < 2 ^ 39 := by
    have hs := start_eq i
    have h2 := (regionL2 i).isLt
    have h3 := (regionL3 i).isLt
    have := h.2
    omega
  obtain ⟨h1, h2, h3⟩ := (inFirstPage_iff hlt).mp h
  rw [walk_user_region hT h1 h2]
  exact walkL3_of_page (L.pageAddress _) (leafAttr_region i) (by rw [h3, hT.l3_page]; rfl)

/-- **…and the rest of its 2 MiB to nothing.** -/
theorem walk_user_beyond {i : Fin 3} (h1 : tableIndex (arm64MmuL1Index address) = 0)
    (h2 : tableIndex (arm64MmuL2Index address) = regionL2 i)
    (h3 : tableIndex (arm64MmuL3Index address) ≠ regionL3 i) :
    walk L T (L.table (.userL1 slot)) address = none := by
  rw [walk_user_region hT h1 h2]
  exact walkL3_of_zero (hT.l3_rest i _ h3)

/-- **Away from the regions' L2 entries, a slot walks as the kernel does.** -/
theorem walk_user_elsewhere {kl2 : Fin 4} (hk₁ : T .vmL1 = k₁) (hk₂ : T (.vmL2 kl2) = k₂)
    (hk0 : k₁ 0 = arm64MmuTableDesc (L.table (.vmL2 kl2)))
    (h : tableIndex (arm64MmuL1Index address) = 0 →
      ∀ i, tableIndex (arm64MmuL2Index address) ≠ regionL2 i) :
    walk L T (L.table (.userL1 slot)) address = walk L T (L.table .vmL1) address := by
  by_cases h1 : tableIndex (arm64MmuL1Index address) = 0
  · have hker : walk L T (L.table .vmL1) address = walkL2 L T (L.table (.vmL2 kl2)) address :=
      walk_of_l1 (by rw [h1, hk₁, hk0])
    rw [walk_user_low hT h1, hker]
    simp only [walkL2, L.read_table, hT.l2_rest _ (h h1), hk₂]
  · simp only [walk, L.read_table, hT.l1_rest _ h1, hk₁]

end Walk

/-! ## Hanging the regions -/

section Hang

variable (L : Layout) (slot : Fin 4) (T : Tables)

/-- One region hung below a slot's L2. -/
def hangRegion (i : Fin 3) : Tables :=
  let T := addressSpaceClearTable T (.userL3 slot i)
  let T := T.set (.userL2 slot) (regionL2 i) (arm64MmuTableDesc (L.table (.userL3 slot i)))
  T.set (.userL3 slot i) (regionL3 i) (regionDesc L slot i)

theorem hangRegion_l3 (i : Fin 3) :
    hangRegion L slot T i (.userL3 slot i)
      = Function.update (fun _ => 0) (regionL3 i) (regionDesc L slot i) := by
  simp [hangRegion, Tables.set, addressSpaceClearTable]

theorem hangRegion_l2 (i : Fin 3) :
    hangRegion L slot T i (.userL2 slot)
      = Function.update (T (.userL2 slot)) (regionL2 i)
          (arm64MmuTableDesc (L.table (.userL3 slot i))) := by
  simp [hangRegion, Tables.set, addressSpaceClearTable]

theorem hangRegion_of_ne (i : Fin 3) {id : TableId} (h3 : id ≠ .userL3 slot i)
    (h2 : id ≠ .userL2 slot) : hangRegion L slot T i id = T id := by
  simp [hangRegion, Tables.set, addressSpaceClearTable, h2, h3]

/-- The three regions hung in turn. -/
def hangRegions : Tables := (List.finRange 3).foldl (hangRegion L slot) T

/-- **The descriptor loop hangs the three regions** and counts them. -/
theorem foldl_installUserDescriptor (space : AddressSpace)
    (hc : space.userDescriptorCount = 3) (hr : space.userRegions = userRegionTable) :
    (List.finRange 3).foldl (installUserDescriptor L slot space) (T, 0)
      = (hangRegions L slot T, 3) := by
  have hstep : ∀ (T : Tables) (n : ℕ) (i : Fin 3),
      installUserDescriptor L slot space (T, n) i = (hangRegion L slot T i, n + 1) := by
    intro T n i
    have hn : (userRegionTable i).name ≠ none := by revert i; decide
    have hi : ¬ 3 ≤ i.val := by omega
    simp only [installUserDescriptor, hc, hr, hn, hi, or_self, if_false]
    rfl
  have h3 : List.finRange 3 = [0, 1, 2] := by decide
  simp only [hangRegions, h3, List.foldl_cons, List.foldl_nil, hstep]

theorem hangRegions_eq :
    hangRegions L slot T
      = hangRegion L slot (hangRegion L slot (hangRegion L slot T 0) 1) 2 := by
  have h3 : List.finRange 3 = [0, 1, 2] := by decide
  simp only [hangRegions, h3, List.foldl_cons, List.foldl_nil]

theorem hangRegions_l3 (i : Fin 3) :
    hangRegions L slot T (.userL3 slot i)
      = Function.update (fun _ => 0) (regionL3 i) (regionDesc L slot i) := by
  rw [hangRegions_eq]
  match i with
  | 0 =>
    rw [hangRegion_of_ne _ _ _ 2 (by simp) (by simp), hangRegion_of_ne _ _ _ 1 (by simp) (by simp),
      hangRegion_l3]
  | 1 => rw [hangRegion_of_ne _ _ _ 2 (by simp) (by simp), hangRegion_l3]
  | 2 => rw [hangRegion_l3]

theorem hangRegions_l2_region (i : Fin 3) :
    hangRegions L slot T (.userL2 slot) (regionL2 i)
      = arm64MmuTableDesc (L.table (.userL3 slot i)) := by
  rw [hangRegions_eq, hangRegion_l2, hangRegion_l2, hangRegion_l2]
  match i with
  | 0 =>
    rw [Function.update_of_ne (regionL2_ne (by decide)),
      Function.update_of_ne (regionL2_ne (by decide)), Function.update_self]
  | 1 => rw [Function.update_of_ne (regionL2_ne (by decide)), Function.update_self]
  | 2 => rw [Function.update_self]

theorem hangRegions_l2_rest {j : Fin 512} (hj : ∀ i, j ≠ regionL2 i) :
    hangRegions L slot T (.userL2 slot) j = T (.userL2 slot) j := by
  rw [hangRegions_eq, hangRegion_l2, hangRegion_l2, hangRegion_l2,
    Function.update_of_ne (hj 2), Function.update_of_ne (hj 1), Function.update_of_ne (hj 0)]

theorem hangRegions_of_ne {id : TableId} (h3 : ∀ i, id ≠ .userL3 slot i)
    (h2 : id ≠ .userL2 slot) : hangRegions L slot T id = T id := by
  rw [hangRegions_eq, hangRegion_of_ne _ _ _ _ (h3 2) h2, hangRegion_of_ne _ _ _ _ (h3 1) h2,
    hangRegion_of_ne _ _ _ _ (h3 0) h2]

end Hang

/-! ## Building a slot's tables -/

section Build

variable (L : Layout) (root : Word) (slot : Fin 4) (T : Tables)

/-- Copying the kernel map writes the two given tables, the first starting with the second. -/
theorem installSharedKernelMap_spec {L : Layout} {root : Word} {l1 l2 : TableId} {T T' : Tables}
    (h : addressSpaceInstallSharedKernelMap L root l1 l2 T = some T') :
    T' l1 0 = arm64MmuTableDesc (L.table l2) ∧ ∀ id, id ≠ l1 → id ≠ l2 → T' id = T id := by
  simp only [addressSpaceInstallSharedKernelMap] at h
  split at h
  · exact nomatch h
  · split at h
    · exact nomatch h
    · rw [← Option.some.inj h]
      exact ⟨by simp, fun id h1 h2 => by simp [Tables.set, h1, h2]⟩

/-- Whatever the root, the slot's L1 starts with the slot's L2. -/
theorem shareKernelMap_l1_zero :
    (shareKernelMap L root slot T).1 (.userL1 slot) 0
      = arm64MmuTableDesc (L.table (.userL2 slot)) := by
  simp only [shareKernelMap]
  split
  · rename_i T' h
    exact (installSharedKernelMap_spec h).1
  · exact Tables.set_same _ _ _ _

/-- Only the slot's own L1 and L2 are written. -/
theorem shareKernelMap_of_ne {id : TableId} (h1 : id ≠ .userL1 slot) (h2 : id ≠ .userL2 slot) :
    (shareKernelMap L root slot T).1 id = T id := by
  have hclear : addressSpaceClearTable (addressSpaceClearTable T (.userL1 slot)) (.userL2 slot) id
      = T id := by simp [addressSpaceClearTable, h1, h2]
  simp only [shareKernelMap]
  split
  · rename_i T' h
    exact ((installSharedKernelMap_spec h).2 id h1 h2).trans hclear
  · exact (Tables.set_of_ne _ h1 _ _).trans hclear

/-- The slot's tables, built. -/
def buildSlot : Tables := hangRegions L slot (shareKernelMap L root slot T).1

theorem buildSlot_of_ne {id : TableId} (h1 : id ≠ .userL1 slot) (h2 : id ≠ .userL2 slot)
    (h3 : ∀ i, id ≠ .userL3 slot i) : buildSlot L root slot T id = T id := by
  rw [buildSlot, hangRegions_of_ne _ _ _ h3 h2, shareKernelMap_of_ne _ _ _ _ h1 h2]

/-- **A built slot has the slot shape**, over its own L1 and L2 when nothing is known of the
root. -/
theorem slotTables_buildSlot :
    SlotTables L slot (buildSlot L root slot T (.userL1 slot))
      (buildSlot L root slot T (.userL2 slot)) (buildSlot L root slot T) where
  l1_zero := by
    rw [buildSlot, hangRegions_of_ne _ _ _ (by simp) (by simp), shareKernelMap_l1_zero]
  l1_rest _ _ := rfl
  l2_region i := hangRegions_l2_region L slot _ i
  l2_rest _ _ := rfl
  l3_page i := by rw [buildSlot, hangRegions_l3, Function.update_self]
  l3_rest i j hj := by rw [buildSlot, hangRegions_l3, Function.update_of_ne hj]

end Build

/-! ## Sharing the kernel's own map -/

@[simp] theorem tableIndex_ofNat (i : Fin 512) : tableIndex (BitVec.ofNat 64 i.val) = i := by
  refine Fin.ext ?_
  have h : (BitVec.ofNat 64 i.val).toNat = i.val := by
    rw [BitVec.toNat_ofNat, Nat.mod_eq_of_lt (by omega)]
  simp [tableIndex, h]

@[simp] theorem Layout.readTable_table (L : Layout) (T : Tables) (id : TableId) :
    L.readTable T (L.table id) = T id := by
  funext i
  rw [Layout.readTable, L.read_table, tableIndex_ofNat]

section Share

variable {L : Layout} (slot : Fin 4) {T : Tables} {kl2 : Fin 4}

/-- **Over the kernel root, the slot's L2 is the kernel's and so is its L1 past the first
entry.** -/
theorem shareKernelMap_vmL1 (hk : T .vmL1 0 = arm64MmuTableDesc (L.table (.vmL2 kl2))) :
    (shareKernelMap L (L.table .vmL1) slot T).1 (.userL2 slot) = T (.vmL2 kl2)
      ∧ ∀ i, i ≠ 0 → (shareKernelMap L (L.table .vmL1) slot T).1 (.userL1 slot) i = T .vmL1 i := by
  set C := addressSpaceClearTable (addressSpaceClearTable T (.userL1 slot)) (.userL2 slot) with hC
  have hv : C .vmL1 = T .vmL1 := by simp [hC, addressSpaceClearTable]
  have hv2 : C (.vmL2 kl2) = T (.vmL2 kl2) := by simp [hC, addressSpaceClearTable]
  have hread : L.read C (L.table .vmL1) 0 = arm64MmuTableDesc (L.table (.vmL2 kl2)) := by
    rw [L.read_table, hv]
    exact hk
  have hmap : addressSpaceInstallSharedKernelMap L (L.table .vmL1) (.userL1 slot) (.userL2 slot) C
      = some (Function.update (Tables.set (Function.update C (.userL2 slot) (T (.vmL2 kl2)))
          (.userL1 slot) 0 (arm64MmuTableDesc (L.table (.userL2 slot)))) (.userL1 slot) fun i =>
            if i = 0 then arm64MmuTableDesc (L.table (.userL2 slot)) else T .vmL1 i) := by
    simp only [addressSpaceInstallSharedKernelMap, L.table_ne_zero, if_false, hread,
      descIsTable_tableDesc, not_true_eq_false, descAddress_tableDesc (L.pageAddress_table _),
      L.readTable_table, hv2, Tables.set_same]
    rfl
  have hshare : (shareKernelMap L (L.table .vmL1) slot T).1
      = Function.update (Tables.set (Function.update C (.userL2 slot) (T (.vmL2 kl2)))
          (.userL1 slot) 0 (arm64MmuTableDesc (L.table (.userL2 slot)))) (.userL1 slot) fun i =>
            if i = 0 then arm64MmuTableDesc (L.table (.userL2 slot)) else T .vmL1 i := by
    simp only [shareKernelMap, ← hC, hmap]
  rw [hshare]
  exact ⟨by simp [Tables.set], fun i hi => by simp [hi]⟩

/-- **A slot built over the kernel root has the slot shape over the kernel's tables.** -/
theorem slotTables_buildSlot_vmL1 (hk : T .vmL1 0 = arm64MmuTableDesc (L.table (.vmL2 kl2))) :
    SlotTables L slot (T .vmL1) (T (.vmL2 kl2)) (buildSlot L (L.table .vmL1) slot T) := by
  obtain ⟨h2, h1⟩ := shareKernelMap_vmL1 slot hk
  have hown := slotTables_buildSlot L (L.table .vmL1) slot T
  exact {
    l1_zero := hown.l1_zero
    l1_rest := fun i hi => by
      rw [buildSlot, hangRegions_of_ne _ _ _ (by simp) (by simp), h1 i hi]
    l2_region := hown.l2_region
    l2_rest := fun j hj => by rw [buildSlot, hangRegions_l2_rest _ _ _ hj, h2]
    l3_page := hown.l3_page
    l3_rest := hown.l3_rest }

end Share

/-! ## The space `address_space_init_user` returns -/

/-- A slot is free exactly when it is not in use. -/
theorem lowestFreeSlot_some {st : SpaceStatics} {slot : Fin 4} (h : lowestFreeSlot st = some slot) :
    st.userTableSlotsUsed slot = false := by
  simpa using List.find?_some h

/-- The space built in a slot: every count and flag the validator asks for. -/
def builtSpace (L : Layout) (name : Option String) (root : Word) (slot : Fin 4) (shared : Bool) :
    AddressSpace :=
  userSpaceValidated { userSpaceScaffold L name root (some slot) with
    sharedKernelMap := shared
    userInstalledDescriptorCount := 3
    userMappingsReady := true
    userExecuteReady := true }

/-- **A space built in a slot passes its own validation.** -/
theorem validationErrors_builtSpace (L : Layout) (name : Option String) (root : Word)
    (slot : Fin 4) (shared : Bool) : (builtSpace L name root slot shared).validationErrors = 0 := by
  have hroot : L.table (.userL1 slot) ≠ 0#64 := L.table_ne_zero _
  have hslot : ¬ 4 ≤ slot.val := by omega
  have hregions : addressSpaceRegionIsValid (userRegionTable 0) false true
      ∧ addressSpaceRegionIsValid (userRegionTable 1) true false
      ∧ addressSpaceRegionIsValid (userRegionTable 2) true false := by decide
  have hbounds : ¬ (addressSpaceUserCodeStart < addressSpaceUserStart
      ∨ addressSpaceUserEnd < addressSpaceUserStackEnd
      ∨ addressSpaceUserCodeEnd ≤ addressSpaceUserCodeStart
      ∨ addressSpaceUserDataEnd ≤ addressSpaceUserDataStart
      ∨ addressSpaceUserStackEnd ≤ addressSpaceUserStackStart) := by decide
  simp [builtSpace, userSpaceValidated, addressSpaceValidateUser, userSpaceScaffold, hroot, hslot,
    addressSpaceUserTableSlots, addressSpaceUserRegionCount, hregions, hbounds]

/-- The statics once a slot has been taken and its tables built. -/
def takeSlot (L : Layout) (root : Word) (slot : Fin 4) (st : SpaceStatics) : SpaceStatics :=
  let cleared := clearSlot slot { st with
    userTableSlotsUsed := Function.update st.userTableSlotsUsed slot true }
  { cleared with tables := buildSlot L root slot cleared.tables }

/-- **With a free slot, `address_space_init_user` builds a space in it.** -/
theorem addressSpaceInitUser_some (L : Layout) (name : Option String) (root : Word)
    {st : SpaceStatics} {slot : Fin 4} (h : lowestFreeSlot st = some slot) :
    ∃ shared, addressSpaceInitUser L name root st
      = (takeSlot L root slot st, builtSpace L name root slot shared) := by
  set C := (clearSlot slot { st with
    userTableSlotsUsed := Function.update st.userTableSlotsUsed slot true }).tables with hC
  have hinst : addressSpaceInstallUserDescriptors L (userSpaceScaffold L name root (some slot)) C
      = (buildSlot L root slot C, 3, (shareKernelMap L root slot C).2) := by
    have hlt : (userSpaceScaffold L name root (some slot)).userTableSlot
        < addressSpaceUserTableSlots := slot.isLt
    have hfold := foldl_installUserDescriptor L slot (shareKernelMap L root slot C).1
      (userSpaceScaffold L name root (some slot)) rfl rfl
    rw [addressSpaceInstallUserDescriptors, dif_pos hlt]
    exact congrArg (fun hung : Tables × ℕ => (hung.1, hung.2, (shareKernelMap L root slot C).2))
      hfold
  refine ⟨(shareKernelMap L root slot C).2, ?_⟩
  simp only [addressSpaceInitUser, addressSpaceAllocUserTableSlot, h, ← hC, hinst]
  rfl

/-- **Without one, it builds a space that owns nothing** and leaves the statics alone. -/
theorem addressSpaceInitUser_none (L : Layout) (name : Option String) (root : Word)
    {st : SpaceStatics} (h : lowestFreeSlot st = none) :
    (addressSpaceInitUser L name root st).1 = st
      ∧ (addressSpaceInitUser L name root st).2.userTableSlot = addressSpaceUserTableSlots
      ∧ (addressSpaceInitUser L name root st).2.validationReady = false := by
  have hinst : addressSpaceInstallUserDescriptors L (userSpaceScaffold L name root none) st.tables
      = (st.tables, 0, false) := rfl
  simp only [addressSpaceInitUser, addressSpaceAllocUserTableSlot, h, hinst]
  refine ⟨trivial, rfl, ?_⟩
  simp [userSpaceValidated, addressSpaceValidateUser, userSpaceScaffold]

end SaturnOS
