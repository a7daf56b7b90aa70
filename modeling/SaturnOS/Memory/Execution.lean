import SaturnOS.Memory.Isolation
import SaturnOS.Memory.Protection

/-!
# Memory/Execution — what EL0 may fetch

    user root ──▸ own pages         code: UXN clear,  data and stack: UXN set
              ──▸ kernel's tables   .text: UXN clear, everything else: UXN set

A user space reaches the kernel's tables, and its access bits keep EL0 from reading there.  Fetching
asks for `UXN` alone, and the attributes of `.text` leave it clear: each page of `.text` in the
kernel's map can be executed from EL0.  A space executes its own code only where no such page is
mapped (`user_executes_own_code_iff`).
-/

open Machinery

namespace SaturnOS

/-! ## The kernel's tables stay as built -/

/-- The kernel's tables are the same. -/
structure SameKernelTables (T T' : Tables) : Prop where
  l1 : T' .vmL1 = T .vmL1
  l2 : ∀ s, T' (.vmL2 s) = T (.vmL2 s)
  l3 : T' .vmKernelL3 = T .vmKernelL3

theorem SameKernelTables.of_onlySlot {slot : Fin 4} {T T' : Tables} (h : OnlySlot slot T T') :
    SameKernelTables T T' := by
  obtain ⟨h1, h2, h3⟩ := not_ofSlot_vm slot
  exact ⟨h _ h1, fun s => h _ (h2 s), h _ h3⟩

/-- **No operation on spaces writes the kernel's tables.** -/
theorem spaceStep_kernelTables (L : Layout) (w : SpaceWorld) (op : SpaceOp) :
    SameKernelTables w.statics.tables (spaceStep L w op).statics.tables := by
  have hsame : SameKernelTables w.statics.tables w.statics.tables := ⟨rfl, fun _ => rfl, rfl⟩
  cases op with
  | initUser id name =>
    simp only [spaceStep]
    cases hslot : lowestFreeSlot w.statics with
    | none =>
      obtain ⟨hst, -⟩ := addressSpaceInitUser_none L name w.statics.kernelAddressSpace.rootTable
        hslot
      rw [hst]
      exact hsame
    | some slot =>
      obtain ⟨shared, hinit⟩ :=
        addressSpaceInitUser_some L name w.statics.kernelAddressSpace.rootTable hslot
      rw [hinit]
      exact .of_onlySlot (takeSlot_onlySlot L _ slot w.statics)
  | loadUserImage id code codeSize data dataSize entryOffset =>
    simp only [spaceStep, addressSpaceLoadUserImage]
    split_ifs <;> exact hsame
  | writeUserData id offset data size =>
    simp only [spaceStep, addressSpaceWriteUserData]
    split_ifs <;> exact hsame
  | destroyUser id =>
    simp only [spaceStep, addressSpaceDestroyUser]
    split
    · exact .of_onlySlot (clearSlot_onlySlot _ w.statics)
    · exact hsame

/-- The invariant of the spaces, over tables that are still the built ones. -/
structure SpacesBuilt (L : Layout) (img : Image) (kl2 : Fin 4) (w : SpaceWorld) : Prop where
  spaces : SpacesOk L kl2 w
  tables : BuiltTables L img w.statics.tables

theorem spacesBuilt_step {L : Layout} {img : Image} {kl2 : Fin 4} {w : SpaceWorld}
    (h : SpacesBuilt L img kl2 w) (op : SpaceOp) : SpacesBuilt L img kl2 (spaceStep L w op) := by
  obtain ⟨h1, h2, h3⟩ := spaceStep_kernelTables L w op
  exact ⟨spacesOk_step h.spaces op, h.tables.congr h1 h2 h3⟩

theorem spacesBuilt_boot (L : Layout) (img : Image) (st : SpaceStatics) :
    ∃ kl2, SpacesBuilt L img kl2 (bootSpaces L img st) := by
  obtain ⟨kl2, h⟩ := spacesOk_boot L img st
  have hbuilt := (buildTables_built L img st.tables).2.tables
  refine ⟨kl2, h, ?_⟩
  -- the tables are not to be unfolded
  rw [bootSpaces]
  generalize (buildTables L img st.tables).1.tables = T at hbuilt ⊢
  exact hbuilt

/-! ## Fetching from a user space -/

/-- The first region is the code. -/
def codeRegion : Fin 3 := ⟨0, by decide⟩

/-- The code page of a slot. -/
def codePage (L : Layout) (slot : Fin 4) : ℕ := (L.base (.region slot codeRegion)).toNat / 4096

/-- **A space executes its own code and nothing else**: whatever is not one of its pages has `UXN`
set, and what EL0 may fetch is its code page. -/
structure ExecutesOwnCode (L : Layout) (T : Tables) (root : Word) (slot : Fin 4) : Prop where
  kernelNever : ∀ (a : Word) (t : Translation), a.toNat < 2 ^ 39 → walk L T root a = some t →
    (∀ i, t.page ≠ (L.base (.region slot i)).toNat / 4096) → ¬ El0Executable t.descriptor
  codeOnly : ∀ (a : Word) (t : Translation), a.toNat < 2 ^ 39 → walk L T root a = some t →
    El0Executable t.descriptor → t.page = codePage L slot

/-- **No page of `.text` is mapped**: each one in the kernel's 2 MiB is a guard, or the slot's code
page. -/
def TextUnmapped (L : Layout) (img : Image) (slot : Fin 4) : Prop :=
  ∀ i : Fin 512, addressInKernelText img (kernelPage i) = true →
    vmAddressIsGuardPage img (kernelPage i) = true ∨ (kernelPage i).toNat / 4096 = codePage L slot

/-- The attributes of a page of the kernel's 2 MiB let EL0 fetch exactly in `.text`. -/
theorem el0Executable_kernelPageAttributes (img : Image) (a : Word) :
    El0Executable (kernelPageAttributes img a) ↔ addressInKernelText img a = true := by
  rw [kernelPageAttributes]
  split_ifs with ht hr
  · exact iff_of_true (by decide) ht
  · exact iff_of_false (by decide) ht
  · exact iff_of_false (by decide) ht

/-- …and those of a region only in the code. -/
theorem el0Executable_region {slot : Fin 4} {L : Layout} {i : Fin 3} (h : El0Executable
    (arm64MmuL3PageDesc (L.base (.region slot i)) (userRegionTable i).attributes)) : i
    = codeRegion := by
  rw [El0Executable, pageDesc_and (L.pageAddress _) (by decide) (by decide)] at h
  revert h
  revert i
  decide

/-- A page of the kernel's 2 MiB by an address in it. -/
theorem kernelPage_of_address {a : Word} (h : a.toNat / 2 ^ 21 = 512) :
    ∃ i : Fin 512, pageAddress (a.toNat / 2 ^ 12) = kernelPage i
      ∧ (kernelPage i).toNat / 4096 = a.toNat / 4096 := by
  have hlt : a.toNat / 2 ^ 12 - 0x40000 < 512 := by omega
  have hsum : 0x40000 + (a.toNat / 2 ^ 12 - 0x40000) = a.toNat / 2 ^ 12 := by omega
  have hpage : kernelPage ⟨a.toNat / 2 ^ 12 - 0x40000, hlt⟩ = pageAddress (a.toNat / 2 ^ 12) := by
    rw [kernelPage]
    exact congrArg pageAddress hsum
  refine ⟨⟨a.toNat / 2 ^ 12 - 0x40000, hlt⟩, hpage.symm, ?_⟩
  rw [hpage, toNat_pageAddress (by omega)]
  omega

/-- No region starts in the kernel's 2 MiB. -/
theorem not_inFirstPage {i : Fin 3} {a : Word} (h : a.toNat / 2 ^ 21 = 512) :
    ¬ InFirstPage i a := by
  have hstop : (userRegionTable i).start.toNat + 4096 ≤ 0x40000000 := by
    revert i
    decide
  rintro ⟨-, hlt⟩
  omega

/-- **What a space that owns a slot executes.** -/
theorem executesOwnCode_iff {L : Layout} {img : Image} {kl2 : Fin 4} {w : SpaceWorld}
    (h : SpacesBuilt L img kl2 w) {space : AddressSpace} {slot : Fin 4}
    (hown : Owns L kl2 w.statics space slot) :
    ExecutesOwnCode L w.statics.tables space.userRootTable slot ↔ TextUnmapped L img slot := by
  have hreach : ∀ a : Word, a.toNat < 2 ^ 39 → KernelOrOwnPage L w.statics.tables space a :=
    fun a ha =>
    hown.kernelOrOwnPage h.spaces.kernel h.spaces.low ha
  constructor
  · intro hexec i htext
    by_contra hno
    obtain ⟨hguard, hcode⟩ := not_or.mp hno
    have hnat := toNat_kernelPage i
    have hlt : (kernelPage i).toNat < 2 ^ 39 := by omega
    have hblock : (kernelPage i).toNat / 2 ^ 21 = 512 := by omega
    have hself : pageAddress ((kernelPage i).toNat / 2 ^ 12) = kernelPage i := by
      rw [hnat, kernelPage]
      congr 1
      omega
    have hwalk : walk L w.statics.tables space.userRootTable (kernelPage i)
        = some ⟨kernelPage i, kernelPageDesc img i, 3⟩ := by
      rcases hreach _ hlt with ⟨hk, -⟩ | ⟨s, j, -, hin, -⟩
      · rw [hk, walk_built h.tables hlt, kernelTranslation, if_neg (by omega), if_pos hblock, hself,
          if_pos (by simpa using hguard)]
        rfl
      · exact absurd hin (not_inFirstPage hblock)
    have hexecutable : El0Executable (kernelPageDesc img i) :=
      (allows_page (by omega) _).el0.mpr ((el0Executable_kernelPageAttributes img _).mpr htext)
    exact hcode (hexec.codeOnly _ _ hlt hwalk hexecutable)
  · intro htext
    -- what EL0 may fetch is the code page, through whichever root entry
    have hcode : ∀ (a : Word) (t : Translation), a.toNat < 2 ^ 39 →
        walk L w.statics.tables space.userRootTable a = some t → El0Executable t.descriptor →
        t.page = codePage L slot := by
      intro a t ha ht hexec
      rcases hreach a ha with ⟨hk, -⟩ | ⟨s, j, hs, -, howns⟩
      · rw [hk, walk_built h.tables ha] at ht
        have hphysical := kernelTranslation_physical ht
        rcases kernelTranslation_cases ht with ⟨hblock, hguard, hd⟩ | ⟨-, attributes, hattr, hd⟩
        · obtain ⟨i, hi, hpage⟩ := kernelPage_of_address hblock
          rw [hi] at hguard hd
          rcases htext i ((el0Executable_kernelPageAttributes img _).mp
            (hd.el0.mp hexec)) with hg | hc
          · rw [hguard] at hg
            cases hg
          · rw [Translation.page, hphysical, ← hpage, hc]
        · refine absurd (hd.el0.mp hexec) ?_
          rcases hattr with rfl | rfl <;> decide
      · have hslot : s = slot := Fin.ext (hs.symm.trans hown.slot_eq)
        rw [howns] at ht
        obtain rfl := Option.some.inj ht
        obtain rfl := el0Executable_region hexec
        rw [hslot]
        exact page_of_base _ _
    exact ⟨fun a t ha ht hnot hexec => hnot codeRegion (hcode a t ha ht hexec), hcode⟩

/-- **What EL0 may execute.**  However the spaces are created, loaded, written and destroyed: a live
space executes its own code and nothing else exactly where no page of `.text` is mapped. -/
theorem user_executes_own_code_iff (L : Layout) (img : Image) (st : SpaceStatics)
    (ops : List SpaceOp) :
    Always (fun w op => some (spaceStep L w op)) (fun w => ∀ id, (w.spaces id).Live →
      ∀ slot : Fin 4, (w.spaces id).userTableSlot = slot.val →
        (ExecutesOwnCode L w.statics.tables (w.spaces id).userRootTable slot
          ↔ TextUnmapped L img slot)) (bootSpaces L img st) ops := by
  obtain ⟨kl2, h₀⟩ := spacesBuilt_boot L img st
  refine Always.of_inv (I := SpacesBuilt L img kl2) (fun w op w' h hstep => ?_)
    (fun w h id hlive slot hslot => ?_) h₀ ops
  · obtain rfl := Option.some.inj hstep
    exact spacesBuilt_step h op
  · obtain ⟨s, hown⟩ := h.spaces.owns id hlive
    obtain rfl : s = slot := Fin.ext (hown.slot_eq.symm.trans hslot)
    exact executesOwnCode_iff h hown

/-- A world with one space, over the small image. -/
def oneSpace : SpaceWorld :=
  spaceStep bssLayout (bootSpaces bssLayout smallImage {}) (.initUser 0 none)

theorem oneSpace_live : (oneSpace.spaces 0).Live := by
  have hslot : lowestFreeSlot (bootSpaces bssLayout smallImage {}).statics = some 0 := rfl
  obtain ⟨shared, hinit⟩ := addressSpaceInitUser_some bssLayout none
    (bootSpaces bssLayout smallImage {}).statics.kernelAddressSpace.rootTable hslot
  simp only [oneSpace, spaceStep, hinit, Function.update_self]
  exact ⟨rfl, Nat.succ_pos 3⟩

/-- **The first page of `.text` is executable from EL0**, and it is no page of a slot. -/
theorem text_executable_from_el0 : (oneSpace.spaces 0).Live
    ∧ ∃ t, walk bssLayout oneSpace.statics.tables (oneSpace.spaces 0).userRootTable 0x40000000
    = some t
      ∧ (∀ slot i, t.page ≠ (bssLayout.base (.region slot i)).toNat / 4096)
      ∧ El0Executable t.descriptor := by
  obtain ⟨kl2, h₀⟩ := spacesBuilt_boot bssLayout smallImage {}
  have h := spacesBuilt_step h₀ (.initUser 0 none)
  obtain ⟨slot, hown⟩ := h.spaces.owns 0 oneSpace_live
  have hlt : (0x40000000 : Word).toNat < 2 ^ 39 := by decide
  have hkernel : kernelTranslation smallImage 0x40000000
      = some ⟨0x40000000, arm64MmuL3PageDesc 0x40000000 vmNormalRoExecMemoryAttr, 3⟩ := by decide
  refine ⟨oneSpace_live, ⟨0x40000000, arm64MmuL3PageDesc 0x40000000 vmNormalRoExecMemoryAttr, 3⟩,
    ?_,
    ?_, by decide⟩
  · rcases hown.kernelOrOwnPage h.spaces.kernel h.spaces.low hlt with ⟨hk, -⟩ | ⟨s, j, -, hin, -⟩
    · exact hk.trans ((walk_built h.tables hlt).trans hkernel)
    · exact absurd hin (not_inFirstPage (by decide))
  · decide

end SaturnOS
