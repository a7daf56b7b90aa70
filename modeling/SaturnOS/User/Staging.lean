import SaturnOS.Sched.Arguments
import SaturnOS.Sched.Privacy
import SaturnOS.User.El0

/-!
# User/Staging — from a new task to its first instruction

    scheduler_create_user_task_from_image ──▸ Staged ──user_mode_run_task──▸ at home, x0 x1 x2

What a task's entry into EL0 relies on: its space, the tables of its slot, its code and its packed
arguments (`Staged`).  A creation that succeeds leaves it; and where `user_mode_run_task` enters
EL0, the program runs on the pages of its slot with its arguments in the registers.
-/

open Machinery A64

namespace SaturnOS

/-- **Task `p` is ready for EL0**, with an image and an argument. -/
structure Staged (L : Layout) (k : Kernel) (p : ℕ) (slot : Fin 4) (image : SaturnExecImage)
    (argument : List Byte) : Prop where
  pointer : (k.tasks p).memory.addressSpace = .user
  kind : (k.tasks p).userAddressSpace.kind = .user
  target : (k.tasks p).userAddressSpace.targetRootTable = L.table (.userL1 slot)
  regions : (k.tasks p).userAddressSpace.userRegions = userRegionTable
  tables : ∃ k₁ k₂, SlotTables L slot k₁ k₂ k.spaces.tables
  entry : (k.tasks p).el0.pc = addressSpaceUserCodeStart + BitVec.ofNat 64 image.entryOffset
  text : HoldsAt (k.spaces.userRegionPages slot codeRegion) 0 image.code
  packed : ArgumentsPacked image argument (k.tasks p) (dataBytes k.spaces slot)

/-! ## Creation -/

/-- Only data pages differ. -/
structure DataOnly (st st' : SpaceStatics) : Prop where
  tables : st'.tables = st.tables
  pages : ∀ slot i, i ≠ 1 → st'.userRegionPages slot i = st.userRegionPages slot i

section Creating

variable {L : Layout} {S : Symbols} {image : SaturnExecImage} {argument : List Byte}
  {st st' st'' : SpaceStatics}

theorem DataOnly.refl (st : SpaceStatics) : DataOnly st st := ⟨rfl, fun _ _ _ => rfl⟩

theorem DataOnly.trans (h : DataOnly st st') (h' : DataOnly st' st'') : DataOnly st st'' :=
  ⟨h'.tables.trans h.tables, fun slot i hi => (h'.pages slot i hi).trans (h.pages slot i hi)⟩

theorem writeUserData_dataOnly (st : SpaceStatics) (space : AddressSpace) (offset : Word)
    (data : Buffer) (size : Word) :
    DataOnly st (addressSpaceWriteUserData st space offset data size).1 := by
  rw [addressSpaceWriteUserData]
  split
  · split
    · exact DataOnly.refl st
    · refine ⟨rfl, fun slot i hi => ?_⟩
      dsimp only
      rw [Function.update_apply]
      split
      · rename_i heq
        rw [Function.update_of_ne hi, heq]
      · rfl
  · exact DataOnly.refl st

/-- What an abandoned task returns. -/
theorem abandonUserTask_ne (p : ℕ) (k : Kernel) {k' : Kernel} {pid : ℕ} :
    abandonUserTask p k ≠ (k', (pid : ℤ)) := by
  intro h
  have := (Prod.mk.inj h).2
  omega

/-- **The packing that succeeds** writes data pages, and the entry is that of the space. -/
theorem packArguments_data {p : ℕ} {k k' : Kernel} {pid : ℕ}
    (h : packArguments p image argument k = (k', (pid : ℤ))) :
    DataOnly k.spaces k'.spaces ∧ (k'.tasks p).memory = (k.tasks p).memory
      ∧ (k'.tasks p).userAddressSpace = (k.tasks p).userAddressSpace
      ∧ (k'.tasks p).files = (k.tasks p).files
      ∧ ((k.tasks p).memory.addressSpace = .user →
        (k'.tasks p).el0 = schedulerInitTaskEl0 (some (k.tasks p).userAddressSpace)) := by
  have hpack := @packStrings_keeps (DataOnly k.spaces) (k.tasks p).userAddressSpace
    (fun _ _ _ _ h => h.trans (writeUserData_dataOnly ..)) (argumentTokens argument)
    (argumentBase image + 128) k.spaces (DataOnly.refl _)
  rw [packArguments] at h
  dsimp only at h
  split at h
  · exact absurd h (abandonUserTask_ne _ _)
  · rename_i st₁ argv lengths heq
    rw [heq] at hpack
    rw [Kernel.modTask_spaces] at h
    have hargv := writeUserData_dataOnly st₁ (k.tasks p).userAddressSpace (argumentBase image)
      (listBuffer (argumentArray argv)) 64
    split at h
    · exact absurd h (abandonUserTask_ne _ _)
    · rename_i st₂ heq₂
      rw [heq₂] at hargv
      have hlengths := writeUserData_dataOnly st₂ (k.tasks p).userAddressSpace
        (argumentBase image + 64) (listBuffer (argumentArray lengths)) 64
      split at h
      · exact absurd h (abandonUserTask_ne _ _)
      · rename_i st₃ heq₃
        rw [heq₃] at hlengths
        obtain ⟨rfl, -⟩ := Prod.mk.inj h
        refine ⟨(hpack.trans hargv).trans hlengths, ?_, ?_, ?_, fun hpointer => ?_⟩
        · rw [Kernel.modTask_self]
          dsimp only
          rw [Kernel.modTask_self]
        · rw [Kernel.modTask_self]
          dsimp only
          rw [Kernel.modTask_self]
        · rw [Kernel.modTask_self]
          dsimp only
          rw [Kernel.modTask_self]
        · rw [Kernel.modTask_self]
          dsimp only
          rw [Kernel.taskSpace]
          dsimp only
          rw [Kernel.modTask_self]
          dsimp only
          rw [hpointer]

/-- **What the loader leaves**: a space with the image, its code, and the tables as they were. -/
theorem load_built (L : Layout) (name : Option String) (root : Word) (slot : Fin 4) (shared : Bool)
    (h : ImageOk image) (st : SpaceStatics) : ∃ st' space,
      addressSpaceLoadUserImage st (builtSpace L name root slot shared) (listBuffer image.code)
        (BitVec.ofNat 64 image.code.length) (listBuffer image.data)
        (BitVec.ofNat 64 image.data.length) (BitVec.ofNat 64 image.entryOffset) = (st', space, true)
      ∧ st'.tables = st.tables ∧ HoldsAt (st'.userRegionPages slot codeRegion) 0 image.code
      ∧ (space.kind = .user ∧ space.userTableSlot = slot)
      ∧ space.targetRootTable = L.table (.userL1 slot)
      ∧ space.kernelRootTable = root ∧ space.userRegions = userRegionTable
      ∧ (schedulerInitTaskEl0 (some space)).pc
        = addressSpaceUserCodeStart + BitVec.ofNat 64 image.entryOffset := by
  have hcode := h.codeFits
  rw [addressSpaceLoadUserImage,
    dif_pos ⟨show (builtSpace L name root slot shared).kind = .user from rfl, slot.isLt⟩,
    show (builtSpace L name root slot shared).userMappingsReady = true from rfl, Bool.not_true,
    Bool.false_or, loader_checks h]
  refine ⟨_, _, rfl, rfl, fun j hj => ⟨by omega, ?_⟩, ⟨rfl, rfl⟩, rfl, rfl, rfl, rfl⟩
  have hfin : (⟨(builtSpace L name root slot shared).userTableSlot, slot.isLt⟩ : Fin 4) = slot :=
    rfl
  have hne : codeRegion ≠ 1 := by decide
  rw [hfin]
  dsimp only
  rw [Function.update_self, Function.update_of_ne hne, show codeRegion = 0 from rfl,
    Function.update_self, toNat_small hcode, writePage, if_pos (by dsimp only; omega)]
  dsimp only
  rw [Nat.zero_add, Nat.sub_zero]
  exact List.getD_eq_getElem _ _ hj

/-- **A creation that succeeds** leaves a task that is ready for EL0. -/
theorem createUserTask_staged {name : Option String} {file argument : Option (List Byte)}
    {k k' : Kernel} {p : ℕ}
    (h : schedulerCreateUserTaskFromImage L S name file argument k = (k', (p : ℤ))) :
    ∃ image slot, userTaskImage file argument = some image
      ∧ Staged L k' p slot image (argument.getD []) ∧ Rooted k' p slot
      ∧ (k'.tasks p).userAddressSpace.kernelRootTable = k.spaces.kernelAddressSpace.rootTable
      ∧ ∀ file, ((k'.tasks p).files file).used = false := by
  obtain ⟨image, k₀, q, slot, himage, hclaim, hq, hfree⟩ := createUserTask_needs L S h
  obtain ⟨hok, -⟩ := userTaskImage_fits himage
  obtain ⟨k₄, hdone, -, hpacked⟩ := createUserTask_done L S name himage hclaim hq hfree
  obtain ⟨rfl, hpid⟩ := Prod.mk.inj (hdone.symm.trans h)
  obtain rfl := Int.ofNat_inj.mp hpid
  obtain ⟨shared, hinit⟩ := addressSpaceInitUser_some L (some (name.getD "user-demo"))
    k₀.spaces.kernelAddressSpace.rootTable hfree
  obtain ⟨st, space, hload, htables, htext, hslot, htarget, hroot, hregions, hentry⟩ := load_built L
    (some (name.getD "user-demo")) k₀.spaces.kernelAddressSpace.rootTable slot shared hok
    (takeSlot L k₀.spaces.kernelAddressSpace.rootTable slot k₀.spaces)
  rw [schedulerCreateUserTaskFromImage, himage] at h
  dsimp only at h
  rw [hclaim] at h
  dsimp only at h
  rw [if_neg (Nat.not_le.mpr hq), hinit, hload] at h
  dsimp only at h
  rw [if_neg (by decide)] at h
  set k₃ := ((({ k₀ with spaces := st }.modTask q fun t =>
    { t with userAddressSpace := space }).modTask q
    (resetTask S q (some (name.getD "user-demo")) .blocked 0)).modTask q fun t =>
    { t with memory := { t.memory with addressSpace := .user } }) with hk₃
  have hspace : (k₃.tasks q).userAddressSpace = space := by
    rw [hk₃, Kernel.modTask_self, Kernel.modTask_self, Kernel.modTask_self]
    rfl
  have hpointer : (k₃.tasks q).memory.addressSpace = .user := by
    rw [hk₃, Kernel.modTask_self]
  have hst : k₃.spaces = st := rfl
  have hfiles : ∀ file, ((k₃.tasks q).files file).used = false := fun file => by
    rw [hk₃, Kernel.modTask_self, Kernel.modTask_self]
    rfl
  obtain ⟨hdata, hmemory, hsame, hkept, hel0⟩ := packArguments_data h
  rw [hst] at hdata
  rw [hspace] at hsame hel0
  have hslots : ∃ k₁ k₂, SlotTables L slot k₁ k₂ k₄.spaces.tables := by
    rw [hdata.tables, htables]
    exact ⟨_, _, slotTables_buildSlot L k₀.spaces.kernelAddressSpace.rootTable slot _⟩
  refine ⟨image, slot, himage, ?_, ?_, ?_, fun file => by rw [hkept]; exact hfiles file⟩
  · refine ⟨?_, ?_, ?_, ?_, hslots, ?_, ?_, hpacked⟩
    · rw [hmemory, hpointer]
    · rw [hsame, hslot.1]
    · rw [hsame, htarget]
    · rw [hsame, hregions]
    · rw [hel0 hpointer, hentry]
    · rw [hdata.pages slot codeRegion (by decide)]
      exact htext
  · rw [Rooted, hsame]
    exact hslot
  · rw [hsame, hroot, (claimTaskSlot_spec hclaim).2.2.1]

/-- **It stays ready** as long as it keeps its memory. -/
theorem Staged.kept {k k' : Kernel} {p : ℕ} {slot : Fin 4}
    (h : Staged L k p slot image argument) (hkeeps : KeepsMemory p slot k k') :
    Staged L k' p slot image argument where
  pointer := hkeeps.launch.pointer.trans h.pointer
  kind := (congrArg AddressSpace.kind hkeeps.launch.space).trans h.kind
  target := (congrArg AddressSpace.targetRootTable hkeeps.launch.space).trans h.target
  regions := (congrArg AddressSpace.userRegions hkeeps.launch.space).trans h.regions
  tables := by
    obtain ⟨k₁, k₂, hT⟩ := h.tables
    exact ⟨k₁, k₂, hkeeps.memory.slotTables hT⟩
  entry := (congrArg _ hkeeps.launch.el0).trans h.entry
  text := by
    rw [hkeeps.memory.pages]
    exact h.text
  packed := by
    have hbytes : dataBytes k'.spaces slot = dataBytes k.spaces slot := by
      rw [dataBytes, hkeeps.memory.pages, dataBytes]
    rw [hbytes]
    exact ⟨hkeeps.launch.argc.trans h.packed.argc, hkeeps.launch.argv.trans h.packed.argv,
      hkeeps.launch.lengths.trans h.packed.lengths, h.packed.page_eq, h.packed.strings⟩

end Creating

/-! ## Entry -/

/-- The call of `arm64_enter_el0_task` for a task, with the arguments that reach EL0. -/
structure EntryCall (t : Task) (call : Cpu) : Prop where
  pc : call.x 0 = t.el0.pc
  argc : call.x 3 = t.userArgc
  argv : call.x 4 = t.userArgvAddress
  lengths : call.x 5 = t.userArgLengthsAddress

/-- The core behind its `eret`. -/
def entryCore (call : Cpu) : Core where
  x := call.arm64EnterEl0Task.x
  pc := call.arm64EnterEl0Task.pc
  nzcv := {}

/-- The second region is the data. -/
def dataRegion : Fin 3 := ⟨1, by decide⟩

/-- The registers a task enters EL0 with. -/
structure EntryRegisters (c : Core) (image : SaturnExecImage) (tokens : List (List Byte)) :
    Prop where
  argc : c.x 0 = BitVec.ofNat 64 tokens.length
  argv : c.x 1 = inRegion dataRegion (argumentStart image)
  lengths : c.x 2 = inRegion dataRegion (argumentStart image + 64)

section Entry

variable {L : Layout} {S : Symbols} {k k' : Kernel} {p : ℕ} {slot : Fin 4}
  {image : SaturnExecImage} {argument : List Byte}

/-- **`user_mode_run_task` enters EL0 at home**, with the session open and the memory as it was. -/
theorem Staged.home (h : Staged L k p slot image argument)
    (hroot : (k.tasks p).userAddressSpace.kernelRootTable ≠ 0)
    (henter : userModeRunTaskEnter S p k = (k', .ready)) :
    Home L k' slot ∧ OpenSession S k' ∧ k'.spaces = k.spaces := by
  have hspace : k.taskSpace p = some (k.tasks p).userAddressSpace := by
    rw [Kernel.taskSpace, h.pointer]
  have hopen := (runTaskEnter_open hspace hroot henter).1
  obtain ⟨status, hne, heq⟩ | ⟨space, hspace', -, -, -, -, -, heq⟩ := runTaskEnter_spec S p k
  · exact absurd (Prod.mk.inj (heq.symm.trans henter)).2 hne
  obtain rfl := Option.some.inj (hspace.symm.trans hspace')
  obtain ⟨rfl, -⟩ := Prod.mk.inj (heq.symm.trans henter)
  set k₁ := ((k.modSession (openSession S p (k.tasks p).userAddressSpace)).arm64MmuSwitchTtbr0
    (k.tasks p).userAddressSpace.targetRootTable).modTask p fun t =>
      { t with userStatus := { t.userStatus with el0Entries := t.userStatus.el0Entries + 1 } }
    with hk₁
  have htask : k₁.taskSpace p = some (k.tasks p).userAddressSpace := by
    have hpointer : (((k.modSession (openSession S p (k.tasks p).userAddressSpace)
      ).arm64MmuSwitchTtbr0 (k.tasks p).userAddressSpace.targetRootTable).tasks p
      ).memory.addressSpace = .user := h.pointer
    rw [hk₁, Kernel.taskSpace, Kernel.modTask_self]
    dsimp only
    rw [hpointer]
    rfl
  have hsession : k₁.userSession.task = some p := by
    rw [hk₁, Kernel.modTask_userSession, Kernel.switchTtbr0_userSession,
      Kernel.modSession_userSession]
    all_goals rfl
  have hactive : syscallAddressSpace k₁ = some (k.tasks p).userAddressSpace := by
    rw [syscallAddressSpace, userModeActiveAddressSpace, if_pos hopen.active, hsession,
      Option.bind_some, htask]
  exact ⟨⟨h.target, h.tables, _, hactive, h.kind, h.regions⟩, hopen, rfl⟩

/-- **…with its arguments in the registers.** -/
theorem Staged.registers (h : Staged L k p slot image argument) {call : Cpu}
    (hcall : EntryCall (k.tasks p) call) :
    (entryCore call).pc = inRegion codeRegion image.entryOffset
      ∧ EntryRegisters (entryCore call) image (argumentTokens argument) := by
  refine ⟨hcall.pc.trans h.entry, hcall.argc.trans h.packed.argc,
    hcall.argv.trans h.packed.argv, hcall.lengths.trans h.packed.lengths⟩

end Entry

end SaturnOS
