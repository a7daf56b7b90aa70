import SaturnOS.Memory.UserTables
import SaturnOS.Sched.Table
import SaturnOS.User.Format

/-!
# Sched/Creation — when the creation of a user task fails, and what it has done by then

    image ──▸ task slot ──▸ table slot ──▸ arguments ──▸ admission
      ✗          ✗             ✗

The three checks that can fail come before anything is taken: the argument vectors fit where the
text was measured to fit, and a task built in a table slot is admitted.  So a creation, or a spawn,
that fails leaves the table and the spaces as they were (`spawnChild_fails`).
-/

namespace SaturnOS

/-! ## The arguments fit -/

/-- The room the strings of an argument take, a NUL after each. -/
def stringsSize (tokens : List (List Byte)) : ℕ := (tokens.map fun token => token.length + 1).sum

theorem stringsSize_filter (tokens : List (List Byte)) :
    stringsSize (tokens.filter (· ≠ [])) ≤ stringsSize tokens := by
  induction tokens with
  | nil => exact le_rfl
  | cons token tokens ih =>
    rw [List.filter_cons]
    split
    · exact Nat.add_le_add_left ih _
    · exact ih.trans (Nat.le_add_left _ _)

theorem length_intercalate (tokens : List (List Byte)) (c : Byte) :
    stringsSize tokens ≤ ([c].intercalate tokens).length + 1 := by
  induction tokens with
  | nil => exact Nat.zero_le _
  | cons token tokens ih =>
    cases tokens with
    | nil => simp [stringsSize, List.intercalate]
    | cons token' tokens =>
      have hsize : stringsSize (token :: token' :: tokens)
          = token.length + 1 + stringsSize (token' :: tokens) := rfl
      have hlen : ([c].intercalate (token :: token' :: tokens)).length
          = token.length + 1 + ([c].intercalate (token' :: tokens)).length := by
        simp [List.intercalate, List.intersperse]
        omega
      rw [hsize, hlen]
      omega

/-- **The strings need no more room than the text and its NUL.** -/
theorem argumentTokens_size (argument : List Byte) :
    stringsSize (argumentTokens argument) ≤ argument.length + 1 := by
  have h := length_intercalate (argument.splitOn 0x20) 0x20
  rw [List.intercalate_splitOn] at h
  exact (stringsSize_filter _).trans h

/-- A space with a slot, as its own writes need it. -/
structure LiveSpace (space : AddressSpace) : Prop where
  kind : space.kind = .user
  slot : space.userTableSlot < addressSpaceUserTableSlots

/-- A write inside the data page is done. -/
theorem writeUserData_ok {space : AddressSpace} (h : LiveSpace space) (st : SpaceStatics)
    (offset : Word) (bytes : List Byte) (size : Word)
    (hfits : offset.toNat + size.toNat ≤ 4096) :
    (addressSpaceWriteUserData st space offset (listBuffer bytes) size).2 = true := by
  have hpage : (arm64PageSize : Word).toNat = 4096 := rfl
  have hoff : ¬ arm64PageSize < offset := by
    rw [BitVec.lt_def, hpage]
    omega
  have hsize : ¬ arm64PageSize - offset < size := by
    rw [BitVec.lt_def, BitVec.toNat_sub_of_le (by rw [BitVec.le_def, hpage]; omega), hpage]
    omega
  rw [addressSpaceWriteUserData, dif_pos ⟨h.kind, h.slot⟩, decide_eq_false hoff,
    decide_eq_false hsize, show (listBuffer bytes).isNone = false from rfl, Bool.and_false]
  rfl

/-- **The string loop** gets through where its strings fit. -/
theorem packStrings_ok {space : AddressSpace} (h : LiveSpace space) (tokens : List (List Byte))
    (cursor : Word) (st : SpaceStatics) (hfits : cursor.toNat + stringsSize tokens ≤ 4096) :
    (packStrings space tokens cursor st).2.isSome = true := by
  induction tokens generalizing cursor st with
  | nil => rfl
  | cons token rest ih =>
    have hsize : stringsSize (token :: rest) = token.length + 1 + stringsSize rest := rfl
    have hlen : (BitVec.ofNat 64 token.length).toNat = token.length := by
      rw [BitVec.toNat_ofNat]
      omega
    have hnext : (cursor + BitVec.ofNat 64 token.length + 1).toNat = cursor.toNat + token.length
        + 1 := by
      rw [BitVec.toNat_add, BitVec.toNat_add, hlen]
      have : (1 : Word).toNat = 1 := rfl
      omega
    have hwrite := writeUserData_ok h st cursor token (BitVec.ofNat 64 token.length)
      (by rw [hlen]; omega)
    rw [packStrings]
    dsimp only
    split
    · rename_i heq
      rw [heq] at hwrite
      cases hwrite
    · rename_i st₁ heq
      have hrest := ih (cursor + BitVec.ofNat 64 token.length + 1)
        (addressSpaceWriteUserData st₁ space (cursor + BitVec.ofNat 64 token.length)
          (listBuffer [0]) 1).1 (by rw [hnext]; omega)
      split
      · rename_i heq'
        rw [heq'] at hrest
        cases hrest
      · rfl

/-- The strings are written, and the kernel's space stays. -/
theorem strings_written {space : AddressSpace} (h : LiveSpace space) (st : SpaceStatics)
    {base : Word} {argument : List Byte} (hfits : base.toNat + 128 + argument.length + 1 ≤ 4096) :
    ∃ st' packed, packStrings space (argumentTokens argument) (base + 128) st = (st', some packed)
      ∧ st'.kernelAddressSpace = st.kernelAddressSpace := by
  have h128 : (base + 128).toNat = base.toNat + 128 := by
    rw [BitVec.toNat_add]
    have : (128 : Word).toNat = 128 := rfl
    omega
  have htokens := argumentTokens_size argument
  obtain ⟨packed, hpacked⟩ := Option.isSome_iff_exists.mp
    (packStrings_ok h (argumentTokens argument) (base + 128) st (by omega))
  exact ⟨_, packed, Prod.ext rfl hpacked, (packStrings_sameSlots space _ _ st).kernel⟩

/-- So are the two arrays in front of them. -/
theorem arrays_written {space : AddressSpace} (h : LiveSpace space) (st : SpaceStatics)
    {base : Word} (hfits : base.toNat + 128 ≤ 4096) (argv lengths : List Byte) : ∃ st₁ st₂,
      addressSpaceWriteUserData st space base (listBuffer argv) 64 = (st₁, true)
      ∧ addressSpaceWriteUserData st₁ space (base + 64) (listBuffer lengths) 64 = (st₂, true)
      ∧ st₂.kernelAddressSpace = st.kernelAddressSpace := by
  have h64 : (base + 64).toNat = base.toNat + 64 := by
    rw [BitVec.toNat_add]
    have : (64 : Word).toNat = 64 := rfl
    omega
  have hsize : (64 : Word).toNat = 64 := rfl
  have hargv := writeUserData_ok h st base argv 64 (by omega)
  have hkernel := addressSpaceWriteUserData_kernel st space base (listBuffer argv) 64
  set st₁ := (addressSpaceWriteUserData st space base (listBuffer argv) 64).1
  have hlengths := writeUserData_ok h st₁ (base + 64) lengths 64 (by omega)
  have hkernel' := addressSpaceWriteUserData_kernel st₁ space (base + 64) (listBuffer lengths) 64
  exact ⟨st₁, _, Prod.ext rfl hargv, Prod.ext rfl hlengths, hkernel'.trans hkernel⟩

/-- What the checks before creation say of the image and of the room for the arguments. -/
theorem userTaskImage_fits {file argument : Option (List Byte)} {image : SaturnExecImage}
    (h : userTaskImage file argument = some image) : ImageOk image
      ∧ (argumentBase image).toNat + 128 + (argument.getD []).length + 1 ≤ 4096 := by
  rw [userTaskImage] at h
  cases file with
  | none => cases h
  | some file =>
    cases hparse : saturnExecParse (some file) with
    | none =>
      rw [hparse] at h
      cases h
    | some parsed =>
      rw [hparse] at h
      dsimp only at h
      split_ifs at h with hlong hmany hroom
      obtain rfl := Option.some.inj h
      have hok := (accepted_file hparse).1
      have hdata := hok.dataFits
      refine ⟨hok, ?_⟩
      have htext : (argument.getD []).length ≤ 128 := Nat.le_of_not_lt hlong
      have hbase : (argumentBase parsed).toNat ≤ 4103 := by
        rw [argumentBase, BitVec.toNat_and]
        refine Nat.and_le_left.trans ?_
        rw [BitVec.toNat_add, toNat_small hdata]
        have : (7 : Word).toNat = 7 := rfl
        omega
      have hsum : (argumentBase parsed + 128 + BitVec.ofNat 64 (argument.getD []).length + 1).toNat
          = (argumentBase parsed).toNat + 128 + (argument.getD []).length + 1 := by
        rw [BitVec.toNat_add, BitVec.toNat_add, BitVec.toNat_add,
          toNat_small (htext.trans (by decide))]
        have h128 : (128 : Word).toNat = 128 := rfl
        have h1 : (1 : Word).toNat = 1 := rfl
        omega
      rw [BitVec.lt_def, hsum] at hroom
      exact Nat.le_of_not_lt hroom

/-! ## Creation -/

/-- A task that was created in slot `p` and can be admitted. -/
structure Admissible (p : ℕ) (space : AddressSpace) (t : Task) : Prop where
  pid : t.pid = p
  state : t.state = .blocked
  pointer : t.memory.addressSpace = .user
  space_eq : t.userAddressSpace = space
  el0 : t.el0 = schedulerInitTaskEl0 (some space)

/-- **The arguments of a new task are packed**, where they fit. -/
theorem packArguments_ok {p : ℕ} {k : Kernel} {image : SaturnExecImage} {argument : List Byte}
    {space : AddressSpace} (hspace : (k.tasks p).userAddressSpace = space) (hlive : LiveSpace space)
    (hpid : (k.tasks p).pid = p) (hstate : (k.tasks p).state = .blocked)
    (hpointer : (k.tasks p).memory.addressSpace = .user)
    (hfits : (argumentBase image).toNat + 128 + argument.length + 1 ≤ 4096) :
    ∃ k', packArguments p image argument k = (k', (p : ℤ)) ∧ ChangedAt p k k'
      ∧ k'.taskCount = k.taskCount ∧ k'.spaces.kernelAddressSpace = k.spaces.kernelAddressSpace
      ∧ Admissible p space (k'.tasks p) := by
  obtain ⟨st, ⟨argv, lengths⟩, hpack, hkernel⟩ := strings_written hlive k.spaces hfits
  obtain ⟨st₁, st₂, hargv, hlengths, hkernel₂⟩ := arrays_written hlive st
    (by omega : (argumentBase image).toNat + 128 ≤ 4096) (argumentArray argv)
    (argumentArray lengths)
  rw [packArguments, hspace, hpack]
  dsimp only [Kernel.modTask_spaces]
  rw [hargv]
  dsimp only
  rw [hlengths]
  dsimp only
  set k₁ := Kernel.modTask { k with spaces := st } p fun t =>
    { t with
      userArgc := BitVec.ofNat 64 (argumentTokens argument).length
      userArgvAddress := space.userDataStart + argumentBase image
      userArgLengthsAddress := space.userDataStart + argumentBase image + 64 } with hk₁
  have hself : k₁.tasks p = { k.tasks p with
      userArgc := BitVec.ofNat 64 (argumentTokens argument).length
      userArgvAddress := space.userDataStart + argumentBase image
      userArgLengthsAddress := space.userDataStart + argumentBase image + 64 } := by
    rw [hk₁, Kernel.modTask_self]
  have hchanged : ChangedAt p k k₁ :=
    (ChangedAt.spaces p k (congrArg AddressSpace.kind hkernel)).trans
    (ChangedAt.modTask { k with spaces := st } p _)
  have hkind : st₂.kernelAddressSpace.kind = k₁.spaces.kernelAddressSpace.kind :=
    congrArg AddressSpace.kind hkernel₂
  refine ⟨_, rfl, (hchanged.trans (ChangedAt.spaces p k₁ hkind)).trans (ChangedAt.modTask _ p _),
    rfl, hkernel₂.trans hkernel, ?_⟩
  have htask : Kernel.taskSpace { k₁ with spaces := st₂ } p = some space := by
    rw [Kernel.taskSpace]
    dsimp only
    rw [hself]
    dsimp only
    rw [hpointer, hspace]
  rw [Kernel.modTask_self, htask]
  dsimp only
  rw [hself]
  exact ⟨hpid, hstate, hpointer, hspace, rfl⟩

/-! ## Admission -/

/-- The space of a created task: built in a table slot, with its image loaded. -/
structure LoadedSpace (root : Word) (image : SaturnExecImage) (space : AddressSpace) : Prop where
  live : LiveSpace space
  valid : space.validationReady = true ∧ space.validationErrors = 0
  mapped : space.userMappingsReady = true ∧ space.userExecuteReady = true
  image_ready : space.userImageReady = true
  entry : space.userImageEntry = addressSpaceUserCodeStart + BitVec.ofNat 64 image.entryOffset
  stack : space.userStackEnd = addressSpaceUserStackEnd
  target : space.targetRootTable ≠ 0
  switch : root ≠ space.targetRootTable → space.switchReady = true ∧ space.switchStatus = .ready

/-- **A space built in a table slot takes the image.** -/
theorem loadedSpace (L : Layout) (name : Option String) (root : Word) (slot : Fin 4) (shared : Bool)
    {image : SaturnExecImage} (h : ImageOk image) (st : SpaceStatics) : ∃ pages space,
      addressSpaceLoadUserImage st (builtSpace L name root slot shared) (listBuffer image.code)
        (BitVec.ofNat 64 image.code.length) (listBuffer image.data)
        (BitVec.ofNat 64 image.data.length) (BitVec.ofNat 64 image.entryOffset)
      = ({ st with userRegionPages := pages }, space, true)
      ∧ LoadedSpace root image space ∧ space.targetRootTable = L.table (.userL1 slot) := by
  have herrors := validationErrors_builtSpace L name root slot shared
  have hroot : L.table (.userL1 slot) ≠ 0 := L.table_ne_zero _
  obtain ⟨pages, checksum, heq⟩ := load_image h st
    (show (builtSpace L name root slot shared).kind = .user from rfl) slot.isLt rfl
  refine ⟨pages, _, heq, ⟨⟨rfl, slot.isLt⟩, ⟨?_, herrors⟩, ⟨rfl, rfl⟩, rfl, rfl, rfl, hroot, ?_⟩,
    rfl⟩
  · exact decide_eq_true herrors
  · intro hne
    have hready : (builtSpace L name root slot shared).switchReady = true :=
      decide_eq_true ⟨herrors, hroot, fun heq => hne heq.symm⟩
    refine ⟨hready, ?_⟩
    exact if_pos hready

/-- **A loaded task is admitted.** -/
theorem unblock_admissible {root : Word} {image : SaturnExecImage} {space : AddressSpace}
    (hok : ImageOk image) (hload : LoadedSpace root image space)
    (hroot : root ≠ space.targetRootTable)
    (S : Symbols) {k : Kernel} {p : ℕ} (hp : p < k.taskCount) (h : Admissible p space (k.tasks p)) :
    (schedulerUnblockUserTask S p k).2 = 0 := by
  obtain ⟨hready, hstatus⟩ := hload.switch hroot
  have hspace : k.taskSpace p = some space := by
    rw [Kernel.taskSpace, h.pointer, h.space_eq]
  have hentry : space.userImageEntry ≠ 0 := by
    have hlt := toNat_small (hok.entry.le.trans hok.codeFits)
    rw [hload.entry, ne_eq, ← BitVec.toNat_inj, BitVec.toNat_add, hlt]
    have hbase : addressSpaceUserCodeStart.toNat = 0x100000 := rfl
    have hzero : (0 : Word).toNat = 0 := rfl
    have := hok.entry
    have := hok.codeFits
    omega
  have hel0 : (k.tasks p).el0 = ⟨space.userImageEntry, 0x40000000, arm64SpsrEl0t, true⟩ := by
    rw [h.el0, schedulerInitTaskEl0, hload.live.kind, hload.mapped.1, hload.mapped.2,
      hload.image_ready, hload.stack]
    rfl
  have hprepare : userModePrepare k p = .ready := by
    rw [userModePrepare, userModeCanEnter, hspace, hel0]
    dsimp only
    rw [hload.live.kind, hload.valid.1, hload.valid.2, hload.image_ready]
    simpa using hentry
  have hstub : addressSpaceSwitchStub space = .ready := by
    rw [addressSpaceSwitchStub, hstatus, hready, hload.valid.1, hload.valid.2]
    simpa using hload.target
  have hin : pidInTable k p = true := by
    rw [pidInTable, Bool.and_eq_true, decide_eq_true_eq, decide_eq_true_eq]
    exact ⟨Int.natCast_nonneg p, Int.ofNat_lt.mpr hp⟩
  rw [schedulerUnblockUserTask, hin]
  dsimp only [Int.toNat_natCast]
  rw [h.state, hprepare, hspace, Option.map_some, hstub]
  rfl

/-! ## Failure -/

/-- What a creation that fails leaves: at most a dead space in an unused slot. -/
def FailsClean (k k' : Kernel) : Prop :=
  k' = k ∨ ∃ p space, (k.tasks p).state = .unused
    ∧ k' = k.modTask p fun t => { t with userAddressSpace := space }

/-- A claimed slot that is given back leaves the table as it was. -/
theorem release_claimed {k k' : Kernel} {p : ℕ} (h : TableOk k)
    (hclaim : claimTaskSlot k = some (k', p))
    (f : Task → Task) :
    (k.tasks p).state = .unused ∧ releaseTaskSlot p (k'.modTask p f) = k.modTask p f := by
  rw [claimTaskSlot] at hclaim
  split at hclaim
  · rename_i i hfind
    obtain ⟨rfl, rfl⟩ := Prod.mk.inj (Option.some.inj hclaim)
    have hmem := mem_slots.mp (List.mem_of_find?_eq_some hfind)
    have hunused : (k.tasks i).state = .unused := by simpa using List.find?_some hfind
    refine ⟨hunused, ?_⟩
    rw [releaseTaskSlot, if_neg]
    rw [Kernel.modTask_taskCount]
    rintro rfl
    exact h.last_used (by omega) hunused
  · split at hclaim
    · cases hclaim
    · obtain ⟨rfl, rfl⟩ := Prod.mk.inj (Option.some.inj hclaim)
      refine ⟨h.unused_ge _ le_rfl, ?_⟩
      exact if_pos (Nat.add_sub_cancel k.taskCount 1).symm

/-- **With no table slot left** the space of a new task has none: no image is loaded into it. -/
theorem load_withoutSlot (L : Layout) (name : Option String) (root : Word) {st : SpaceStatics}
    (hfree : lowestFreeSlot st = none) : ∃ space,
      addressSpaceInitUser L name root st = (st, space)
      ∧ ¬ (space.kind = .user ∧ space.userTableSlot < addressSpaceUserTableSlots)
      ∧ ∀ code codeSize data dataSize entryOffset,
        addressSpaceLoadUserImage st space code codeSize data dataSize entryOffset
          = (st, space, false) := by
  obtain ⟨hst, hslot, -⟩ := addressSpaceInitUser_none L name root hfree
  have hnot : ¬ ((addressSpaceInitUser L name root st).2.kind = .user
      ∧ (addressSpaceInitUser L name root st).2.userTableSlot < addressSpaceUserTableSlots) := by
    rw [hslot]
    exact fun hn => Nat.lt_irrefl _ hn.2
  exact ⟨_, Prod.ext hst rfl, hnot, fun _ _ _ _ _ => dif_neg hnot⟩

/-- There is nothing to destroy of a space without a table slot. -/
theorem destroy_withoutSlot {space : AddressSpace}
    (hnot : ¬ (space.kind = .user ∧ space.userTableSlot < addressSpaceUserTableSlots)) (k : Kernel)
    (p : ℕ) :
    destroyUserAddressSpace p (k.modTask p fun t => { t with userAddressSpace := space })
      = k.modTask p fun t => { t with userAddressSpace := space } := by
  rw [destroyUserAddressSpace, Kernel.modTask_self, addressSpaceDestroyUser, dif_neg hnot,
    Kernel.modTask, Kernel.modTask]
  simp

/-- The table once the record of a new user task is written, before its arguments are packed. -/
def placedTask (S : Symbols) (p : ℕ) (name : Option String) (st : SpaceStatics)
    (space : AddressSpace) (k : Kernel) : Kernel :=
  (({ k with spaces := st }.modTask p fun t => { t with userAddressSpace := space }).modTask p
    (resetTask S p name .blocked 0)).modTask p fun t =>
      { t with memory := { t.memory with addressSpace := .user } }

/-- The record of a placed task is the fresh one over its space. -/
theorem placedTask_self (S : Symbols) (p : ℕ) (name : Option String) (st : SpaceStatics)
    (space : AddressSpace) (k : Kernel) :
    (placedTask S p name st space k).tasks p
      = { resetTask S p name .blocked 0 { k.tasks p with userAddressSpace := space } with
          memory := { schedulerInitTaskMemory S p with addressSpace := .user } } := by
  rw [placedTask, Kernel.modTask_self, Kernel.modTask_self, Kernel.modTask_self]
  rfl

/-- Placing a task changes its slot and the spaces. -/
theorem placedTask_changed (S : Symbols) (p : ℕ) (name : Option String) {st : SpaceStatics}
    (space : AddressSpace) {k : Kernel}
    (hkernel : st.kernelAddressSpace = k.spaces.kernelAddressSpace) :
    ChangedAt p k (placedTask S p name st space k) :=
  (((ChangedAt.spaces p k (congrArg AddressSpace.kind hkernel)).trans
    (ChangedAt.modTask _ p _)).trans (ChangedAt.modTask _ p _)).trans (ChangedAt.modTask _ p _)

/-- How the creation of a user task ends: refused, for want of a task slot or a table slot too; or
with a task that can be admitted. -/
inductive CreationEnd (L : Layout) (k : Kernel) : Kernel × ℤ → Prop
  | failed {k' : Kernel} (hclean : FailsClean k k') : CreationEnd L k (k', -1)
  | created {k' : Kernel} {p : ℕ} {image : SaturnExecImage} {space : AddressSpace} {slot : Fin 4}
      (hunused : (k.tasks p).state = .unused) (hpos : 0 < p) (hlt : p < k'.taskCount)
      (hcount : k.taskCount ≤ k'.taskCount) (hchanged : ChangedAt p k k') (hok : ImageOk image)
      (hspace : LoadedSpace k.spaces.kernelAddressSpace.rootTable image space)
      (htarget : space.targetRootTable = L.table (.userL1 slot))
      (htask : Admissible p space (k'.tasks p)) : CreationEnd L k (k', (p : ℤ))

/-- **A claimed slot without a table slot** is given back: the creation fails clean. -/
theorem withoutSlot_ends (L : Layout) {k k₀ : Kernel} {p : ℕ} (h : TableOk k)
    (hclaim : claimTaskSlot k = some (k₀, p)) {space : AddressSpace}
    (hnot : ¬ (space.kind = .user ∧ space.userTableSlot < addressSpaceUserTableSlots)) :
    CreationEnd L k (releaseTaskSlot p (destroyUserAddressSpace p
      (k₀.modTask p fun t => { t with userAddressSpace := space })), -1) := by
  rw [destroy_withoutSlot hnot]
  obtain ⟨hunused, hrelease⟩ := release_claimed h hclaim fun t =>
    { t with userAddressSpace := space }
  exact .failed (.inr ⟨p, space, hunused, hrelease⟩)

/-- **A claimed slot with a loaded space** becomes a task that can be admitted: its arguments
fit. -/
theorem placedTask_ends (L : Layout) (S : Symbols) {k k₀ : Kernel} {p : ℕ} (h : TableOk k)
    (hclaim : claimTaskSlot k = some (k₀, p)) (name : Option String) {st : SpaceStatics}
    {image : SaturnExecImage} {space : AddressSpace} {slot : Fin 4} {argument : List Byte}
    (hok : ImageOk image) (hfits : (argumentBase image).toNat + 128 + argument.length + 1 ≤ 4096)
    (hspace : LoadedSpace k.spaces.kernelAddressSpace.rootTable image space)
    (htarget : space.targetRootTable = L.table (.userL1 slot))
    (hkernel : st.kernelAddressSpace = k₀.spaces.kernelAddressSpace) :
    CreationEnd L k (packArguments p image argument (placedTask S p name st space k₀)) := by
  have hk₀ := (claimTaskSlot_spec hclaim).1
  obtain ⟨-, hpos, hlt, hunused, -, hcount⟩ := h.claim hclaim
  have hself := placedTask_self S p name st space k₀
  have hpid : ((placedTask S p name st space k₀).tasks p).pid = p := by
    rw [hself]
    rfl
  have hstate : ((placedTask S p name st space k₀).tasks p).state = .blocked := by
    rw [hself]
    rfl
  have hpointer : ((placedTask S p name st space k₀).tasks p).memory.addressSpace = .user := by
    rw [hself]
  have hspace₀ : ((placedTask S p name st space k₀).tasks p).userAddressSpace = space := by
    rw [hself]
    rfl
  obtain ⟨k', hpack, hrest, hcount', -, htask⟩ :=
    packArguments_ok hspace₀ hspace.live hpid hstate hpointer hfits
  have hcount₀ : (placedTask S p name st space k₀).taskCount = k₀.taskCount := rfl
  rw [hpack]
  refine .created hunused hpos ?_ ?_
    ((hk₀.trans (placedTask_changed S p name space hkernel)).trans hrest) hok hspace htarget htask
  · rw [hcount', hcount₀]
    exact hlt
  · rw [hcount', hcount₀]
    omega

/-- **Every creation ends one of the two ways.**  The arguments fit and a loaded space is valid, so
the checks on an image, on a task slot and on a table slot are the only ones that can fail. -/
theorem createUserTask_ends (L : Layout) (S : Symbols) {k : Kernel} (h : TableOk k)
    (name : Option String) (file argument : Option (List Byte)) :
    CreationEnd L k (schedulerCreateUserTaskFromImage L S name file argument k) := by
  rw [schedulerCreateUserTaskFromImage]
  split
  · exact .failed (.inl rfl)
  rename_i image himage
  obtain ⟨hok, hfits⟩ := userTaskImage_fits himage
  split
  · exact .failed (.inl rfl)
  rename_i k₀ p hclaim
  obtain ⟨-, -, hspaces, -⟩ := claimTaskSlot_spec hclaim
  obtain ⟨hmax, -, hlt, -⟩ := h.claim hclaim
  rw [if_neg (by omega)]
  dsimp only
  cases hfree : lowestFreeSlot k₀.spaces with
  | none =>
    obtain ⟨space, hinit, hnot, hload⟩ := load_withoutSlot L (some (name.getD "user-demo"))
      k₀.spaces.kernelAddressSpace.rootTable hfree
    rw [hinit]
    dsimp only
    rw [hload]
    exact withoutSlot_ends L h hclaim hnot
  | some slot =>
    obtain ⟨shared, hinit⟩ := addressSpaceInitUser_some L (some (name.getD "user-demo"))
      k₀.spaces.kernelAddressSpace.rootTable hfree
    obtain ⟨pages, space, hload, hspace, htarget⟩ := loadedSpace L (some (name.getD "user-demo"))
      k₀.spaces.kernelAddressSpace.rootTable slot shared hok
      (takeSlot L k₀.spaces.kernelAddressSpace.rootTable slot k₀.spaces)
    have hkernel := addressSpaceInitUser_kernel L (some (name.getD "user-demo"))
      k₀.spaces.kernelAddressSpace.rootTable k₀.spaces
    rw [hinit] at hkernel ⊢
    dsimp only
    rw [hload]
    dsimp only
    rw [if_neg (by decide)]
    rw [hspaces] at hspace
    exact placedTask_ends L S h hclaim _ hok hfits hspace htarget hkernel

/-- **A created child is admitted**, once the task that creates it is its parent. -/
theorem child_admitted (S : Symbols) {k k' : Kernel} {p : ℕ} {root : Word} {image : SaturnExecImage}
    {space : AddressSpace} (h : TableOk k) (hcurrent : k.currentTask ≠ 0)
    (hunused : (k.tasks p).state = .unused) (hpos : 0 < p) (hlt : p < k'.taskCount)
    (hcount : k.taskCount ≤ k'.taskCount) (hchanged : ChangedAt p k k') (hok : ImageOk image)
    (hspace : LoadedSpace root image space) (hroot : root ≠ space.targetRootTable)
    (htask : Admissible p space (k'.tasks p)) : ∃ k₁,
      schedulerSetTaskParent p k'.current.pid k' = (k₁, true) ∧ ChangedAt p k k₁
        ∧ (schedulerUnblockUserTask S p k₁).2 = 0 := by
  have hcur : k'.currentTask = k.currentTask := hchanged.currentTask
  have hne : k.currentTask ≠ p := by
    rintro rfl
    exact h.current_used hunused
  have hpid : k'.current.pid = k.currentTask := by
    rw [Kernel.current, hcur, hchanged.tasks _ hne]
    exact h.pid_eq _ h.current_lt
  have hinside := h.current_lt
  refine ⟨k'.modTask p fun t => { t with parentPid := k'.current.pid }, ?_,
    hchanged.trans (ChangedAt.modTask k' p _), ?_⟩
  · rw [schedulerSetTaskParent, hpid, if_neg (by omega)]
    rfl
  · refine unblock_admissible hok hspace hroot S hlt ?_
    rw [Kernel.modTask_self]
    exact ⟨htask.pid, htask.state, htask.pointer, htask.space_eq, htask.el0⟩

/-- **A spawn that fails** has done no more than a creation that fails: the child of a user task
gets its parent, and is admitted. -/
theorem spawnChild_fails (L : Layout) (S : Symbols) {k : Kernel} (h : TableOk k)
    (hcurrent : k.currentTask ≠ 0)
    (hroot : k.spaces.kernelAddressSpace.rootTable = L.table .vmL1)
    (file argument : Option (List Byte))
    (hneg : (spawnChild L S file argument k).2 < 0) :
    FailsClean k (spawnChild L S file argument k).1 := by
  have hend := createUserTask_ends L S h (some "user-child") file argument
  rw [spawnChild] at hneg ⊢
  generalize schedulerCreateUserTaskFromImage L S (some "user-child") file argument k
    = r at hend hneg ⊢
  cases hend with
  | failed hclean => exact hclean
  | @created k' p image space slot hunused hpos hlt hcount hchanged hok hspace htarget htask =>
    exfalso
    obtain ⟨k₁, hparent, -, hunblock⟩ := child_admitted S h hcurrent hunused hpos hlt hcount
      hchanged hok
      hspace (by
        rw [htarget, hroot]
        intro heq
        cases L.table_injective heq) htask
    dsimp only at hneg
    rw [if_neg (by omega), hparent] at hneg
    dsimp only at hneg
    rw [hunblock, if_neg (by omega)] at hneg
    omega

end SaturnOS
