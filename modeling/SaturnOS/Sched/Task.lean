import SaturnOS.Memory.AddressSpace
import SaturnOS.Sched.Stacks

/-!
# Sched/Task — the task table and the state of the kernel

`struct task` of `kernel/sched/scheduler.h` with the static variables of `scheduler.c`, the session
array of `arch/arm64/user.c` and `TTBR0_EL1`: everything a scheduler operation can read or write.
The defaults are those of zeroed static storage.
-/

namespace SaturnOS

/-- `enum task_state`; a slot of zeros is unused. -/
inductive TaskState
  | unused
  | ready
  | running
  | blocked
  | sleeping
  | eligible
  | zombie
  deriving DecidableEq

/-- What `task.memory.address_space` can point to: nothing, the kernel's space, or the
`user_address_space` of the same task. -/
inductive SpacePtr
  | null
  | kernel
  | user
  deriving DecidableEq

/-- `struct cpu_context`; `x` holds `x19 … x28`. -/
structure CpuContext where
  x : Fin 10 → Word := fun _ => 0
  fp : Word := 0
  lr : Word := 0
  sp : Word := 0

/-- `struct task_memory`: where the task's space is, and its kernel stack between two guards. -/
structure TaskMemory where
  addressSpace : SpacePtr := .null
  stackStart : Word := 0
  stackEnd : Word := 0
  guardLowStart : Word := 0
  guardLowEnd : Word := 0
  guardHighStart : Word := 0
  guardHighEnd : Word := 0

/-- `struct task_el0_state`: where the task enters EL0, if it can. -/
structure TaskEl0State where
  pc : Word := 0
  sp : Word := 0
  spsr : Word := 0
  ready : Bool := false

/-- `struct task_user_status`. -/
structure TaskUserStatus where
  programCompleted : Bool := false
  programSucceeded : Bool := false
  admissions : Word := 0
  el0Entries : Word := 0
  traps : Word := 0
  recoveries : Word := 0
  rejects : Word := 0
  exits : Word := 0
  lastExitCode : Word := 0
  completions : Word := 0
  failures : Word := 0

/-- `struct task_accounting`. -/
structure TaskAccounting where
  switches : Word := 0
  runTicks : Word := 0
  yields : Word := 0
  preemptions : Word := 0
  sleepWakeups : Word := 0

/-- A descriptor: a path and an offset. -/
structure TaskFile where
  used : Bool := false
  path : Fin 48 → Byte := fun _ => 0
  offset : Word := 0

/-- `struct task`. -/
structure Task where
  pid : ℤ := 0
  parentPid : ℤ := 0
  name : Option String := none
  state : TaskState := .unused
  entry : Word := 0
  context : CpuContext := {}
  sleepUntilTick : Word := 0
  sleepRequestedMs : Word := 0
  accounting : TaskAccounting := {}
  memory : TaskMemory := {}
  userAddressSpace : AddressSpace := {}
  el0 : TaskEl0State := {}
  userStatus : TaskUserStatus := {}
  files : Fin 4 → TaskFile := fun _ => {}
  userArgc : Word := 0
  userArgvAddress : Word := 0
  userArgLengthsAddress : Word := 0

/-- `enum user_session_reject_reason`. -/
inductive UserSessionRejectReason
  | none
  | badRoots
  | badReturn
  | unexpectedMode
  deriving DecidableEq

/-- `struct user_session_state`; `task` is the slot the pointer names. -/
structure UserSession where
  active : Bool := false
  completed : Bool := false
  faulted : Bool := false
  lastRejectReason : UserSessionRejectReason := .none
  rejectCount : Word := 0
  task : Option ℕ := none
  returnPc : Word := 0
  kernelRoot : Word := 0
  userRoot : Word := 0
  deriving DecidableEq

/-- The addresses of the code the scheduler names, all different and none null, and of the stack
region. -/
structure Symbols where
  idleTask : Word
  threadTrampoline : Word
  schedulerUserTaskEntry : Word
  arm64El0TaskReturn : Word
  taskStackRegion : Word
  distinct : [0, idleTask, threadTrampoline, schedulerUserTaskEntry, arm64El0TaskReturn].Nodup

/-- One placement of them. -/
def imageSymbols : Symbols where
  idleTask := 0x40081000
  threadTrampoline := 0x40082000
  schedulerUserTaskEntry := 0x40083000
  arm64El0TaskReturn := 0x40084000
  taskStackRegion := 0x40400000
  distinct := by decide

/-- The state of the kernel. -/
structure Kernel where
  tasks : ℕ → Task := fun _ => {}
  bootstrapContext : CpuContext := {}
  currentTask : ℕ := 0
  taskCount : ℕ := 0
  threadsStarted : Bool := false
  schedulerTicks : Word := 0
  userSessions : ℕ → UserSession := fun _ => {}
  spaces : SpaceStatics := {}
  ttbr0 : Word := 0

namespace Kernel

variable (k : Kernel)

/-- Rewrite one task. -/
def modTask (pid : ℕ) (f : Task → Task) : Kernel :=
  { k with tasks := Function.update k.tasks pid (f (k.tasks pid)) }

section ModTask

variable (pid : ℕ) (f : Task → Task)

/-- **A rewrite is of one slot**: that slot is rewritten… -/
@[simp] theorem modTask_self : (k.modTask pid f).tasks pid = f (k.tasks pid) := by simp [modTask]

/-- …every other one is as it was, and so is the rest of the state. -/
theorem modTask_of_ne {i : ℕ} (h : i ≠ pid) : (k.modTask pid f).tasks i = k.tasks i := by
  simp [modTask, h]

@[simp] theorem modTask_currentTask : (k.modTask pid f).currentTask = k.currentTask := rfl
@[simp] theorem modTask_taskCount : (k.modTask pid f).taskCount = k.taskCount := rfl
@[simp] theorem modTask_threadsStarted : (k.modTask pid f).threadsStarted = k.threadsStarted := rfl
@[simp] theorem modTask_schedulerTicks : (k.modTask pid f).schedulerTicks = k.schedulerTicks := rfl
@[simp] theorem modTask_userSessions : (k.modTask pid f).userSessions = k.userSessions := rfl
@[simp] theorem modTask_spaces : (k.modTask pid f).spaces = k.spaces := rfl
@[simp] theorem modTask_ttbr0 : (k.modTask pid f).ttbr0 = k.ttbr0 := rfl

/-- A property of the rewritten task, and of every other one as it was. -/
theorem modTask_ind {P : ℕ → Task → Prop} (hp : P pid (f (k.tasks pid)))
    (h : ∀ i, i ≠ pid → P i (k.tasks i)) (i : ℕ) : P i ((k.modTask pid f).tasks i) := by
  by_cases hi : i = pid
  · obtain rfl := hi
    rw [modTask_self]
    exact hp
  · rw [modTask_of_ne k pid f hi]
    exact h i hi

end ModTask

/-- The running task. -/
def current : Task := k.tasks k.currentTask

/-- The space a task's pointer names. -/
def taskSpace (pid : ℕ) : Option AddressSpace :=
  match (k.tasks pid).memory.addressSpace with
  | .null => none
  | .kernel => some k.spaces.kernelAddressSpace
  | .user => some (k.tasks pid).userAddressSpace

end Kernel

/-! ## Frames -/

/-- `k'` is `k` but for slot `p`, the user address spaces and the count. -/
structure ChangedAt (p : ℕ) (k k' : Kernel) : Prop where
  tasks : ∀ i, i ≠ p → k'.tasks i = k.tasks i
  currentTask : k'.currentTask = k.currentTask
  threadsStarted : k'.threadsStarted = k.threadsStarted
  schedulerTicks : k'.schedulerTicks = k.schedulerTicks
  userSessions : k'.userSessions = k.userSessions
  ttbr0 : k'.ttbr0 = k.ttbr0
  kernelKind : k'.spaces.kernelAddressSpace.kind = k.spaces.kernelAddressSpace.kind

namespace ChangedAt

variable {p : ℕ} {k k' k'' : Kernel}

/-- A frame holds of no change, of one after another… -/
theorem refl (p : ℕ) (k : Kernel) : ChangedAt p k k :=
  ⟨fun _ _ => rfl, rfl, rfl, rfl, rfl, rfl, rfl⟩

theorem trans (h : ChangedAt p k k') (h' : ChangedAt p k' k'') : ChangedAt p k k'' :=
  ⟨fun i hi => (h'.tasks i hi).trans (h.tasks i hi), h'.currentTask.trans h.currentTask,
    h'.threadsStarted.trans h.threadsStarted, h'.schedulerTicks.trans h.schedulerTicks,
    h'.userSessions.trans h.userSessions, h'.ttbr0.trans h.ttbr0,
    h'.kernelKind.trans h.kernelKind⟩

/-- …of a rewrite of the slot… -/
theorem modTask (k : Kernel) (p : ℕ) (f : Task → Task) : ChangedAt p k (k.modTask p f) :=
  ⟨fun _ hi => k.modTask_of_ne p f hi, rfl, rfl, rfl, rfl, rfl, rfl⟩

/-- …and of new tables, if the kernel's space stays of its kind. -/
theorem spaces (p : ℕ) (k : Kernel) {st : SpaceStatics}
    (h : st.kernelAddressSpace.kind = k.spaces.kernelAddressSpace.kind) :
    ChangedAt p k { k with spaces := st } := ⟨fun _ _ => rfl, rfl, rfl, rfl, rfl, rfl, h⟩

theorem taskCount (p : ℕ) (k : Kernel) (n : ℕ) : ChangedAt p k { k with taskCount := n } :=
  ⟨fun _ _ => rfl, rfl, rfl, rfl, rfl, rfl, rfl⟩

end ChangedAt

/-! ## Clearing -/

/-- A turn of the loop of `scheduler_clear_files`: of the path, the first character. -/
def schedulerClearFile (file : TaskFile) : TaskFile :=
  { file with used := false, path := Function.update file.path 0 0, offset := 0 }

/-- `address_space_destroy_user(&tasks[pid].user_address_space)`. -/
def destroyUserAddressSpace (pid : ℕ) (k : Kernel) : Kernel :=
  { k with
    spaces := (addressSpaceDestroyUser k.spaces (k.tasks pid).userAddressSpace).1 }.modTask pid
    fun t => { t with
      userAddressSpace := (addressSpaceDestroyUser k.spaces (k.tasks pid).userAddressSpace).2 }

/-- `address_space_destroy_user(tasks[pid].memory.address_space)`. -/
def destroyTaskSpace (pid : ℕ) (k : Kernel) : Kernel :=
  match (k.tasks pid).memory.addressSpace with
  | .null => k
  | .kernel =>
    let r := addressSpaceDestroyUser k.spaces k.spaces.kernelAddressSpace
    { k with spaces := { r.1 with kernelAddressSpace := r.2 } }
  | .user => destroyUserAddressSpace pid k

/-- Destroying a task's space changes that space alone. -/
theorem destroyUserAddressSpace_spec (p : ℕ) (k : Kernel) :
    ChangedAt p k (destroyUserAddressSpace p k)
      ∧ (destroyUserAddressSpace p k).taskCount = k.taskCount
      ∧ ∃ space, (destroyUserAddressSpace p k).tasks p
          = { k.tasks p with userAddressSpace := space } := by
  have hs := ChangedAt.spaces p k (congrArg AddressSpace.kind
    (addressSpaceDestroyUser_kernel k.spaces (k.tasks p).userAddressSpace))
  rw [destroyUserAddressSpace]
  exact ⟨hs.trans (ChangedAt.modTask _ p _), rfl, _, Kernel.modTask_self _ _ _⟩

/-- So does destroying the space that its pointer names. -/
theorem destroyTaskSpace_spec (p : ℕ) (k : Kernel) :
    ChangedAt p k (destroyTaskSpace p k) ∧ (destroyTaskSpace p k).taskCount = k.taskCount
      ∧ ∃ space, (destroyTaskSpace p k).tasks p
          = { k.tasks p with userAddressSpace := space } := by
  rw [destroyTaskSpace]
  split
  · exact ⟨ChangedAt.refl p k, rfl, _, rfl⟩
  · exact ⟨ChangedAt.spaces p k (addressSpaceDestroyUser_kind _ _), rfl, _, rfl⟩
  · exact destroyUserAddressSpace_spec p k

/-- A slot wiped for reuse; the address space and the argument addresses are left as they are. -/
def clearTask (pid : ℕ) (t : Task) : Task :=
  { t with
    pid := pid
    parentPid := -1
    name := some "unused"
    state := .unused
    entry := 0
    sleepUntilTick := 0
    sleepRequestedMs := 0
    context := {}
    accounting := {}
    memory := {}
    el0 := {}
    userStatus := {}
    files := fun i => schedulerClearFile (t.files i) }

/-- `scheduler_clear_task_slot`. -/
def schedulerClearTaskSlot (pid : ℕ) (k : Kernel) : Kernel :=
  (destroyTaskSpace pid k).modTask pid (clearTask pid)

/-- **Clearing a slot wipes it and touches no other.** -/
theorem clearTaskSlot_spec (p : ℕ) (k : Kernel) :
    ChangedAt p k (schedulerClearTaskSlot p k)
      ∧ (schedulerClearTaskSlot p k).taskCount = k.taskCount
      ∧ ∃ space, (schedulerClearTaskSlot p k).tasks p
          = clearTask p { k.tasks p with userAddressSpace := space } := by
  obtain ⟨hd, hc, space, ht⟩ := destroyTaskSpace_spec p k
  refine ⟨hd.trans (ChangedAt.modTask _ p _), hc, space, ?_⟩
  rw [schedulerClearTaskSlot, Kernel.modTask_self, ht]

/-- `scheduler_init_task_memory`. -/
def schedulerInitTaskMemory (S : Symbols) (pid : ℕ) : TaskMemory :=
  let p := BitVec.ofNat 64 pid
  { addressSpace := .kernel
    stackStart := schedulerStackStart S.taskStackRegion p
    stackEnd := schedulerStackEnd S.taskStackRegion p
    guardLowStart := schedulerStackGuardStart S.taskStackRegion p
    guardLowEnd := schedulerStackGuardEnd S.taskStackRegion p
    guardHighStart := schedulerStackGuardStart S.taskStackRegion (p + 1)
    guardHighEnd := schedulerStackGuardEnd S.taskStackRegion (p + 1) }

/-- The processor states in which an exception returns, with nothing masked. -/
def arm64SpsrModeEl0t : Word := 0x0
def arm64SpsrModeEl1h : Word := 0x5
def arm64SpsrEl0t : Word := arm64SpsrModeEl0t
def arm64SpsrEl1h : Word := arm64SpsrModeEl1h

/-- `scheduler_init_task_el0`, over the space the task points to. -/
def schedulerInitTaskEl0 (space : Option AddressSpace) : TaskEl0State :=
  match space with
  | none => {}
  | some space =>
    if space.kind ≠ .user then {}
    else if !space.userMappingsReady || !space.userExecuteReady then {}
    else
      { pc := if space.userImageReady then space.userImageEntry else space.userCodeStart
        sp := space.userStackEnd &&& ~~~(0xF : Word)
        spsr := arm64SpsrEl0t
        ready := true }

end SaturnOS
