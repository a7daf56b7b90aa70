import SaturnOS.User.Executable
import SaturnOS.User.Mode

/-!
# Sched/Scheduler — the task table's operations

`kernel/sched/scheduler.c`.  A function that ends in `cpu_switch_to` returns the kernel as it stands
at that call together with the switch it asks for; the registers belong to the CPU.  The texts a
function prints are left out.
-/

namespace SaturnOS

/-- What a scheduling function asks of the CPU. -/
inductive Switch
  | stay
  | to (prev next : ℕ)
  | stuck
  deriving DecidableEq

section Operations

variable (L : Layout) (S : Symbols)

/-! ## Helpers -/

/-- The count after `scheduler_trim_unused_tail`. -/
def trimCount (tasks : ℕ → Task) : ℕ → ℕ
  | 0 => 0
  | 1 => 1
  | n + 2 => if (tasks (n + 1)).state = .unused then trimCount tasks (n + 1) else n + 2

def schedulerTrimUnusedTail (k : Kernel) : Kernel :=
  { k with taskCount := trimCount k.tasks k.taskCount }

def schedulerTaskIsRunnable (t : Task) : Bool :=
  t.state == .ready || t.state == .running

def schedulerSetRunningTask (pid : ℕ) (k : Kernel) : Kernel :=
  k.modTask pid fun t =>
    { t with
      state := .running
      accounting := { t.accounting with switches := t.accounting.switches + 1 } }

def schedulerTaskIsKernelTask (k : Kernel) (pid : ℕ) : Bool :=
  match k.taskSpace pid with
  | none => false
  | some space => space.kind == .kernel

/-- One sleeper whose tick has come. -/
def wakeTask (ticks : Word) (t : Task) : Task :=
  if t.state = .sleeping ∧ t.sleepUntilTick ≤ ticks then
    { t with
      state := .ready
      sleepUntilTick := 0
      sleepRequestedMs := 0
      accounting := { t.accounting with sleepWakeups := t.accounting.sleepWakeups + 1 } }
  else t

/-- `scheduler_wake_sleeping_tasks`: the loop treats each slot by itself. -/
def schedulerWakeSleepingTasks (k : Kernel) : Kernel :=
  { k with
    tasks := fun i => if i < k.taskCount then wakeTask k.schedulerTicks (k.tasks i) else k.tasks i }

/-- `scheduler_next_runnable_task`: round robin from the current task, idle only if nothing else
runs. -/
def schedulerNextRunnableTask (k : Kernel) : ℕ :=
  match ((List.range k.taskCount).map fun i => (k.currentTask + (i + 1)) % k.taskCount).find?
      fun candidate => candidate != 0 && schedulerTaskIsRunnable (k.tasks candidate) with
  | some candidate => candidate
  | none => if schedulerTaskIsRunnable (k.tasks 0) then 0 else k.currentTask

/-! ## Creation -/

/-- The slot search of both creation functions: the lowest unused slot but the idle one, else a
fresh one at the end. -/
def claimTaskSlot (k : Kernel) : Option (Kernel × ℕ) :=
  match ((List.range k.taskCount).drop 1).find? fun i => (k.tasks i).state == .unused with
  | some i => some (k, i)
  | none =>
    if schedMaxTasks ≤ k.taskCount then none
    else some ({ k with taskCount := k.taskCount + 1 }, k.taskCount)

/-- The fields both creation functions set. -/
def resetTask (pid : ℕ) (name : Option String) (state : TaskState) (entry : Word) (t : Task) :
    Task :=
  { t with
    pid := pid
    parentPid := -1
    name := name
    state := state
    entry := entry
    sleepUntilTick := 0
    sleepRequestedMs := 0
    accounting := {}
    context := {}
    memory := schedulerInitTaskMemory S pid
    el0 := {}
    userStatus := {}
    files := fun i => schedulerClearFile (t.files i) }

/-- The context a thread starts from. -/
def threadContext (pid : ℕ) (entry : Word) : CpuContext :=
  { sp := schedulerStackEnd S.taskStackRegion (BitVec.ofNat 64 pid) &&& ~~~(0xF : Word)
    lr := if pid = 0 then entry else S.threadTrampoline }

def schedulerAddTask (name : Option String) (entry : Word) (k : Kernel) : Kernel × ℤ :=
  match claimTaskSlot k with
  | none => (k, -1)
  | some (k, pid) =>
    let k := k.modTask pid (resetTask S pid name .ready entry)
    let k := k.modTask pid fun t => { t with el0 := schedulerInitTaskEl0 (k.taskSpace pid) }
    (if entry = 0 then k else k.modTask pid fun t =>
      { t with context := threadContext S pid entry },
      pid)

/-- `scheduler_init`, over zeroed task slots. -/
def schedulerInit (k : Kernel) : Kernel :=
  (schedulerAddTask S (some "idle") S.idleTask
    { k with
      taskCount := 0
      currentTask := 0
      threadsStarted := false
      schedulerTicks := 0
      bootstrapContext := {} }).1

def schedulerCreateKernelThread (name : Option String) (entry : Word) (k : Kernel) : Kernel × ℤ :=
  schedulerAddTask S name entry k

/-! ## User tasks -/

def taskUserArgumentMax : ℕ := 128
def taskUserArgMax : ℕ := 8

/-- The arguments: the maximal runs of characters other than the space. -/
def argumentTokens (argument : List Byte) : List (List Byte) :=
  (argument.splitOn 0x20).filter (· ≠ [])

/-- The eight little-endian bytes of a word. -/
def wordBytes (w : Word) : List Byte :=
  (List.range 8).map fun i => (w >>> (8 * i)).setWidth 8

/-- An eight-slot array of words, zero past the list. -/
def argumentArray (ws : List Word) : List Byte :=
  (List.range taskUserArgMax).flatMap fun i => wordBytes (ws.getD i 0)

/-- Where the argument vectors start: the data size, rounded up to eight. -/
def argumentBase (image : SaturnExecImage) : Word :=
  (BitVec.ofNat 64 image.data.length + 7) &&& ~~~(7 : Word)

/-- The string loop: each token and its NUL at the cursor, with its address and length; stops at a
write that fails. -/
def packStrings (space : AddressSpace) : List (List Byte) → Word → SpaceStatics →
    SpaceStatics × Option (List Word × List Word)
  | [], _, st => (st, some ([], []))
  | token :: rest, cursor, st =>
    let size := BitVec.ofNat 64 token.length
    match addressSpaceWriteUserData st space cursor (listBuffer token) size with
    | (st, false) => (st, none)
    | (st, true) =>
      let st := (addressSpaceWriteUserData st space (cursor + size) (listBuffer [0]) 1).1
      match packStrings space rest (cursor + size + 1) st with
      | (st, none) => (st, none)
      | (st, some (argv, lengths)) =>
        (st, some ((space.userDataStart + cursor) :: argv, size :: lengths))

/-- Undo of a claimed slot at the end of the table. -/
def releaseTaskSlot (pid : ℕ) (k : Kernel) : Kernel :=
  if pid = k.taskCount - 1 then { k with taskCount := k.taskCount - 1 } else k

/-- The failure path of the argument writes. -/
def abandonUserTask (pid : ℕ) (k : Kernel) : Kernel × ℤ :=
  let k := destroyUserAddressSpace pid k
  let k := k.modTask pid fun t => { t with state := .unused }
  (releaseTaskSlot pid k, -1)

/-- The argument part of task creation, once the task's fields are set. -/
def packArguments (pid : ℕ) (image : SaturnExecImage) (argument : List Byte) (k : Kernel) :
    Kernel × ℤ :=
  let space := (k.tasks pid).userAddressSpace
  let base := argumentBase image
  match packStrings space (argumentTokens argument) (base + 128) k.spaces with
  | (st, none) => abandonUserTask pid { k with spaces := st }
  | (st, some (argv, lengths)) =>
    let k := { k with spaces := st }.modTask pid fun t =>
      { t with
        userArgc := BitVec.ofNat 64 (argumentTokens argument).length
        userArgvAddress := space.userDataStart + base
        userArgLengthsAddress := space.userDataStart + base + 64 }
    match addressSpaceWriteUserData k.spaces space base (listBuffer (argumentArray argv)) 64 with
    | (st, false) => abandonUserTask pid { k with spaces := st }
    | (st, true) =>
      match addressSpaceWriteUserData st space (base + 64)
          (listBuffer (argumentArray lengths)) 64 with
      | (st, false) => abandonUserTask pid { k with spaces := st }
      | (st, true) =>
        let k := { k with spaces := st }
        (k.modTask pid fun t => { t with el0 := schedulerInitTaskEl0 (k.taskSpace pid) }, pid)

/-- The checks made before a slot is claimed: the file, its image and the argument text. -/
def userTaskImage (file : Option (List Byte)) (argument : Option (List Byte)) :
    Option SaturnExecImage :=
  match saturnExecParse file with
  | none => none
  | some image =>
    let text := argument.getD []
    if taskUserArgumentMax < text.length then none
    else if taskUserArgMax < (argumentTokens text).length then none
    else if 4096 < argumentBase image + 128 + BitVec.ofNat 64 text.length + 1 then none
    else some image

/-- `scheduler_create_user_task_from_image`, over the bytes `vfs_file_data` finds at the path.  The
argument is its characters before the NUL. -/
def schedulerCreateUserTaskFromImage (name : Option String) (file argument : Option (List Byte))
    (k : Kernel) : Kernel × ℤ :=
  match userTaskImage file argument with
  | none => (k, -1)
  | some image =>
    match claimTaskSlot k with
    | none => (k, -1)
    | some (k, pid) =>
      if schedMaxTasks ≤ pid then (k, -1)
      else
        let name := some (name.getD "user-demo")
        let init := addressSpaceInitUser L name k.spaces.kernelAddressSpace.rootTable k.spaces
        let load := addressSpaceLoadUserImage init.1 init.2 (listBuffer image.code)
          (BitVec.ofNat 64 image.code.length) (listBuffer image.data)
          (BitVec.ofNat 64 image.data.length) (BitVec.ofNat 64 image.entryOffset)
        let k := { k with spaces := load.1 }.modTask pid fun t =>
          { t with userAddressSpace := load.2.1 }
        if !load.2.2 then (releaseTaskSlot pid (destroyUserAddressSpace pid k), -1)
        else
          let k := k.modTask pid (resetTask S pid name .blocked 0)
          let k := k.modTask pid fun t =>
            { t with memory := { t.memory with addressSpace := .user } }
          packArguments pid image (argument.getD []) k

/-- A pid argument inside the table. -/
def pidInTable (k : Kernel) (pid : ℤ) : Bool := decide (0 ≤ pid) && decide (pid < k.taskCount)

def schedulerUnblockUserTask (pid : ℤ) (k : Kernel) : Kernel × ℤ :=
  if !pidInTable k pid then (k, -1)
  else
    let p := pid.toNat
    if (k.tasks p).state ≠ .blocked then (k, -1)
    else if userModePrepare k p ≠ .ready then (k, -1)
    else if (k.taskSpace p).map addressSpaceSwitchStub ≠ some .ready then (k, -1)
    else
      (k.modTask p fun t =>
        { t with
          entry := S.schedulerUserTaskEntry
          context := { t.context with
            sp := schedulerStackEnd S.taskStackRegion (BitVec.ofNat 64 p) &&& ~~~(0xF : Word)
            lr := S.threadTrampoline }
          state := .ready
          userStatus := { t.userStatus with admissions := t.userStatus.admissions + 1 } }, 0)

/-! ## Blocking, waiting, reaping -/

def schedulerBlockTask (pid : ℤ) (k : Kernel) : Kernel × ℤ :=
  if !pidInTable k pid || pid == 0 || pid == k.currentTask then (k, -1)
  else
    let p := pid.toNat
    if !schedulerTaskIsKernelTask k p then (k, -1)
    else if (k.tasks p).state ≠ .ready then (k, -1)
    else
      (k.modTask p fun t => { t with
        state := .blocked, sleepUntilTick := 0, sleepRequestedMs := 0 },
        0)

def schedulerUnblockTask (pid : ℤ) (k : Kernel) : Kernel × ℤ :=
  if !pidInTable k pid || pid == 0 then (k, -1)
  else
    let p := pid.toNat
    if !schedulerTaskIsKernelTask k p then (k, -1)
    else if (k.tasks p).state ≠ .blocked then (k, -1)
    else (k.modTask p fun t => { t with state := .ready }, 0)

def schedulerReapZombieTask (pid : ℤ) (k : Kernel) : Kernel × ℤ :=
  if !pidInTable k pid || pid == 0 || pid == k.currentTask then (k, -1)
  else
    let p := pid.toNat
    if (k.tasks p).state ≠ .zombie then (k, -1)
    else (schedulerTrimUnusedTail (schedulerClearTaskSlot p k), 0)

/-- One turn of the reaping loop. -/
def reapSlot (k : Kernel) (i : ℕ) : Kernel :=
  if i ≠ k.currentTask ∧ (k.tasks i).state = .zombie then schedulerClearTaskSlot i k else k

/-- `scheduler_reap_zombies`; returns the number reaped. -/
def schedulerReapZombies (k : Kernel) : Kernel × ℤ :=
  let slots := (List.range k.taskCount).drop 1
  (schedulerTrimUnusedTail (slots.foldl reapSlot k),
    (slots.filter fun i => i ≠ k.currentTask ∧ (k.tasks i).state = .zombie).length)

structure TaskWaitStatus where
  pid : Word
  exitCode : Word
  succeeded : Word
  deriving DecidableEq

/-- The any-child search: the lowest zombie child of the current task. -/
def zombieChild (k : Kernel) : Option ℕ :=
  ((List.range k.taskCount).drop 1).find? fun i =>
    (k.tasks i).parentPid == k.currentTask && (k.tasks i).state == .zombie

/-- …and whether there is a child at all. -/
def ownsChild (k : Kernel) : Bool :=
  ((List.range k.taskCount).drop 1).any fun i => (k.tasks i).parentPid == k.currentTask

/-- `scheduler_wait_task_status` once the pid is settled. -/
def waitOnTask (p : ℕ) (k : Kernel) : Kernel × ℤ × Option TaskWaitStatus :=
  if (k.taskSpace p).map (·.kind) ≠ some .user ∨ (k.tasks p).parentPid ≠ k.currentTask then
    (k, -1, none)
  else if (k.tasks p).state ≠ .zombie then (k, 0, none)
  else
    let status := (k.tasks p).userStatus
    (schedulerTrimUnusedTail (schedulerClearTaskSlot p k), 1,
      some ⟨BitVec.ofNat 64 p, status.lastExitCode, if status.programSucceeded then 1 else 0⟩)

/-- `scheduler_wait_task_status`; `hasStatus` is whether the status pointer is set. -/
def schedulerWaitTaskStatus (pid : ℤ) (hasStatus : Bool) (k : Kernel) :
    Kernel × ℤ × Option TaskWaitStatus :=
  if !hasStatus || !pidInTable k pid || pid == k.currentTask then (k, -1, none)
  else if pid = 0 then
    match zombieChild k with
    | some p => waitOnTask p k
    | none => (k, if ownsChild k then 0 else -1, none)
  else waitOnTask pid.toNat k

/-! ## Parents and children -/

def schedulerSetTaskParent (pid parentPid : ℤ) (k : Kernel) : Kernel × Bool :=
  if pid ≤ 0 ∨ (k.taskCount : ℤ) ≤ pid ∨ parentPid ≤ 0 ∨ (k.taskCount : ℤ) ≤ parentPid
      ∨ pid = parentPid then (k, false)
  else (k.modTask pid.toNat fun t => { t with parentPid := parentPid }, true)

/-- The checks of `scheduler_terminate_child`. -/
def canTerminate (k : Kernel) (pid : ℤ) : Bool :=
  decide (0 < pid) && decide (pid < k.taskCount) && pid != k.currentTask
    && (k.tasks pid.toNat).parentPid == k.currentTask
    && (k.tasks pid.toNat).state != .unused && (k.tasks pid.toNat).state != .zombie

def schedulerTerminateChild (pid : ℤ) (code : Word) (k : Kernel) : Kernel × Bool :=
  if !canTerminate k pid then (k, false)
  else
    (k.modTask pid.toNat fun t =>
      { t with
        userStatus := { t.userStatus with
          programCompleted := true
          programSucceeded := false
          lastExitCode := code
          failures := t.userStatus.failures + 1 }
        state := .zombie }, true)

/-- The part of the spawn syscall the scheduler does: create, take the caller as parent, admit. -/
def spawnChild (file argument : Option (List Byte)) (k : Kernel) : Kernel × ℤ :=
  match schedulerCreateUserTaskFromImage L S (some "user-child") file argument k with
  | (k, pid) =>
    if pid < 0 then (k, -1)
    else
      match schedulerSetTaskParent pid k.current.pid k with
      | (k, false) => (k, -1)
      | (k, true) =>
        match schedulerUnblockUserTask S pid k with
        | (k, r) => if r < 0 then (k, -1) else (k, pid)

/-! ## Running a user task -/

/-- `scheduler_run_user_task` once `user_mode_run_task` has returned a status. -/
def finishUserTask (pid : ℕ) (status : UserModeStatus) (k : Kernel) : Kernel × ℤ :=
  if status ≠ .ready then
    (k.modTask pid fun t =>
      { t with
        userStatus := { t.userStatus with
          programCompleted := true
          programSucceeded := false
          failures := t.userStatus.failures + 1 }
        state := .zombie }, -1)
  else
    (k.modTask pid fun t =>
      { t with
        userStatus := { t.userStatus with
          programCompleted := true
          programSucceeded := true
          completions := t.userStatus.completions + 1 }
        state := .zombie }, 0)

/-- `scheduler_run_user_task` up to the entry into EL0; `none` when EL0 is entered. -/
def schedulerRunUserTaskEnter (pid : ℕ) (k : Kernel) : Kernel × Option ℤ :=
  if k.taskCount ≤ pid then (k, some (-1))
  else if (k.tasks pid).state ≠ .eligible ∧ (k.tasks pid).state ≠ .running then (k, some (-1))
  else
    match userModeRunTaskEnter S pid k with
    | (k, .ready) => (k, none)
    | (k, status) =>
      let r := finishUserTask pid status k
      (r.1, some r.2)

/-- …and from the return of EL0 on. -/
def schedulerRunUserTaskReturn (pid : ℕ) (k : Kernel) : Kernel × ℤ :=
  match userModeRunTaskReturn pid k with
  | (k, status) => finishUserTask pid status k

/-! ## Scheduling -/

/-- A running task that hands over is ready again; `account` is what its accounts gain by it. -/
def demoteTask (prev : ℕ) (account : TaskAccounting → TaskAccounting) (k : Kernel) : Kernel :=
  if (k.tasks prev).state = .running then
    k.modTask prev fun t => { t with state := .ready, accounting := account t.accounting }
  else k

/-- Make `next` the running task. -/
def runTask (next : ℕ) (k : Kernel) : Kernel :=
  { schedulerSetRunningTask next k with currentTask := next }

def schedulerYield (k : Kernel) : Kernel × Switch :=
  if k.taskCount < 2 then (k, .stay)
  else
    let prev := k.currentTask
    let k := schedulerWakeSleepingTasks k
    let next := schedulerNextRunnableTask k
    if next = prev then
      if schedulerTaskIsRunnable (k.tasks prev) then
        (k.modTask prev fun t => { t with state := .running }, .stay)
      else (k, .stuck)
    else
      let k := demoteTask prev (fun a => { a with yields := a.yields + 1 }) k
      let k := runTask next k
      let root := userModeTaskResumeRoot k next
      (if root ≠ 0 then k.arm64MmuSwitchTtbr0 root else k, .to prev next)

/-- `scheduler_sleep_ms`; outside the threads it only waits. -/
def schedulerSleepMs (ms intervalMs : Word) (k : Kernel) : Kernel × Switch :=
  if !k.threadsStarted || k.currentTask == 0 || intervalMs == 0 then (k, .stay)
  else
    let ticks := (ms + intervalMs - 1) / intervalMs
    let ticks := if ticks = 0 then 1 else ticks
    schedulerYield (k.modTask k.currentTask fun t =>
      { t with
        sleepRequestedMs := ms
        sleepUntilTick := k.schedulerTicks + ticks
        state := .sleeping })

def schedulerPreempt (k : Kernel) : Kernel × Switch :=
  if !k.threadsStarted || decide (k.taskCount < 2) then (k, .stay)
  else
    let k := schedulerWakeSleepingTasks { k with schedulerTicks := k.schedulerTicks + 1 }
    let prev := k.currentTask
    let k := k.modTask prev fun t =>
      { t with accounting := { t.accounting with runTicks := t.accounting.runTicks + 1 } }
    let next := schedulerNextRunnableTask k
    if next = prev then (k, .stay)
    else
      let k := demoteTask prev id k
      let k := k.modTask prev fun t =>
        { t with accounting := { t.accounting with preemptions := t.accounting.preemptions + 1 } }
      (runTask next k, .to prev next)

/-- The children of a task lose their parent. -/
def orphanChildren (taskId : ℕ) (k : Kernel) : Kernel :=
  { k with
    tasks := fun i =>
      if 1 ≤ i ∧ i < k.taskCount ∧ (k.tasks i).parentPid = taskId then
        { k.tasks i with parentPid := -1 }
      else k.tasks i }

/-- `scheduler_exit_task`: orphan the children, become a zombie, yield for good. -/
def schedulerExitTask (taskId : ℕ) (k : Kernel) : Kernel × Switch :=
  let k := (orphanChildren taskId k).modTask taskId fun t => { t with state := .zombie }
  schedulerYield { k with currentTask := taskId }

/-- `scheduler_start_threads`, up to the switch into the idle task. -/
def schedulerStartThreads (k : Kernel) : Kernel :=
  schedulerSetRunningTask 0 { k with threadsStarted := true, currentTask := 0 }

end Operations

end SaturnOS
