import SaturnOS.Sched.Task

/-!
# User/Mode — sessions in EL0

`arch/arm64/user.c`: one session per task slot, opened by `user_mode_run_task` just before the
`eret` to EL0 and closed by the exit syscall or by a fault.  A function the CPU leaves for EL0 in
the middle is two here: `userModeRunTaskEnter` up to `arm64_enter_el0_task`,
`userModeRunTaskReturn` from its return on.  The writes to `ELR_EL1` and `SPSR_EL1` belong to the
CPU; the handlers return what they write.
-/

namespace SaturnOS

inductive UserModeStatus
  | ready
  | noTask
  | noAddressSpace
  | notUserAddressSpace
  | addressSpaceInvalid
  | noImage
  | el0NotReady
  | badEntryState
  | notEligible
  | switchNotReady
  | taskFailed
  deriving DecidableEq

namespace Kernel

variable (k : Kernel)

/-- The index behind the `user_session` macro. -/
def sessionIndex : ℕ :=
  if k.current.pid < 0 ∨ (schedMaxTasks : ℤ) ≤ k.current.pid then 0 else k.current.pid.toNat

/-- `user_session`. -/
def userSession : UserSession := k.userSessions k.sessionIndex

def modSession (f : UserSession → UserSession) : Kernel :=
  { k with userSessions := Function.update k.userSessions k.sessionIndex (f k.userSession) }

/-- `user_session.task->…`, when the pointer is set. -/
def modSessionTask (f : Task → Task) : Kernel :=
  match k.userSession.task with
  | none => k
  | some pid => k.modTask pid f

def arm64MmuSwitchTtbr0 (root : Word) : Kernel := { k with ttbr0 := root }

@[simp] theorem modSession_userSession (f : UserSession → UserSession) :
    (k.modSession f).userSession = f k.userSession := by
  have hindex : (k.modSession f).sessionIndex = k.sessionIndex := rfl
  rw [userSession, hindex, modSession]
  exact Function.update_self _ _ _

theorem modSession_of_ne (f : UserSession → UserSession) {p : ℕ} (h : p ≠ k.sessionIndex) :
    (k.modSession f).userSessions p = k.userSessions p := Function.update_of_ne h _ _

@[simp] theorem switchTtbr0_userSession (root : Word) :
    (k.arm64MmuSwitchTtbr0 root).userSession = k.userSession := rfl

/-- The session is found through the pid alone. -/
theorem modTask_sessionIndex {pid : ℕ} {f : Task → Task}
    (hf : (f (k.tasks pid)).pid = (k.tasks pid).pid) :
    (k.modTask pid f).sessionIndex = k.sessionIndex := by
  have hcurrent : (k.modTask pid f).current.pid = k.current.pid :=
    k.modTask_ind pid f (P := fun i t => t.pid = (k.tasks i).pid) hf (fun _ _ => rfl) k.currentTask
  rw [sessionIndex, hcurrent, sessionIndex]

theorem modTask_userSession {pid : ℕ} {f : Task → Task}
    (hf : (f (k.tasks pid)).pid = (k.tasks pid).pid) :
    (k.modTask pid f).userSession = k.userSession := by
  rw [userSession, k.modTask_sessionIndex hf]
  rfl

theorem modSessionTask_userSessions (f : Task → Task) :
    (k.modSessionTask f).userSessions = k.userSessions := by
  rw [modSessionTask]
  split <;> rfl

theorem modSessionTask_sessionIndex {f : Task → Task} (hf : ∀ t, (f t).pid = t.pid) :
    (k.modSessionTask f).sessionIndex = k.sessionIndex := by
  rw [modSessionTask]
  split
  · rfl
  · exact k.modTask_sessionIndex (hf _)

theorem modSessionTask_userSession {f : Task → Task} (hf : ∀ t, (f t).pid = t.pid) :
    (k.modSessionTask f).userSession = k.userSession := by
  rw [userSession, k.modSessionTask_sessionIndex hf, k.modSessionTask_userSessions]
  rfl

end Kernel

/-! ## Admission -/

/-- `user_mode_can_enter`, for a task that exists. -/
def userModeCanEnter (k : Kernel) (pid : ℕ) : UserModeStatus :=
  match k.taskSpace pid with
  | none => .noAddressSpace
  | some space =>
    let el0 := (k.tasks pid).el0
    if space.kind ≠ .user then .notUserAddressSpace
    else if !space.validationReady || space.validationErrors != 0 then .addressSpaceInvalid
    else if !space.userImageReady then .noImage
    else if !el0.ready then .el0NotReady
    else if el0.pc = 0 ∨ el0.sp = 0 ∨ el0.sp &&& 0xF ≠ 0 ∨ el0.spsr ≠ arm64SpsrEl0t then
      .badEntryState
    else .ready

def userModePrepare (k : Kernel) (pid : ℕ) : UserModeStatus := userModeCanEnter k pid

/-! ## Running a task -/

/-- The session `user_mode_run_task` opens. -/
def openSession (S : Symbols) (pid : ℕ) (space : AddressSpace) (session : UserSession) :
    UserSession :=
  { session with
    active := true
    completed := false
    faulted := false
    lastRejectReason := .none
    task := some pid
    returnPc := S.arm64El0TaskReturn
    kernelRoot := space.kernelRootTable
    userRoot := space.targetRootTable }

/-- `user_mode_run_task` up to `arm64_enter_el0_task`; any status but `ready` is returned without
entering EL0. -/
def userModeRunTaskEnter (S : Symbols) (pid : ℕ) (k : Kernel) : Kernel × UserModeStatus :=
  if userModePrepare k pid ≠ .ready then (k, userModePrepare k pid)
  else if (k.tasks pid).state ≠ .eligible ∧ (k.tasks pid).state ≠ .running then (k, .notEligible)
  else
    match k.taskSpace pid with
    | none => (k, .switchNotReady)
    | some space =>
      if addressSpaceSwitchStub space ≠ .ready then (k, .switchNotReady)
      else
        let k := k.modSession (openSession S pid space)
        let k := k.arm64MmuSwitchTtbr0 k.userSession.userRoot
        (k.modTask pid fun t =>
          { t with userStatus := { t.userStatus with el0Entries := t.userStatus.el0Entries + 1 } },
          .ready)

/-- …the part of it up to the session, which an interrupt can separate from the rest. -/
def userModeRunTaskOpen (S : Symbols) (pid : ℕ) (k : Kernel) : Option Kernel :=
  if userModePrepare k pid ≠ .ready then none
  else if (k.tasks pid).state ≠ .eligible ∧ (k.tasks pid).state ≠ .running then none
  else
    match k.taskSpace pid with
    | none => none
    | some space =>
      if addressSpaceSwitchStub space ≠ .ready then none
      else some (k.modSession (openSession S pid space))

/-- `user_mode_run_task` from the return of `arm64_enter_el0_task` on. -/
def userModeRunTaskReturn (pid : ℕ) (k : Kernel) : Kernel × UserModeStatus :=
  if k.userSession.completed then
    let k := k.modTask pid fun t =>
      { t with userStatus := { t.userStatus with recoveries := t.userStatus.recoveries + 1 } }
    let k := k.modSession fun s => { s with task := none }
    (k, if k.userSession.faulted then .taskFailed else .ready)
  else
    let k := k.modSession fun s => { s with active := false, task := none }
    (k.arm64MmuSwitchTtbr0 k.userSession.kernelRoot, .taskFailed)

/-! ## Leaving EL0 -/

/-- `user_session_reject`. -/
def userSessionReject (reason : UserSessionRejectReason) (k : Kernel) : Kernel :=
  let k := if k.userSession.kernelRoot ≠ 0 then k.arm64MmuSwitchTtbr0 k.userSession.kernelRoot
    else k
  let k := k.modSession fun s =>
    { s with lastRejectReason := reason, rejectCount := s.rejectCount + 1 }
  let k := k.modSessionTask fun t =>
    { t with userStatus := { t.userStatus with rejects := t.userStatus.rejects + 1 } }
  k.modSession fun s => { s with active := false }

/-- `user_mode_handle_exception`; a handled exception comes with the new `ELR_EL1` and
`SPSR_EL1`. -/
def userModeHandleException (spsr : Word) (k : Kernel) : Kernel × Option (Word × Word) :=
  if !k.userSession.active then (k, none)
  else if k.userSession.kernelRoot = 0 ∨ k.userSession.userRoot = 0 then
    (userSessionReject .badRoots k, none)
  else if k.userSession.returnPc = 0 then (userSessionReject .badReturn k, none)
  else if spsr &&& 0xF ≠ arm64SpsrModeEl0t then (userSessionReject .unexpectedMode k, none)
  else
    let k := k.arm64MmuSwitchTtbr0 k.userSession.kernelRoot
    let k := k.modSessionTask fun t =>
      { t with userStatus :=
        { t.userStatus with traps := t.userStatus.traps + 1, rejects := t.userStatus.rejects + 1 } }
    let k := k.modSession fun s =>
      { s with
        rejectCount := s.rejectCount + 1
        lastRejectReason := .none
        completed := true
        faulted := true
        active := false }
    (k, some (k.userSession.returnPc, arm64SpsrEl1h))

/-- `user_mode_handle_exit_syscall`. -/
def userModeHandleExitSyscall (code : Word) (k : Kernel) : Kernel × Option (Word × Word) :=
  if !k.userSession.active || k.userSession.returnPc == 0 then (k, none)
  else
    let k := if k.userSession.kernelRoot ≠ 0 then k.arm64MmuSwitchTtbr0 k.userSession.kernelRoot
      else k
    let k := k.modSessionTask fun t =>
      { t with userStatus :=
        { t.userStatus with
          traps := t.userStatus.traps + 1
          exits := t.userStatus.exits + 1
          lastExitCode := code } }
    let k := k.modSession fun s => { s with completed := true, faulted := false, active := false }
    (k, some (k.userSession.returnPc, arm64SpsrEl1h))

/-! ## What the scheduler asks -/

/-- `user_mode_active_address_space`. -/
def userModeActiveAddressSpace (k : Kernel) : Option AddressSpace :=
  if k.userSession.active then k.userSession.task.bind k.taskSpace else none

/-- `user_mode_task_resume_root`, for a task of the table; `0` asks for no switch. -/
def userModeTaskResumeRoot (k : Kernel) (pid : ℕ) : Word :=
  let p := (k.tasks pid).pid
  match k.taskSpace pid with
  | none => 0
  | some space =>
    if p < 0 ∨ (schedMaxTasks : ℤ) ≤ p then 0
    else if (k.userSessions p.toNat).active then (k.userSessions p.toNat).userRoot
    else space.kernelRootTable

end SaturnOS
