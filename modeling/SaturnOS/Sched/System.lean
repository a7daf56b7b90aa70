import SaturnOS.Machinery.Runs
import SaturnOS.Sched.Scheduler

/-!
# Sched/System — the kernel as a transition system

The calls that reach the task table, each one step: from the shell and the boot code, from syscalls,
from the timer, and from the code a task runs.  `kernelCall` gives the state after the call and the
switch it asked for; a call the control flow cannot make in a state is `none`:

* a user task enters EL0 once, from `scheduler_user_task_entry`, and its program is completed once
  EL0 has handed back (its session is closed);
* a task leaves through `scheduler_exit_task` at the end of its entry — a user task after its
  program was completed, the idle task never.
-/

open Machinery

namespace SaturnOS

inductive KernelOp
  | createKernelThread (name : Option String) (entry : Word)
  | createUserTask (name : Option String) (file argument : Option (List Byte))
  | spawn (file argument : Option (List Byte))
  | unblockUserTask (pid : ℤ)
  | blockTask (pid : ℤ)
  | unblockTask (pid : ℤ)
  | reapZombieTask (pid : ℤ)
  | reapZombies
  | waitTaskStatus (pid : ℤ) (hasStatus : Bool)
  | setTaskParent (pid parentPid : ℤ)
  | terminateChild (pid : ℤ) (code : Word)
  | startThreads
  | yield
  | sleepMs (ms intervalMs : Word)
  | preempt
  | enterEl0
  | exitSyscall (code : Word)
  | fault (spsr : Word)
  | completeUserTask
  | exit
  deriving DecidableEq

/-- The current task is a user task's entry, not yet in EL0. -/
def AtUserEntry (S : Symbols) (k : Kernel) : Prop :=
  k.currentTask ≠ 0 ∧ k.current.entry = S.schedulerUserTaskEntry
    ∧ k.current.userStatus.el0Entries = 0 ∧ k.current.userStatus.programCompleted = false

/-- The current task has come back from EL0, its program not yet completed. -/
def AtUserReturn (k : Kernel) : Prop :=
  k.currentTask ≠ 0 ∧ k.userSession.active = false ∧ k.current.userStatus.el0Entries ≠ 0
    ∧ k.current.userStatus.programCompleted = false

/-- The current task is at the end of its entry. -/
def AtExit (S : Symbols) (k : Kernel) : Prop :=
  k.currentTask ≠ 0 ∧ k.userSession.active = false
    ∧ (k.current.entry = S.schedulerUserTaskEntry → k.current.userStatus.programCompleted = true)

instance (S : Symbols) (k : Kernel) : Decidable (AtUserEntry S k) :=
  inferInstanceAs (Decidable (_ ∧ _ ∧ _ ∧ _))

instance (k : Kernel) : Decidable (AtUserReturn k) :=
  inferInstanceAs (Decidable (_ ∧ _ ∧ _ ∧ _))

instance (S : Symbols) (k : Kernel) : Decidable (AtExit S k) :=
  inferInstanceAs (Decidable (_ ∧ _ ∧ _))

def kernelCall (L : Layout) (S : Symbols) (k : Kernel) : KernelOp → Option (Kernel × Switch)
  | .createKernelThread name entry => some ((schedulerCreateKernelThread S name entry k).1, .stay)
  | .createUserTask name file argument =>
    some ((schedulerCreateUserTaskFromImage L S name file argument k).1, .stay)
  | .spawn file argument => some ((spawnChild L S file argument k).1, .stay)
  | .unblockUserTask pid => some ((schedulerUnblockUserTask S pid k).1, .stay)
  | .blockTask pid => some ((schedulerBlockTask pid k).1, .stay)
  | .unblockTask pid => some ((schedulerUnblockTask pid k).1, .stay)
  | .reapZombieTask pid => some ((schedulerReapZombieTask pid k).1, .stay)
  | .reapZombies => some ((schedulerReapZombies k).1, .stay)
  | .waitTaskStatus pid hasStatus => some ((schedulerWaitTaskStatus pid hasStatus k).1, .stay)
  | .setTaskParent pid parentPid => some ((schedulerSetTaskParent pid parentPid k).1, .stay)
  | .terminateChild pid code => some ((schedulerTerminateChild pid code k).1, .stay)
  | .startThreads => some (schedulerStartThreads k, .stay)
  | .yield => some (schedulerYield k)
  | .sleepMs ms intervalMs => some (schedulerSleepMs ms intervalMs k)
  | .preempt => some (schedulerPreempt k)
  | .enterEl0 =>
    if AtUserEntry S k then some ((schedulerRunUserTaskEnter S k.currentTask k).1, .stay) else none
  | .exitSyscall code => some ((userModeHandleExitSyscall code k).1, .stay)
  | .fault spsr => some ((userModeHandleException spsr k).1, .stay)
  | .completeUserTask =>
    if AtUserReturn k then some ((schedulerRunUserTaskReturn k.currentTask k).1, .stay) else none
  | .exit => if AtExit S k then some (schedulerExitTask k.currentTask k) else none

def kernelStep (L : Layout) (S : Symbols) (k : Kernel) (op : KernelOp) : Option Kernel :=
  (kernelCall L S k op).map Prod.fst

/-- The kernel after `scheduler_init`, the task slots zeroed. -/
def bootKernel (S : Symbols) (spaces : SpaceStatics) :
    Kernel := schedulerInit S { spaces := spaces }

/-! ## The calls the kernel makes

`kernel_main` starts the threads, as the idle task; `scheduler_set_task_parent` is called by the
spawn syscall alone. -/

/-- Whether the rest of the kernel can make the call by itself. -/
def Callable (k : Kernel) : KernelOp → Prop
  | .startThreads => k.currentTask = 0
  | .setTaskParent _ _ => False
  | _ => True

instance (k : Kernel) : DecidablePred (Callable k)
  | .startThreads => inferInstanceAs (Decidable (k.currentTask = 0))
  | .setTaskParent _ _ => inferInstanceAs (Decidable False)
  | .createKernelThread _ _ | .createUserTask _ _ _ | .spawn _ _ | .unblockUserTask _
  | .blockTask _ | .unblockTask _ | .reapZombieTask _ | .reapZombies | .waitTaskStatus _ _
  | .terminateChild _ _ | .yield | .sleepMs _ _ | .preempt | .enterEl0 | .exitSyscall _ | .fault _
  | .completeUserTask | .exit => inferInstanceAs (Decidable True)

def systemStep (L : Layout) (S : Symbols) (k : Kernel) (op : KernelOp) : Option Kernel :=
  if Callable k op then kernelStep L S k op else none

theorem systemStep_spec {L : Layout} {S : Symbols} {k k' : Kernel} {op : KernelOp}
    (h : systemStep L S k op = some k') :
    Callable k op ∧ ∃ sw, kernelCall L S k op = some (k', sw) := by
  rw [systemStep] at h
  split at h
  · rename_i hc
    obtain ⟨⟨k₁, sw⟩, hcall, rfl⟩ := Option.map_eq_some_iff.mp h
    exact ⟨hc, sw, hcall⟩
  · exact nomatch h

/-! ## Leaving through `scheduler_exit`

`AtExit` waits for a closed session, `scheduler_exit` does not: a task in the slot of a child that
was terminated inside its session finds that session open, and leaves all the same. -/

/-- The system with `scheduler_exit` open to every task but the idle one. -/
def taskStep (L : Layout) (S : Symbols) (k : Kernel) : KernelOp → Option Kernel
  | .exit => if k.currentTask ≠ 0 then some (schedulerExitTask k.currentTask k).1 else none
  | op => systemStep L S k op

theorem taskStep_spec {L : Layout} {S : Symbols} {k k' : Kernel} {op : KernelOp}
    (h : taskStep L S k op = some k') :
    op = .exit ∧ k.currentTask ≠ 0 ∧ k' = (schedulerExitTask k.currentTask k).1
      ∨ op ≠ .exit ∧ systemStep L S k op = some k' := by
  by_cases hop : op = .exit
  · subst hop
    obtain ⟨h0, hk⟩ := Option.ite_none_right_eq_some.mp h
    exact .inl ⟨rfl, h0, (Option.some.inj hk).symm⟩
  · refine .inr ⟨hop, ?_⟩
    cases op <;> first | exact h | exact absurd rfl hop

/-- A boot of one image, over the kernel map at the static root. -/
def bssKernel : Kernel := bootKernel imageSymbols (addressSpaceInit (bssLayout.table .vmL1) {})

/-- The smallest executable: one code word and no data. -/
def wordImage : List Byte :=
  [0x58, 0x54, 0x41, 0x53, 1, 0, 24, 0, 4, 0, 0, 0, 0, 0, 0, 0, 0, 0, 0, 0, 0, 0, 0, 0, 0, 0, 0, 0]

/-- …with one user task created, admitted and running, about to enter EL0. -/
def userKernel : Kernel :=
  (run (kernelStep bssLayout imageSymbols) bssKernel
    [.createUserTask none (some wordImage) none, .unblockUserTask 1, .startThreads, .preempt]).getD
    {}

end SaturnOS
