import SaturnOS.Sched.Lives

/-!
# Sched/Choices — the calls that select a task, and the others

    scheduler_sleep_ms ──fallAsleep──┐
    scheduler_exit ─────fallDead─────┼──▸ scheduler_yield ──▸ wake, search, switch
                                     │
                      timer ──▸ scheduler_preempt ──▸ tick, wake, search, switch

A call comes to the search of `scheduler_next_runnable_task` or it does not (`schedulerChoice`).
One that does not keeps the current task and the clock, and every sleeper but the one it may
terminate (`other_call`).
-/

open Machinery

namespace SaturnOS

/-! ## Choices -/

/-- What `scheduler_yield` chooses. -/
def yieldChoice (k : Kernel) : Option ℕ :=
  if k.taskCount < 2 then none else some (schedulerNextRunnableTask (schedulerWakeSleepingTasks k))

/-- The current task as `scheduler_sleep_ms` leaves it to its yield… -/
def fallAsleep (ms intervalMs : Word) (k : Kernel) : Kernel :=
  let ticks := (ms + intervalMs - 1) / intervalMs
  let ticks := if ticks = 0 then 1 else ticks
  k.modTask k.currentTask fun t =>
    { t with
      sleepRequestedMs := ms
      sleepUntilTick := k.schedulerTicks + ticks
      state := .sleeping }

/-- …and as `scheduler_exit_task` does. -/
def fallDead (taskId : ℕ) (k : Kernel) : Kernel :=
  { (orphanChildren taskId k).modTask taskId fun t => { t with state := .zombie } with
    currentTask := taskId }

/-- The table that `scheduler_preempt` searches: the tick is counted, the sleepers that are due are
awake, and the running task has one tick more on its account. -/
def tickTable (k : Kernel) : Kernel :=
  (schedulerWakeSleepingTasks { k with schedulerTicks := k.schedulerTicks + 1 }).modTask
    k.currentTask
    fun t => { t with accounting := { t.accounting with runTicks := t.accounting.runTicks + 1 } }

/-- The task a call selects, where it comes to select one. -/
def schedulerChoice (k : Kernel) : KernelOp → Option ℕ
  | .yield => yieldChoice k
  | .sleepMs ms intervalMs =>
    if !k.threadsStarted || k.currentTask == 0 || intervalMs == 0 then none
    else yieldChoice (fallAsleep ms intervalMs k)
  | .preempt =>
    if !k.threadsStarted || decide (k.taskCount < 2) then none
    else some (schedulerNextRunnableTask (tickTable k))
  | .exit => yieldChoice (fallDead k.currentTask k)
  | _ => none

section Choice

variable {k k' : Kernel}

/-- A sleep selects as the yield over the sleeping task does… -/
theorem schedulerChoice_sleepMs (k : Kernel) (ms intervalMs : Word) :
    schedulerChoice k (.sleepMs ms intervalMs)
      = if !k.threadsStarted || k.currentTask == 0 || intervalMs == 0 then none
        else yieldChoice (fallAsleep ms intervalMs k) := rfl

/-- …a tick where the threads run and there is another task… -/
theorem schedulerChoice_preempt (k : Kernel) : schedulerChoice k .preempt
    = if !k.threadsStarted || decide (k.taskCount < 2) then none
      else some (schedulerNextRunnableTask (tickTable k)) := rfl

/-- …and an exit as the yield over the zombie. -/
theorem schedulerChoice_exit (k : Kernel) :
    schedulerChoice k .exit = yieldChoice (fallDead k.currentTask k) := rfl

/-- **A tick**, by the table it searches and what it selects there. -/
theorem schedulerPreempt_eq (k : Kernel) : schedulerPreempt k =
    if !k.threadsStarted || decide (k.taskCount < 2) then (k, .stay)
    else if schedulerNextRunnableTask (tickTable k) = k.currentTask then (tickTable k, .stay)
    else (runTask (schedulerNextRunnableTask (tickTable k))
    ((demoteTask k.currentTask id (tickTable k)).modTask
      k.currentTask fun t =>
        { t with accounting := { t.accounting with preemptions := t.accounting.preemptions + 1 } }),
      .to k.currentTask (schedulerNextRunnableTask (tickTable k))) := rfl

/-- A yield selects a task, if only the one that yields, unless there is no other. -/
theorem yieldChoice_isSome : (yieldChoice k).isSome = true ↔ 2 ≤ k.taskCount := by
  rw [yieldChoice]
  split
  · exact iff_of_false (by simp) (Nat.not_le.mpr ‹_›)
  · exact iff_of_true rfl (Nat.not_lt.mp ‹_›)

/-- The test of `scheduler_preempt`. -/
theorem preempt_test (k : Kernel) : (!k.threadsStarted || decide (k.taskCount < 2)) = true
    ↔ ¬ (k.threadsStarted = true ∧ 2 ≤ k.taskCount) := by
  rw [Bool.or_eq_true, decide_eq_true_eq, Bool.not_eq_true', not_and_or, Nat.not_le,
    Bool.not_eq_true]

/-- …and so does a tick, once the threads have been started. -/
theorem preemptChoice_isSome :
    (schedulerChoice k .preempt).isSome = true ↔ k.threadsStarted = true ∧ 2 ≤ k.taskCount := by
  rw [schedulerChoice_preempt]
  split
  · rename_i hno
    exact iff_of_false (by simp) ((preempt_test k).mp hno)
  · rename_i hgo
    exact iff_of_true rfl (not_not.mp fun hno => hgo ((preempt_test k).mpr hno))

/-- A yield that selects nothing does nothing. -/
theorem yield_none (hc : yieldChoice k = none) : (schedulerYield k).1 = k := by
  rw [yieldChoice] at hc
  split at hc
  · simp only [schedulerYield]
    rw [if_pos ‹_›]
  · cases hc

/-- **A sleep** is a yield over the task fallen asleep. -/
theorem schedulerSleepMs_eq (ms intervalMs : Word) (k : Kernel) : schedulerSleepMs ms intervalMs k =
    if !k.threadsStarted || k.currentTask == 0 || intervalMs == 0 then (k, .stay)
    else schedulerYield (fallAsleep ms intervalMs k) := rfl

/-- The table between the two parts of such a call is a table: of a sleep… -/
theorem tableOk_fallAsleep (h : TableOk k) (h0 : k.currentTask ≠ 0) (ms intervalMs : Word) :
    TableOk (fallAsleep ms intervalMs k) := by
  rw [fallAsleep]
  exact h.setState h.current_lt h0 rfl rfl (by simp) (by simp)

/-- …of an exit, whose children have lost their parent… -/
theorem tableOk_fallDead (h : TableOk k) (h0 : k.currentTask ≠ 0) :
    TableOk (fallDead k.currentTask k) := by
  have hz := (tableOk_orphanChildren h k.currentTask).setState (p := k.currentTask)
    (f := fun t => { t with state := .zombie }) h.current_lt h0 rfl rfl nofun nofun
  exact hz.congr (SameTable.of_tasks rfl rfl rfl)

/-- …and of a tick. -/
theorem tableOk_tickTable (h : TableOk k) : TableOk (tickTable k) := by
  have htick : SameTable k { k with schedulerTicks := k.schedulerTicks + 1 } :=
    SameTable.of_tasks rfl rfl rfl
  exact (tableOk_wake (h.congr htick)).congr (SameTable.modTask _ k.currentTask ⟨rfl, rfl, rfl⟩)

/-! ## The other calls -/

/-- A record goes on showing the same sleep. -/
structure SleepsOn (t t' : Task) : Prop where
  state_eq : t'.state = t.state
  until_eq : t'.sleepUntilTick = t.sleepUntilTick
  requested_eq : t'.sleepRequestedMs = t.sleepRequestedMs
  wakeups_eq : t'.accounting.sleepWakeups = t.accounting.sleepWakeups

/-- A record that is not touched. -/
theorem SleepsOn.refl (t : Task) : SleepsOn t t := ⟨rfl, rfl, rfl, rfl⟩

/-- Steps that keep the sleep compose. -/
theorem SleepsOn.trans {t t' t'' : Task} (h : SleepsOn t t') (h' : SleepsOn t' t'') :
    SleepsOn t t'' :=
  ⟨h'.state_eq.trans h.state_eq, h'.until_eq.trans h.until_eq,
    h'.requested_eq.trans h.requested_eq, h'.wakeups_eq.trans h.wakeups_eq⟩

theorem SleepsOn.of_eq {t t' : Task} (h : t' = t) : SleepsOn t t' := h ▸ SleepsOn.refl t

/-- The call terminates the child `i` of the current task. -/
def Terminates (k : Kernel) (op : KernelOp) (i : ℕ) : Prop :=
  ∃ pid code, op = .terminateChild pid code ∧ canTerminate k pid = true ∧ i = pid.toNat

/-- The clock of the scheduler. -/
def clock (k : Kernel) : Bool × Word := (k.threadsStarted, k.schedulerTicks)

/-- The clock goes on in a tick alone; the rest of this list says so, operation by operation. -/
theorem clock_demoteTask (p : ℕ) (account : TaskAccounting → TaskAccounting) (k : Kernel) :
    clock (demoteTask p account k) = clock k := by
  rw [demoteTask]
  split <;> rfl

/-- What a call leaves alone that selects no task. -/
structure OtherCall (k : Kernel) (op : KernelOp) (k' : Kernel) : Prop where
  currentTask : k'.currentTask = k.currentTask
  ticks_eq : k'.schedulerTicks = k.schedulerTicks
  started : k.threadsStarted = true → k'.threadsStarted = true
  asleep : SessionsOwn k → ∀ i, i ≠ k.currentTask → (k.tasks i).state = .sleeping →
    SleepsOn (k.tasks i) (k'.tasks i) ∨ Terminates k op i ∧ (k'.tasks i).state = .zombie

namespace OtherCall

variable {op : KernelOp}

/-- One that changes no sleeper's record. -/
theorem of_tasks (hcurrent : k'.currentTask = k.currentTask) (hclock : clock k' = clock k)
    (htasks : SessionsOwn k → ∀ i, i ≠ k.currentTask → (k.tasks i).state = .sleeping →
      k'.tasks i = k.tasks i) : OtherCall k op k' :=
  ⟨hcurrent, congrArg Prod.snd hclock, fun hs => (congrArg Prod.fst hclock).trans hs,
    fun hown i hi hs => .inl (.of_eq (htasks hown i hi hs))⟩

/-- A call that does nothing. -/
theorem refl (k : Kernel) (op : KernelOp) : OtherCall k op k :=
  of_tasks rfl rfl fun _ _ _ _ => rfl

/-- A slot that is filled was unused, and no sleeper's. -/
theorem of_fills {p : ℕ} (h : Fills p k k') : OtherCall k op k' := by
  refine of_tasks h.rest.currentTask
    (by rw [clock, clock, h.rest.threadsStarted, h.rest.schedulerTicks])
    fun _ i _ hs => h.rest.tasks i ?_
  rintro rfl
  cases hs.symm.trans h.unused

/-- A slot that is cleared was a zombie's. -/
theorem of_clears {F : ℕ → Prop} (h : Clears F k k') (hclock : clock k' = clock k) :
    OtherCall k op k' := by
  refine of_tasks h.currentTask hclock fun _ i _ hs => h.rest i fun hi => ?_
  cases hs.symm.trans (h.zombie i hi)

/-- A task that is blocked or readmitted was ready or blocked. -/
theorem of_readmits {p : ℕ} (h : Readmits p k k') : OtherCall k op k' := by
  rcases h with rfl | ⟨-, -, f, rfl, ht⟩
  · exact refl k' op
  · refine of_tasks rfl rfl fun _ i _ hs => k.modTask_of_ne p f ?_
    rintro rfl
    rcases ht.was with hw | hw <;> cases hs.symm.trans hw

/-- The calls of a program change the record of the current task. -/
theorem of_within (h : SessionsOwn k → WithinSlot k.currentTask k k')
    (hcurrent : k'.currentTask = k.currentTask) (hclock : clock k' = clock k) : OtherCall k op k' :=
  of_tasks hcurrent hclock fun hown i hi _ => (h hown).tasks i hi

end OtherCall

theorem clock_clearTaskSlot (p : ℕ) (k : Kernel) :
    clock (schedulerClearTaskSlot p k) = clock k := by
  obtain ⟨hrest, -⟩ := clearTaskSlot_spec p k
  rw [clock, clock, hrest.threadsStarted, hrest.schedulerTicks]

theorem clock_reapZombieTask (pid : ℤ) (k : Kernel) :
    clock (schedulerReapZombieTask pid k).1 = clock k := by
  simp only [schedulerReapZombieTask]
  split
  · rfl
  · split
    · rfl
    · exact clock_clearTaskSlot pid.toNat k

theorem clock_reapZombies (k : Kernel) : clock (schedulerReapZombies k).1 = clock k := by
  have hloop : ∀ (slots : List ℕ) (k : Kernel), clock (slots.foldl reapSlot k) = clock k := by
    intro slots
    induction slots with
    | nil => exact fun k => rfl
    | cons a rest ih =>
      intro k
      refine (ih (reapSlot k a)).trans ?_
      rw [reapSlot]
      split
      · exact clock_clearTaskSlot a k
      · rfl
  exact hloop _ k

theorem clock_waitOnTask (p : ℕ) (k : Kernel) : clock (waitOnTask p k).1 = clock k := by
  simp only [waitOnTask]
  split
  · rfl
  · split
    · rfl
    · exact clock_clearTaskSlot p k

theorem clock_waitTaskStatus (pid : ℤ) (hasStatus : Bool) (k : Kernel) :
    clock (schedulerWaitTaskStatus pid hasStatus k).1 = clock k := by
  simp only [schedulerWaitTaskStatus]
  split
  · rfl
  · split
    · split
      · exact clock_waitOnTask _ k
      · rfl
    · exact clock_waitOnTask _ k

theorem clock_switchTtbr0 (root : Word) (k : Kernel) :
    clock (if root ≠ 0 then k.arm64MmuSwitchTtbr0 root else k) = clock k := by
  split <;> rfl

theorem clock_modSessionTask (k : Kernel) (f : Task → Task) :
    clock (k.modSessionTask f) = clock k := by
  rw [Kernel.modSessionTask]
  split <;> rfl

theorem clock_userSessionReject (reason : UserSessionRejectReason) (k : Kernel) :
    clock (userSessionReject reason k) = clock k := by
  simp only [userSessionReject]
  exact (clock_modSessionTask _ _).trans (clock_switchTtbr0 _ k)

theorem clock_handleExitSyscall (code : Word) (k : Kernel) :
    clock (userModeHandleExitSyscall code k).1 = clock k := by
  simp only [userModeHandleExitSyscall]
  split
  · rfl
  · exact (clock_modSessionTask _ _).trans (clock_switchTtbr0 _ k)

theorem clock_handleException (spsr : Word) (k : Kernel) :
    clock (userModeHandleException spsr k).1 = clock k := by
  simp only [userModeHandleException]
  split
  · rfl
  · split
    · exact clock_userSessionReject _ k
    · split
      · exact clock_userSessionReject _ k
      · split
        · exact clock_userSessionReject _ k
        · exact clock_modSessionTask _ _

theorem clock_finishUserTask (p : ℕ) (status : UserModeStatus) (k : Kernel) :
    clock (finishUserTask p status k).1 = clock k := by
  rw [finishUserTask]
  split <;> rfl

theorem clock_runTaskReturn (p : ℕ) (k : Kernel) :
    clock (userModeRunTaskReturn p k).1 = clock k := by
  simp only [userModeRunTaskReturn]
  split <;> rfl

/-- An entry that fails finishes the task, which keeps what it keeps. -/
theorem runUserTaskEnter_keeps {α : Type*} {S : Symbols} {p : ℕ} (proj : Kernel → α)
    (henter : proj (userModeRunTaskEnter S p k).1 = proj k)
    (hfinish : ∀ status k, proj (finishUserTask p status k).1 = proj k) :
    proj (schedulerRunUserTaskEnter S p k).1 = proj k := by
  rw [schedulerRunUserTaskEnter]
  split
  · rfl
  · split
    · rfl
    · split
      · rename_i heq
        rw [heq] at henter
        exact henter
      · rename_i heq
        rw [heq] at henter
        exact (hfinish _ _).trans henter

theorem clock_runTaskEnter (S : Symbols) (p : ℕ) (k : Kernel) :
    clock (userModeRunTaskEnter S p k).1 = clock k := by
  obtain ⟨status, -, heq⟩ | ⟨space, -, -, -, -, -, -, heq⟩ := runTaskEnter_spec S p k <;> rw [heq]
  rfl

theorem currentTask_finishUserTask (p : ℕ) (status : UserModeStatus) (k : Kernel) :
    (finishUserTask p status k).1.currentTask = k.currentTask := by
  rw [finishUserTask]
  split <;> exact Kernel.modTask_currentTask _ _ _

namespace OtherCall

/-! ### Call by call -/

/-- A child that may be terminated becomes a zombie, asleep or not; no other task is touched. -/
theorem terminateChild (pid : ℤ) (code : Word) (k : Kernel) :
    OtherCall k (.terminateChild pid code) (schedulerTerminateChild pid code k).1 := by
  cases hcan : canTerminate k pid with
  | false =>
    have hsame : (schedulerTerminateChild pid code k).1 = k := by
      rw [schedulerTerminateChild, hcan]
      rfl
    rw [hsame]
    exact .refl k _
  | true =>
    obtain ⟨f, heq, hz⟩ : ∃ f : Task → Task, (schedulerTerminateChild pid code k).1
        = k.modTask pid.toNat f ∧ ∀ t, (f t).state = .zombie := by
      rw [schedulerTerminateChild, if_neg (by simp [hcan])]
      dsimp only
      exact ⟨_, rfl, fun _ => rfl⟩
    rw [heq]
    refine ⟨rfl, rfl, id, fun _ i _ _ => ?_⟩
    by_cases hi : i = pid.toNat
    · refine .inr ⟨⟨pid, code, rfl, hcan, hi⟩, ?_⟩
      rw [hi, Kernel.modTask_self]
      exact hz _
    · exact .inl (.of_eq (k.modTask_of_ne _ f hi))

/-- The idle task starts the threads, and is the one that changes. -/
theorem startThreads (h0 : k.currentTask = 0) :
    OtherCall k .startThreads (schedulerStartThreads k) := by
  refine ⟨h0.symm, rfl, fun _ => rfl, fun _ i hi _ => .inl (.of_eq ?_)⟩
  rw [h0] at hi
  rw [schedulerStartThreads, schedulerSetRunningTask]
  exact Kernel.modTask_of_ne { k with threadsStarted := true, currentTask := 0 } 0 _ hi

/-- A yield that selects nothing does nothing. -/
theorem yield (hno : yieldChoice k = none) : OtherCall k .yield (schedulerYield k).1 := by
  rw [yield_none hno]
  exact .refl k _

/-- A sleep selects nothing outside the threads, where it only waits, or with one task. -/
theorem sleepMs (ms intervalMs : Word)
    (hno : schedulerChoice k (.sleepMs ms intervalMs) = none) :
    OtherCall k (.sleepMs ms intervalMs) (schedulerSleepMs ms intervalMs k).1 := by
  rw [schedulerChoice_sleepMs] at hno
  rw [schedulerSleepMs_eq]
  split
  · exact .refl k _
  · rename_i hgo
    rw [if_neg hgo] at hno
    rw [yield_none hno]
    refine .of_tasks rfl rfl fun _ i hi _ => ?_
    rw [fallAsleep]
    exact Kernel.modTask_of_ne _ _ _ hi

/-- …and so does a tick. -/
theorem preempt (hno : schedulerChoice k .preempt = none) :
    OtherCall k .preempt (schedulerPreempt k).1 := by
  rw [schedulerChoice_preempt] at hno
  split at hno
  · rw [schedulerPreempt, if_pos ‹_›]
    exact .refl k _
  · cases hno

/-- With two tasks, and an exit is of one that is not the idle one, a yield selects. -/
theorem not_exit (h : TableOk k) (h0 : k.currentTask ≠ 0) : schedulerChoice k .exit ≠ none := by
  have hcount : ¬ (fallDead k.currentTask k).taskCount < 2 := by
    have hlt : k.currentTask < (fallDead k.currentTask k).taskCount := h.current_lt
    omega
  rw [schedulerChoice_exit, yieldChoice, if_neg hcount]
  simp

/-! The calls of a program, in and out of EL0, stay within the slot of the current task. -/

/-- Into EL0, or to the end of the entry where a test fails… -/
theorem enterEl0 (S : Symbols) (h : TableOk k) :
    OtherCall k .enterEl0 (schedulerRunUserTaskEnter S k.currentTask k).1 := by
  refine .of_within (fun hown => ?_)
    (runUserTaskEnter_keeps Kernel.currentTask
      (runTaskEnter_sameTable S k.currentTask).currentTask
      fun status k' => currentTask_finishUserTask _ status k')
    (runUserTaskEnter_keeps clock (clock_runTaskEnter S k.currentTask k)
      fun status k' => clock_finishUserTask _ status k')
  have hat := hown.atSlot h
  rcases enterEl0_life hat S with heq | ⟨hw, -⟩
  · rw [heq]
    exact hat.stay
  · exact hw

/-- …out of it by the exit syscall… -/
theorem exitSyscall (h : TableOk k) (code : Word) :
    OtherCall k (.exitSyscall code) (userModeHandleExitSyscall code k).1 := by
  refine .of_within (fun hown => ?_) (handleExitSyscall_closes code k).currentTask
    (clock_handleExitSyscall code k)
  have hat := hown.atSlot h
  obtain heq | ⟨k', back, heq, hw, -⟩ := handleExitSyscall_life hat code
  · rw [heq]
    exact hat.stay
  · rw [heq]
    exact hw

/-- …by a fault… -/
theorem fault (S : Symbols) (h : TableOk k) (spsr : Word) :
    OtherCall k (.fault spsr) (userModeHandleException spsr k).1 := by
  refine .of_within (fun hown => ?_) (handleException_closes spsr k).currentTask
    (clock_handleException spsr k)
  obtain ⟨k', back, heq, hw, -⟩ := handleException_life (hown.atSlot h) S spsr
  rw [heq]
  exact hw

/-- …and to the end of the entry. -/
theorem completeUserTask (h : TableOk k) (hreturn : AtUserReturn k) :
    OtherCall k .completeUserTask (schedulerRunUserTaskReturn k.currentTask k).1 := by
  refine .of_within (fun hown => ?_)
    ((currentTask_finishUserTask _ _ _).trans (runTaskReturn_closes k.currentTask k).currentTask)
    ((clock_finishUserTask _ _ _).trans (clock_runTaskReturn k.currentTask k))
  have hat := hown.atSlot h
  exact (completeUserTask_life hat (hat.session_eq ▸ hreturn.2.1)).1

end OtherCall

/-- **A call that selects no task** leaves the current one, the clock and the sleepers, but for the
child it terminates. -/
theorem other_call {L : Layout} {S : Symbols} {op : KernelOp} (h : TableOk k)
    (hstep : taskStep L S k op = some k') (hno : schedulerChoice k op = none) :
    OtherCall k op k' := by
  obtain ⟨rfl, h0, -⟩ | ⟨hne, hsystem⟩ := taskStep_spec hstep
  · exact absurd hno (OtherCall.not_exit h h0)
  obtain ⟨hcallable, sw, hcall⟩ := systemStep_spec hsystem
  cases op with
  | createKernelThread name entry =>
    obtain ⟨rfl, rfl⟩ := Prod.mk.inj (Option.some.inj hcall)
    obtain ⟨p, hp⟩ := fills_createKernelThread S h name entry
    exact .of_fills hp
  | createUserTask name file argument =>
    obtain ⟨rfl, rfl⟩ := Prod.mk.inj (Option.some.inj hcall)
    obtain ⟨p, hp⟩ := fills_outcome h (createUserTask_outcome L S name file argument h.count_le)
    exact .of_fills hp
  | spawn file argument =>
    obtain ⟨rfl, rfl⟩ := Prod.mk.inj (Option.some.inj hcall)
    obtain ⟨p, hp⟩ := fills_spawnChild L S h file argument
    exact .of_fills hp
  | unblockUserTask pid =>
    obtain ⟨rfl, rfl⟩ := Prod.mk.inj (Option.some.inj hcall)
    exact .of_readmits (unblockUserTask_readmits S pid k)
  | blockTask pid =>
    obtain ⟨rfl, rfl⟩ := Prod.mk.inj (Option.some.inj hcall)
    exact .of_readmits (blockTask_readmits pid k)
  | unblockTask pid =>
    obtain ⟨rfl, rfl⟩ := Prod.mk.inj (Option.some.inj hcall)
    exact .of_readmits (unblockTask_readmits pid k)
  | reapZombieTask pid =>
    obtain ⟨rfl, rfl⟩ := Prod.mk.inj (Option.some.inj hcall)
    exact .of_clears (clears_reapZombieTask pid k) (clock_reapZombieTask pid k)
  | reapZombies =>
    obtain ⟨rfl, rfl⟩ := Prod.mk.inj (Option.some.inj hcall)
    exact .of_clears (clears_reapZombies k) (clock_reapZombies k)
  | waitTaskStatus pid hasStatus =>
    obtain ⟨rfl, rfl⟩ := Prod.mk.inj (Option.some.inj hcall)
    exact .of_clears (clears_waitTaskStatus h pid hasStatus) (clock_waitTaskStatus pid hasStatus k)
  | setTaskParent pid parentPid => exact hcallable.elim
  | terminateChild pid code =>
    obtain ⟨rfl, rfl⟩ := Prod.mk.inj (Option.some.inj hcall)
    exact .terminateChild pid code k
  | startThreads =>
    obtain ⟨rfl, rfl⟩ := Prod.mk.inj (Option.some.inj hcall)
    exact .startThreads hcallable
  | yield =>
    obtain rfl := congrArg Prod.fst (Option.some.inj hcall)
    exact .yield hno
  | sleepMs ms intervalMs =>
    obtain rfl := congrArg Prod.fst (Option.some.inj hcall)
    exact .sleepMs ms intervalMs hno
  | preempt =>
    obtain rfl := congrArg Prod.fst (Option.some.inj hcall)
    exact .preempt hno
  | enterEl0 =>
    obtain ⟨-, hcall⟩ := Option.ite_none_right_eq_some.mp hcall
    obtain ⟨rfl, rfl⟩ := Prod.mk.inj (Option.some.inj hcall)
    exact .enterEl0 S h
  | exitSyscall code =>
    obtain ⟨rfl, rfl⟩ := Prod.mk.inj (Option.some.inj hcall)
    exact .exitSyscall h code
  | fault spsr =>
    obtain ⟨rfl, rfl⟩ := Prod.mk.inj (Option.some.inj hcall)
    exact .fault S h spsr
  | completeUserTask =>
    obtain ⟨hreturn, hcall⟩ := Option.ite_none_right_eq_some.mp hcall
    obtain ⟨rfl, rfl⟩ := Prod.mk.inj (Option.some.inj hcall)
    exact .completeUserTask h hreturn
  | exit => exact absurd rfl hne

end Choice

end SaturnOS
