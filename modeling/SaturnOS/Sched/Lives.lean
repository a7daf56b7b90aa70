import SaturnOS.Sched.Records

/-!
# Sched/Lives — what a call leaves of the dead

    running ──exit / fault──▸ zombie ──scheduler_exit──▸ ⋯ ──reaped──▸ unused

The kernel's calls with the control flow of the tasks that make them.  `scheduler_run_user_task`
leaves a zombie that is still running: nothing is left of its entry but the call of
`scheduler_exit`, which the timer may come before.  An exit syscall and a fault come out of EL0.

A call leaves a task's record alone but for the slots it fills or clears and the one task it ends or
moves in or out of EL0.  A zombie is none of those, so it stays as it is until its slot is cleared
(`dead_step`).  Each call is one step here; what the timer does inside a yield is in Sched/Windows.
-/

open Machinery

namespace SaturnOS

/-! ## Control flow -/

/-- The current task is inside its program: it entered EL0 in this life and the session is open. -/
def InEl0 (k : Kernel) : Prop :=
  k.userSession.active = true ∧ k.current.userStatus.el0Entries ≠ 0
    ∧ k.current.userStatus.programCompleted = false

instance (k : Kernel) : Decidable (InEl0 k) := inferInstanceAs (Decidable (_ ∧ _ ∧ _))

/-- What the code of the current task can come to: a zombie only exits, a user task exits after its
program, and a program ends in EL0.  The timer ticks everywhere. -/
def MakesCall (S : Symbols) (k : Kernel) : KernelOp → Prop
  | .preempt => True
  | .exit =>
    k.current.entry = S.schedulerUserTaskEntry → k.current.userStatus.programCompleted = true
  | .exitSyscall _ | .fault _ => k.current.state ≠ .zombie ∧ InEl0 k
  | .createKernelThread _ _ | .createUserTask _ _ _ | .spawn _ _ | .unblockUserTask _
  | .blockTask _ | .unblockTask _ | .reapZombieTask _ | .reapZombies | .waitTaskStatus _ _
  | .setTaskParent _ _ | .terminateChild _ _ | .startThreads | .yield | .sleepMs _ _ | .enterEl0
  | .completeUserTask => k.current.state ≠ .zombie

instance (S : Symbols) (k : Kernel) : DecidablePred (MakesCall S k)
  | .preempt => inferInstanceAs (Decidable True)
  | .exit => inferInstanceAs (Decidable (_ → _))
  | .exitSyscall _ | .fault _ => inferInstanceAs (Decidable (_ ∧ _))
  | .createKernelThread _ _ | .createUserTask _ _ _ | .spawn _ _ | .unblockUserTask _
  | .blockTask _ | .unblockTask _ | .reapZombieTask _ | .reapZombies | .waitTaskStatus _ _
  | .setTaskParent _ _ | .terminateChild _ _ | .startThreads | .yield | .sleepMs _ _ | .enterEl0
  | .completeUserTask => inferInstanceAs (Decidable (_ ≠ _))

/-- The kernel with the control flow of its tasks, each call from its start to its end. -/
def lifeStep (L : Layout) (S : Symbols) (k : Kernel) (op : KernelOp) : Option Kernel :=
  if MakesCall S k op then taskStep L S k op else none

/-- A call of the right task, and the table after it. -/
theorem lifeStep_spec {L : Layout} {S : Symbols} {k k' : Kernel} {op : KernelOp}
    (h : lifeStep L S k op = some k') : MakesCall S k op ∧ taskStep L S k op = some k' :=
  Option.ite_none_right_eq_some.mp h

/-! ## Every other call -/

/-- The calls that end nobody and leave EL0 alone. -/
def KernelOp.ordinary : KernelOp → Bool
  | .terminateChild _ _ | .enterEl0 | .exitSyscall _ | .fault _ | .completeUserTask | .exit => false
  | .createKernelThread _ _ | .createUserTask _ _ _ | .spawn _ _ | .unblockUserTask _
  | .blockTask _ | .unblockTask _ | .reapZombieTask _ | .reapZombies | .waitTaskStatus _ _
  | .setTaskParent _ _ | .startThreads | .yield | .sleepMs _ _ | .preempt => true

/-- What such a call does to the table. -/
inductive TableChange (S : Symbols) (op : KernelOp) (k k' : Kernel) : Prop
  | records (h : KeepsRecords S k k')
  | filled {p : ℕ} (h : Fills p k k') (hfresh : FreshIn k k')
  | cleared (h : Clears (Frees k op) k k')
      (hparent : ∀ i, Frees k op i → (k'.tasks i).parentPid = -1)

/-- A zombie found unused was cleared, and so has no parent. -/
theorem clearTaskSlot_parent {p i : ℕ} {k : Kernel} (hz : (k.tasks i).state = .zombie)
    (hu : ((schedulerClearTaskSlot p k).tasks i).state = .unused) :
    ((schedulerClearTaskSlot p k).tasks i).parentPid = -1 := by
  obtain ⟨hrest, -, space, hslot⟩ := clearTaskSlot_spec p k
  by_cases hi : i = p
  · subst hi
    rw [hslot]
    rfl
  · rw [hrest.tasks i hi, hz] at hu
    cases hu

/-- **A zombie that a call clears** has no parent any more, whichever call it is. -/
theorem reapZombieTask_parent (pid : ℤ) {i : ℕ} {k : Kernel} (hz : (k.tasks i).state = .zombie)
    (hu : ((schedulerReapZombieTask pid k).1.tasks i).state = .unused) :
    ((schedulerReapZombieTask pid k).1.tasks i).parentPid = -1 := by
  simp only [schedulerReapZombieTask] at hu ⊢
  split at hu
  · cases hz.symm.trans hu
  · split at hu
    · cases hz.symm.trans hu
    · rw [if_neg ‹_›, if_neg ‹_›]
      exact clearTaskSlot_parent hz hu

theorem reapZombies_parent {i : ℕ} {k : Kernel} (hz : (k.tasks i).state = .zombie)
    (hu : ((schedulerReapZombies k).1.tasks i).state = .unused) :
    ((schedulerReapZombies k).1.tasks i).parentPid = -1 := by
  obtain ⟨-, -, -, -, -, hslots⟩ := foldl_reapSlot_spec ((List.range k.taskCount).drop 1) k
  by_cases hi : Reapable k ((List.range k.taskCount).drop 1) i
  · obtain ⟨t, ht⟩ := (hslots i).1 hi
    show ((List.foldl reapSlot k _).tasks i).parentPid = -1
    rw [ht]
    rfl
  · have hsame : (schedulerReapZombies k).1.tasks i = k.tasks i := (hslots i).2 hi
    rw [hsame, hz] at hu
    cases hu

theorem waitOnTask_parent (p : ℕ) {i : ℕ} {k : Kernel} (hz : (k.tasks i).state = .zombie)
    (hu : ((waitOnTask p k).1.tasks i).state = .unused) :
    ((waitOnTask p k).1.tasks i).parentPid = -1 := by
  simp only [waitOnTask] at hu ⊢
  split at hu
  · cases hz.symm.trans hu
  · split at hu
    · cases hz.symm.trans hu
    · rw [if_neg ‹_›, if_neg ‹_›]
      exact clearTaskSlot_parent hz hu

theorem waitTaskStatus_parent (pid : ℤ) (hasStatus : Bool) {i : ℕ} {k : Kernel}
    (hz : (k.tasks i).state = .zombie)
    (hu : ((schedulerWaitTaskStatus pid hasStatus k).1.tasks i).state = .unused) :
    ((schedulerWaitTaskStatus pid hasStatus k).1.tasks i).parentPid = -1 := by
  simp only [schedulerWaitTaskStatus] at hu ⊢
  split at hu
  · cases hz.symm.trans hu
  · rw [if_neg ‹_›]
    split at hu
    · rw [if_pos ‹_›]
      split at hu
      · rename_i p hzc
        exact waitOnTask_parent p hz hu
      · cases hz.symm.trans hu
    · rw [if_neg ‹_›]
      exact waitOnTask_parent _ hz hu

/-- **An ordinary call** keeps every record, fills a slot or clears some. -/
theorem ordinary_change {L : Layout} {S : Symbols} {k k' : Kernel} {op : KernelOp} (h : TableOk k)
    (hmakes : MakesCall S k op) (hop : op.ordinary = true)
    (hstep : taskStep L S k op = some k') : TableChange S op k k' := by
  obtain ⟨rfl, -⟩ | ⟨-, hsystem⟩ := taskStep_spec hstep
  · cases hop
  obtain ⟨hcallable, sw, hcall⟩ := systemStep_spec hsystem
  cases op with
  | createKernelThread name entry =>
    obtain ⟨rfl, rfl⟩ := Prod.mk.inj (Option.some.inj hcall)
    obtain ⟨p, hp⟩ := fills_createKernelThread S h name entry
    exact .filled hp (createKernelThread_fresh S name entry)
  | createUserTask name file argument =>
    obtain ⟨rfl, rfl⟩ := Prod.mk.inj (Option.some.inj hcall)
    obtain ⟨p, hp⟩ := fills_outcome h (createUserTask_outcome L S name file argument h.count_le)
    refine .filled hp ?_
    obtain ⟨-, hfresh⟩ | ⟨p, -, hrest, hnew, hkind⟩ :=
      createUserTask_fresh L S h name file argument
    · exact hfresh
    · refine FreshIn.of_fresh hrest ?_ (hnew.fresh hkind)
      rw [Used, hnew.state_eq]
      simp
  | spawn file argument =>
    obtain ⟨rfl, rfl⟩ := Prod.mk.inj (Option.some.inj hcall)
    obtain ⟨p, hp⟩ := fills_spawnChild L S h file argument
    exact .filled hp (spawnChild_fresh L S h file argument)
  | unblockUserTask pid =>
    obtain ⟨rfl, rfl⟩ := Prod.mk.inj (Option.some.inj hcall)
    exact .records (unblockUserTask_records S pid k)
  | blockTask pid =>
    obtain ⟨rfl, rfl⟩ := Prod.mk.inj (Option.some.inj hcall)
    exact .records (blockTask_records S pid k)
  | unblockTask pid =>
    obtain ⟨rfl, rfl⟩ := Prod.mk.inj (Option.some.inj hcall)
    exact .records (unblockTask_records S pid k)
  | reapZombieTask pid =>
    obtain ⟨rfl, rfl⟩ := Prod.mk.inj (Option.some.inj hcall)
    have hc := clears_reapZombieTask pid k
    exact .cleared hc fun i hi => reapZombieTask_parent pid (hc.zombie i hi) (hc.cleared i hi)
  | reapZombies =>
    obtain ⟨rfl, rfl⟩ := Prod.mk.inj (Option.some.inj hcall)
    have hc := clears_reapZombies k
    exact .cleared hc fun i hi => reapZombies_parent (hc.zombie i hi) (hc.cleared i hi)
  | waitTaskStatus pid hasStatus =>
    obtain ⟨rfl, rfl⟩ := Prod.mk.inj (Option.some.inj hcall)
    have hc := clears_waitTaskStatus h pid hasStatus
    exact .cleared hc fun i hi =>
      waitTaskStatus_parent pid hasStatus (hc.zombie i hi) (hc.cleared i hi)
  | setTaskParent pid parentPid => exact hcallable.elim
  | startThreads =>
    obtain ⟨rfl, rfl⟩ := Prod.mk.inj (Option.some.inj hcall)
    exact .records (startThreads_records S h hcallable)
  | yield =>
    obtain rfl := congrArg Prod.fst (Option.some.inj hcall)
    exact .records (yield_records S k)
  | sleepMs ms intervalMs =>
    obtain rfl := congrArg Prod.fst (Option.some.inj hcall)
    exact .records (sleepMs_records S h hmakes ms intervalMs)
  | preempt =>
    obtain rfl := congrArg Prod.fst (Option.some.inj hcall)
    exact .records (preempt_records S k)
  | terminateChild pid code => cases hop
  | enterEl0 => cases hop
  | exitSyscall code => cases hop
  | fault spsr => cases hop
  | completeUserTask => cases hop
  | exit => cases hop

/-! ## The dead stay dead -/

/-- Every session is its slot's own. -/
def SessionsOwn (k : Kernel) : Prop := ∀ p, OwnSession p (k.userSessions p)

/-- The session of the current task is about its own slot… -/
theorem SessionsOwn.atSlot {k : Kernel} (h : SessionsOwn k) (ht : TableOk k) :
    AtSlot k.currentTask k := ⟨ht.userSession_eq.1, h _⟩

/-- …and stays so, where no other slot is touched. -/
theorem SessionsOwn.within {p : ℕ} {k k' : Kernel} (h : SessionsOwn k) (hw : WithinSlot p k k') :
    SessionsOwn k' := by
  intro i
  by_cases hi : i = p
  · subst hi
    exact hw.atSlot.own
  · rw [hw.sessions i hi]
    exact h i

/-- What is seen of a zombie over a step: it is one still, with its code and its flag, and the CPU
was not handed to it. -/
structure StaysDead (t : Task) (i : ℕ) (k k' : Kernel) : Prop where
  zombie : (k'.tasks i).state = .zombie
  exitCode_eq : (k'.tasks i).userStatus.lastExitCode = t.userStatus.lastExitCode
  succeeded_eq : (k'.tasks i).userStatus.programSucceeded = t.userStatus.programSucceeded
  current : k'.currentTask = i → k.currentTask = i

/-- A zombie that is not touched stays one… -/
theorem StaysDead.of_same {i : ℕ} {k k' : Kernel} (hz : (k.tasks i).state = .zombie)
    (ht : k'.tasks i = k.tasks i) (hc : k'.currentTask = k.currentTask) :
    StaysDead (k.tasks i) i k k' :=
  ⟨by rw [ht, hz], by rw [ht], by rw [ht], fun hi => hc.symm.trans hi⟩

/-- …and so does one whose record changes in what nobody reads of it. -/
theorem StaysDead.of_record {S : Symbols} {i : ℕ} {k k' : Kernel}
    (hz : (k.tasks i).state = .zombie) (hr : SameRecord S (k.tasks i) (k'.tasks i))
    (hc : k'.currentTask = k.currentTask ∨ k'.current.state = .running) :
    StaysDead (k.tasks i) i k k' := by
  have hz' := hr.zombie_iff.mpr hz
  refine ⟨hz', hr.exitCode_eq, hr.succeeded_eq, fun hi => ?_⟩
  rcases hc with hc | hc
  · exact hc.symm.trans hi
  · rw [Kernel.current, hi, hz'] at hc
    cases hc

section Dead

variable {L : Layout} {S : Symbols} {k k' : Kernel} {op : KernelOp} (h : TableOk k)
  (hown : SessionsOwn k)

include h hown

/-- **The calls a program makes** — in and out of EL0, and back — stay within its slot. -/
theorem program_within (hop : op = .enterEl0 ∨ op = .completeUserTask
      ∨ (∃ code, op = .exitSyscall code) ∨ ∃ spsr, op = .fault spsr)
    (hmakes : MakesCall S k op) (hstep : taskStep L S k op = some k') :
    k.current.state ≠ .zombie ∧ WithinSlot k.currentTask k k' := by
  have hat := hown.atSlot h
  rcases hop with rfl | rfl | ⟨code, rfl⟩ | ⟨spsr, rfl⟩
  · refine ⟨hmakes, ?_⟩
    obtain ⟨-, sw, hcall⟩ := systemStep_spec hstep
    obtain ⟨-, hcall⟩ := Option.ite_none_right_eq_some.mp hcall
    obtain ⟨rfl, rfl⟩ := Prod.mk.inj (Option.some.inj hcall)
    rcases enterEl0_life hat S with heq | ⟨hw, -⟩
    · rw [heq]
      exact hat.stay
    · exact hw
  · refine ⟨hmakes, ?_⟩
    obtain ⟨-, sw, hcall⟩ := systemStep_spec hstep
    obtain ⟨hreturn, hcall⟩ := Option.ite_none_right_eq_some.mp hcall
    obtain ⟨rfl, rfl⟩ := Prod.mk.inj (Option.some.inj hcall)
    exact (completeUserTask_life hat (hat.session_eq ▸ hreturn.2.1)).1
  · refine ⟨hmakes.1, ?_⟩
    obtain ⟨-, sw, hcall⟩ := systemStep_spec hstep
    obtain ⟨rfl, rfl⟩ := Prod.mk.inj (Option.some.inj hcall)
    obtain heq | ⟨k', back, heq, hw, -⟩ := handleExitSyscall_life hat code
    · rw [heq]
      exact hat.stay
    · rw [heq]
      exact hw
  · refine ⟨hmakes.1, ?_⟩
    obtain ⟨-, sw, hcall⟩ := systemStep_spec hstep
    obtain ⟨rfl, rfl⟩ := Prod.mk.inj (Option.some.inj hcall)
    obtain ⟨k', back, heq, hw, -⟩ := handleException_life hat S spsr
    rw [heq]
    exact hw

/-- An exit ends no other task; a zombie may be the one that calls it. -/
theorem exitTask_dead (S : Symbols) : SessionsOwn (schedulerExitTask k.currentTask k).1
    ∧ ∀ i, (k.tasks i).state = .zombie →
      ((schedulerExitTask k.currentTask k).1.tasks i).state = .unused
        ∨ StaysDead (k.tasks i) i k (schedulerExitTask k.currentTask k).1 := by
  obtain ⟨hrec, hsess, hcur, t, ht, heq⟩ := exitTask_life S h
  refine ⟨by rw [SessionsOwn, hsess]; exact hown, fun i hz => .inr ?_⟩
  by_cases hi : i = k.currentTask
  · subst hi
    have hsame : SameRecord S (k.tasks k.currentTask)
        ((schedulerExitTask k.currentTask k).1.tasks k.currentTask) := by
      rw [heq]
      refine SameRecord.trans ?_ ht
      exact ⟨⟨by simp [hz], rfl, rfl⟩, by simp [hz], .inl rfl, .inl rfl, rfl, rfl, rfl, rfl⟩
    exact .of_record hz hsame hcur
  · exact .of_record hz (hrec.tasks i hi) hcur

/-- **One step over the dead**: sessions stay their slots' own, and a zombie stays one or is
cleared. -/
theorem dead_step (hstep : lifeStep L S k op = some k') :
    SessionsOwn k' ∧ ∀ i, (k.tasks i).state = .zombie →
      (k'.tasks i).state = .unused ∨ StaysDead (k.tasks i) i k k' := by
  obtain ⟨hmakes, hstep⟩ := lifeStep_spec hstep
  -- a program's own calls stay in its slot, and it is no zombie
  have hprogram : (op = .enterEl0 ∨ op = .completeUserTask ∨ (∃ code, op = .exitSyscall code)
      ∨ ∃ spsr, op = .fault spsr) → SessionsOwn k' ∧ ∀ i, (k.tasks i).state = .zombie →
        (k'.tasks i).state = .unused ∨ StaysDead (k.tasks i) i k k' := by
    intro hop
    obtain ⟨hlive, hw⟩ := program_within h hown hop hmakes hstep
    refine ⟨hown.within hw, fun i hz => .inr (.of_same hz (hw.tasks i ?_) hw.currentTask)⟩
    rintro rfl
    exact hlive hz
  cases hop : op.ordinary with
  | true =>
    cases ordinary_change h hmakes hop hstep with
    | records hr =>
      exact ⟨by rw [SessionsOwn, hr.sessions]; exact hown,
        fun i hz => .inr (.of_record hz (hr.tasks i) hr.current)⟩
    | filled hf hfresh =>
      refine ⟨by rw [SessionsOwn, hf.rest.userSessions]; exact hown,
        fun i hz => .inr (.of_same hz (hf.rest.tasks i ?_) hf.rest.currentTask)⟩
      rintro rfl
      cases hz.symm.trans hf.unused
    | cleared hc _ =>
      refine ⟨by rw [SessionsOwn, hc.userSessions]; exact hown, fun i hz => ?_⟩
      by_cases hi : Frees k op i
      · exact .inl (hc.cleared i hi)
      · exact .inr (.of_same hz (hc.rest i hi) hc.currentTask)
  | false =>
    cases op with
    | terminateChild pid code =>
      obtain ⟨-, sw, hcall⟩ := systemStep_spec hstep
      obtain ⟨rfl, rfl⟩ := Prod.mk.inj (Option.some.inj hcall)
      obtain ⟨-, heq⟩ | ⟨-, -, hlive, -, -, hcur, hrec, hsess, -⟩ := terminateChild_life S pid code
        k
      · rw [heq]
        exact ⟨hown, fun i hz => .inr (.of_same hz rfl rfl)⟩
      · refine ⟨by rw [SessionsOwn, hsess]; exact hown,
          fun i hz => .inr (.of_record hz (hrec.tasks i ?_) (.inl hcur))⟩
        rintro rfl
        exact hlive hz
    | exit =>
      obtain ⟨-, -, rfl⟩ | ⟨hne, -⟩ := taskStep_spec hstep
      · exact exitTask_dead h hown S
      · exact absurd rfl hne
    | enterEl0 => exact hprogram (.inl rfl)
    | completeUserTask => exact hprogram (.inr (.inl rfl))
    | exitSyscall code => exact hprogram (.inr (.inr (.inl ⟨code, rfl⟩)))
    | fault spsr => exact hprogram (.inr (.inr (.inr ⟨spsr, rfl⟩)))
    | _ => cases hop

end Dead

/-- The calls keep the table. -/
theorem tableOk_life {L : Layout} {S : Symbols} {k k' : Kernel} {op : KernelOp} (h : TableOk k)
    (hstep : lifeStep L S k op = some k') : TableOk k' :=
  tableOk_task h (lifeStep_spec hstep).2

theorem sessionsOwn_boot (S : Symbols) (spaces : SpaceStatics) :
    SessionsOwn (bootKernel S spaces) := by
  obtain ⟨-, hrest, -⟩ := bootKernel_spec S spaces
  intro p
  rw [hrest.userSessions]
  exact .inr ⟨rfl, rfl⟩

end SaturnOS
