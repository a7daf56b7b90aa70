import SaturnOS.User.Sites

/-!
# User/Entry — what a task enters EL0 with

    scheduler_init_task_el0 ──▸ task->el0 ──user_mode_run_task──▸ ELR, SP_EL0, SPSR

`task->el0` is written when a task is created, checked by `user_mode_prepare` and read later in
`user_mode_run_task`.  Nothing in between writes it: a call that stays (`onlyTable_keepsEl0`), a
call of the scheduler and the end of a session all leave it alone.
-/

open Machinery

namespace SaturnOS

/-- A task that stays keeps its entry into EL0. -/
def KeepsEl0 (k k' : Kernel) : Prop :=
  ∀ p, Used k p → Used k' p → (k'.tasks p).el0 = (k.tasks p).el0

section KeepsEl0

variable {L : Layout} {S : Symbols} {k k' : Kernel}

/-- A task is rewritten, with its entry as it was… -/
theorem modTask_el0 (k : Kernel) (p : ℕ) {f : Task → Task} (hf : ∀ t, (f t).el0 = t.el0) (i : ℕ) :
    ((k.modTask p f).tasks i).el0 = (k.tasks i).el0 :=
  k.modTask_ind p f (P := fun i t => t.el0 = (k.tasks i).el0) (hf _) (fun _ _ => rfl) i

/-- …be it the one a session is of. -/
theorem modSessionTask_el0 (k : Kernel) {f : Task → Task} (hf : ∀ t, (f t).el0 = t.el0) (i : ℕ) :
    ((k.modSessionTask f).tasks i).el0 = (k.tasks i).el0 := by
  rw [Kernel.modSessionTask]
  split
  · rfl
  · exact modTask_el0 k _ hf i

/-- The slot that is filled was unused, and all others stay… -/
theorem KeepsEl0.of_fills {p : ℕ} (h : Fills p k k') : KeepsEl0 k k' := by
  intro i hi _
  have hip : i ≠ p := by
    rintro rfl
    exact hi h.unused
  rw [h.rest.tasks i hip]

/-- …and one that is cleared does not stay. -/
theorem KeepsEl0.of_clears {F : ℕ → Prop} (h : Clears F k k') : KeepsEl0 k k' := by
  intro i _ hi
  rw [h.rest i fun hF => hi (h.cleared i hF)]

/-- Admission is of the state of a task: the entry it checks was made with the task. -/
theorem unblockUserTask_el0 (S : Symbols) (pid : ℤ) (k : Kernel) (i : ℕ) :
    ((schedulerUnblockUserTask S pid k).1.tasks i).el0 = (k.tasks i).el0 := by
  simp only [schedulerUnblockUserTask]
  split
  · rfl
  · split
    · rfl
    · split
      · rfl
      · split
        · rfl
        · dsimp only
          refine modTask_el0 k _ (fun _ => ?_) i
          rfl

/-- Blocking is too… -/
theorem blockTask_el0 (pid : ℤ) (k : Kernel) (i : ℕ) :
    ((schedulerBlockTask pid k).1.tasks i).el0 = (k.tasks i).el0 := by
  simp only [schedulerBlockTask]
  split
  · rfl
  · split
    · rfl
    · split
      · rfl
      · dsimp only
        refine modTask_el0 k _ (fun _ => ?_) i
        rfl

/-- …and unblocking… -/
theorem unblockTask_el0 (pid : ℤ) (k : Kernel) (i : ℕ) :
    ((schedulerUnblockTask pid k).1.tasks i).el0 = (k.tasks i).el0 := by
  simp only [schedulerUnblockTask]
  split
  · rfl
  · split
    · rfl
    · split
      · rfl
      · dsimp only
        refine modTask_el0 k _ (fun _ => ?_) i
        rfl

/-- …and the end that a parent makes. -/
theorem terminateChild_el0 (pid : ℤ) (code : Word) (k : Kernel) (i : ℕ) :
    ((schedulerTerminateChild pid code k).1.tasks i).el0 = (k.tasks i).el0 := by
  rw [schedulerTerminateChild]
  split
  · rfl
  · dsimp only
    refine modTask_el0 k _ (fun _ => ?_) i
    rfl

/-- **A call that stays.** -/
theorem onlyTable_keepsEl0 {op : KernelOp} (h : TableOk k) (hop : op.onlyTable = true)
    (hstep : systemStep L S k op = some k') : KeepsEl0 k k' := by
  obtain ⟨-, sw, hcall⟩ := systemStep_spec hstep
  cases op with
  | createKernelThread name entry =>
    obtain ⟨rfl, rfl⟩ := Prod.mk.inj (Option.some.inj hcall)
    obtain ⟨p, hp⟩ := fills_createKernelThread S h name entry
    exact KeepsEl0.of_fills hp
  | createUserTask name file argument =>
    obtain ⟨rfl, rfl⟩ := Prod.mk.inj (Option.some.inj hcall)
    obtain ⟨p, hp⟩ := fills_outcome h (createUserTask_outcome L S name file argument h.count_le)
    exact KeepsEl0.of_fills hp
  | spawn file argument =>
    obtain ⟨rfl, rfl⟩ := Prod.mk.inj (Option.some.inj hcall)
    obtain ⟨p, hp⟩ := fills_spawnChild L S h file argument
    exact KeepsEl0.of_fills hp
  | unblockUserTask pid =>
    obtain ⟨rfl, rfl⟩ := Prod.mk.inj (Option.some.inj hcall)
    exact fun i _ _ => unblockUserTask_el0 S pid k i
  | blockTask pid =>
    obtain ⟨rfl, rfl⟩ := Prod.mk.inj (Option.some.inj hcall)
    exact fun i _ _ => blockTask_el0 pid k i
  | unblockTask pid =>
    obtain ⟨rfl, rfl⟩ := Prod.mk.inj (Option.some.inj hcall)
    exact fun i _ _ => unblockTask_el0 pid k i
  | reapZombieTask pid =>
    obtain ⟨rfl, rfl⟩ := Prod.mk.inj (Option.some.inj hcall)
    exact KeepsEl0.of_clears (clears_reapZombieTask pid k)
  | reapZombies =>
    obtain ⟨rfl, rfl⟩ := Prod.mk.inj (Option.some.inj hcall)
    exact KeepsEl0.of_clears (clears_reapZombies k)
  | waitTaskStatus pid hasStatus =>
    obtain ⟨rfl, rfl⟩ := Prod.mk.inj (Option.some.inj hcall)
    exact KeepsEl0.of_clears (clears_waitTaskStatus h pid hasStatus)
  | terminateChild pid code =>
    obtain ⟨rfl, rfl⟩ := Prod.mk.inj (Option.some.inj hcall)
    exact fun i _ _ => terminateChild_el0 pid code k i
  | startThreads =>
    obtain ⟨rfl, rfl⟩ := Prod.mk.inj (Option.some.inj hcall)
    intro i _ _
    rw [schedulerStartThreads, schedulerSetRunningTask]
    refine modTask_el0 _ _ (fun _ => ?_) i
    rfl
  | setTaskParent pid parentPid => cases hop
  | yield => cases hop
  | sleepMs ms intervalMs => cases hop
  | preempt => cases hop
  | enterEl0 => cases hop
  | exitSyscall code => cases hop
  | fault spsr => cases hop
  | completeUserTask => cases hop
  | exit => cases hop

/-- **A call of the scheduler.** -/
theorem sleepMs_el0 (ms intervalMs : Word) (k : Kernel) (i : ℕ) :
    ((schedulerSleepMs ms intervalMs k).1.tasks i).el0 = (k.tasks i).el0 := by
  simp only [schedulerSleepMs]
  split
  · rfl
  · refine ((yield_resched _).tasks i).el0_eq.trans ?_
    refine modTask_el0 k _ (fun _ => ?_) i
    rfl

/-- An exit orphans, leaves a zombie and yields. -/
theorem exitTask_el0 (p : ℕ) (k : Kernel) (i : ℕ) :
    ((schedulerExitTask p k).1.tasks i).el0 = (k.tasks i).el0 := by
  have horphan : ((orphanChildren p k).tasks i).el0 = (k.tasks i).el0 := by
    dsimp only [orphanChildren]
    split <;> rfl
  simp only [schedulerExitTask]
  refine ((yield_resched _).tasks i).el0_eq.trans ?_
  dsimp only
  refine Eq.trans (modTask_el0 _ _ (fun _ => ?_) i) horphan
  rfl

/-- **The end of a session**: the handler changes no entry, and names the state to return in. -/
theorem handleExitSyscall_mask (code : Word) (k : Kernel) :
    (∀ i, ((userModeHandleExitSyscall code k).1.tasks i).el0 = (k.tasks i).el0)
      ∧ ∀ wr, (userModeHandleExitSyscall code k).2 = some wr → wr.2 = arm64SpsrEl1h := by
  rw [userModeHandleExitSyscall]
  split
  · refine ⟨fun _ => rfl, fun wr h => ?_⟩
    cases h
  · refine ⟨fun i => ?_, fun wr h => ?_⟩
    · refine Eq.trans (modSessionTask_el0 _ (fun _ => ?_) i) ?_
      · rfl
      · split <;> rfl
    · obtain rfl := Option.some.inj h
      rfl

/-- …after a fault as after an exit. -/
theorem handleException_mask (spsr : Word) (k : Kernel) :
    (∀ i, ((userModeHandleException spsr k).1.tasks i).el0 = (k.tasks i).el0)
      ∧ ∀ wr, (userModeHandleException spsr k).2 = some wr → wr.2 = arm64SpsrEl1h := by
  have hreject : ∀ reason i, ((userSessionReject reason k).tasks i).el0 = (k.tasks i).el0 := by
    intro reason i
    refine Eq.trans (modSessionTask_el0 _ (fun _ => ?_) i) ?_
    · rfl
    · split <;> rfl
  have hnone : ∀ wr : Word × Word, none = some wr → wr.2 = arm64SpsrEl1h := by
    intro wr h
    cases h
  rw [userModeHandleException]
  split
  · exact ⟨fun _ => rfl, hnone⟩
  · split
    · exact ⟨hreject _, hnone⟩
    · split
      · exact ⟨hreject _, hnone⟩
      · split
        · exact ⟨hreject _, hnone⟩
        · refine ⟨fun i => ?_, fun wr h => ?_⟩
          · refine modSessionTask_el0 _ (fun _ => ?_) i
            rfl
          · obtain rfl := Option.some.inj h
            rfl

end KeepsEl0

end SaturnOS
