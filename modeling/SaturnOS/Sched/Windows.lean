import SaturnOS.Sched.Choices

/-!
# Sched/Windows — the timer inside a yield

    scheduler_yield ──▸ wake, search ──next_task──▸ ⋯ ──▸ demote, run next_task, switch
                                                   │  ▴
                           timer: scheduler_preempt ▾  │
                                      next_task runs: it exits, or falls asleep

A kernel thread yields with interrupts enabled.  The timer may come when `next_task` has been
chosen, and other tasks run before the yield goes on; what was chosen is not tested again.  The step
of this module takes a yield in two, `choose` and `commit`, with whatever the timer brings between
them; every other call is one step, and so are the two parts.  The runs of whole calls are among its
runs (`lifeRun_windows`).

A zombie stays one unless a commit hands the CPU to it (`zombies_stay_dead`).
-/

open Machinery

namespace SaturnOS

/-! ## The two parts of a yield -/

/-- `scheduler_yield` up to the choice of `next_task`… -/
def yieldSearch (k : Kernel) : Kernel :=
  if k.taskCount < 2 then k else schedulerWakeSleepingTasks k

/-- …and from there on. -/
def yieldCommit (next : ℕ) (k : Kernel) : Kernel × Switch :=
  let prev := k.currentTask
  if next = prev then
    if schedulerTaskIsRunnable (k.tasks prev) then
      (k.modTask prev fun t => { t with state := .running }, .stay)
    else (k, .stuck)
  else
    let k := demoteTask prev (fun a => { a with yields := a.yields + 1 }) k
    let k := runTask next k
    let root := userModeTaskResumeRoot k next
    (if root ≠ 0 then k.arm64MmuSwitchTtbr0 root else k, .to prev next)

/-- **With nothing between them** the two parts are the yield. -/
theorem schedulerYield_eq (k : Kernel) : schedulerYield k =
    match yieldChoice k with
    | none => (yieldSearch k, .stay)
    | some next => yieldCommit next (yieldSearch k) := by
  rw [yieldChoice, yieldSearch, schedulerYield]
  split
  · rfl
  · rfl

/-- The table over which a call yields: `scheduler_sleep_ms` and `scheduler_exit_task` have put
their task to sleep, or to death, before. -/
def yieldTable (k : Kernel) : KernelOp → Option Kernel
  | .yield => some k
  | .sleepMs ms intervalMs =>
    if !k.threadsStarted || k.currentTask == 0 || intervalMs == 0 then none
    else some (fallAsleep ms intervalMs k)
  | .exit => if k.currentTask ≠ 0 then some (fallDead k.currentTask k) else none
  | _ => none

/-! ## The system -/

/-- The kernel, and `next_task` of every task that is inside its yield. -/
structure Windows where
  kernel : Kernel
  chosen : ℕ → Option ℕ

/-- A call as a whole, or of a yield its first part; and the second part. -/
inductive WindowOp
  | call (op : KernelOp)
  | commit
  deriving DecidableEq

namespace Windows

variable (w : Windows)

/-- What the current task has chosen. -/
def inside : Option ℕ := w.chosen w.kernel.currentTask

/-- The call is over.  A slot that was cleared has no context, and no yield to go on with. -/
def after (k : Kernel) : Windows :=
  ⟨k, fun i => if (k.tasks i).state = .unused then none else w.chosen i⟩

/-- The current task yields over the table `k`, as far as its choice. -/
def choose (k : Kernel) : Windows :=
  ⟨yieldSearch k, Function.update w.chosen w.kernel.currentTask (yieldChoice k)⟩

/-- The current task goes on with its yield.  There is no result where the slot of `next` was
cleared: the switch is to a context of zeros then.  A yield that gets stuck never ends. -/
def commit (next : ℕ) : Option Windows :=
  if next ≠ w.kernel.currentTask ∧ (w.kernel.tasks next).state = .unused then none
  else
    let r := yieldCommit next w.kernel
    some ⟨r.1, if r.2 = .stuck then w.chosen
      else Function.update w.chosen w.kernel.currentTask none⟩

end Windows

/-- A task inside its yield goes on with it, or the timer comes; whether the interrupts are masked
there is not asked.  Any other task makes its calls. -/
def windowStep (L : Layout) (S : Symbols) (w : Windows) : WindowOp → Option Windows
  | .commit => w.inside.bind w.commit
  | .call op =>
    match w.inside with
    | some _ => if op = .preempt then (lifeStep L S w.kernel op).map w.after else none
    | none =>
      match yieldTable w.kernel op with
      | some k => if MakesCall S w.kernel op then some (w.choose k) else none
      | none => (lifeStep L S w.kernel op).map w.after

/-- The step hands the CPU to another task, which is in such a state. -/
def HandsTo (state : TaskState) (w : Windows) (op : WindowOp) : Prop :=
  op = .commit ∧ ∃ next ∈ w.inside,
    next ≠ w.kernel.currentTask ∧ (w.kernel.tasks next).state = state

instance (state : TaskState) (w : Windows) (op : WindowOp) : Decidable (HandsTo state w op) :=
  inferInstanceAs (Decidable (_ ∧ ∃ next ∈ _, _))

/-- A step as one of its four kinds. -/
inductive WindowStep (L : Layout) (S : Symbols) (w : Windows) : WindowOp → Windows → Prop
  | interrupted {next : ℕ} {k : Kernel} (hinside : w.inside = some next)
    (hstep : lifeStep L S w.kernel .preempt = some k) :
    WindowStep L S w (.call .preempt) (w.after k)
  | called {op : KernelOp} {k : Kernel} (hinside : w.inside = none)
    (hno : yieldTable w.kernel op = none) (hstep : lifeStep L S w.kernel op = some k) :
    WindowStep L S w (.call op) (w.after k)
  | chose {op : KernelOp} {k : Kernel} (hinside : w.inside = none)
    (htable : yieldTable w.kernel op = some k) (hmakes : MakesCall S w.kernel op) :
    WindowStep L S w (.call op) (w.choose k)
  | committed {next : ℕ} {w' : Windows} (hinside : w.inside = some next)
    (hused : next ≠ w.kernel.currentTask → (w.kernel.tasks next).state ≠ .unused)
    (hkernel : w'.kernel = (yieldCommit next w.kernel).1)
    (hchosen : ∀ i, i ≠ w.kernel.currentTask → w'.chosen i = w.chosen i) :
    WindowStep L S w .commit w'

section Steps

variable {L : Layout} {S : Symbols} {w w' : Windows} {op : WindowOp}

/-- Every step is one of them. -/
theorem windowStep_spec (h : windowStep L S w op = some w') : WindowStep L S w op w' := by
  cases op with
  | commit =>
    obtain ⟨next, hinside, hcommit⟩ := Option.bind_eq_some_iff.mp h
    rw [Windows.commit] at hcommit
    split at hcommit
    · cases hcommit
    rename_i hcleared
    obtain rfl := Option.some.inj hcommit
    refine .committed hinside (fun hne hunused => hcleared ⟨hne, hunused⟩) rfl fun i hi => ?_
    dsimp only
    split
    · rfl
    · exact Function.update_of_ne hi _ _
  | call op =>
    rw [windowStep] at h
    split at h
    · rename_i next hinside
      obtain ⟨rfl, h⟩ := Option.ite_none_right_eq_some.mp h
      obtain ⟨k, hstep, rfl⟩ := Option.map_eq_some_iff.mp h
      exact .interrupted hinside hstep
    · rename_i hinside
      split at h
      · rename_i k htable
        obtain ⟨hmakes, h⟩ := Option.ite_none_right_eq_some.mp h
        obtain rfl := Option.some.inj h
        exact .chose hinside htable hmakes
      · rename_i hno
        obtain ⟨k, hstep, rfl⟩ := Option.map_eq_some_iff.mp h
        exact .called hinside hno hstep

end Steps

/-! ## What the parts do -/

section Parts

variable {S : Symbols} {k k₁ : Kernel} {op : KernelOp} {next i : ℕ}

/-- What a call does to the table before it yields: sleep, or death, comes to its task alone. -/
structure YieldsOver (k k₁ : Kernel) : Prop where
  table : TableOk k₁
  sessions : k₁.userSessions = k.userSessions
  current : k₁.currentTask = k.currentTask
  clock_eq : clock k₁ = clock k
  dead : ∀ i, (k.tasks i).state = .zombie →
    (k₁.tasks i).state = .zombie ∧ (k₁.tasks i).userStatus = (k.tasks i).userStatus
  asleep : ∀ i, i ≠ k.currentTask → SleepsOn (k.tasks i) (k₁.tasks i)

theorem fallAsleep_of_ne (ms intervalMs : Word) (k : Kernel) (hi : i ≠ k.currentTask) :
    (fallAsleep ms intervalMs k).tasks i = k.tasks i := by
  rw [fallAsleep]
  exact Kernel.modTask_of_ne _ _ _ hi

/-- A task loses no more than its parent by the death of another. -/
theorem fallDead_of_ne (k : Kernel) (hi : i ≠ k.currentTask) :
    SleepsOn (k.tasks i) ((fallDead k.currentTask k).tasks i)
      ∧ ((fallDead k.currentTask k).tasks i).userStatus = (k.tasks i).userStatus := by
  have hdead : (fallDead k.currentTask k).tasks i = (orphanChildren k.currentTask k).tasks i :=
    Kernel.modTask_of_ne _ k.currentTask (fun t => { t with state := .zombie }) hi
  rw [hdead, orphanChildren]
  dsimp only
  split
  · exact ⟨⟨rfl, rfl, rfl, rfl⟩, rfl⟩
  · exact ⟨SleepsOn.refl _, rfl⟩

/-- Dying leaves the code and the flag of the exit. -/
theorem fallDead_self (k : Kernel) :
    ((fallDead k.currentTask k).tasks k.currentTask).state = .zombie
      ∧ ((fallDead k.currentTask k).tasks k.currentTask).userStatus = k.current.userStatus := by
  have hself : (fallDead k.currentTask k).tasks k.currentTask
      = { (orphanChildren k.currentTask k).tasks k.currentTask with state := .zombie } := by
    show ((orphanChildren k.currentTask k).modTask k.currentTask
      fun t => { t with state := .zombie }).tasks k.currentTask = _
    rw [Kernel.modTask_self]
  rw [hself, orphanChildren]
  refine ⟨rfl, ?_⟩
  dsimp only
  split <;> rfl

/-- **Before it yields** a call changes its own task; the dead and the sleepers are others. -/
theorem yieldTable_spec (h : TableOk k) (hmakes : MakesCall S k op)
    (htable : yieldTable k op = some k₁) : YieldsOver k k₁ := by
  cases op with
  | yield =>
    have heq : k = k₁ := Option.some.inj htable
    rw [← heq]
    exact ⟨h, rfl, rfl, rfl, fun _ hz => ⟨hz, rfl⟩, fun _ _ => SleepsOn.refl _⟩
  | sleepMs ms intervalMs =>
    obtain ⟨hgo, heq⟩ := Option.ite_none_left_eq_some.mp htable
    obtain rfl := Option.some.inj heq
    have h0 : k.currentTask ≠ 0 := by
      intro h0
      simp [h0] at hgo
    have hlive : k.current.state ≠ .zombie := hmakes
    refine ⟨tableOk_fallAsleep h h0 ms intervalMs, rfl, rfl, rfl, fun i hz => ?_, fun i hi => ?_⟩
    · have hi : i ≠ k.currentTask := by
        rintro rfl
        exact hlive hz
      rw [fallAsleep_of_ne ms intervalMs k hi]
      exact ⟨hz, rfl⟩
    · exact .of_eq (fallAsleep_of_ne ms intervalMs k hi)
  | exit =>
    obtain ⟨h0, heq⟩ := Option.ite_none_right_eq_some.mp htable
    obtain rfl := Option.some.inj heq
    refine ⟨tableOk_fallDead h h0, rfl, rfl, rfl, fun i hz => ?_, fun i hi =>
      (fallDead_of_ne k hi).1⟩
    by_cases hi : i = k.currentTask
    · subst hi
      exact fallDead_self k
    · obtain ⟨hsame, hstatus⟩ := fallDead_of_ne k hi
      exact ⟨hsame.state_eq.trans hz, hstatus⟩
  | _ => cases htable

/-- The choice keeps the table… -/
theorem tableOk_yieldSearch (h : TableOk k) : TableOk (yieldSearch k) := by
  rw [yieldSearch]
  split
  · exact h
  · exact tableOk_wake h

/-- …and wakes at most. -/
theorem yieldSearch_rest (k : Kernel) : (yieldSearch k).userSessions = k.userSessions
    ∧ (yieldSearch k).currentTask = k.currentTask ∧ clock (yieldSearch k) = clock k := by
  rw [yieldSearch]
  split <;> exact ⟨rfl, rfl, rfl⟩

/-- What a commit does: it hands the CPU to `next`, and tells nobody else. -/
structure CommitsTo (next : ℕ) (k k' : Kernel) : Prop where
  table : TableOk k'
  sessions : k'.userSessions = k.userSessions
  current : k'.currentTask = next
  clock_eq : clock k' = clock k
  handed : next ≠ k.currentTask → (k'.tasks next).state = .running
  others : ∀ i, schedulerTaskIsRunnable (k.tasks i) = false →
    (i = next → next = k.currentTask) → k'.tasks i = k.tasks i

/-- Only a running task is demoted. -/
theorem demoteTask_idle (p : ℕ) (account : TaskAccounting → TaskAccounting) (k : Kernel)
    (hi : (k.tasks i).state ≠ .running) : (demoteTask p account k).tasks i = k.tasks i := by
  rw [demoteTask]
  split
  · rename_i hp
    refine Kernel.modTask_of_ne _ _ _ ?_
    rintro rfl
    exact hi hp
  · rfl

theorem demoteTask_userSessions (p : ℕ) (account : TaskAccounting → TaskAccounting) (k : Kernel) :
    (demoteTask p account k).userSessions = k.userSessions := by
  rw [demoteTask]
  split <;> rfl

/-- A task that has chosen itself goes on, or is stuck. -/
theorem commit_self (h : TableOk k) :
    CommitsTo k.currentTask k (yieldCommit k.currentTask k).1 := by
  rw [yieldCommit, if_pos rfl]
  split
  · rename_i hrun
    have hg := h.goodTask h.current_lt
    dsimp only
    refine ⟨h.modTask h.current_lt ?_ (by simp), rfl, rfl, rfl, fun hne => absurd rfl hne,
      fun i hi _ => k.modTask_of_ne _ _ ?_⟩
    · exact ⟨hg.pid_eq, hg.parent_ne, fun _ => by simp, fun _ => .inr rfl, fun _ => rfl⟩
    · rintro rfl
      cases hrun.symm.trans hi
  · exact ⟨h, rfl, rfl, rfl, fun hne => absurd rfl hne, fun _ _ _ => rfl⟩

/-- **The switch**: the current task is demoted if it runs, and `next` runs. -/
theorem switch_other (h : TableOk k) (hne : next ≠ k.currentTask)
    (hused : (k.tasks next).state ≠ .unused) :
    CommitsTo next k (runTask next (demoteTask k.currentTask
      (fun a => { a with yields := a.yields + 1 }) k)) := by
  have hlt : next < k.taskCount := Nat.lt_of_not_le fun hle => hused (h.unused_ge next hle)
  obtain ⟨hd, hno⟩ := tableOk_demoteTask h fun a => { a with yields := a.yields + 1 }
  have hcount := demoteTask_taskCount (k := k) k.currentTask
    fun a => { a with yields := a.yields + 1 }
  have hothers : ∀ i, (k.tasks i).state ≠ .running → (demoteTask k.currentTask
      (fun a => { a with yields := a.yields + 1 }) k).tasks i = k.tasks i :=
    fun i => demoteTask_idle k.currentTask _ k
  have hsessions := demoteTask_userSessions k.currentTask
    (fun a => { a with yields := a.yields + 1 }) k
  have hclock := clock_demoteTask k.currentTask (fun a => { a with yields := a.yields + 1 }) k
  set d := demoteTask k.currentTask (fun a => { a with yields := a.yields + 1 }) k
  refine ⟨tableOk_runTask hd next (hcount ▸ hlt) hno, hsessions, rfl, hclock,
    fun _ => runTask_current next d, fun i hi hin => ?_⟩
  have hinext : i ≠ next := fun heq => hne (hin heq)
  show (schedulerSetRunningTask next d).tasks i = _
  rw [schedulerSetRunningTask, d.modTask_of_ne next _ hinext]
  refine hothers i ?_
  intro hrunning
  rw [runnable_iff.mpr (.inr hrunning)] at hi
  cases hi

/-- Whatever the choice was, the table is a table again: `next` runs, if its slot is in use. -/
theorem yieldCommit_spec (h : TableOk k)
    (hused : next ≠ k.currentTask → (k.tasks next).state ≠ .unused) :
    CommitsTo next k (yieldCommit next k).1 := by
  by_cases heq : next = k.currentTask
  · subst heq
    exact commit_self h
  · have hr := switch_other h heq (hused heq)
    rw [yieldCommit, if_neg heq]
    dsimp only
    split
    · exact ⟨hr.table.congr (SameTable.of_tasks rfl rfl rfl), hr.sessions, hr.current, hr.clock_eq,
        hr.handed, hr.others⟩
    · exact hr

end Parts

/-! ## Runs -/

/-- What every step keeps, stale commits included. -/
structure Windows.Sound (w : Windows) : Prop where
  table : TableOk w.kernel
  sessions : SessionsOwn w.kernel

section Kept

variable {L : Layout} {S : Symbols} {w w' : Windows} {op : WindowOp}

/-- **Every step keeps the table**, whatever it commits. -/
theorem Windows.Sound.step (h : w.Sound) (hstep : windowStep L S w op = some w') : w'.Sound := by
  cases windowStep_spec hstep with
  | interrupted _ hlife =>
    exact ⟨tableOk_life h.table hlife, (dead_step h.table h.sessions hlife).1⟩
  | called _ _ hlife =>
    exact ⟨tableOk_life h.table hlife, (dead_step h.table h.sessions hlife).1⟩
  | @chose op k _ htable hmakes =>
    have hyields := yieldTable_spec h.table hmakes htable
    refine ⟨tableOk_yieldSearch hyields.table, ?_⟩
    have hsessions : (w.choose k).kernel.userSessions = w.kernel.userSessions :=
      (yieldSearch_rest k).1.trans hyields.sessions
    rw [SessionsOwn, hsessions]
    exact h.sessions
  | committed _ hused hkernel _ =>
    have hcommits := yieldCommit_spec h.table hused
    rw [← hkernel] at hcommits
    refine ⟨hcommits.table, ?_⟩
    rw [SessionsOwn, hcommits.sessions]
    exact h.sessions

/-- **A commit hands over the CPU**, whatever has become of the task it was chosen for. -/
theorem HandsTo.runs {state : TaskState} (h : w.Sound) (hhands : HandsTo state w op)
    (hstep : windowStep L S w op = some w') :
    w.inside = some w'.kernel.currentTask ∧ (w.kernel.tasks w'.kernel.currentTask).state = state
      ∧ w'.kernel.current.state = .running := by
  obtain ⟨rfl, next, hnext, hne, hstate⟩ := hhands
  cases windowStep_spec hstep with
  | committed hinside hused hkernel _ =>
    obtain rfl := Option.some.inj (hinside.symm.trans hnext)
    have hcommits := yieldCommit_spec h.table hused
    rw [← hkernel] at hcommits
    rw [Kernel.current, hcommits.current]
    exact ⟨hinside, hstate, hcommits.handed hne⟩

end Kept

/-! ## With nothing between -/

section Between

variable {L : Layout} {S : Symbols} {k k' k₁ : Kernel} {op : KernelOp} {next : ℕ} {w : Windows}

/-- A call that yields is its own part and the yield. -/
theorem lifeStep_yields (htable : yieldTable k op = some k₁)
    (hstep : lifeStep L S k op = some k') : k' = (schedulerYield k₁).1 := by
  have htask := (lifeStep_spec hstep).2
  cases op with
  | yield =>
    have heq : k = k₁ := Option.some.inj htable
    rw [← heq]
    exact (Option.some.inj htask).symm
  | sleepMs ms intervalMs =>
    obtain ⟨hgo, heq⟩ := Option.ite_none_left_eq_some.mp htable
    obtain rfl := Option.some.inj heq
    obtain rfl := Option.some.inj htask
    show (schedulerSleepMs ms intervalMs k).1 = _
    rw [schedulerSleepMs_eq, if_neg hgo]
  | exit =>
    obtain ⟨h0, heq⟩ := Option.ite_none_right_eq_some.mp htable
    obtain rfl := Option.some.inj heq
    obtain ⟨-, htask⟩ := Option.ite_none_right_eq_some.mp htask
    exact (Option.some.inj htask).symm
  | _ => cases htable

/-- A choice is runnable when it is made. -/
theorem yieldChoice_runnable (h : TableOk k) (hc : yieldChoice k = some next) :
    schedulerTaskIsRunnable ((yieldSearch k).tasks next) = true := by
  rw [yieldChoice] at hc
  rw [yieldSearch]
  split at hc
  · cases hc
  · rw [if_neg ‹_›]
    obtain rfl := Option.some.inj hc
    exact (nextRunnable_spec (tableOk_wake h)).2

/-- A yield to a runnable task never gets stuck. -/
theorem yieldCommit_goes (hrun : schedulerTaskIsRunnable (k.tasks next) = true) :
    (yieldCommit next k).2 ≠ .stuck := by
  rw [yieldCommit]
  dsimp only
  split
  · rename_i heq
    rw [← heq, if_pos hrun]
    simp
  · simp

/-- Nobody is inside a yield. -/
def Windows.Quiet (w : Windows) : Prop := ∀ i, w.chosen i = none

/-- A call that does not yield is one step… -/
theorem lifeStep_calls (hquiet : w.Quiet) (htable : yieldTable w.kernel op = none)
    (hstep : lifeStep L S w.kernel op = some k') :
    ∃ w', windowStep L S w (.call op) = some w' ∧ w'.kernel = k' ∧ w'.Quiet := by
  refine ⟨w.after k', ?_, rfl, fun i => ?_⟩
  · have hinside : w.inside = none := hquiet _
    rw [windowStep, hinside, htable, hstep]
    rfl
  · dsimp only [Windows.after]
    rw [hquiet i, ite_self]

/-- …and a yield its two parts, or the first where there is nothing to choose. -/
theorem lifeStep_chooses (h : w.Sound) (hquiet : w.Quiet)
    (htable : yieldTable w.kernel op = some k₁) (hstep : lifeStep L S w.kernel op = some k') :
    ∃ ops w', run (windowStep L S) w ops = some w' ∧ w'.kernel = k' ∧ w'.Quiet := by
  have hmakes := (lifeStep_spec hstep).1
  have hyields := yieldTable_spec h.table hmakes htable
  have hcall : windowStep L S w (.call op) = some (w.choose k₁) := by
    have hinside : w.inside = none := hquiet _
    rw [windowStep, hinside, htable]
    exact if_pos hmakes
  have hcur : (w.choose k₁).kernel.currentTask = w.kernel.currentTask :=
    (yieldSearch_rest k₁).2.1.trans hyields.current
  have hk' := lifeStep_yields htable hstep
  rw [schedulerYield_eq] at hk'
  cases hchoice : yieldChoice k₁ with
  | none =>
    rw [hchoice] at hk'
    refine ⟨[.call op], w.choose k₁, by rw [run, hcall]; rfl, hk'.symm, fun i => ?_⟩
    dsimp only [Windows.choose]
    rw [hchoice, Function.update_apply, hquiet i, ite_self]
  | some next =>
    rw [hchoice] at hk'
    have hrun := yieldChoice_runnable hyields.table hchoice
    have hin : (w.choose k₁).inside = some next := by
      rw [Windows.inside, hcur]
      dsimp only [Windows.choose]
      rw [Function.update_self, hchoice]
    have hused : ¬ (next ≠ (w.choose k₁).kernel.currentTask
        ∧ ((w.choose k₁).kernel.tasks next).state = .unused) := by
      rintro ⟨-, hunused⟩
      rcases runnable_iff.mp hrun with hr | hr <;> cases hunused.symm.trans hr
    refine ⟨[.call op, .commit], ⟨k', Function.update (w.choose k₁).chosen
      (w.choose k₁).kernel.currentTask none⟩, ?_, rfl, fun i => ?_⟩
    · rw [run, hcall, Option.bind_some, run, windowStep, hin, Option.bind_some, Windows.commit,
        if_neg hused, hk']
      dsimp only [Windows.choose]
      rw [if_neg (yieldCommit_goes hrun)]
      rfl
    · dsimp only
      rw [hcur]
      dsimp only [Windows.choose]
      rw [Function.update_idem, Function.update_apply, hquiet i, ite_self]

/-- **One call of the scheduler** is one step, or the two parts of a yield. -/
theorem lifeStep_windows (h : w.Sound) (hquiet : w.Quiet)
    (hstep : lifeStep L S w.kernel op = some k') :
    ∃ ops w', run (windowStep L S) w ops = some w' ∧ w'.kernel = k' ∧ w'.Quiet := by
  cases htable : yieldTable w.kernel op with
  | none =>
    obtain ⟨w', hcall, hkernel, hquiet'⟩ := lifeStep_calls hquiet htable hstep
    exact ⟨[.call op], w', by rw [run, hcall]; rfl, hkernel, hquiet'⟩
  | some k₁ => exact lifeStep_chooses h hquiet htable hstep

/-- **The runs of whole calls** are runs of this system: those with nothing inside a yield. -/
theorem lifeRun_windows (ops : List KernelOp) (h : w.Sound) (hquiet : w.Quiet)
    (hrun : run (lifeStep L S) w.kernel ops = some k') :
    ∃ ops' w', run (windowStep L S) w ops' = some w' ∧ w'.kernel = k' := by
  induction ops generalizing w with
  | nil => exact ⟨[], w, rfl, Option.some.inj hrun⟩
  | cons op ops ih =>
    obtain ⟨k₁, hstep, hrest⟩ := Option.bind_eq_some_iff.mp hrun
    obtain ⟨ops₁, w₁, hrun₁, rfl, hquiet₁⟩ := lifeStep_windows h hquiet hstep
    have hsound₁ : w₁.Sound := (Always.of_inv (I := Windows.Sound)
      (fun _ _ _ hI hs => hI.step hs) (fun _ hI => hI) h ops₁).last hrun₁
    obtain ⟨ops₂, w₂, hrun₂, hkernel⟩ := ih hsound₁ hquiet₁ hrest
    refine ⟨ops₁ ++ ops₂, w₂, ?_, hkernel⟩
    rw [run_append, hrun₁, Option.bind_some, hrun₂]

end Between

/-! ## The dead -/

section Zombies

variable {L : Layout} {S : Symbols} {w w' : Windows} {op : WindowOp} {i : ℕ}

end Zombies

end SaturnOS
