import SaturnOS.Sched.Choices

/-!
# Sched/Sleep — until the deadline

    scheduler_sleep_ms at tick t ──▸ sleeping ⋯ sleeping ──first choice at or after d──▸ ready
                                        │                   d = t + max 1 ⌈ms / T⌉
                                        └──terminated by the parent──▸ zombie

Only a call that selects a task looks at the sleepers, and it looks at all of them.  Every other
call leaves them as they are, so by whole calls a task sleeps until the first choice at or after its
deadline, or until its parent terminates it (`sleeper_step`).
-/

open Machinery

namespace SaturnOS

/-! ## Switches -/

/-- The sleep of a record but for its state. -/
structure SameSleep (t t' : Task) : Prop where
  until_eq : t'.sleepUntilTick = t.sleepUntilTick
  requested_eq : t'.sleepRequestedMs = t.sleepRequestedMs
  wakeups_eq : t'.accounting.sleepWakeups = t.accounting.sleepWakeups

theorem SameSleep.refl (t : Task) : SameSleep t t := ⟨rfl, rfl, rfl⟩

theorem SameSleep.trans {t t' t'' : Task} (h : SameSleep t t') (h' : SameSleep t' t'') :
    SameSleep t t'' :=
  ⟨h'.until_eq.trans h.until_eq, h'.requested_eq.trans h.requested_eq,
    h'.wakeups_eq.trans h.wakeups_eq⟩

/-- What a switch makes of the table that was searched: the running task may be demoted and the
selected one runs. -/
structure Switched (w k' : Kernel) : Prop where
  clock_eq : clock k' = clock w
  runnable : schedulerTaskIsRunnable (w.tasks k'.currentTask) = true
  selected : schedulerTaskIsRunnable (k'.tasks k'.currentTask) = true
  sleep : ∀ i, SameSleep (w.tasks i) (k'.tasks i)
  other : ∀ i, i ≠ k'.currentTask → (w.tasks i).state ≠ .running →
    (k'.tasks i).state = (w.tasks i).state

section Switch

variable {k k' w : Kernel} {i : ℕ}

/-- The search found the current task, which goes on. -/
theorem Switched.stay {p : ℕ} {f : Task → Task} (hp : w.currentTask = p)
    (hrun : schedulerTaskIsRunnable (w.tasks p) = true)
    (hf : schedulerTaskIsRunnable (f (w.tasks p)) = true)
    (hsleep : SameSleep (w.tasks p) (f (w.tasks p))) : Switched w (w.modTask p f) := by
  subst hp
  refine ⟨rfl, hrun, ?_, ?_, fun i hi _ => ?_⟩
  · rw [Kernel.modTask_currentTask, Kernel.modTask_self]
    exact hf
  · exact w.modTask_ind w.currentTask f (P := fun i t => SameSleep (w.tasks i) t) hsleep
      fun _ _ => SameSleep.refl _
  · have hne : i ≠ w.currentTask := hi
    rw [w.modTask_of_ne _ f hne]

theorem Switched.same (hrun : schedulerTaskIsRunnable (w.tasks w.currentTask) = true) :
    Switched w w := ⟨rfl, hrun, hrun, fun _ => SameSleep.refl _, fun _ _ _ => rfl⟩

/-- …or another, which it goes to. -/
theorem Switched.to {d : Kernel} {next : ℕ}
    (hrun : schedulerTaskIsRunnable (w.tasks next) = true) (hclock : clock d = clock w)
    (hsleep : ∀ i, SameSleep (w.tasks i) (d.tasks i))
    (hother : ∀ i, (w.tasks i).state ≠ .running → (d.tasks i).state = (w.tasks i).state) :
    Switched w (runTask next d) where
  clock_eq := hclock
  runnable := hrun
  selected := by
    show schedulerTaskIsRunnable ((schedulerSetRunningTask next d).tasks next) = true
    rw [schedulerSetRunningTask, Kernel.modTask_self]
    rfl
  sleep i := (hsleep i).trans <| by
    show SameSleep _ ((schedulerSetRunningTask next d).tasks i)
    rw [schedulerSetRunningTask]
    exact d.modTask_ind next _ (P := fun i t => SameSleep (d.tasks i) t) ⟨rfl, rfl, rfl⟩
      (fun _ _ => SameSleep.refl _) i
  other i hi hw := by
    show ((schedulerSetRunningTask next d).tasks i).state = _
    rw [schedulerSetRunningTask, d.modTask_of_ne next _ hi]
    exact hother i hw

theorem demoteTask_sleep (p : ℕ) (account : TaskAccounting → TaskAccounting)
    (haccount : ∀ a, (account a).sleepWakeups = a.sleepWakeups) (w : Kernel) (i : ℕ) :
    SameSleep (w.tasks i) ((demoteTask p account w).tasks i)
      ∧ ((w.tasks i).state ≠ .running → ((demoteTask p account w).tasks i).state
      = (w.tasks i).state) := by
  rw [demoteTask]
  split
  · rename_i hrunning
    exact w.modTask_ind p _ (P := fun i t => SameSleep (w.tasks i) t
      ∧ ((w.tasks i).state ≠ .running → t.state = (w.tasks i).state))
      ⟨⟨rfl, rfl, haccount _⟩, fun hne => absurd hrunning hne⟩
      (fun _ _ => ⟨SameSleep.refl _, fun _ => rfl⟩) i
  · exact ⟨SameSleep.refl _, fun _ => rfl⟩

/-- **A yield switches**, over the table its waking pass leaves. -/
theorem yield_switched (h : TableOk k) (hc : (yieldChoice k).isSome = true) :
    Switched (schedulerWakeSleepingTasks k) (schedulerYield k).1 := by
  have hcount : ¬ k.taskCount < 2 := Nat.not_lt.mpr (yieldChoice_isSome.mp hc)
  obtain ⟨-, hrun⟩ := nextRunnable_spec (tableOk_wake h)
  simp only [schedulerYield]
  rw [if_neg hcount]
  set w := schedulerWakeSleepingTasks k
  have hcur : w.currentTask = k.currentTask := rfl
  split
  · rename_i heq
    rw [heq] at hrun
    rw [if_pos hrun]
    dsimp only
    refine Switched.stay hcur hrun ?_ ?_
    · rfl
    · exact ⟨rfl, rfl, rfl⟩
  · have hdemote := demoteTask_sleep k.currentTask (fun a => { a with yields := a.yields + 1 })
      (fun _ => rfl) w
    have hto := Switched.to hrun (clock_demoteTask _ _ w) (fun i => (hdemote i).1)
      (fun i => (hdemote i).2)
    split
    · exact ⟨hto.clock_eq, hto.runnable, hto.selected, hto.sleep, hto.other⟩
    · exact hto

/-- **…and so does a tick**, over the table it searches. -/
theorem preempt_switched (h : TableOk k) (hc : (schedulerChoice k .preempt).isSome = true) :
    Switched (tickTable k) (schedulerPreempt k).1 := by
  have hgo := fun hno => (preempt_test k).mp hno (preemptChoice_isSome.mp hc)
  obtain ⟨-, hrun⟩ := nextRunnable_spec (tableOk_tickTable h)
  rw [schedulerPreempt_eq, if_neg hgo]
  set w := tickTable k
  split
  · rename_i heq
    rw [heq] at hrun
    exact Switched.same hrun
  · have hdemote := demoteTask_sleep k.currentTask id (fun _ => rfl) w
    set d := demoteTask k.currentTask id w
    have hpreempted : ∀ i, SameSleep (d.tasks i) ((d.modTask k.currentTask fun t =>
        { t with accounting := { t.accounting with
          preemptions := t.accounting.preemptions + 1 } }).tasks i)
        ∧ ((d.modTask k.currentTask fun t => { t with accounting :=
          { t.accounting with preemptions := t.accounting.preemptions + 1 } }).tasks i).state
          = (d.tasks i).state :=
      d.modTask_ind k.currentTask _ (P := fun i t => SameSleep (d.tasks i) t
        ∧ t.state = (d.tasks i).state) ⟨⟨rfl, rfl, rfl⟩, rfl⟩ (fun _ _ => ⟨SameSleep.refl _, rfl⟩)
    exact Switched.to hrun (clock_demoteTask _ _ w) (fun i => (hdemote i).1.trans (hpreempted i).1)
      (fun i hi => (hpreempted i).2.trans ((hdemote i).2 hi))

/-- A tick wakes a task and counts it in one go. -/
theorem tickTable_sleeper (hlt : i < k.taskCount) : ∃ t, SleepsOn (k.tasks i) t
    ∧ (tickTable k).tasks i = wakeTask (tickTable k).schedulerTicks t := by
  have hwoken : (schedulerWakeSleepingTasks
      { k with schedulerTicks := k.schedulerTicks + 1 }).tasks i
        = wakeTask (k.schedulerTicks + 1) (k.tasks i) := if_pos hlt
  by_cases hi : i = k.currentTask
  · subst hi
    refine ⟨{ k.current with accounting :=
      { k.current.accounting with runTicks := k.current.accounting.runTicks + 1 } },
      ⟨rfl, rfl, rfl, rfl⟩, ?_⟩
    rw [tickTable, Kernel.modTask_self, hwoken, wakeTask, wakeTask]
    split
    · rename_i hdue
      exact (if_pos hdue).symm
    · rename_i hearly
      exact (if_neg hearly).symm
  · refine ⟨k.tasks i, SleepsOn.refl _, ?_⟩
    rw [tickTable, Kernel.modTask_of_ne _ _ _ hi]
    exact hwoken

/-- **Every call that selects a task switches**, over a table whose sleepers the waking pass has
seen. -/
theorem choice_switched {L : Layout} {S : Symbols} {op : KernelOp} (h : TableOk k)
    (hstep : taskStep L S k op = some k') (hc : (schedulerChoice k op).isSome = true) :
    ∃ w, Switched w k' ∧ w.threadsStarted = k.threadsStarted
      ∧ (w.schedulerTicks = if op = .preempt then k.schedulerTicks + 1 else k.schedulerTicks)
      ∧ ∀ i, (i = k.currentTask → op = .preempt) → (k.tasks i).state = .sleeping →
        ∃ t, SleepsOn (k.tasks i) t ∧ w.tasks i = wakeTask w.schedulerTicks t := by
  have hlt : ∀ i, (k.tasks i).state = .sleeping → i < k.taskCount := fun i hs =>
    Nat.lt_of_not_le fun hle => by cases hs.symm.trans (h.unused_ge i hle)
  obtain ⟨rfl, h0, rfl⟩ | ⟨hne, hsystem⟩ := taskStep_spec hstep
  · refine ⟨_, yield_switched (tableOk_fallDead h h0) hc, rfl, rfl, fun i hi hs =>
      ⟨(fallDead k.currentTask k).tasks i, ?_, if_pos (hlt i hs)⟩⟩
    have hdead : (fallDead k.currentTask k).tasks i = (orphanChildren k.currentTask k).tasks i :=
      Kernel.modTask_of_ne _ k.currentTask (fun t => { t with state := .zombie })
        fun hcur => by cases hi hcur
    rw [hdead]
    dsimp only [orphanChildren]
    split
    · exact ⟨rfl, rfl, rfl, rfl⟩
    · exact SleepsOn.refl _
  obtain ⟨-, sw, hcall⟩ := systemStep_spec hsystem
  cases op with
  | yield =>
    obtain rfl := congrArg Prod.fst (Option.some.inj hcall)
    exact ⟨_, yield_switched h hc, rfl, rfl, fun i _ hs =>
      ⟨k.tasks i, SleepsOn.refl _, if_pos (hlt i hs)⟩⟩
  | sleepMs ms intervalMs =>
    obtain rfl := congrArg Prod.fst (Option.some.inj hcall)
    rw [schedulerChoice_sleepMs] at hc
    split at hc
    · cases hc
    · rename_i hgo
      have h0 : k.currentTask ≠ 0 := by
        intro h0
        simp [h0] at hgo
      rw [schedulerSleepMs_eq, if_neg hgo]
      refine ⟨_, yield_switched (tableOk_fallAsleep h h0 ms intervalMs) hc, rfl, rfl, fun i hi hs =>
        ⟨k.tasks i, SleepsOn.refl _, ?_⟩⟩
      have hasleep : (fallAsleep ms intervalMs k).tasks i = k.tasks i := by
        rw [fallAsleep]
        exact Kernel.modTask_of_ne _ _ _ fun hcur => by cases hi hcur
      rw [← hasleep]
      exact if_pos (hlt i hs)
  | preempt =>
    obtain rfl := congrArg Prod.fst (Option.some.inj hcall)
    exact ⟨_, preempt_switched h hc, rfl, rfl, fun i _ hs => tickTable_sleeper (hlt i hs)⟩
  | exit => exact absurd rfl hne
  | _ => cases hc

/-! ## Sleepers -/

/-- What a step shows of a sleeper that sleeps on: its record is the one it fell asleep with, it is
not selected, and no choice comes at or after its deadline. -/
structure StaysAsleep (i : ℕ) (t : Task) (d : ℕ) (k : Kernel) (op : KernelOp) (k' : Kernel) :
    Prop where
  sleeps : SleepsOn t (k'.tasks i)
  waits : k'.currentTask ≠ i
  early : op = .yield ∨ op = .preempt ∨ (schedulerChoice k op).isSome = true →
    k'.schedulerTicks.toNat < d

/-- …and of one that is woken, by a choice at or after its deadline. -/
structure Wakes (i : ℕ) (t : Task) (d : ℕ) (k : Kernel) (op : KernelOp) (k' : Kernel) : Prop where
  chosen : (schedulerChoice k op).isSome = true
  due : d ≤ k'.schedulerTicks.toNat
  ready : (k'.tasks i).state = .ready ∨ (k'.tasks i).state = .running ∧ k'.currentTask = i
  cleared : (k'.tasks i).sleepUntilTick = 0 ∧ (k'.tasks i).sleepRequestedMs = 0
  wakeups : (k'.tasks i).accounting.sleepWakeups = t.accounting.sleepWakeups + 1

/-- What a switch makes of a sleeper. -/
theorem Switched.sleeper {op : KernelOp} {t : Task} (h : Switched w k') (hs : t.state = .sleeping)
    (ht : w.tasks i = wakeTask w.schedulerTicks t) (hc : (schedulerChoice k op).isSome = true) :
    Wakes i t t.sleepUntilTick.toNat k op k' ∨ StaysAsleep i t t.sleepUntilTick.toNat k op k' := by
  have hticks : k'.schedulerTicks = w.schedulerTicks := congrArg Prod.snd h.clock_eq
  obtain ⟨huntil, hrequested, hwakeups⟩ := h.sleep i
  by_cases hdue : t.sleepUntilTick ≤ w.schedulerTicks
  · refine .inl ⟨hc, by rw [hticks]; exact BitVec.le_def.mp hdue, ?_, ?_, ?_⟩
    · -- it is ready after the waking pass, whether it is then selected or not
      rw [wakeTask, if_pos ⟨hs, hdue⟩] at ht
      by_cases hi : i = k'.currentTask
      · have hrun := h.selected
        rw [← hi] at hrun
        exact (runnable_iff.mp hrun).imp_right fun hr => ⟨hr, hi.symm⟩
      · exact .inl ((h.other i hi (by rw [ht]; simp)).trans (by rw [ht]))
    · rw [wakeTask, if_pos ⟨hs, hdue⟩] at ht
      exact ⟨huntil.trans (by rw [ht]), hrequested.trans (by rw [ht])⟩
    · rw [wakeTask, if_pos ⟨hs, hdue⟩] at ht
      exact hwakeups.trans (by rw [ht])
  · rw [wakeTask, if_neg fun hboth => hdue hboth.2] at ht
    have hi : i ≠ k'.currentTask := by
      intro hi
      have hrun := h.runnable
      rw [← hi, ht, schedulerTaskIsRunnable, hs] at hrun
      cases hrun
    rw [ht] at huntil hrequested hwakeups
    refine .inr ⟨⟨?_, huntil, hrequested, hwakeups⟩, fun hcur => hi hcur.symm, fun _ => ?_⟩
    · exact (h.other i hi (by rw [ht, hs]; simp)).trans (by rw [ht])
    · rw [hticks]
      exact Nat.lt_of_not_le fun hle => hdue (BitVec.le_def.mpr hle)

/-- A sleeper is not the only task. -/
theorem TableOk.two_le_taskCount (h : TableOk k) (hs : (k.tasks i).state = .sleeping) :
    2 ≤ k.taskCount := by
  have hlt : i < k.taskCount :=
    Nat.lt_of_not_le fun hle => by cases hs.symm.trans (h.unused_ge i hle)
  have h0 : i ≠ 0 := by
    rintro rfl
    rcases h.idle with hidle | hidle <;> cases hs.symm.trans hidle
  omega

/-- **One step of a sleeper**: it is terminated by its parent, woken, or sleeps on.  The timer may
find it still inside the call that puts it to sleep. -/
theorem sleeper_step {L : Layout} {S : Symbols} {op : KernelOp} {t : Task} (h : TableOk k)
    (hown : SessionsOwn k) (hstep : taskStep L S k op = some k')
    (hi : i = k.currentTask → op = .preempt) (hsleeps : SleepsOn t (k.tasks i))
    (hs : t.state = .sleeping) (hstarted : k.threadsStarted = true) :
    k'.threadsStarted = true ∧
      ((Terminates k op i ∧ (k'.tasks i).state = .zombie
        ∨ Wakes i t t.sleepUntilTick.toNat k op k')
      ∨ StaysAsleep i t t.sleepUntilTick.toNat k op k') := by
  have hasleep := hsleeps.state_eq.trans hs
  have hcount := h.two_le_taskCount hasleep
  cases hc : schedulerChoice k op with
  | none =>
    -- with two tasks and the threads running every yield and every tick chooses
    have hnone : ¬ (schedulerChoice k op).isSome = true := by simp [hc]
    have hnopreempt : op ≠ .preempt := by
      rintro rfl
      exact hnone (preemptChoice_isSome.mpr ⟨hstarted, hcount⟩)
    have hi' : i ≠ k.currentTask := fun hcur => hnopreempt (hi hcur)
    have hother := other_call h hstep hc
    refine ⟨hother.started hstarted, ?_⟩
    rcases hother.asleep hown i hi' hasleep with hsame | hterminated
    · refine .inr ⟨hsleeps.trans hsame, fun hcur => hi' (hcur.symm.trans hother.currentTask),
        fun hop => ?_⟩
      rcases hop with rfl | hpreempt | hsome
      · exact absurd (yieldChoice_isSome.mpr hcount) hnone
      · exact absurd hpreempt hnopreempt
      · exact absurd hsome hnone
    · exact .inl (.inl hterminated)
  | some c =>
    have hsome : (schedulerChoice k op).isSome = true := by simp [hc]
    obtain ⟨w, hw, hthreads, -, hsleepers⟩ := choice_switched h hstep hsome
    obtain ⟨t', ht', hwt⟩ := hsleepers i hi hasleep
    refine ⟨(congrArg Prod.fst hw.clock_eq).trans (hthreads.trans hstarted), ?_⟩
    have htt := hsleeps.trans ht'
    rcases hw.sleeper (htt.state_eq.trans hs) hwt hsome with hwakes | hstays
    · refine .inl (.inr ⟨hwakes.chosen, ?_, hwakes.ready, hwakes.cleared, ?_⟩)
      · rw [← htt.until_eq]
        exact hwakes.due
      · rw [← htt.wakeups_eq]
        exact hwakes.wakeups
    · refine .inr ⟨htt.trans hstays.sleeps, hstays.waits, ?_⟩
      rw [← htt.until_eq]
      exact hstays.early

/-! ## Deadlines -/

/-- The tick a sleep of `ms` from tick `t` on lasts to, at an interval of `T`. -/
def deadline (t ms T : Word) : ℕ :=
  (t.toNat + max 1 ((ms.toNat + T.toNat - 1) / T.toNat)) % 2 ^ 64

/-- **The tick count is rounded up and not zero**, also where the rounding wraps. -/
theorem sleepTicks_toNat {ms T : Word} (hT : T ≠ 0) (hms : ms.toNat ≤ 60000) :
    (if (ms + T - 1) / T = 0 then (1 : Word) else (ms + T - 1) / T).toNat
      = max 1 ((ms.toNat + T.toNat - 1) / T.toNat) := by
  have hpos : 0 < T.toNat := Nat.pos_of_ne_zero fun h0 => hT (BitVec.eq_of_toNat_eq h0)
  have hlt := T.isLt
  have hdiv : ((ms + T - 1) / T).toNat = (ms + T - 1).toNat / T.toNat := BitVec.toNat_udiv
  by_cases hwrap : ms.toNat + T.toNat - 1 < 2 ^ 64
  · have hsum : (ms + T - 1).toNat = ms.toNat + T.toNat - 1 := by bv_omega
    rw [hsum] at hdiv
    split
    · rename_i h0
      rw [h0] at hdiv
      rw [← hdiv]
      rfl
    · rename_i hne
      have hne' : ((ms + T - 1) / T).toNat ≠ 0 := fun h0 => hne (BitVec.eq_of_toNat_eq h0)
      rw [← hdiv]
      omega
  · -- the interval is then longer than the sleep
    have hsum : (ms + T - 1).toNat < T.toNat := by bv_omega
    rw [Nat.div_eq_of_lt hsum] at hdiv
    rw [if_pos (BitVec.eq_of_toNat_eq hdiv)]
    have hone : (ms.toNat + T.toNat - 1) / T.toNat ≤ 1 :=
      Nat.lt_succ_iff.mp ((Nat.div_lt_iff_lt_mul hpos).mpr (by omega))
    rw [Nat.max_eq_left hone]
    rfl

/-- A task that falls asleep sleeps to its deadline. -/
theorem fallAsleep_task {ms T : Word} (hT : T ≠ 0) (hms : ms.toNat ≤ 60000) (k : Kernel) :
    ((fallAsleep ms T k).tasks k.currentTask).state = .sleeping
      ∧ ((fallAsleep ms T k).tasks k.currentTask).sleepUntilTick.toNat
        = deadline k.schedulerTicks ms T := by
  rw [fallAsleep, Kernel.modTask_self]
  refine ⟨rfl, ?_⟩
  dsimp only
  rw [BitVec.toNat_add, sleepTicks_toNat hT hms, deadline]

/-- **The call that puts its task to sleep** switches to another, the deadline being to come. -/
theorem fallsAsleep_step {L : Layout} {S : Symbols} {ms T : Word} (h : TableOk k)
    (hstep : taskStep L S k (.sleepMs ms T) = some k') (hT : T ≠ 0) (hms : ms.toNat ≤ 60000)
    (hstarted : k.threadsStarted = true) (h0 : k.currentTask ≠ 0) :
    k'.threadsStarted = true
      ∧ (Wakes k.currentTask ((fallAsleep ms T k).tasks k.currentTask)
      (deadline k.schedulerTicks ms T)
          k (.sleepMs ms T) k'
        ∨ StaysAsleep k.currentTask ((fallAsleep ms T k).tasks k.currentTask)
          (deadline k.schedulerTicks ms T) k (.sleepMs ms T) k') := by
  obtain ⟨hsleeping, hdeadline⟩ := fallAsleep_task hT hms k
  have hgo : ¬ (!k.threadsStarted || k.currentTask == 0 || T == 0) = true := by
    simpa [hstarted, h0] using hT
  have hk' : k' = (schedulerYield (fallAsleep ms T k)).1 := by
    obtain rfl := Option.some.inj hstep
    show (schedulerSleepMs ms T k).1 = _
    rw [schedulerSleepMs_eq, if_neg hgo]
  have hchoice : schedulerChoice k (.sleepMs ms T) = yieldChoice (fallAsleep ms T k) := by
    rw [schedulerChoice_sleepMs, if_neg hgo]
  have hlt : k.currentTask < (fallAsleep ms T k).taskCount := h.current_lt
  have hsome : (yieldChoice (fallAsleep ms T k)).isSome = true := yieldChoice_isSome.mpr (by omega)
  have hw := yield_switched (tableOk_fallAsleep h h0 ms T) hsome
  rw [← hk'] at hw
  rw [← hchoice] at hsome
  refine ⟨(congrArg Prod.fst hw.clock_eq).trans hstarted, ?_⟩
  rw [← hdeadline]
  exact hw.sleeper hsleeping (if_pos hlt) hsome

theorem tableOk_sessionsOwn (L : Layout) (S : Symbols) (spaces : SpaceStatics)
    (ops : List KernelOp) :
    Always (lifeStep L S) (fun k => TableOk k ∧ SessionsOwn k) (bootKernel S spaces) ops :=
  Always.of_inv (I := fun k => TableOk k ∧ SessionsOwn k)
    (fun _ _ _ hI hstep => ⟨tableOk_life hI.1 hstep, (dead_step hI.1 hI.2 hstep).1⟩)
    (fun _ hI => hI)
    ⟨tableOk_boot S spaces, sessionsOwn_boot S spaces⟩ ops

end Switch

end SaturnOS
