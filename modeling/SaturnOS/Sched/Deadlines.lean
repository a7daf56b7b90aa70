import SaturnOS.Sched.Sleep
import SaturnOS.Sched.Windows

/-!
# Sched/Deadlines — a sleep, and the yields of others

    scheduler_sleep_ms ──▸ sleeping ⋯ ──first choice at or after the deadline──▸ ready
                                    └──a yield that chose it before it slept──▸ running

A sleeper wakes by the pass every choice begins with, which looks at the deadlines, or by a commit,
which does not.  The second takes a yield that was interrupted once it had chosen the task, before
its sleep; where there is none the sleep lasts to its deadline (`sleeps_to_its_deadline`).
-/

open Machinery

namespace SaturnOS

/-! ## Sleepers -/

/-- What a step shows of a sleeper that sleeps on: its record is the one it fell asleep with, it is
not selected, and no choice comes at or after its deadline. -/
structure SleepsThrough (i : ℕ) (t : Task) (d : ℕ) (w : Windows) (op : WindowOp) (w' : Windows) :
    Prop where
  sleeps : SleepsOn t (w'.kernel.tasks i)
  waits : w'.kernel.currentTask = i → w.kernel.currentTask = i
  early : ∀ call, op = .call call →
    call = .yield ∨ call = .preempt ∨ (schedulerChoice w.kernel call).isSome = true →
      w'.kernel.schedulerTicks.toNat < d

/-- …and of one whose sleep is over: its parent terminates it, or a choice at or after its deadline
wakes it. -/
def SleepEnds (i : ℕ) (t : Task) (d : ℕ) (w : Windows) (op : WindowOp) (w' : Windows) : Prop :=
  ∃ call, op = .call call ∧ (Terminates w.kernel call i ∧ (w'.kernel.tasks i).state = .zombie
    ∨ Wakes i t d w.kernel call w'.kernel)

/-- A commit hands the CPU to task `i`, which sleeps. -/
def CommitsToSleeper (i : ℕ) (w : Windows) (op : WindowOp) : Prop :=
  HandsTo .sleeping w op ∧ w.inside = some i

instance (i : ℕ) (w : Windows) (op : WindowOp) : Decidable (CommitsToSleeper i w op) :=
  inferInstanceAs (Decidable (_ ∧ _))

/-- A call after which task `i` is not asleep. -/
def AwakeAfter (i : ℕ) (op : WindowOp) (w' : Windows) : Prop :=
  op ≠ .commit ∧ (w'.kernel.tasks i).state ≠ .sleeping

instance (i : ℕ) (op : WindowOp) (w' : Windows) : Decidable (AwakeAfter i op w') :=
  inferInstanceAs (Decidable (_ ∧ _))

/-- What is known of a sleeper from its call on: it may be inside that call's yield, which goes to
another task. -/
structure Asleep (i : ℕ) (t : Task) (w : Windows) : Prop where
  sound : w.Sound
  started : w.kernel.threadsStarted = true
  sleeps : SleepsOn t (w.kernel.tasks i)
  elsewhere : i = w.kernel.currentTask → ∃ next, next ≠ i ∧ w.inside = some next

section Steps

variable {L : Layout} {S : Symbols} {w w' : Windows} {op : WindowOp} {i : ℕ} {t : Task}
  {k k₁ : Kernel} {call : KernelOp}

/-- A call that yields chooses over the table it has made. -/
theorem yieldTable_choice (htable : yieldTable k call = some k₁) :
    schedulerChoice k call = yieldChoice k₁ := by
  cases call with
  | yield =>
    have heq : k = k₁ := Option.some.inj htable
    rw [← heq]
    rfl
  | sleepMs ms intervalMs =>
    obtain ⟨hgo, heq⟩ := Option.ite_none_left_eq_some.mp htable
    obtain rfl := Option.some.inj heq
    rw [schedulerChoice_sleepMs, if_neg hgo]
  | exit =>
    obtain ⟨-, heq⟩ := Option.ite_none_right_eq_some.mp htable
    obtain rfl := Option.some.inj heq
    exact schedulerChoice_exit k
  | _ => cases htable

/-- The pass before the choice looks at every sleeper. -/
theorem yieldSearch_sleeper (h : TableOk k) (hasleep : (k.tasks i).state = .sleeping) :
    (yieldSearch k).tasks i = wakeTask k.schedulerTicks (k.tasks i)
      ∧ (yieldSearch k).schedulerTicks = k.schedulerTicks ∧ (yieldChoice k).isSome = true := by
  have hcount := h.two_le_taskCount hasleep
  have hlt : i < k.taskCount :=
    Nat.lt_of_not_le fun hle => by cases hasleep.symm.trans (h.unused_ge i hle)
  refine ⟨?_, congrArg Prod.snd (yieldSearch_rest k).2.2, yieldChoice_isSome.mpr hcount⟩
  rw [yieldSearch, if_neg (Nat.not_lt.mpr hcount)]
  exact if_pos hlt

/-- **A choice at or after the deadline** wakes the sleeper. -/
theorem choose_wakes (h : TableOk k₁) (htable : yieldTable w.kernel call = some k₁)
    (hsleeps : SleepsOn t (k₁.tasks i)) (hs : t.state = .sleeping)
    (hdue : (k₁.tasks i).sleepUntilTick ≤ k₁.schedulerTicks) :
    Wakes i t t.sleepUntilTick.toNat w.kernel call (w.choose k₁).kernel := by
  have hasleep := hsleeps.state_eq.trans hs
  obtain ⟨htask, hticks, hsome⟩ := yieldSearch_sleeper h hasleep
  rw [wakeTask, if_pos ⟨hasleep, hdue⟩] at htask
  refine ⟨by rw [yieldTable_choice htable]; exact hsome, ?_, .inl ?_, ⟨?_, ?_⟩, ?_⟩
  · rw [← hsleeps.until_eq]
    show _ ≤ (yieldSearch k₁).schedulerTicks.toNat
    rw [hticks]
    exact BitVec.le_def.mp hdue
  · show ((yieldSearch k₁).tasks i).state = _
    rw [htask]
  · show ((yieldSearch k₁).tasks i).sleepUntilTick = _
    rw [htask]
  · show ((yieldSearch k₁).tasks i).sleepRequestedMs = _
    rw [htask]
  · show ((yieldSearch k₁).tasks i).accounting.sleepWakeups = _
    rw [htask, ← hsleeps.wakeups_eq]

/-- **An earlier one** passes over it. -/
theorem choose_passes (h : TableOk k₁) (hcur : k₁.currentTask = w.kernel.currentTask)
    (hsleeps : SleepsOn t (k₁.tasks i)) (hs : t.state = .sleeping)
    (hdue : ¬ (k₁.tasks i).sleepUntilTick ≤ k₁.schedulerTicks) :
    SleepsThrough i t t.sleepUntilTick.toNat w (.call call) (w.choose k₁)
      ∧ ∃ next, next ≠ i ∧ (w.choose k₁).inside = some next := by
  have hasleep := hsleeps.state_eq.trans hs
  obtain ⟨htask, hticks, hsome⟩ := yieldSearch_sleeper h hasleep
  rw [wakeTask, if_neg fun hboth => hdue hboth.2] at htask
  obtain ⟨next, hnext⟩ := Option.isSome_iff_exists.mp hsome
  have hcur' : (w.choose k₁).kernel.currentTask = w.kernel.currentTask :=
    (yieldSearch_rest k₁).2.1.trans hcur
  refine ⟨⟨?_, fun hi => hcur'.symm.trans hi, fun _ _ _ => ?_⟩, next, ?_, ?_⟩
  · show SleepsOn t ((yieldSearch k₁).tasks i)
    rw [htask]
    exact hsleeps
  · show (yieldSearch k₁).schedulerTicks.toNat < _
    rw [hticks, ← hsleeps.until_eq]
    exact Nat.lt_of_not_le fun hle => hdue (BitVec.le_def.mpr hle)
  · -- what a choice selects is runnable
    rintro rfl
    have hrun := yieldChoice_runnable h hnext
    rw [htask, schedulerTaskIsRunnable, hasleep] at hrun
    cases hrun
  · rw [Windows.inside, hcur']
    dsimp only [Windows.choose]
    rw [Function.update_self, hnext]

/-- **The choice of a yield over a sleeper**: it wakes it, or it is early and goes to another. -/
theorem choose_sleeper (h : TableOk k₁) (htable : yieldTable w.kernel call = some k₁)
    (hcur : k₁.currentTask = w.kernel.currentTask) (hsleeps : SleepsOn t (k₁.tasks i))
    (hs : t.state = .sleeping) :
    Wakes i t t.sleepUntilTick.toNat w.kernel call (w.choose k₁).kernel
      ∨ SleepsThrough i t t.sleepUntilTick.toNat w (.call call) (w.choose k₁)
        ∧ ∃ next, next ≠ i ∧ (w.choose k₁).inside = some next := by
  by_cases hdue : (k₁.tasks i).sleepUntilTick ≤ k₁.schedulerTicks
  · exact .inl (choose_wakes h htable hsleeps hs hdue)
  · exact .inr (choose_passes h hcur hsleeps hs hdue)

/-- A call that is taken whole, over a sleeper. -/
theorem life_sleeper (h : Asleep i t w) (hs : t.state = .sleeping)
    (hi : i = w.kernel.currentTask → call = .preempt)
    (hstep : lifeStep L S w.kernel call = some k) (hsound : (w.after k).Sound) :
    SleepEnds i t t.sleepUntilTick.toNat w (.call call) (w.after k)
      ∨ SleepsThrough i t t.sleepUntilTick.toNat w (.call call) (w.after k)
        ∧ Asleep i t (w.after k) := by
  obtain ⟨hstarted, hends | hstays⟩ := sleeper_step h.sound.table h.sound.sessions
    (lifeStep_spec hstep).2 hi h.sleeps hs h.started
  · exact .inl ⟨call, rfl, hends⟩
  · refine .inr ⟨⟨hstays.sleeps, fun hcur => absurd hcur hstays.waits, ?_⟩,
      hsound, hstarted, hstays.sleeps, fun hcur => absurd hcur.symm hstays.waits⟩
    intro call' hcall hchooses
    obtain rfl := WindowOp.call.inj hcall
    exact hstays.early hchooses

/-- **A commit to another task** tells the sleeper nothing. -/
theorem Asleep.committed {next : ℕ} (h : Asleep i t w) (hs : t.state = .sleeping)
    (hinside : w.inside = some next)
    (hused : next ≠ w.kernel.currentTask → (w.kernel.tasks next).state ≠ .unused)
    (hkernel : w'.kernel = (yieldCommit next w.kernel).1) (hsound : w'.Sound)
    (hno : ¬ CommitsToSleeper i w .commit) :
    SleepsThrough i t t.sleepUntilTick.toNat w .commit w' ∧ Asleep i t w' := by
  have hasleep := h.sleeps.state_eq.trans hs
  have hcommits := yieldCommit_spec h.sound.table hused
  have hne : next ≠ i := by
    rintro rfl
    by_cases hcur : next = w.kernel.currentTask
    · obtain ⟨next', hne', hinside'⟩ := h.elsewhere hcur
      exact hne' (Option.some.inj (hinside'.symm.trans hinside))
    · exact hno ⟨⟨rfl, next, hinside, hcur, hasleep⟩, hinside⟩
  have hidle : schedulerTaskIsRunnable (w.kernel.tasks i) = false := by
    rw [schedulerTaskIsRunnable, hasleep]
    rfl
  have hsame : w'.kernel.tasks i = w.kernel.tasks i := by
    rw [hkernel]
    exact hcommits.others i hidle fun hi => absurd hi.symm hne
  have hcur : w'.kernel.currentTask ≠ i := by
    rw [hkernel, hcommits.current]
    exact hne
  have hsleeps : SleepsOn t (w'.kernel.tasks i) := by
    rw [hsame]
    exact h.sleeps
  refine ⟨⟨hsleeps, fun hi => absurd hi hcur, fun _ hop => by cases hop⟩, hsound, ?_,
    hsleeps, fun hi => absurd hi.symm hcur⟩
  rw [hkernel]
  exact (congrArg Prod.fst hcommits.clock_eq).trans h.started

/-- **One step over a sleeper**: its sleep ends, or it sleeps on, unless a commit hands it the
CPU. -/
theorem Asleep.step (h : Asleep i t w) (hs : t.state = .sleeping)
    (hstep : windowStep L S w op = some w') (hno : ¬ CommitsToSleeper i w op) :
    SleepEnds i t t.sleepUntilTick.toNat w op w'
      ∨ SleepsThrough i t t.sleepUntilTick.toNat w op w' ∧ Asleep i t w' := by
  have hsound := h.sound.step hstep
  have helse : w.inside = none → i ≠ w.kernel.currentTask := fun hinside hi => by
    obtain ⟨next, -, hnext⟩ := h.elsewhere hi
    cases hinside.symm.trans hnext
  cases windowStep_spec hstep with
  | interrupted _ hlife => exact life_sleeper h hs (fun _ => rfl) hlife hsound
  | called hinside _ hlife =>
    exact life_sleeper h hs (fun hi => absurd hi (helse hinside)) hlife hsound
  | @chose call k hinside htable hmakes =>
    have hyields := yieldTable_spec h.sound.table hmakes htable
    have hi := helse hinside
    have hsleeps := h.sleeps.trans (hyields.asleep i hi)
    obtain hwakes | ⟨hthrough, -⟩ := choose_sleeper hyields.table htable hyields.current hsleeps hs
    · exact .inl ⟨call, rfl, .inr hwakes⟩
    · refine .inr ⟨hthrough, hsound, ?_, hthrough.sleeps, fun hcur =>
        absurd (hthrough.waits hcur.symm).symm hi⟩
      have hclock := (yieldSearch_rest k).2.2.trans hyields.clock_eq
      exact (congrArg Prod.fst hclock).trans h.started
  | committed hinside hused hkernel _ =>
    exact .inr (h.committed hs hinside hused hkernel hsound hno)

/-- An end of the sleep is a proper one, where it comes by a call. -/
theorem Asleep.ends (h : Asleep i t w) (hs : t.state = .sleeping)
    (hstep : windowStep L S w op = some w') (hawake : AwakeAfter i op w') :
    SleepEnds i t t.sleepUntilTick.toNat w op w' := by
  obtain ⟨hcall, hawake⟩ := hawake
  obtain hends | ⟨hthrough, -⟩ := h.step hs hstep fun hcommits => hcall hcommits.1.1
  · exact hends
  · exact absurd (hthrough.sleeps.state_eq.trans hs) hawake

end Steps

/-! ## Deadlines -/

end SaturnOS
