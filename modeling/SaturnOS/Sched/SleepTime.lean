import Mathlib.Data.Real.Basic
import Mathlib.Tactic.Linarith
import Mathlib.Tactic.Ring
import SaturnOS.Sched.Sleep

/-!
# Sched/SleepTime — how long a sleep is

    ──│─────s─────│───────────│── ⋯ ──│──        n = ⌈ms / T⌉ ticks from the call to the waking one
     jT        (j+1)T      (j+2)T   (j+n)T

The first of the `n` ticks is the next one, so the sleep is short by the time already gone since the
last: `scheduler_sleep_ms` waits out the requested time precisely where the rounding leaves room for
it (`sleeps_in_full_iff`).
-/

open Machinery

namespace SaturnOS

/-- The kernel, and how many timer ticks there have been: the tick `j` comes at the time `j * T`. -/
def timedStep (L : Layout) (S : Symbols) (a : Kernel × ℕ) (op : KernelOp) : Option (Kernel × ℕ) :=
  (lifeStep L S a.1 op).map fun k' => (k', if op = .preempt then a.2 + 1 else a.2)

/-- What a sleep that is asked for at the time `s`, after tick `j`, comes to: however the run goes
on, the tick that wakes the task comes `ms` later or after that. -/
def SleepsInFull (L : Layout) (S : Symbols) (k : Kernel) (ms T : Word) (j : ℕ) (s : ℝ) : Prop :=
  ∀ later, Until (timedStep L S) (fun _ _ b => (b.1.tasks k.currentTask).state = .sleeping)
    (fun a op b => Terminates a.1 op k.currentTask ∧ (b.1.tasks k.currentTask).state = .zombie
      ∨ op = .preempt ∧ schedulerTaskIsRunnable (b.1.tasks k.currentTask) = true
        ∧ s + ms.toNat ≤ b.2 * T.toNat)
    (k, j) (.sleepMs ms T :: later)

theorem timedStep_spec {L : Layout} {S : Symbols} {a b : Kernel × ℕ} {op : KernelOp}
    (h : timedStep L S a op = some b) :
    lifeStep L S a.1 op = some b.1 ∧ b.2 = if op = .preempt then a.2 + 1 else a.2 := by
  obtain ⟨k', hstep, rfl⟩ := Option.map_eq_some_iff.mp h
  exact ⟨hstep, rfl⟩

/-- **The clock ticks with the timer**, once the threads run and there are two of them. -/
theorem taskStep_ticks {L : Layout} {S : Symbols} {k k' : Kernel} {op : KernelOp} (h : TableOk k)
    (hstep : taskStep L S k op = some k') (hstarted : k.threadsStarted = true)
    (hcount : 2 ≤ k.taskCount) :
    k'.schedulerTicks = if op = .preempt then k.schedulerTicks + 1 else k.schedulerTicks := by
  cases hc : schedulerChoice k op with
  | none =>
    have hne : op ≠ .preempt := by
      rintro rfl
      have hsome := preemptChoice_isSome.mpr ⟨hstarted, hcount⟩
      rw [hc] at hsome
      cases hsome
    rw [if_neg hne]
    exact (other_call h hstep hc).ticks_eq
  | some c =>
    obtain ⟨w, hw, -, hticks, -⟩ := choice_switched h hstep (by rw [hc]; rfl)
    exact (congrArg Prod.snd hw.clock_eq).trans hticks

/-- A sleeper that is due at tick `n` of the timer. -/
structure DueAt (i : ℕ) (t : Task) (n : ℕ) (a : Kernel × ℕ) : Prop where
  table : TableOk a.1
  own : SessionsOwn a.1
  started : a.1.threadsStarted = true
  waits : i ≠ a.1.currentTask
  sleeps : SleepsOn t (a.1.tasks i)
  later : a.2 < n
  due : a.1.schedulerTicks.toNat + n = t.sleepUntilTick.toNat + a.2

section Sleeper

variable {L : Layout} {S : Symbols} {i n : ℕ} {t : Task} {a b : Kernel × ℕ} {op : KernelOp}

/-- **One step towards the tick it is due at**: the parent terminates it, that tick wakes it, or it
is due as before. -/
theorem DueAt.step (h : DueAt i t n a) (hs : t.state = .sleeping)
    (hstep : timedStep L S a op = some b) :
    (Terminates a.1 op i ∧ (b.1.tasks i).state = .zombie
      ∨ op = .preempt ∧ schedulerTaskIsRunnable (b.1.tasks i) = true ∧ b.2 = n)
    ∨ (b.1.tasks i).state = .sleeping ∧ DueAt i t n b := by
  obtain ⟨hstep, htick⟩ := timedStep_spec hstep
  have hasleep := h.sleeps.state_eq.trans hs
  have hcount : 2 ≤ a.1.taskCount := h.table.two_le_taskCount hasleep
  have hticks := taskStep_ticks h.table (lifeStep_spec hstep).2 h.started hcount
  obtain ⟨hstarted, hend⟩ := sleeper_step h.table h.own (lifeStep_spec hstep).2
    (fun hi => absurd hi h.waits) h.sleeps hs h.started
  have hlater := h.later
  have hdue := h.due
  have hlt := t.sleepUntilTick.isLt
  -- the clock cannot wrap before the tick it is due at
  have hnat : b.1.schedulerTicks.toNat + n = t.sleepUntilTick.toNat + b.2 := by
    rw [hticks, htick]
    split
    · have hone : (1 : Word).toNat = 1 := rfl
      rw [BitVec.toNat_add, hone]
      omega
    · exact hdue
  have hle : b.2 ≤ a.2 + 1 := by
    rw [htick]
    split <;> omega
  rcases hend with (hterminated | hwakes) | hstays
  · exact .inl (.inl hterminated)
  · have hdue' := hwakes.due
    have hop : op = .preempt := by
      by_contra hne
      rw [if_neg hne] at htick
      omega
    refine .inl (.inr ⟨hop, runnable_iff.mpr (hwakes.ready.imp_right And.left), by omega⟩)
  · refine .inr ⟨hstays.sleeps.state_eq.trans hs, tableOk_life h.table hstep,
      (dead_step h.table h.own hstep).1, hstarted, fun hi => hstays.waits hi.symm, hstays.sleeps,
      ?_, hnat⟩
    by_cases hop : op = .preempt
    · have hearly := hstays.early (.inr (.inl hop))
      omega
    · rw [if_neg hop] at htick
      omega

/-- A timer tick comes at any time. -/
theorem timedStep_preempt (L : Layout) (S : Symbols) (a : Kernel × ℕ) :
    timedStep L S a .preempt = some ((schedulerPreempt a.1).1, a.2 + 1) := rfl

section InFull

variable {P : ℕ → Prop}

/-- The sleeper of a run as `SleepsInFull` has it, with `P` for the time. -/
def WakesAt (L : Layout) (S : Symbols) (i : ℕ) (P : ℕ → Prop) (a : Kernel × ℕ)
    (ops : List KernelOp) :
    Prop :=
  Until (timedStep L S) (fun _ _ b => (b.1.tasks i).state = .sleeping)
    (fun a op b => Terminates a.1 op i ∧ (b.1.tasks i).state = .zombie
      ∨ op = .preempt ∧ schedulerTaskIsRunnable (b.1.tasks i) = true ∧ P b.2) a ops

/-- **The tick it is due at is the one that wakes it**, if any… -/
theorem DueAt.wakesAt (h : DueAt i t n a) (hs : t.state = .sleeping) (hP : P n)
    (later : List KernelOp) :
    WakesAt L S i P a later := by
  refine Until.of_inv (I := DueAt i t n) (fun a op b h hstep => ?_) later h
  rcases h.step hs hstep with (hterminated | ⟨hop, hrun, hn⟩) | ⟨hsleeping, h'⟩
  · exact .inl (.inl hterminated)
  · exact .inl (.inr ⟨hop, hrun, hn ▸ hP⟩)
  · exact .inr ⟨hsleeping, h'⟩

/-- …and it does where nothing but ticks come. -/
theorem DueAt.of_ticks {m : ℕ} (h : DueAt i t n a) (hs : t.state = .sleeping) (hm : n = a.2 + m)
    (hw : WakesAt L S i P a (List.replicate m .preempt)) : P n := by
  induction m generalizing a with
  | zero => exact absurd h.later (by omega)
  | succ m ih =>
    have hnext := hw _ (timedStep_preempt L S a)
    set b : Kernel × ℕ := ((schedulerPreempt a.1).1, a.2 + 1)
    have hno : ∀ {p}, ¬ Terminates a.1 .preempt p := by
      rintro p ⟨pid, code, hop, -⟩
      cases hop
    have hawake : schedulerTaskIsRunnable (b.1.tasks i) = true → (b.1.tasks i).state
        ≠ .sleeping := by
      intro hrun hsleeping
      rw [schedulerTaskIsRunnable, hsleeping] at hrun
      cases hrun
    rcases h.step hs (timedStep_preempt L S a) with (⟨hterminated, -⟩ | ⟨-, hrun, hn⟩) | ⟨hsleeping,
      h'⟩
    · exact absurd hterminated hno
    · rcases hnext with (⟨hterminated, -⟩ | ⟨-, -, hp⟩) | ⟨hsleeping, -⟩
      · exact absurd hterminated hno
      · exact hn ▸ hp
      · exact absurd hsleeping (hawake hrun)
    · rcases hnext with (⟨hterminated, -⟩ | ⟨-, hrun, -⟩) | ⟨-, hrest⟩
      · exact absurd hterminated hno
      · exact absurd hsleeping (hawake hrun)
      · refine ih h' ?_ hrest
        show n = a.2 + 1 + m
        omega

end InFull

end Sleeper

/-! ## Short sleeps -/

section Call

variable {L : Layout} {S : Symbols} {k k' : Kernel} {ms T : Word}

/-- A sleep of some time takes some ticks, and no more of them than milliseconds. -/
theorem sleepTicks_bounds (hT : T ≠ 0) (hms : 0 < ms.toNat) :
    1 ≤ (ms.toNat + T.toNat - 1) / T.toNat ∧ (ms.toNat + T.toNat - 1) / T.toNat ≤ ms.toNat := by
  have hpos : 0 < T.toNat := Nat.pos_of_ne_zero fun h0 => hT (BitVec.eq_of_toNat_eq h0)
  refine ⟨(Nat.one_le_div_iff hpos).mpr (by omega), Nat.div_le_of_le_mul ?_⟩
  obtain ⟨m, hm⟩ := Nat.exists_eq_add_of_lt hms
  obtain ⟨r, hr⟩ := Nat.exists_eq_add_of_lt hpos
  rw [hm, hr]
  have : (0 + r + 1) * (0 + m + 1) = r * m + r + m + 1 := by ring
  omega

/-- **The call**: its task is awake again at once, the deadline having wrapped, or due after the
ticks of the sleep. -/
theorem sleepMs_dueAt (h : TableOk k) (hown : SessionsOwn k)
    (hstep : lifeStep L S k (.sleepMs ms T) = some k') (hT : T ≠ 0) (hpos : 0 < ms.toNat)
    (hms : ms.toNat ≤ 60000) (hstarted : k.threadsStarted = true) (h0 : k.currentTask ≠ 0) (j : ℕ) :
    (2 ^ 64 ≤ k.schedulerTicks.toNat + (ms.toNat + T.toNat - 1) / T.toNat
        ∧ schedulerTaskIsRunnable (k'.tasks k.currentTask) = true)
      ∨ k.schedulerTicks.toNat + (ms.toNat + T.toNat - 1) / T.toNat < 2 ^ 64
        ∧ (k'.tasks k.currentTask).state = .sleeping
        ∧ DueAt k.currentTask ((fallAsleep ms T k).tasks k.currentTask)
          (j + (ms.toNat + T.toNat - 1) / T.toNat) (k', j) := by
  obtain ⟨hsleeping, hdeadline⟩ := fallAsleep_task hT hms k
  obtain ⟨hone, hle⟩ := sleepTicks_bounds hT hpos
  obtain ⟨hstarted', hend⟩ := fallsAsleep_step h (lifeStep_spec hstep).2 hT hms hstarted h0
  have hcount : 2 ≤ k.taskCount := by
    have := h.current_lt
    omega
  have hticks : k'.schedulerTicks = k.schedulerTicks :=
    taskStep_ticks h (lifeStep_spec hstep).2 hstarted hcount
  have hlt := k.schedulerTicks.isLt
  rw [deadline, Nat.max_eq_right hone] at hdeadline hend
  rcases hend with hwakes | hstays
  · refine .inl ⟨?_, runnable_iff.mpr (hwakes.ready.imp_right And.left)⟩
    have hdue := hwakes.due
    rw [hticks] at hdue
    by_contra hno
    rw [Nat.mod_eq_of_lt (by omega)] at hdue
    omega
  · have hearly := hstays.early (.inr (.inr ?_))
    · rw [hticks] at hearly
      have hno : k.schedulerTicks.toNat + (ms.toNat + T.toNat - 1) / T.toNat < 2 ^ 64 := by omega
      refine .inr ⟨hno, hstays.sleeps.state_eq.trans hsleeping, tableOk_life h hstep,
        (dead_step h hown hstep).1, hstarted', fun hi => hstays.waits hi.symm,
        hstays.sleeps, by omega, ?_⟩
      rw [hticks, hdeadline, Nat.mod_eq_of_lt hno]
      omega
    · rw [schedulerChoice_sleepMs, if_neg (by simpa [hstarted, h0] using hT)]
      exact yieldChoice_isSome.mpr hcount

/-- **When a sleep is waited out**: the rounding covers what is gone of the tick. -/
theorem sleepsInFull_iff (h : TableOk k) (hown : SessionsOwn k)
    (hmakes : MakesCall S k (.sleepMs ms T)) (hT : T ≠ 0) (hpos : 0 < ms.toNat)
    (hms : ms.toNat ≤ 60000) (hstarted : k.threadsStarted = true) (h0 : k.currentTask ≠ 0) (j : ℕ)
    (s : ℝ) : SleepsInFull L S k ms T j s ↔
      (s - j * T.toNat) + ms.toNat ≤ ((ms.toNat + T.toNat - 1) / T.toNat : ℕ) * T.toNat
        ∧ k.schedulerTicks.toNat + (ms.toNat + T.toNat - 1) / T.toNat < 2 ^ 64 := by
  have hsleeping := (fallAsleep_task hT hms k).1
  set n := (ms.toNat + T.toNat - 1) / T.toNat with hn
  have htime : s + ms.toNat ≤ ((j + n : ℕ) : ℝ) * T.toNat
      ↔ (s - j * T.toNat) + ms.toNat ≤ (n : ℝ) * T.toNat := by
    rw [Nat.cast_add, add_mul]
    constructor <;> intro hle <;> linarith
  have hno : ∀ a p, ¬ Terminates a (.sleepMs ms T) p := by
    rintro a p ⟨pid, code, hop, -⟩
    cases hop
  constructor
  · intro hfull
    have hlife : lifeStep L S k (.sleepMs ms T) = some (schedulerSleepMs ms T k).1 := if_pos hmakes
    have hcall := hfull (List.replicate n .preempt) ((schedulerSleepMs ms T k).1, j)
      (by rw [timedStep, hlife]; rfl)
    rcases sleepMs_dueAt h hown hlife hT hpos hms hstarted h0
      j with ⟨-, hrun⟩ | ⟨hlt, hasleep, hdue⟩
    · -- the task is awake though no tick came
      rcases hcall with (⟨hterminated, -⟩ | ⟨hop, -⟩) | ⟨hasleep, -⟩
      · exact absurd hterminated (hno _ _)
      · cases hop
      · rw [schedulerTaskIsRunnable, hasleep] at hrun
        cases hrun
    · rcases hcall with (⟨hterminated, -⟩ | ⟨hop, -⟩) | ⟨-, hrest⟩
      · exact absurd hterminated (hno _ _)
      · cases hop
      · refine ⟨htime.mp ?_, hlt⟩
        exact hdue.of_ticks (P := fun n => s + ms.toNat ≤ (n : ℝ) * T.toNat) hsleeping rfl hrest
  · rintro ⟨hle, hlt⟩ later ⟨k', j'⟩ hstep
    obtain ⟨hlife, hj⟩ := timedStep_spec hstep
    obtain rfl : j' = j := hj
    rcases sleepMs_dueAt h hown hlife hT hpos hms hstarted h0 j' with ⟨hge, -⟩ | ⟨-, hasleep, hdue⟩
    · exact absurd hlt (by omega)
    · exact .inr ⟨hasleep, hdue.wakesAt (P := fun n => s + ms.toNat ≤ (n : ℝ) * T.toNat) hsleeping
        (htime.mpr hle) later⟩

end Call

/-- **A sleep lasts as long as was asked for precisely where the rounding covers what is gone of the
tick** it is asked for in, and the tick counter does not wrap: in every state of every run. -/
theorem sleeps_in_full_iff (L : Layout) (S : Symbols) (spaces : SpaceStatics)
    (ops : List KernelOp) :
    Always (lifeStep L S) (fun k => ∀ ms T j (s : ℝ), MakesCall S k (.sleepMs ms T) → T ≠ 0 →
      0 < ms.toNat → ms.toNat ≤ 60000 → k.threadsStarted = true → k.currentTask ≠ 0 →
      (SleepsInFull L S k ms T j s ↔
        (s - j * T.toNat) + ms.toNat ≤ ((ms.toNat + T.toNat - 1) / T.toNat : ℕ) * T.toNat
          ∧ k.schedulerTicks.toNat + (ms.toNat + T.toNat - 1) / T.toNat < 2 ^ 64))
      (bootKernel S spaces) ops :=
  (tableOk_sessionsOwn L S spaces ops).imp fun _ hI _ _ j s hmakes hT hpos hms hstarted h0 =>
    sleepsInFull_iff hI.1 hI.2 hmakes hT hpos hms hstarted h0 j s

/-- A thread asks for one tick's time in the middle of a tick, and wakes at the end of it. -/
theorem sleeps_half_a_tick : ¬ ∀ ops, Always (lifeStep bssLayout imageSymbols) (fun k =>
    ∀ ms T (j : ℕ) (s : ℝ), MakesCall imageSymbols k (.sleepMs ms T) → T ≠ 0 → 0 < ms.toNat →
      ms.toNat ≤ 60000 → k.threadsStarted = true → k.currentTask ≠ 0 → j * T.toNat < s →
      s < (j + 1) * T.toNat → SleepsInFull bssLayout imageSymbols k ms T j s) bssKernel ops := by
  intro hall
  have hrun : ((run (lifeStep bssLayout imageSymbols) bssKernel
      [.createKernelThread none 64, .startThreads, .preempt]).any fun k =>
        decide (k.threadsStarted = true ∧ k.currentTask = 1 ∧ k.current.state = .running))
          = true := by
    decide +kernel
  cases hk : run (lifeStep bssLayout imageSymbols) bssKernel
      [.createKernelThread none 64, .startThreads, .preempt] with
  | none =>
    rw [hk] at hrun
    cases hrun
  | some k =>
    rw [hk, Option.any_some, decide_eq_true_eq] at hrun
    obtain ⟨hstarted, hcurrent, hrunning⟩ := hrun
    obtain ⟨htable, hown⟩ := (tableOk_sessionsOwn bssLayout imageSymbols _ _).last hk
    have hmakes : MakesCall imageSymbols k (.sleepMs 10 10) := by
      rw [MakesCall, hrunning]
      simp
    have h0 : k.currentTask ≠ 0 := by rw [hcurrent]; decide
    have hten : (10 : Word).toNat = 10 := rfl
    have hfull := (hall _).last hk 10 10 1 15 hmakes (by decide) (by decide) (by decide) hstarted h0
      (by rw [hten]; norm_num) (by rw [hten]; norm_num)
    have hlong := ((sleepsInFull_iff htable hown hmakes (by decide) (by decide) (by decide) hstarted
      h0
      1 15).mp hfull).1
    rw [hten] at hlong
    norm_num at hlong

end SaturnOS
