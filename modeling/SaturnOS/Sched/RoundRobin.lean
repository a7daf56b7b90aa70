import SaturnOS.Machinery.Turns
import SaturnOS.Sched.Choices

/-!
# Sched/RoundRobin — whose turn it is

    0 │ 1 │ 2 │ ⋯ │ current │ ⋯ │ taskCount − 1
            ▲                 └──▸ ⋯ ──┐
            └──────────────────────────┘        the idle task only where nobody else can run

The search of `scheduler_next_runnable_task` goes once round the table, so it finds the first
runnable task of `rotated`.  While the set of runnable tasks stays as it is, whatever else happens
to the table, the choices of `scheduler_yield` and `scheduler_preempt` are the turns of that set
(`round_robin`).
-/

open Machinery

namespace SaturnOS

/-! ## Choices -/

/-- The tasks that can run, but for the idle one. -/
def runnableTasks (k : Kernel) : List ℕ :=
  (List.range k.taskCount).filter fun i => i != 0 && schedulerTaskIsRunnable (k.tasks i)

section Choice

variable {k k' : Kernel}

theorem pairwise_runnableTasks (k : Kernel) : (runnableTasks k).Pairwise (· < ·) :=
  List.pairwise_lt_range.filter _

theorem zero_notMem_runnableTasks (k : Kernel) : 0 ∉ runnableTasks k := by
  intro h
  simpa using (List.mem_filter.mp h).2

/-- Who can run is in the table and in the states. -/
theorem runnableTasks_congr (hcount : k'.taskCount = k.taskCount)
    (h : ∀ i, schedulerTaskIsRunnable (k'.tasks i) = schedulerTaskIsRunnable (k.tasks i)) :
    runnableTasks k' = runnableTasks k := by
  rw [runnableTasks, hcount]
  exact congrArg (List.filter · _) (funext fun i => by rw [h])

/-- **The search gives the turn to the next one**, and to the idle task where there is none. -/
theorem nextRunnable_turn (h : TableOk k) : schedulerNextRunnableTask k
    = ((rotated (runnableTasks k) k.currentTask).head?).getD 0 := by
  have hidle : schedulerTaskIsRunnable (k.tasks 0) = true := runnable_iff.mpr h.idle
  rw [schedulerNextRunnableTask, runnableTasks, head?_rotated_filter, rotated_range h.current_lt]
  split
  · rename_i c hfind
    rw [hfind]
    rfl
  · rename_i hfind
    rw [hfind, if_pos hidle]
    rfl

/-- What a call does that selects `c`: it is current, and had the turn. -/
structure Selects (k k' : Kernel) (c : ℕ) : Prop where
  current : k'.currentTask = c
  turn : c = ((rotated (runnableTasks k') k.currentTask).head?).getD 0

theorem modTask_runnable (k : Kernel) (p : ℕ) {f : Task → Task}
    (hf : schedulerTaskIsRunnable (f (k.tasks p)) = schedulerTaskIsRunnable (k.tasks p)) :
    runnableTasks (k.modTask p f) = runnableTasks k :=
  runnableTasks_congr rfl fun i => k.modTask_ind p f
    (P := fun i t => schedulerTaskIsRunnable t = schedulerTaskIsRunnable (k.tasks i)) hf
    (fun _ _ => rfl) i

theorem demoteTask_runnable (p : ℕ) (account : TaskAccounting → TaskAccounting) (k : Kernel) :
    runnableTasks (demoteTask p account k) = runnableTasks k := by
  rw [demoteTask]
  split
  · rename_i hrunning
    refine modTask_runnable k p ?_
    rw [runnable_iff.mpr (.inr hrunning)]
    rfl
  · rfl

theorem runTask_runnable {next : ℕ} (h : schedulerTaskIsRunnable (k.tasks next) = true) :
    runnableTasks (runTask next k) = runnableTasks k := by
  have hset : runnableTasks (schedulerSetRunningTask next k) = runnableTasks k :=
    modTask_runnable k next (h ▸ rfl)
  exact hset

/-- **A yield selects.** -/
theorem yield_selects (h : TableOk k) {c : ℕ} (hc : yieldChoice k = some c) :
    Selects k (schedulerYield k).1 c := by
  rw [yieldChoice] at hc
  obtain ⟨hcount, hc⟩ := Option.ite_none_left_eq_some.mp hc
  have hw := tableOk_wake h
  obtain ⟨-, hrun⟩ := nextRunnable_spec hw
  have hturn := nextRunnable_turn hw
  simp only [schedulerYield]
  rw [if_neg hcount]
  set w := schedulerWakeSleepingTasks k with hwdef
  obtain rfl : schedulerNextRunnableTask w = c := Option.some.inj hc
  set next := schedulerNextRunnableTask w
  have hcur : w.currentTask = k.currentTask := rfl
  split
  · rename_i heq
    rw [heq] at hrun
    rw [if_pos hrun]
    refine ⟨heq.symm, hturn.trans ?_⟩
    rw [modTask_runnable w k.currentTask (hrun ▸ rfl), hcur]
  · rename_i hne
    have hdrun : schedulerTaskIsRunnable
        ((demoteTask k.currentTask (fun a => { a with yields := a.yields + 1 }) w).tasks next)
        = true := by
      rw [demoteTask_of_ne w _ _ hne]
      exact hrun
    have hsame := (runTask_runnable hdrun).trans (demoteTask_runnable _ _ w)
    split
    · refine ⟨rfl, hturn.trans ?_⟩
      rw [← hsame, hcur]
      rfl
    · exact ⟨rfl, hturn.trans (by rw [hsame, hcur])⟩

/-- **A tick selects.** -/
theorem preempt_selects (h : TableOk k) {c : ℕ} (hc : schedulerChoice k .preempt = some c) :
    Selects k (schedulerPreempt k).1 c := by
  obtain ⟨hgo, hc⟩ := Option.ite_none_left_eq_some.mp hc
  have hu := tableOk_tickTable h
  obtain ⟨-, hrun⟩ := nextRunnable_spec hu
  have hturn := nextRunnable_turn hu
  rw [schedulerPreempt_eq, if_neg hgo]
  set u := tickTable k
  obtain rfl : schedulerNextRunnableTask u = c := Option.some.inj hc
  set next := schedulerNextRunnableTask u
  have hcur : u.currentTask = k.currentTask := rfl
  split
  · rename_i heq
    exact ⟨heq.symm, hturn⟩
  · rename_i hne
    set d := (demoteTask k.currentTask id u).modTask k.currentTask fun t =>
      { t with accounting := { t.accounting with
        preemptions := t.accounting.preemptions + 1 } } with hd
    have hdrun : schedulerTaskIsRunnable (d.tasks next) = true := by
      rw [hd, Kernel.modTask_of_ne _ _ _ hne, demoteTask_of_ne u _ _ hne]
      exact hrun
    have hsame : runnableTasks (runTask next d) = runnableTasks u :=
      ((runTask_runnable hdrun).trans (modTask_runnable _ _ rfl)).trans (demoteTask_runnable _ _ u)
    exact ⟨rfl, hturn.trans (by rw [hsame, hcur])⟩

/-- **A call that selects a task makes it current, and it had the turn.** -/
theorem taskStep_selects {L : Layout} {S : Symbols} (h : TableOk k) {op : KernelOp} {c : ℕ}
    (hstep : taskStep L S k op = some k') (hc : schedulerChoice k op = some c) :
    Selects k k' c := by
  obtain ⟨rfl, h0, rfl⟩ | ⟨hne, hsystem⟩ := taskStep_spec hstep
  · obtain ⟨hcurrent, hturn⟩ := yield_selects (tableOk_fallDead h h0) hc
    exact ⟨hcurrent, hturn⟩
  obtain ⟨-, sw, hcall⟩ := systemStep_spec hsystem
  cases op with
  | yield =>
    obtain rfl := congrArg Prod.fst (Option.some.inj hcall)
    exact yield_selects h hc
  | sleepMs ms intervalMs =>
    obtain rfl := congrArg Prod.fst (Option.some.inj hcall)
    rw [schedulerChoice_sleepMs] at hc
    obtain ⟨hgo, hc⟩ := Option.ite_none_left_eq_some.mp hc
    have h0 : k.currentTask ≠ 0 := by
      intro h0
      simp [h0] at hgo
    obtain ⟨hcurrent, hturn⟩ := yield_selects (tableOk_fallAsleep h h0 ms intervalMs) hc
    rw [schedulerSleepMs_eq, if_neg hgo]
    exact ⟨hcurrent, hturn⟩
  | preempt =>
    obtain rfl := congrArg Prod.fst (Option.some.inj hcall)
    exact preempt_selects h hc
  | exit => exact absurd rfl hne
  | _ => cases hc

/-- **The idle task is selected where nobody else can run**, and only there. -/
theorem Selects.idle_iff {c : ℕ} (h : Selects k k' c) : c = 0 ↔ runnableTasks k' = [] := by
  have hperm := perm_rotated (runnableTasks k') k.currentTask
  constructor
  · intro h0
    cases hrot : rotated (runnableTasks k') k.currentTask with
    | nil => exact (hrot ▸ hperm).symm.eq_nil
    | cons a r =>
      have ha : a = 0 := by
        have hturn := h.turn
        rw [hrot] at hturn
        exact hturn.symm.trans h0
      have hmem : a ∈ runnableTasks k' := hperm.mem_iff.mp (hrot ▸ List.mem_cons_self)
      exact absurd (ha ▸ hmem) (zero_notMem_runnableTasks k')
  · intro hnil
    rw [h.turn, hnil]
    rfl

/-- Where another task can run a yield selects, and so does a tick once the threads run. -/
theorem schedulerChoice_isSome {L : Layout} {S : Symbols} {op : KernelOp}
    (hstep : taskStep L S k op = some k') (hrun : runnableTasks k' ≠ [])
    (hop : op = .yield ∨ op = .preempt ∧ k.threadsStarted = true) :
    (schedulerChoice k op).isSome = true := by
  have hcount : 2 ≤ k'.taskCount := by
    obtain ⟨i, hi⟩ := List.exists_mem_of_ne_nil _ hrun
    have hlt := List.mem_range.mp (List.mem_filter.mp hi).1
    have h0 : i ≠ 0 := fun h0 => zero_notMem_runnableTasks k' (h0 ▸ hi)
    omega
  rcases hop with rfl | ⟨rfl, hstarted⟩
  · have hkeeps : k'.taskCount = k.taskCount := by
      obtain rfl := Option.some.inj hstep
      exact (yield_resched k).taskCount
    exact yieldChoice_isSome.mpr (by omega)
  · have hkeeps : k'.taskCount = k.taskCount := by
      obtain rfl := Option.some.inj hstep
      exact (preempt_resched k).taskCount
    exact preemptChoice_isSome.mpr ⟨hstarted, by omega⟩

end Choice

/-! ## Runs -/

/-- The tasks that the calls of a run select, one after the other. -/
def selections (L : Layout) (S : Symbols) : Kernel → List KernelOp → List ℕ
  | _, [] => []
  | k, op :: ops =>
    match taskStep L S k op with
    | none => []
    | some k' => (schedulerChoice k op).toList ++ selections L S k' ops

section Runs

variable {L : Layout} {S : Symbols} {k : Kernel}

/-- **While the same tasks can run, they take turns**, whatever else the calls do. -/
theorem selections_turns {l : List ℕ} (hl : l ≠ []) (h : TableOk k) (ops : List KernelOp)
    (hfix : Along (taskStep L S) (fun _ _ k' => runnableTasks k' = l) k ops) :
    selections L S k ops = turns l k.currentTask (selections L S k ops).length := by
  induction ops generalizing k with
  | nil => rfl
  | cons op ops ih =>
    rw [selections]
    split
    · rfl
    · rename_i k' hstep
      obtain ⟨hrun, hrest⟩ := hfix k' hstep
      have ih := ih (tableOk_task h hstep) hrest
      cases hc : schedulerChoice k op with
      | none =>
        rw [(other_call h hstep hc).currentTask] at ih
        exact ih
      | some c =>
        obtain ⟨hcurrent, hturn⟩ := taskStep_selects h hstep hc
        rw [hrun] at hturn
        rw [hcurrent] at ih
        cases hrot : rotated l k.currentTask with
        | nil => exact absurd (hrot ▸ perm_rotated l k.currentTask).symm.eq_nil hl
        | cons a r =>
          obtain rfl : c = a := by
            rw [hrot] at hturn
            exact hturn
          show c :: selections L S k' ops
            = turns l k.currentTask ((selections L S k' ops).length + 1)
          rw [turns, hrot, List.head?_cons]
          exact congrArg (c :: ·) ih

/-- What round robin promises from a state on. -/
structure RoundRobin (L : Layout) (S : Symbols) (k : Kernel) : Prop where
  /-- As many selections as there are tasks to run select each once, in cyclic order. -/
  turns : ∀ l ops, l ≠ [] → Along (taskStep L S) (fun _ _ k' => runnableTasks k' = l) k ops →
    (selections L S k ops).length = l.length →
    selections L S k ops = rotated l k.currentTask ∧ (selections L S k ops).Perm l ∧ l.Nodup
  /-- A selected task is current; the idle one is selected where nobody else can run. -/
  idle : ∀ op k' c, taskStep L S k op = some k' → schedulerChoice k op = some c →
    k'.currentTask = c ∧ (c = 0 ↔ runnableTasks k' = [])
  /-- Every yield and every tick selects. -/
  selects : ∀ op k', taskStep L S k op = some k' → runnableTasks k' ≠ [] →
    op = .yield ∨ op = .preempt ∧ k.threadsStarted = true → (schedulerChoice k op).isSome = true

/-- **Round robin without starvation**, from every state of every run. -/
theorem round_robin (L : Layout) (S : Symbols) (spaces : SpaceStatics) (ops : List KernelOp) :
    Always (taskStep L S) (RoundRobin L S) (bootKernel S spaces) ops := by
  refine Always.of_inv (fun _ _ _ h hstep => tableOk_task h hstep) (fun k h => ?_)
    (tableOk_boot S spaces) ops
  refine ⟨fun l ops hl hfix hlen => ?_, fun op k' c hstep hc => ?_,
    fun op k' hstep hrun hop => schedulerChoice_isSome hstep hrun hop⟩
  · have hsorted : l.Pairwise (· < ·) := by
      cases ops with
      | nil => exact absurd (List.length_eq_zero_iff.mp hlen.symm) hl
      | cons op ops =>
        cases hstep : taskStep L S k op with
        | none =>
          rw [selections, hstep] at hlen
          exact absurd (List.length_eq_zero_iff.mp hlen.symm) hl
        | some k' =>
          obtain ⟨rfl, -⟩ := hfix k' hstep
          exact pairwise_runnableTasks k'
    have hturns := selections_turns hl h ops hfix
    rw [hlen, turns_eq hsorted] at hturns
    exact ⟨hturns, hturns ▸ perm_rotated l k.currentTask, hsorted.imp fun hlt => hlt.ne⟩
  · have hsel := taskStep_selects h hstep hc
    exact ⟨hsel.current, hsel.idle_iff⟩

end Runs

end SaturnOS
