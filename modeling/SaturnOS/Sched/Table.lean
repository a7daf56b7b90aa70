import SaturnOS.Sched.Effects
import SaturnOS.Sched.System

/-!
# Sched/Table — the task table invariant

    0 (idle) │ 1 │ 2 │ ⋯ │ taskCount − 1 │ unused ⋯

`TableOk` is kept by every call of `kernelCall` — `scheduler_start_threads` only while the idle task
is current, as at boot.  A call rewrites single slots (`TableOk.of_tasks`), claims or clears one
(`tableOk_place`, `tableOk_clear`), or hands the CPU on (`tableOk_runTask`).  The idle task stays
runnable, so the search always ends at a runnable task.
-/

open Machinery

namespace SaturnOS

/-! ## The invariant -/

/-- What holds while a slot is being cleared or claimed: all but the last slot being in use. -/
structure TableCore (k : Kernel) : Prop where
  count_pos : 1 ≤ k.taskCount
  count_le : k.taskCount ≤ schedMaxTasks
  pid_eq : ∀ i < k.taskCount, (k.tasks i).pid = i
  parent_ne : ∀ i < k.taskCount, (k.tasks i).parentPid ≠ i
  unused_ge : ∀ i, k.taskCount ≤ i → (k.tasks i).state = .unused
  current_lt : k.currentTask < k.taskCount
  current_used : k.current.state ≠ .unused
  idle : (k.tasks 0).state = .ready ∨ (k.tasks 0).state = .running
  running : ∀ i, (k.tasks i).state = .running → i = k.currentTask

/-- **The table invariant.** -/
structure TableOk (k : Kernel) : Prop extends TableCore k where
  last_used : 1 < k.taskCount → (k.tasks (k.taskCount - 1)).state ≠ .unused

/-- A task that can stand in slot `p`. -/
structure GoodTask (k : Kernel) (p : ℕ) (t : Task) : Prop where
  pid_eq : t.pid = p
  parent_ne : t.parentPid ≠ p
  used : p = k.currentTask → t.state ≠ .unused
  idle : p = 0 → t.state = .ready ∨ t.state = .running
  running : t.state = .running → p = k.currentTask

/-- One slot of the table at a time… -/
theorem TableCore.goodTask {k : Kernel} (h : TableCore k) {p : ℕ} (hp : p < k.taskCount) :
    GoodTask k p (k.tasks p) where
  pid_eq := h.pid_eq p hp
  parent_ne := h.parent_ne p hp
  used := by
    rintro rfl
    exact h.current_used
  idle := by
    rintro rfl
    exact h.idle
  running := h.running p

/-- …by its place alone: pid, parent, state. -/
theorem GoodTask.congr {k : Kernel} {p : ℕ} {t t' : Task} (h : GoodTask k p t)
    (hs : SamePlace t t') : GoodTask k p t' where
  pid_eq := hs.pid_eq.trans h.pid_eq
  parent_ne := by rw [hs.parent_eq]; exact h.parent_ne
  used := by rw [hs.state_eq]; exact h.used
  idle := by rw [hs.state_eq]; exact h.idle
  running := by rw [hs.state_eq]; exact h.running

/-- **Slots rewritten by good tasks** keep the table, if none is given up. -/
theorem TableOk.of_tasks {k k' : Kernel} (h : TableOk k) (hc : k'.taskCount = k.taskCount)
    (hcur : k'.currentTask = k.currentTask)
    (hlt : ∀ i < k.taskCount, GoodTask k i (k'.tasks i)
      ∧ ((k'.tasks i).state = .unused → (k.tasks i).state = .unused))
    (hge : ∀ i, k.taskCount ≤ i → (k'.tasks i).state = .unused) : TableOk k' where
  count_pos := by rw [hc]; exact h.count_pos
  count_le := by rw [hc]; exact h.count_le
  pid_eq i hi := (hlt i (hc ▸ hi)).1.pid_eq
  parent_ne i hi := (hlt i (hc ▸ hi)).1.parent_ne
  unused_ge i hi := hge i (hc ▸ hi)
  current_lt := by rw [hc, hcur]; exact h.current_lt
  current_used := by
    rw [Kernel.current, hcur]
    exact (hlt _ h.current_lt).1.used rfl
  idle := (hlt 0 h.count_pos).1.idle rfl
  running i hi := by
    rw [hcur]
    by_cases hic : i < k.taskCount
    · exact (hlt i hic).1.running hi
    · rw [hge i (Nat.le_of_not_lt hic)] at hi
      exact nomatch hi
  last_used h1 hu := by
    rw [hc] at h1 hu
    exact h.last_used h1 ((hlt _ (by omega)).2 hu)

/-- **One slot rewritten.** -/
theorem TableOk.modTask {k : Kernel} (h : TableOk k) {p : ℕ} {f : Task → Task}
    (hp : p < k.taskCount) (ht : GoodTask k p (f (k.tasks p)))
    (hu : (f (k.tasks p)).state ≠ .unused) : TableOk (k.modTask p f) := by
  refine h.of_tasks rfl rfl (fun i hi => ?_) (fun i hi => ?_)
  · refine Kernel.modTask_ind k p f (P := fun i t => i < k.taskCount → GoodTask k i t
      ∧ (t.state = .unused → (k.tasks i).state = .unused)) ?_ ?_ i hi
    · exact fun _ => ⟨ht, fun hs => absurd hs hu⟩
    · exact fun j _ hj => ⟨h.goodTask hj, id⟩
  · rw [k.modTask_of_ne p f (by omega)]
    exact h.unused_ge i hi

/-- The same table, whatever else changed. -/
structure SameTable (k k' : Kernel) : Prop where
  taskCount : k'.taskCount = k.taskCount
  currentTask : k'.currentTask = k.currentTask
  place : ∀ i, SamePlace (k.tasks i) (k'.tasks i)

/-- A table may be compared with itself, and on. -/
theorem SameTable.refl (k : Kernel) : SameTable k k := ⟨rfl, rfl, fun _ => SamePlace.refl _⟩

theorem SameTable.trans {k k' k'' : Kernel} (h : SameTable k k') (h' : SameTable k' k'') :
    SameTable k k'' :=
  ⟨h'.taskCount.trans h.taskCount, h'.currentTask.trans h.currentTask,
    fun i => (h.place i).trans (h'.place i)⟩

theorem SameTable.of_tasks {k k' : Kernel} (ht : k'.tasks = k.tasks)
    (hc : k'.taskCount = k.taskCount) (hcur : k'.currentTask = k.currentTask) : SameTable k k' :=
  ⟨hc, hcur, fun i => by rw [ht]; exact SamePlace.refl _⟩

theorem SameTable.modTask (k : Kernel) (p : ℕ) {f : Task → Task}
    (hf : SamePlace (k.tasks p) (f (k.tasks p))) : SameTable k (k.modTask p f) :=
  ⟨rfl, rfl, k.modTask_ind p f (P := fun i t => SamePlace (k.tasks i) t) hf
    fun _ _ => SamePlace.refl _⟩

/-- …after a change that kept it. -/
theorem SameTable.mod {k k' : Kernel} (h : SameTable k k') (p : ℕ) {f : Task → Task}
    (hf : SamePlace (k'.tasks p) (f (k'.tasks p))) : SameTable k (k'.modTask p f) :=
  h.trans (SameTable.modTask k' p hf)

/-- **The invariant is about the places**: whatever else changes, it holds. -/
theorem TableOk.congr {k k' : Kernel} (h : TableOk k) (hs : SameTable k k') : TableOk k' :=
  h.of_tasks hs.taskCount hs.currentTask
    (fun i hi => ⟨(h.goodTask hi).congr (hs.place i), by rw [(hs.place i).state_eq]; exact id⟩)
    (fun i hi => by rw [(hs.place i).state_eq]; exact h.unused_ge i hi)

/-- The current task's session is the one in its slot. -/
theorem TableOk.userSession_eq {k : Kernel} (h : TableOk k) :
    k.sessionIndex = k.currentTask ∧ k.userSession = k.userSessions k.currentTask := by
  have hpid : k.current.pid = k.currentTask := h.pid_eq _ h.current_lt
  have hlt := h.current_lt
  have hle := h.count_le
  have hindex : k.sessionIndex = k.currentTask := by
    rw [Kernel.sessionIndex, hpid, if_neg (by omega)]
    exact Int.toNat_natCast _
  exact ⟨hindex, by rw [Kernel.userSession, hindex]⟩

/-! ## Clearing and claiming slots -/

/-- Trimming cuts the tail off. -/
theorem trimCount_le (tasks : ℕ → Task) : ∀ n, trimCount tasks n ≤ n
  | 0 => le_refl _
  | 1 => le_refl _
  | n + 2 => by
    rw [trimCount]
    split
    · exact (trimCount_le tasks (n + 1)).trans (Nat.le_succ _)
    · exact le_refl _

/-- **Trimming stops at a slot in use**, and gives up unused ones only. -/
theorem trimCount_spec (tasks : ℕ → Task) : ∀ n, 1 ≤ n → 1 ≤ trimCount tasks n
    ∧ (1 < trimCount tasks n → (tasks (trimCount tasks n - 1)).state ≠ .unused)
    ∧ ∀ i, trimCount tasks n ≤ i → i < n → (tasks i).state = .unused
  | 0, h => absurd h (by decide)
  | 1, _ => ⟨le_refl _, fun h => absurd h (Nat.lt_irrefl 1), fun i h h' => by
      have : trimCount tasks 1 = 1 := rfl
      omega⟩
  | n + 2, _ => by
    rw [trimCount]
    split
    · rename_i hu
      obtain ⟨h1, h2, h3⟩ := trimCount_spec tasks (n + 1) (by omega)
      refine ⟨h1, h2, fun i hi hi' => ?_⟩
      by_cases hlast : i = n + 1
      · rw [hlast, hu]
      · exact h3 i hi (by omega)
    · rename_i hu
      exact ⟨by omega, fun _ => hu, fun i hi hi' => by omega⟩

/-- **Trimming makes the table whole.** -/
theorem TableCore.trim {k : Kernel} (h : TableCore k) : TableOk (schedulerTrimUnusedTail k) := by
  obtain ⟨h1, h2, h3⟩ := trimCount_spec k.tasks k.taskCount h.count_pos
  have hle := trimCount_le k.tasks k.taskCount
  have hunused : ∀ i, trimCount k.tasks k.taskCount ≤ i → (k.tasks i).state = .unused := by
    intro i hi
    by_cases hic : i < k.taskCount
    · exact h3 i hi hic
    · exact h.unused_ge i (Nat.le_of_not_lt hic)
  exact {
    count_pos := h1
    count_le := hle.trans h.count_le
    pid_eq := fun i hi => h.pid_eq i (lt_of_lt_of_le hi hle)
    parent_ne := fun i hi => h.parent_ne i (lt_of_lt_of_le hi hle)
    unused_ge := hunused
    current_lt := by
      by_contra hge
      exact h.current_used (hunused _ (Nat.le_of_not_lt hge))
    current_used := h.current_used
    idle := h.idle
    running := h.running
    last_used := h2 }

/-- **A cleared slot**, not the idle one and not the current one, leaves the core of the table. -/
theorem TableCore.clear {k : Kernel} (h : TableCore k) {p : ℕ} (h0 : p ≠ 0)
    (hcur : p ≠ k.currentTask) : TableCore (schedulerClearTaskSlot p k) := by
  obtain ⟨hrest, hc, space, hp⟩ := clearTaskSlot_spec p k
  have hcu := hrest.currentTask
  refine ⟨by rw [hc]; exact h.count_pos, by rw [hc]; exact h.count_le, fun i hi => ?_,
    fun i hi => ?_, fun i hi => ?_, by rw [hc, hcu]; exact h.current_lt, ?_, ?_, fun i hi => ?_⟩
  · by_cases hip : i = p
    · rw [hip, hp]
      rfl
    · rw [hrest.tasks i hip]
      exact h.pid_eq i (hc ▸ hi)
  · by_cases hip : i = p
    · rw [hip, hp]
      exact fun hneg => by simp only [clearTask] at hneg; omega
    · rw [hrest.tasks i hip]
      exact h.parent_ne i (hc ▸ hi)
  · by_cases hip : i = p
    · rw [hip, hp]
      rfl
    · rw [hrest.tasks i hip]
      exact h.unused_ge i (hc ▸ hi)
  · rw [Kernel.current, hcu, hrest.tasks _ (Ne.symm hcur)]
    exact h.current_used
  · rw [hrest.tasks 0 (Ne.symm h0)]
    exact h.idle
  · by_cases hip : i = p
    · rw [hip, hp] at hi
      exact nomatch hi
    · rw [hrest.tasks i hip] at hi
      rw [hcu]
      exact h.running i hi

/-- A claimed slot, over a whole table: unused, and not the current one. -/
theorem TableOk.claim {k k' : Kernel} {p : ℕ} (h : TableOk k)
    (hclaim : claimTaskSlot k = some (k', p)) :
    k'.taskCount ≤ schedMaxTasks ∧ 0 < p ∧ p < k'.taskCount ∧ (k.tasks p).state = .unused
      ∧ p ≠ k.currentTask
      ∧ (k'.taskCount = k.taskCount ∨ p = k.taskCount ∧ k'.taskCount = k.taskCount + 1) := by
  obtain ⟨-, -, -, hslot⟩ := claimTaskSlot_spec hclaim
  have hle := h.count_le
  have hpos := h.count_pos
  have hu : (k.tasks p).state = .unused := by
    rcases hslot with ⟨-, -, hu, -⟩ | ⟨rfl, -, -⟩
    · exact hu
    · exact h.unused_ge _ (le_refl _)
  refine ⟨by omega, by omega, by omega, hu, ?_, by omega⟩
  rintro rfl
  exact h.current_used hu

/-- **A claimed slot filled**: a fresh task, not running, with no parent. -/
theorem tableOk_place {k k' k'' : Kernel} {p : ℕ} (h : TableOk k)
    (hclaim : claimTaskSlot k = some (k', p)) (hc : k''.taskCount = k'.taskCount)
    (hrest : ChangedAt p k k'') (hpid : (k''.tasks p).pid = p)
    (hparent : (k''.tasks p).parentPid ≠ p) (hused : (k''.tasks p).state ≠ .unused)
    (hrun : (k''.tasks p).state ≠ .running) : TableOk k'' := by
  have hcur := hrest.currentTask
  obtain ⟨hmax, hpos, hlt, hu, hpcur, hcount⟩ := h.claim hclaim
  have hold : ∀ i, i < k''.taskCount → i ≠ p → i < k.taskCount := by omega
  refine ⟨⟨?_, ?_, ?_, ?_, ?_, ?_, ?_, ?_, ?_⟩, ?_⟩
  · have := h.count_pos
    omega
  · omega
  · intro i hi
    by_cases hip : i = p
    · rw [hip, hpid]
    · rw [hrest.tasks i hip]
      exact h.pid_eq i (hold i hi hip)
  · intro i hi
    by_cases hip : i = p
    · rw [hip]
      exact hparent
    · rw [hrest.tasks i hip]
      exact h.parent_ne i (hold i hi hip)
  · intro i hi
    rw [hrest.tasks i (by omega)]
    exact h.unused_ge i (by omega)
  · have := h.current_lt
    omega
  · rw [Kernel.current, hcur, hrest.tasks _ (Ne.symm hpcur)]
    exact h.current_used
  · rw [hrest.tasks 0 (by omega)]
    exact h.idle
  · intro i hi
    by_cases hip : i = p
    · rw [hip] at hi
      exact absurd hi hrun
    · rw [hrest.tasks i hip] at hi
      rw [hcur]
      exact h.running i hi
  · intro h1
    by_cases hip : k''.taskCount - 1 = p
    · rw [hip]
      exact hused
    · rw [hrest.tasks _ hip]
      have hsame : k''.taskCount = k.taskCount := by omega
      rw [hsame] at h1 ⊢
      exact h.last_used h1

/-- **A claimed slot given back** is the table as it was. -/
theorem tableOk_release {k k' k'' : Kernel} {p : ℕ} (h : TableOk k)
    (hclaim : claimTaskSlot k = some (k', p)) (hc : k''.taskCount = k'.taskCount)
    (hrest : ChangedAt p k k'') (hpid : p < k.taskCount → (k''.tasks p).pid = p)
    (hparent : p < k.taskCount → (k''.tasks p).parentPid ≠ p)
    (hu' : (k''.tasks p).state = .unused) : TableOk (releaseTaskSlot p k'') := by
  have hcur := hrest.currentTask
  obtain ⟨-, hpos, hlt, hu, hpcur, hcount⟩ := h.claim hclaim
  -- the last slot is in use, so a slot found inside the table is not the last
  have hback : (releaseTaskSlot p k'').taskCount = k.taskCount := by
    rw [releaseTaskSlot]
    rcases hcount with hsame | ⟨rfl, hsucc⟩
    · have hne : p ≠ k''.taskCount - 1 := by
        intro hlast
        rw [hc, hsame] at hlast
        have := h.last_used (by omega)
        rw [← hlast] at this
        exact this hu
      rw [if_neg hne, hc, hsame]
    · rw [if_pos (by omega)]
      dsimp only
      omega
  have htasks : (releaseTaskSlot p k'').tasks = k''.tasks := by
    rw [releaseTaskSlot]
    split <;> rfl
  have hcur' : (releaseTaskSlot p k'').currentTask = k.currentTask := by
    rw [releaseTaskSlot]
    split <;> exact hcur
  refine h.of_tasks hback hcur' (fun i hi => ?_) (fun i hi => ?_)
  · rw [htasks]
    by_cases hip : i = p
    · obtain rfl := hip
      refine ⟨⟨hpid hi, hparent hi, fun hcu => absurd hcu hpcur, fun h0 => by omega, fun hr => ?_⟩,
        fun _ => hu⟩
      rw [hu'] at hr
      cases hr
    · rw [hrest.tasks i hip]
      exact ⟨h.goodTask hi, id⟩
  · rw [htasks]
    by_cases hip : i = p
    · rw [hip, hu']
    · rw [hrest.tasks i hip]
      exact h.unused_ge i hi

/-! ## The calls -/

section Calls

variable (L : Layout) (S : Symbols) {k : Kernel} (h : TableOk k)

include h

/-- **Creation keeps the table**: of a kernel thread… -/
theorem tableOk_createKernelThread (name : Option String) (entry : Word) :
    TableOk (schedulerCreateKernelThread S name entry k).1 := by
  rw [schedulerCreateKernelThread]
  cases hclaim : claimTaskSlot k with
  | none =>
    rw [schedulerAddTask, hclaim]
    exact h
  | some r =>
    obtain ⟨k', p⟩ := r
    obtain ⟨-, hrest, hc, -, hnew⟩ := addTask_spec S name entry hclaim
    refine tableOk_place h hclaim hc hrest hnew.pid_eq ?_ ?_ ?_
    · rw [hnew.parent_eq]
      omega
    · rw [hnew.state_eq]
      simp
    · rw [hnew.state_eq]
      simp

/-- **However the creation of a user task ends**, the table is whole. -/
theorem tableOk_outcome {r : Kernel × ℤ} (ho : UserTaskOutcome k r) : TableOk r.1 := by
  cases ho with
  | refused => exact h
  | undone hclaim hrest hcount hslot =>
    rename_i k' k₁ p
    obtain ⟨-, -, -, hu, -, -⟩ := h.claim hclaim
    rcases hslot with hsame | ⟨hpid, hparent, hstate⟩
    · refine tableOk_release h hclaim hcount hrest (fun hp => ?_) (fun hp => ?_) ?_
      · rw [hsame.pid_eq]
        exact h.pid_eq p hp
      · rw [hsame.parent_eq]
        exact h.parent_ne p hp
      · rw [hsame.state_eq, hu]
    · refine tableOk_release h hclaim hcount hrest (fun _ => hpid) (fun _ => ?_) hstate
      rw [hparent]
      omega
  | created hclaim hrest hcount hnew =>
    rename_i k' k₁ p
    refine tableOk_place h hclaim hcount hrest hnew.pid_eq ?_ ?_ ?_
    · rw [hnew.parent_eq]
      omega
    · rw [hnew.state_eq]
      exact nofun
    · rw [hnew.state_eq]
      exact nofun

/-- …and of a user task, however far it gets. -/
theorem tableOk_createUserTask (name : Option String) (file argument : Option (List Byte)) :
    TableOk (schedulerCreateUserTaskFromImage L S name file argument k).1 :=
  tableOk_outcome h (createUserTask_outcome L S name file argument h.count_le)

/-- A slot that keeps its pid and parent, and goes from one state to another neither unused nor
running, past the idle task. -/
theorem TableOk.setState {p : ℕ} {f : Task → Task} (hp : p < k.taskCount) (h0 : p ≠ 0)
    (hpid : (f (k.tasks p)).pid = (k.tasks p).pid)
    (hparent : (f (k.tasks p)).parentPid = (k.tasks p).parentPid)
    (hu : (f (k.tasks p)).state ≠ .unused) (hr : (f (k.tasks p)).state ≠ .running) :
    TableOk (k.modTask p f) := by
  refine h.modTask hp ⟨?_, ?_, fun _ => hu, fun hz => absurd hz h0, fun hrun => absurd hrun hr⟩ hu
  · rw [hpid, h.pid_eq p hp]
  · rw [hparent]
    exact h.parent_ne p hp

/-- A blocked task is not the idle one. -/
theorem ne_zero_of_state {p : ℕ} {s : TaskState} (hs : (k.tasks p).state = s)
    (h1 : s ≠ .ready) (h2 : s ≠ .running) : p ≠ 0 := by
  rintro rfl
  rcases h.idle with hi | hi
  · exact h1 (hs.symm.trans hi)
  · exact h2 (hs.symm.trans hi)

/-- A task that is readmitted was in use before. -/
theorem tableOk_readmits {p : ℕ} {k' : Kernel} (hr : Readmits p k k') : TableOk k' := by
  rcases hr with rfl | ⟨hlt, hblocked, f, rfl, ht⟩
  · exact h
  · refine h.setState hlt ?_ ht.pid_eq ht.parent_eq ht.used.2 ?_
    · rintro rfl
      exact ne_zero_of_state h (hblocked rfl) nofun nofun rfl
    · rcases ht.now with hs | hs <;> rw [hs] <;> exact nofun

/-- **Reaping keeps the table**: what is cleared is not the current task; the tail is trimmed. -/
theorem tableOk_reapZombieTask (pid : ℤ) : TableOk (schedulerReapZombieTask pid k).1 := by
  simp only [schedulerReapZombieTask]
  split
  · exact h
  · rename_i hp
    simp only [Bool.or_eq_true, Bool.not_eq_true', beq_iff_eq, not_or, Bool.not_eq_false] at hp
    obtain ⟨hlt, heq⟩ := pidInTable_lt hp.1.1
    split
    · exact h
    · exact (h.toTableCore.clear (fun h0 => hp.1.2 (by omega)) (fun hc => hp.2 (by omega))).trim

theorem tableOk_reapZombies : TableOk (schedulerReapZombies k).1 := by
  simp only [schedulerReapZombies]
  refine TableCore.trim ?_
  refine List.foldlRecOn (motive := TableCore) _ reapSlot h.toTableCore fun k' hk' i hi => ?_
  rw [reapSlot]
  split
  · rename_i hz
    exact hk'.clear (by have := (mem_slots.mp hi).1; omega) hz.1
  · exact hk'

theorem tableOk_waitOnTask {p : ℕ} (hcur : p ≠ k.currentTask) (h0 : p ≠ 0) :
    TableOk (waitOnTask p k).1 := by
  simp only [waitOnTask]
  split
  · exact h
  · split
    · exact h
    · exact (h.toTableCore.clear h0 hcur).trim

/-- A child is not its own parent. -/
theorem child_ne_current {p : ℕ} (hlt : p < k.taskCount)
    (hparent : (k.tasks p).parentPid = k.currentTask) : p ≠ k.currentTask := by
  rintro rfl
  exact h.parent_ne _ hlt hparent

/-- The child that a wait for any finds is another task than the caller. -/
theorem zombieChild_spec {p : ℕ} (hz : zombieChild k = some p) :
    0 < p ∧ p < k.taskCount ∧ (k.tasks p).parentPid = k.currentTask
      ∧ (k.tasks p).state = .zombie ∧ p ≠ k.currentTask := by
  have hmem := mem_slots.mp (List.mem_of_find?_eq_some hz)
  have hp := List.find?_some hz
  simp only [Bool.and_eq_true, beq_iff_eq] at hp
  exact ⟨hmem.1, hmem.2, hp.1, hp.2, child_ne_current h hmem.2 hp.1⟩

theorem tableOk_waitTaskStatus (pid : ℤ) (hasStatus : Bool) :
    TableOk (schedulerWaitTaskStatus pid hasStatus k).1 := by
  simp only [schedulerWaitTaskStatus]
  split
  · exact h
  · rename_i hp
    simp only [Bool.or_eq_true, Bool.not_eq_true', beq_iff_eq, not_or, Bool.not_eq_false] at hp
    obtain ⟨hlt, heq⟩ := pidInTable_lt hp.1.2
    split
    · split
      · rename_i p hz
        obtain ⟨h0, -, -, -, hcur⟩ := zombieChild_spec h hz
        exact tableOk_waitOnTask h hcur (by omega)
      · exact h
    · exact tableOk_waitOnTask h (fun hc => hp.2 (by omega)) (by omega)

/-- A parent is not the task itself. -/
theorem tableOk_setTaskParent (pid parentPid : ℤ) :
    TableOk (schedulerSetTaskParent pid parentPid k).1 := by
  simp only [schedulerSetTaskParent]
  split
  · exact h
  · rename_i hp
    have hlt : pid.toNat < k.taskCount := by omega
    have hg := h.goodTask hlt
    refine h.of_tasks rfl rfl (fun i hi => ?_) (fun i hi => ?_)
    · by_cases hip : i = pid.toNat
      · obtain rfl := hip
        dsimp only
        rw [Kernel.modTask_self]
        exact ⟨⟨hg.pid_eq, fun hne => by dsimp only at hne; omega, hg.used, hg.idle, hg.running⟩,
          id⟩
      · dsimp only
        rw [Kernel.modTask_of_ne _ _ _ hip]
        exact ⟨h.goodTask hi, id⟩
    · dsimp only
      rw [Kernel.modTask_of_ne _ _ _ (by omega)]
      exact h.unused_ge i hi

/-- A child that is terminated is a zombie, in use. -/
theorem tableOk_terminateChild (pid : ℤ) (code : Word) :
    TableOk (schedulerTerminateChild pid code k).1 := by
  simp only [schedulerTerminateChild]
  split
  · exact h
  · rename_i hp
    simp only [Bool.not_eq_true', Bool.not_eq_false, canTerminate, Bool.and_eq_true,
      decide_eq_true_eq] at hp
    dsimp only
    exact h.setState (by omega) (by omega) rfl rfl nofun nofun

theorem tableOk_spawnChild (file argument : Option (List Byte)) :
    TableOk (spawnChild L S file argument k).1 := by
  have hcreate := tableOk_createUserTask L S h (some "user-child") file argument
  simp only [spawnChild]
  split
  · exact hcreate
  · have hparent := tableOk_setTaskParent hcreate
      (schedulerCreateUserTaskFromImage L S (some "user-child") file argument k).2
      (schedulerCreateUserTaskFromImage L S (some "user-child") file argument k).1.current.pid
    split
    · rename_i heq
      rwa [heq] at hparent
    · rename_i k₂ heq
      rw [heq] at hparent
      have hunblock := tableOk_readmits hparent (unblockUserTask_readmits S
        (schedulerCreateUserTaskFromImage L S (some "user-child") file argument k).2 k₂)
      split <;> exact hunblock

/-! ### Sessions -/

theorem tableOk_closes {k' : Kernel} (hc : ClosesSessions k k') : TableOk k' :=
  h.congr ⟨hc.taskCount, hc.currentTask, fun i => (hc.tasks i).samePlace⟩

/-- **Sessions keep the table**: the end of a task… -/
theorem tableOk_finishUserTask {p : ℕ} (status : UserModeStatus) (hp : p < k.taskCount)
    (h0 : p ≠ 0) : TableOk (finishUserTask p status k).1 := by
  rw [finishUserTask]
  split
  · dsimp only
    exact h.setState hp h0 rfl rfl nofun nofun
  · dsimp only
    exact h.setState hp h0 rfl rfl nofun nofun

omit h in
theorem runTaskEnter_sameTable (p : ℕ) : SameTable k (userModeRunTaskEnter S p k).1 := by
  simp only [userModeRunTaskEnter]
  split
  · exact SameTable.refl k
  · split
    · exact SameTable.refl k
    · split
      · exact SameTable.refl k
      · split
        · exact SameTable.refl k
        · dsimp only
          have hopen : ∀ k₁ : Kernel, k₁.tasks = k.tasks → k₁.taskCount = k.taskCount →
              k₁.currentTask = k.currentTask → SameTable k (k₁.modTask p fun t =>
                { t with userStatus :=
                  { t.userStatus with el0Entries := t.userStatus.el0Entries + 1 } }) :=
            fun k₁ ht hc hcur => (SameTable.of_tasks ht hc hcur).mod p ⟨rfl, rfl, rfl⟩
          exact hopen _ rfl rfl rfl

/-- …its way into EL0… -/
theorem tableOk_enterEl0 {p : ℕ} (h0 : p ≠ 0) :
    TableOk (schedulerRunUserTaskEnter S p k).1 := by
  rw [schedulerRunUserTaskEnter]
  split
  · exact h
  · rename_i hlt
    split
    · exact h
    · have hsame := runTaskEnter_sameTable (k := k) S p
      split
      · rename_i k₁ heq
        rw [heq] at hsame
        exact h.congr hsame
      · rename_i k₁ status _ heq
        rw [heq] at hsame
        have hk₁ := h.congr hsame
        refine tableOk_finishUserTask hk₁ status ?_ h0
        rw [hsame.taskCount]
        omega

/-- …and its way back. -/
theorem tableOk_completeUserTask {p : ℕ} (hp : p < k.taskCount) (h0 : p ≠ 0) :
    TableOk (schedulerRunUserTaskReturn p k).1 := by
  have hc := runTaskReturn_closes p k
  have hk₁ := tableOk_closes h hc
  refine tableOk_finishUserTask hk₁ _ ?_ h0
  rw [hc.taskCount]
  exact hp

/-! ### Scheduling -/

/-- **The search always finds a runnable task**: at worst the idle one. -/
theorem nextRunnable_spec : schedulerNextRunnableTask k < k.taskCount
    ∧ schedulerTaskIsRunnable (k.tasks (schedulerNextRunnableTask k)) = true := by
  have hidle : schedulerTaskIsRunnable (k.tasks 0) = true := runnable_iff.mpr h.idle
  rw [schedulerNextRunnableTask]
  split
  · rename_i c hfind
    obtain ⟨i, -, rfl⟩ := List.mem_map.mp (List.mem_of_find?_eq_some hfind)
    have hc := List.find?_some hfind
    exact ⟨Nat.mod_lt _ h.count_pos, (Bool.and_eq_true_iff.mp hc).2⟩
  · rw [if_pos hidle]
    exact ⟨h.count_pos, hidle⟩

/-- The waking pass makes sleepers ready, nobody else. -/
theorem tableOk_wake : TableOk (schedulerWakeSleepingTasks k) := by
  refine h.of_tasks rfl rfl (fun i hi => ?_) (fun i hi => ?_)
  · have hg := h.goodTask hi
    dsimp only [schedulerWakeSleepingTasks]
    rw [if_pos hi, wakeTask]
    split
    · rename_i hsleep
      exact ⟨⟨hg.pid_eq, hg.parent_ne, fun _ => by simp, fun _ => .inl rfl, by simp⟩, by simp⟩
    · exact ⟨hg, id⟩
  · dsimp only [schedulerWakeSleepingTasks]
    rw [if_neg (Nat.not_lt.mpr hi)]
    exact h.unused_ge i hi

/-- **Handing the CPU on**: with no task running, `next` runs and is current. -/
theorem tableOk_runTask (next : ℕ) (hlt : next < k.taskCount)
    (hno : ∀ i, (k.tasks i).state ≠ .running) : TableOk (runTask next k) := by
  have hg := h.goodTask hlt
  have hstate : ((runTask next k).tasks next).state = .running := by
    simp [runTask, schedulerSetRunningTask]
  have hrest : ∀ i, i ≠ next → (runTask next k).tasks i = k.tasks i := by
    intro i hi
    dsimp only [runTask, schedulerSetRunningTask]
    exact k.modTask_of_ne next _ hi
  have hpid : ((runTask next k).tasks next).pid = (k.tasks next).pid := by
    simp [runTask, schedulerSetRunningTask]
  have hparent : ((runTask next k).tasks next).parentPid = (k.tasks next).parentPid := by
    simp [runTask, schedulerSetRunningTask]
  refine ⟨⟨h.count_pos, h.count_le, fun i hi => ?_, fun i hi => ?_, fun i hi => ?_, hlt, ?_, ?_,
    fun i hi => ?_⟩, fun h1 => ?_⟩
  · by_cases hin : i = next
    · rw [hin, hpid, hg.pid_eq]
    · rw [hrest i hin]
      exact h.pid_eq i hi
  · by_cases hin : i = next
    · rw [hin, hparent]
      exact hg.parent_ne
    · rw [hrest i hin]
      exact h.parent_ne i hi
  · have hi' : k.taskCount ≤ i := hi
    rw [hrest i (by omega)]
    exact h.unused_ge i hi
  · have hcur : (runTask next k).current = (runTask next k).tasks next := rfl
    rw [hcur, hstate]
    simp
  · by_cases hin : 0 = next
    · rw [hin, hstate]
      exact .inr rfl
    · rw [hrest 0 hin]
      exact h.idle
  · by_cases hin : i = next
    · rw [hin]
      rfl
    · rw [hrest i hin] at hi
      exact absurd hi (hno i)
  · have hc : (runTask next k).taskCount = k.taskCount := rfl
    rw [hc] at h1 ⊢
    by_cases hin : k.taskCount - 1 = next
    · rw [hin, hstate]
      simp
    · rw [hrest _ hin]
      exact h.last_used h1

/-- **The task handing over stops running**, so none is. -/
theorem tableOk_demoteTask (account : TaskAccounting → TaskAccounting) :
    TableOk (demoteTask k.currentTask account k)
      ∧ ∀ i, ((demoteTask k.currentTask account k).tasks i).state ≠ .running := by
  have hg := h.goodTask h.current_lt
  rw [demoteTask]
  split
  · constructor
    · exact h.modTask h.current_lt
        ⟨hg.pid_eq, hg.parent_ne, fun _ => by simp, fun _ => .inl rfl, by simp⟩ (by simp)
    · intro i hi
      by_cases hic : i = k.currentTask
      · rw [hic, Kernel.modTask_self] at hi
        cases hi
      · rw [k.modTask_of_ne _ _ hic] at hi
        exact hic (h.running i hi)
  · rename_i hnr
    refine ⟨h, fun i hi => hnr ?_⟩
    rw [← h.running i hi]
    exact hi

omit h in
theorem demoteTask_taskCount (p : ℕ) (account : TaskAccounting → TaskAccounting) :
    (demoteTask p account k).taskCount = k.taskCount := by
  rw [demoteTask]
  split <;> rfl

/-- **Yielding keeps the table and never gets stuck.** -/
theorem tableOk_yield : TableOk (schedulerYield k).1 ∧ (schedulerYield k).2 ≠ .stuck := by
  simp only [schedulerYield]
  split
  · exact ⟨h, by simp⟩
  · have hw := tableOk_wake h
    set w := schedulerWakeSleepingTasks k with hwdef
    obtain ⟨hlt, hrun⟩ := nextRunnable_spec hw
    set next := schedulerNextRunnableTask w
    have hcur : k.currentTask = w.currentTask := rfl
    rw [hcur]
    split
    · rename_i heq
      rw [heq] at hrun
      have hg := hw.goodTask hw.current_lt
      rw [if_pos hrun]
      dsimp only
      refine ⟨hw.modTask hw.current_lt ?_ (by simp), by simp⟩
      exact ⟨hg.pid_eq, hg.parent_ne, fun _ => by simp, fun _ => .inr rfl, fun _ => rfl⟩
    · obtain ⟨hd, hno⟩ := tableOk_demoteTask hw fun a => { a with yields := a.yields + 1 }
      set d := demoteTask w.currentTask (fun a => { a with yields := a.yields + 1 }) w with hddef
      have hr := tableOk_runTask hd next (by rw [hddef, demoteTask_taskCount]; exact hlt) hno
      set r := runTask next d
      split
      · exact ⟨hr.congr (SameTable.of_tasks rfl rfl rfl), by simp⟩
      · exact ⟨hr, by simp⟩

/-- **A switch keeps the table, and never gets stuck**: the idle task can always run. -/
theorem tableOk_sleepMs (ms intervalMs : Word) :
    TableOk (schedulerSleepMs ms intervalMs k).1 ∧ (schedulerSleepMs ms intervalMs k).2
    ≠ .stuck := by
  simp only [schedulerSleepMs]
  split
  · exact ⟨h, by simp⟩
  · rename_i hgo
    simp only [Bool.or_eq_true, Bool.not_eq_true', beq_iff_eq, not_or, Bool.not_eq_false] at hgo
    refine tableOk_yield ?_
    exact h.setState h.current_lt hgo.1.2 rfl rfl (by simp) (by simp)

theorem tableOk_preempt : TableOk (schedulerPreempt k).1 ∧ (schedulerPreempt k).2 ≠ .stuck := by
  simp only [schedulerPreempt]
  split
  · exact ⟨h, by simp⟩
  · have htick : SameTable k { k with schedulerTicks := k.schedulerTicks + 1 } :=
      SameTable.of_tasks rfl rfl rfl
    have hw := tableOk_wake (h.congr htick)
    set w := schedulerWakeSleepingTasks { k with schedulerTicks := k.schedulerTicks + 1 }
    have hu := hw.congr (SameTable.modTask w w.currentTask (f := fun t =>
      { t with accounting := { t.accounting with runTicks := t.accounting.runTicks + 1 } })
      ⟨rfl, rfl, rfl⟩)
    set u := w.modTask w.currentTask fun t =>
      { t with accounting := { t.accounting with runTicks := t.accounting.runTicks + 1 } }
    obtain ⟨hlt, -⟩ := nextRunnable_spec hu
    set next := schedulerNextRunnableTask u
    have hcur : w.currentTask = u.currentTask := rfl
    rw [hcur]
    split
    · exact ⟨hu, by simp⟩
    · obtain ⟨hd, hno⟩ := tableOk_demoteTask hu id
      set d := demoteTask u.currentTask id u with hddef
      have ha := SameTable.modTask d u.currentTask (f := fun t =>
        { t with accounting := { t.accounting with preemptions := t.accounting.preemptions + 1 } })
        ⟨rfl, rfl, rfl⟩
      refine ⟨tableOk_runTask (hd.congr ha) _ ?_ fun i => ?_, by simp⟩
      · rw [ha.taskCount, hddef, demoteTask_taskCount]
        exact hlt
      · rw [(ha.place i).state_eq]
        exact hno i

/-- Children whose parent dies have none. -/
theorem tableOk_orphanChildren (p : ℕ) : TableOk (orphanChildren p k) := by
  refine h.of_tasks rfl rfl (fun i hi => ?_) (fun i hi => ?_)
  · have hg := h.goodTask hi
    dsimp only [orphanChildren]
    split
    · exact ⟨⟨hg.pid_eq, fun hneg => by dsimp only at hneg; omega, hg.used, hg.idle, hg.running⟩,
        id⟩
    · exact ⟨hg, id⟩
  · dsimp only [orphanChildren]
    rw [if_neg (by omega)]
    exact h.unused_ge i hi

theorem tableOk_exitTask (h0 : k.currentTask ≠ 0) :
    TableOk (schedulerExitTask k.currentTask k).1
      ∧ (schedulerExitTask k.currentTask k).2 ≠ .stuck := by
  have hz := (tableOk_orphanChildren h k.currentTask).setState (p := k.currentTask)
    (f := fun t => { t with state := .zombie }) h.current_lt h0 rfl rfl nofun nofun
  simp only [schedulerExitTask]
  exact tableOk_yield (hz.congr (SameTable.of_tasks rfl rfl rfl))

theorem tableOk_startThreads (h0 : k.currentTask = 0) : TableOk (schedulerStartThreads k) := by
  have hstart : TableOk { k with threadsStarted := true, currentTask := 0 } :=
    h.congr ⟨rfl, h0.symm, fun _ => SamePlace.refl _⟩
  have hg := hstart.goodTask hstart.count_pos
  rw [schedulerStartThreads, schedulerSetRunningTask]
  refine hstart.modTask hstart.count_pos ?_ (by simp)
  exact ⟨hg.pid_eq, hg.parent_ne, fun _ => by simp, fun _ => .inr rfl, fun _ => rfl⟩

/-- **Every call keeps the table and finds a task to run**; `scheduler_start_threads` while the idle
task is current. -/
theorem tableOk_call {op : KernelOp} {k' : Kernel} {sw : Switch}
    (hstart : op = .startThreads → k.currentTask = 0)
    (hcall : kernelCall L S k op = some (k', sw)) : TableOk k' ∧ sw ≠ .stuck := by
  cases op with
  | createKernelThread name entry =>
    obtain ⟨rfl, rfl⟩ := Prod.mk.inj (Option.some.inj hcall)
    exact ⟨tableOk_createKernelThread S h name entry, nofun⟩
  | createUserTask name file argument =>
    obtain ⟨rfl, rfl⟩ := Prod.mk.inj (Option.some.inj hcall)
    exact ⟨tableOk_createUserTask L S h name file argument, nofun⟩
  | spawn file argument =>
    obtain ⟨rfl, rfl⟩ := Prod.mk.inj (Option.some.inj hcall)
    exact ⟨tableOk_spawnChild L S h file argument, nofun⟩
  | unblockUserTask pid =>
    obtain ⟨rfl, rfl⟩ := Prod.mk.inj (Option.some.inj hcall)
    exact ⟨tableOk_readmits h (unblockUserTask_readmits S pid k), nofun⟩
  | blockTask pid =>
    obtain ⟨rfl, rfl⟩ := Prod.mk.inj (Option.some.inj hcall)
    exact ⟨tableOk_readmits h (blockTask_readmits pid k), nofun⟩
  | unblockTask pid =>
    obtain ⟨rfl, rfl⟩ := Prod.mk.inj (Option.some.inj hcall)
    exact ⟨tableOk_readmits h (unblockTask_readmits pid k), nofun⟩
  | reapZombieTask pid =>
    obtain ⟨rfl, rfl⟩ := Prod.mk.inj (Option.some.inj hcall)
    exact ⟨tableOk_reapZombieTask h pid, nofun⟩
  | reapZombies =>
    obtain ⟨rfl, rfl⟩ := Prod.mk.inj (Option.some.inj hcall)
    exact ⟨tableOk_reapZombies h, nofun⟩
  | waitTaskStatus pid hasStatus =>
    obtain ⟨rfl, rfl⟩ := Prod.mk.inj (Option.some.inj hcall)
    exact ⟨tableOk_waitTaskStatus h pid hasStatus, nofun⟩
  | setTaskParent pid parentPid =>
    obtain ⟨rfl, rfl⟩ := Prod.mk.inj (Option.some.inj hcall)
    exact ⟨tableOk_setTaskParent h pid parentPid, nofun⟩
  | terminateChild pid code =>
    obtain ⟨rfl, rfl⟩ := Prod.mk.inj (Option.some.inj hcall)
    exact ⟨tableOk_terminateChild h pid code, nofun⟩
  | startThreads =>
    obtain ⟨rfl, rfl⟩ := Prod.mk.inj (Option.some.inj hcall)
    exact ⟨tableOk_startThreads h (hstart rfl), nofun⟩
  | yield =>
    have heq : schedulerYield k = (k', sw) := Option.some.inj hcall
    have hok := tableOk_yield h
    rwa [heq] at hok
  | sleepMs ms intervalMs =>
    have heq : schedulerSleepMs ms intervalMs k = (k', sw) := Option.some.inj hcall
    have hok := tableOk_sleepMs h ms intervalMs
    rwa [heq] at hok
  | preempt =>
    have heq : schedulerPreempt k = (k', sw) := Option.some.inj hcall
    have hok := tableOk_preempt h
    rwa [heq] at hok
  | enterEl0 =>
    rw [kernelCall] at hcall
    split at hcall
    · rename_i hat
      obtain ⟨rfl, rfl⟩ := Prod.mk.inj (Option.some.inj hcall)
      exact ⟨tableOk_enterEl0 S h hat.1, nofun⟩
    · exact nomatch hcall
  | exitSyscall code =>
    obtain ⟨rfl, rfl⟩ := Prod.mk.inj (Option.some.inj hcall)
    exact ⟨tableOk_closes h (handleExitSyscall_closes code k), nofun⟩
  | fault spsr =>
    obtain ⟨rfl, rfl⟩ := Prod.mk.inj (Option.some.inj hcall)
    exact ⟨tableOk_closes h (handleException_closes spsr k), nofun⟩
  | completeUserTask =>
    rw [kernelCall] at hcall
    split at hcall
    · rename_i hat
      obtain ⟨rfl, rfl⟩ := Prod.mk.inj (Option.some.inj hcall)
      exact ⟨tableOk_completeUserTask h h.current_lt hat.1, nofun⟩
    · exact nomatch hcall
  | exit =>
    rw [kernelCall] at hcall
    split at hcall
    · rename_i hat
      have heq : schedulerExitTask k.currentTask k = (k', sw) := Option.some.inj hcall
      have hok := tableOk_exitTask h hat.1
      rwa [heq] at hok
    · exact nomatch hcall

end Calls

/-! ## Every run -/

/-- The kernel after `scheduler_init`: the idle task alone, no session. -/
theorem bootKernel_spec (S : Symbols) (spaces : SpaceStatics) :
    (bootKernel S spaces).taskCount = 1
      ∧ ChangedAt 0 { spaces := spaces } (bootKernel S spaces)
      ∧ NewThread 0 S.idleTask ((bootKernel S spaces).tasks 0) := by
  have hclaim : claimTaskSlot { spaces := spaces }
      = some ({ spaces := spaces, taskCount := 1 }, 0) :=
    rfl
  obtain ⟨-, hrest, hcount, -, hnew⟩ := addTask_spec S (some "idle") S.idleTask hclaim
  exact ⟨hcount, hrest, hnew⟩

/-- At boot the idle task is alone. -/
theorem tableOk_boot (S : Symbols) (spaces : SpaceStatics) : TableOk (bootKernel S spaces) := by
  obtain ⟨hcount, hrest, hnew⟩ := bootKernel_spec S spaces
  set k := bootKernel S spaces
  have hcur : k.currentTask = 0 := hrest.currentTask
  have hzero : ∀ i < k.taskCount, i = 0 := by omega
  have hother : ∀ i, i ≠ 0 → (k.tasks i).state = .unused := by
    intro i hi
    rw [hrest.tasks i hi]
  refine ⟨⟨by omega, by rw [hcount]; decide, fun i hi => ?_, fun i hi => ?_,
    fun i hi => hother i (by omega), by omega, ?_, .inl hnew.state_eq, fun i hi => ?_⟩,
    fun h1 => by omega⟩
  · rw [hzero i hi, hnew.pid_eq]
  · rw [hzero i hi, hnew.parent_eq]
    exact nofun
  · rw [Kernel.current, hcur, hnew.state_eq]
    exact nofun
  · by_contra hi0
    rw [hcur] at hi0
    rw [hother i hi0] at hi
    exact nomatch hi

/-- **Every call keeps the table.** -/
theorem tableOk_system {L : Layout} {S : Symbols} {k k' : Kernel} {op : KernelOp} (h : TableOk k)
    (hstep : systemStep L S k op = some k') : TableOk k' := by
  obtain ⟨hcallable, sw, hcall⟩ := systemStep_spec hstep
  refine (tableOk_call L S h ?_ hcall).1
  rintro rfl
  exact hcallable

theorem tableOk_task {L : Layout} {S : Symbols} {k k' : Kernel} {op : KernelOp} (h : TableOk k)
    (hstep : taskStep L S k op = some k') : TableOk k' := by
  obtain ⟨-, h0, rfl⟩ | ⟨-, hsystem⟩ := taskStep_spec hstep
  · exact (tableOk_exitTask h h0).1
  · exact tableOk_system h hsystem

/-- What the table promises in a state: the invariant, a runnable task for the search, and no call
that ends in the loop for want of one. -/
structure TablePromise (L : Layout) (S : Symbols) (k : Kernel) : Prop where
  ok : TableOk k
  next_runnable : schedulerTaskIsRunnable (k.tasks (schedulerNextRunnableTask k)) = true
  not_stuck : ∀ op k' sw, kernelCall L S k op = some (k', sw) → sw ≠ .stuck

/-- What the table promises of every call made over it. -/
theorem TableOk.promise {k : Kernel} (h : TableOk k) (L : Layout) (S : Symbols) :
    TablePromise L S k where
  ok := h
  next_runnable := (nextRunnable_spec h).2
  not_stuck op k' sw hcall := by
    by_cases hop : op = .startThreads
    · subst hop
      obtain ⟨-, rfl⟩ := Prod.mk.inj (Option.some.inj hcall)
      exact nofun
    · exact (tableOk_call L S h (fun hs => absurd hs hop) hcall).2

/-- **The table invariant holds in every run** in which `scheduler_start_threads` is only called
while the idle task is current. -/
theorem table_invariant (L : Layout) (S : Symbols) (spaces : SpaceStatics) (ops : List KernelOp)
    (hstart : Along (kernelStep L S) (fun k op _ => op = .startThreads → k.currentTask = 0)
      (bootKernel S spaces) ops) :
    Always (kernelStep L S) (TablePromise L S) (bootKernel S spaces) ops := by
  refine Always.of_along (I := TableOk) (fun k op k' hk hstep hC => ?_) (fun k hk => hk.promise L S)
    (tableOk_boot S spaces) hstart
  obtain ⟨⟨k₁, sw⟩, hcall, rfl⟩ := Option.map_eq_some_iff.mp hstep
  exact (tableOk_call L S hk hC hcall).1

/-- Boot: a thread is made, the threads are started, and the timer hands the CPU to it. -/
theorem table_invariant_boot :
    Always (kernelStep bssLayout imageSymbols) (TablePromise bssLayout imageSymbols)
      (bootKernel imageSymbols {})
      [.createKernelThread none 0x40085000, .startThreads, .preempt] := by
  refine table_invariant bssLayout imageSymbols {} _ ?_
  rintro k₁ h₁
  obtain rfl := Option.some.inj h₁
  refine ⟨nofun, fun k₂ h₂ => ?_⟩
  obtain rfl := Option.some.inj h₂
  exact ⟨fun _ => rfl, fun k₃ _ => ⟨nofun, trivial⟩⟩

/-- **Started from another task, two tasks run**: a thread is made and yielded to, and
`scheduler_start_threads` makes the idle task run beside it. -/
theorem startThreads_two_running :
    ¬ ∀ ops, Always (kernelStep bssLayout imageSymbols) (TablePromise bssLayout imageSymbols)
      (bootKernel imageSymbols {}) ops := by
  intro hall
  refine not_always_of_run [.createKernelThread none 0x40085000, .yield, .startThreads]
    (fun k => decide ((k.tasks 1).state = .running ∧ k.currentTask = 0)) (by decide +kernel)
    (fun k hk hP => ?_) (hall _)
  obtain ⟨hrunning, hcurrent⟩ := of_decide_eq_true hk
  have := hP.ok.running 1 hrunning
  omega

end SaturnOS
