import SaturnOS.Sched.Table

/-!
# Sched/Ownership — parents and reused slots

    spawner ──parentPid──▸ slot p ──freed──▸ unused ──claimed──▸ another task

A pid is a slot number, and slots are reused.  `Owned` carries beside the kernel how often each slot
was filled and by which filling of the spawner's slot each task was spawned; `NotStale` says that
the slot a parent pid names still holds the spawner.  `scheduler_exit_task` takes the children's
parent away, but `scheduler_terminate_child` — and a program that ends — leaves a zombie with its
children, so a slot can be freed under them: `notStale_iff` says that this is the only way to a
stale parent.
-/

open Machinery

namespace SaturnOS

/-- A slot in use, whatever its task does. -/
def Used (k : Kernel) (i : ℕ) : Prop := (k.tasks i).state ≠ .unused

instance (k : Kernel) (i : ℕ) : Decidable (Used k i) :=
  inferInstanceAs (Decidable (_ ≠ _))

/-! ## Filling and clearing slots -/

/-- At most the slot `p`, unused until then, was filled, by a task without parent or with the
current one. -/
structure Fills (p : ℕ) (k k' : Kernel) : Prop where
  unused : (k.tasks p).state = .unused
  rest : ChangedAt p k k'
  parent : Used k' p →
    (k'.tasks p).parentPid = -1 ∨ (k'.tasks p).parentPid = k.currentTask

/-- The slots `F`, zombies, were cleared and nothing else changed. -/
structure Clears (F : ℕ → Prop) (k k' : Kernel) : Prop where
  zombie : ∀ i, F i → (k.tasks i).state = .zombie
  cleared : ∀ i, F i → (k'.tasks i).state = .unused
  rest : ∀ i, ¬ F i → k'.tasks i = k.tasks i
  currentTask : k'.currentTask = k.currentTask
  userSessions : k'.userSessions = k.userSessions
  ttbr0 : k'.ttbr0 = k.ttbr0
  kernelKind : k'.spaces.kernelAddressSpace.kind = k.spaces.kernelAddressSpace.kind

/-- What is cleared matters as a set of slots. -/
theorem Clears.congr {F G : ℕ → Prop} {k k' : Kernel} (h : Clears F k k') (hFG : ∀ i, F i ↔ G i) :
    Clears G k k' := by
  have : F = G := funext fun i => propext (hFG i)
  rwa [← this]

/-- A call that clears nothing after all. -/
theorem Clears.none {F : ℕ → Prop} (k : Kernel) (hF : ∀ i, ¬ F i) : Clears F k k :=
  ⟨fun i h => absurd h (hF i), fun i h => absurd h (hF i), fun _ _ => rfl, rfl, rfl, rfl, rfl⟩

/-- Clearing one slot and trimming the table. -/
theorem clears_slot {p : ℕ} {k : Kernel} (hz : (k.tasks p).state = .zombie) :
    Clears (· = p) k (schedulerTrimUnusedTail (schedulerClearTaskSlot p k)) := by
  obtain ⟨hrest, -, space, hp⟩ := clearTaskSlot_spec p k
  refine ⟨?_, fun i hi => ?_, fun i hi => hrest.tasks i hi, hrest.currentTask, hrest.userSessions,
    hrest.ttbr0, hrest.kernelKind⟩
  · rintro i rfl
    exact hz
  · subst hi
    show ((schedulerClearTaskSlot i k).tasks i).state = .unused
    rw [hp]
    rfl

/-! ## What a call does to slots and parents -/

/-- The slots the reaping functions may clear. -/
def Reaps (k : Kernel) (i : ℕ) : Prop :=
  0 < i ∧ i < k.taskCount ∧ i ≠ k.currentTask ∧ (k.tasks i).state = .zombie

/-- The slots a call frees. -/
def Frees (k : Kernel) : KernelOp → ℕ → Prop
  | .reapZombieTask pid, i => Reaps k i ∧ pid = i
  | .reapZombies, i => Reaps k i
  | .waitTaskStatus pid hasStatus, i =>
    Reaps k i ∧ hasStatus = true ∧ (k.taskSpace i).map (·.kind) = some .user
      ∧ (k.tasks i).parentPid = k.currentTask
      ∧ (pid = i ∨ pid = 0 ∧ k.currentTask ≠ 0 ∧ zombieChild k = some i)
  | _, _ => False

/-- A slot that a call frees is one that may be reaped. -/
theorem Frees.reaps {k : Kernel} {op : KernelOp} {i : ℕ} (h : Frees k op i) : Reaps k i := by
  cases op <;> first | exact h | exact h.1 | exact h.elim

/-- A change of the table: the slots `F` are freed, a new task has no parent or the current task,
and a task loses its parent only when no slot is freed. -/
structure Turnover (F : ℕ → Prop) (k k' : Kernel) : Prop where
  gone : ∀ i, Used k i → (¬ Used k' i ↔ F i)
  kept : ∀ i, Used k i → Used k' i → (k'.tasks i).parentPid = (k.tasks i).parentPid
    ∨ (k'.tasks i).parentPid = -1 ∧ ∀ j, ¬ F j
  born : ∀ i, ¬ Used k i → Used k' i →
    (k'.tasks i).parentPid = -1 ∨ (k'.tasks i).parentPid = k.currentTask

/-- No slot is freed or filled, and parents are at most taken away. -/
def Quiet (k k' : Kernel) : Prop :=
  ∀ i, (Used k' i ↔ Used k i) ∧ ((k'.tasks i).parentPid = (k.tasks i).parentPid
    ∨ (k'.tasks i).parentPid = -1)

namespace Quiet

variable {k k' k'' : Kernel}

/-- Quiet steps compose, and are turnovers that free nothing. -/
theorem refl (k : Kernel) : Quiet k k := fun _ => ⟨Iff.rfl, .inl rfl⟩

theorem trans (h : Quiet k k') (h' : Quiet k' k'') : Quiet k k'' := by
  intro i
  refine ⟨(h' i).1.trans (h i).1, ?_⟩
  rcases (h' i).2 with hp | hp
  · rw [hp]
    exact (h i).2
  · exact .inr hp

theorem turnover (h : Quiet k k') : Turnover (fun _ => False) k k' where
  gone i hi := ⟨fun hn => hn ((h i).1.mpr hi), False.elim⟩
  kept i _ _ := (h i).2.imp_right fun hp => ⟨hp, fun _ => not_false⟩
  born i hi hi' := absurd ((h i).1.mp hi') hi

theorem of_tasks (h : k'.tasks = k.tasks) : Quiet k k' := by
  intro i
  rw [Used, h]
  exact ⟨Iff.rfl, .inl rfl⟩

/-- A rewrite is quiet where the slot stays in use and its parent the same… -/
theorem modTask (k : Kernel) (p : ℕ) {f : Task → Task} (hu : Used k p)
    (hu' : (f (k.tasks p)).state ≠ .unused)
    (hp : (f (k.tasks p)).parentPid = (k.tasks p).parentPid) : Quiet k (k.modTask p f) := by
  refine k.modTask_ind p f (P := fun i t => (t.state ≠ .unused ↔ Used k i)
    ∧ (t.parentPid = (k.tasks i).parentPid ∨ t.parentPid = -1)) ?_ ?_
  · exact ⟨iff_of_true hu' hu, .inl hp⟩
  · exact fun _ _ => ⟨Iff.rfl, .inl rfl⟩

/-- …and so are a switch, a change of state, and the close of a session. -/
theorem of_resched (h : Resched k k') : Quiet k k' := fun i =>
  ⟨not_congr (h.tasks i).unused_iff, .inl (h.tasks i).parent_eq⟩

theorem of_places (h : ∀ i, SamePlace (k.tasks i) (k'.tasks i)) : Quiet k k' := fun i =>
  ⟨by rw [Used, (h i).state_eq, Used], .inl (h i).parent_eq⟩

theorem of_closes (h : ClosesSessions k k') : Quiet k k' :=
  of_places fun i => (h.tasks i).samePlace

end Quiet

namespace Turnover

variable {k k' : Kernel}

/-- **A turnover** comes of filling a slot… -/
theorem of_fills {p : ℕ} (h : Fills p k k') : Turnover (fun _ => False) k k' := by
  have hother : ∀ i, Used k i → k'.tasks i = k.tasks i := by
    intro i hi
    refine h.rest.tasks i ?_
    rintro rfl
    exact hi h.unused
  refine ⟨fun i hi => ?_, fun i hi _ => .inl (by rw [hother i hi]), fun i hi hi' => ?_⟩
  · rw [Used, hother i hi]
    exact ⟨fun hn => hn hi, False.elim⟩
  · by_cases hip : i = p
    · obtain rfl := hip
      exact h.parent hi'
    · rw [Used, h.rest.tasks i hip] at hi'
      exact absurd hi' hi

/-- …and of clearing some. -/
theorem of_clears {F : ℕ → Prop} (h : Clears F k k') : Turnover F k k' := by
  have hkept : ∀ i, Used k' i → k'.tasks i = k.tasks i := fun i hi =>
    h.rest i fun hF => hi (h.cleared i hF)
  refine ⟨fun i hi => ⟨fun hn => ?_, fun hF hu => hu (h.cleared i hF)⟩,
    fun i _ hi' => .inl (by rw [hkept i hi']), fun i hi hi' => ?_⟩
  · by_contra hni
    rw [Used, h.rest i hni] at hn
    exact hn hi
  · have := hkept i hi'
    rw [Used, this] at hi'
    exact absurd hi' hi

end Turnover

/-! ## The calls -/

section Calls

variable (L : Layout) (S : Symbols) {k : Kernel} (h : TableOk k)

/-- **A creation fills a slot**, or nothing: a user task… -/
theorem fills_outcome (h : TableOk k) {r : Kernel × ℤ} (ho : UserTaskOutcome k r) :
    ∃ p, Fills p k r.1 := by
  cases ho with
  | refused =>
    have hu := h.unused_ge k.taskCount (le_refl _)
    exact ⟨_, hu, ChangedAt.refl _ k, fun hused => absurd hu hused⟩
  | undone hclaim hrest hcount hslot =>
    rename_i k' k₁ p
    obtain ⟨-, -, -, hu, -, -⟩ := h.claim hclaim
    obtain ⟨htasks, hback⟩ := releaseTaskSlot_spec p k₁
    refine ⟨p, hu, hrest.trans hback, fun hu' => absurd ?_ hu'⟩
    rw [htasks]
    rcases hslot with hsame | ⟨-, -, hstate⟩
    · rw [hsame.state_eq, hu]
    · exact hstate
  | created hclaim hrest hcount hnew =>
    obtain ⟨-, -, -, hu, -, -⟩ := h.claim hclaim
    exact ⟨_, hu, hrest, fun _ => .inl hnew.parent_eq⟩

/-- What readmits a task changes its slot, and no parent. -/
theorem readmits_quiet {p : ℕ} {k k' : Kernel} (hr : Readmits p k k') :
    Quiet k k' ∧ ChangedAt p k k' := by
  rcases hr with rfl | ⟨-, -, f, rfl, ht⟩
  · exact ⟨Quiet.refl k', ChangedAt.refl p k'⟩
  · exact ⟨Quiet.modTask k p ht.used.1 ht.used.2 ht.parent_eq, ChangedAt.modTask k p f⟩

/-- `scheduler_set_task_parent` may set the one parent. -/
theorem setTaskParent_spec (pid parentPid : ℤ) (k : Kernel) :
    ChangedAt pid.toNat k (schedulerSetTaskParent pid parentPid k).1
      ∧ (((schedulerSetTaskParent pid parentPid k).1.tasks pid.toNat).parentPid
          = (k.tasks pid.toNat).parentPid
        ∨ ((schedulerSetTaskParent pid parentPid k).1.tasks pid.toNat).parentPid = parentPid) := by
  simp only [schedulerSetTaskParent]
  split
  · exact ⟨ChangedAt.refl _ k, .inl rfl⟩
  · dsimp only
    refine ⟨ChangedAt.modTask k _ _, .inr ?_⟩
    rw [Kernel.modTask_self]

/-- **A spawned task has the spawner as its parent**, or none. -/
theorem fills_spawnChild (h : TableOk k) (file argument : Option (List Byte)) :
    ∃ p, Fills p k (spawnChild L S file argument k).1 := by
  have ho := createUserTask_outcome L S (some "user-child") file argument h.count_le
  have hfill := fills_outcome h ho
  simp only [spawnChild]
  generalize schedulerCreateUserTaskFromImage L S (some "user-child") file argument k = r
    at ho hfill ⊢
  split
  · exact hfill
  · rename_i hneg
    cases ho with
    | refused => exact absurd (show (-1 : ℤ) < 0 by decide) hneg
    | undone hclaim hrest hcount hslot => exact absurd (show (-1 : ℤ) < 0 by decide) hneg
    | created hclaim hrest hcount hnew =>
      rename_i k' k₁ p
      obtain ⟨-, -, -, hu, hpcur, -⟩ := h.claim hclaim
      have hparent : k₁.current.pid = k.currentTask := by
        rw [Kernel.current, hrest.currentTask, hrest.tasks _ (Ne.symm hpcur)]
        exact h.pid_eq _ h.current_lt
      dsimp only
      obtain ⟨hset, hpp⟩ := setTaskParent_spec (p : ℤ) k₁.current.pid k₁
      simp only [Int.toNat_natCast] at hset hpp
      rw [hnew.parent_eq, hparent] at hpp
      rw [hparent] at hset ⊢
      split
      · rename_i k₂ heq
        rw [heq] at hset hpp
        exact ⟨p, hu, hrest.trans hset, fun _ => hpp⟩
      · rename_i k₂ heq
        rw [heq] at hset hpp
        obtain ⟨hquiet, hat⟩ := readmits_quiet (unblockUserTask_readmits S (p : ℤ) k₂)
        simp only [Int.toNat_natCast] at hat
        have hadmit : Fills p k (schedulerUnblockUserTask S (p : ℤ) k₂).1 := by
          refine ⟨hu, (hrest.trans hset).trans hat, fun _ => ?_⟩
          rcases (hquiet p).2 with hsame | hnone
          · rw [hsame]
            exact hpp
          · exact .inl hnone
        split <;> exact ⟨p, hadmit⟩

/-- …and a kernel thread. -/
theorem fills_createKernelThread (h : TableOk k) (name : Option String) (entry : Word) :
    ∃ p, Fills p k (schedulerCreateKernelThread S name entry k).1 := by
  rw [schedulerCreateKernelThread]
  cases hclaim : claimTaskSlot k with
  | none =>
    rw [schedulerAddTask, hclaim]
    have hu := h.unused_ge k.taskCount (le_refl _)
    exact ⟨_, hu, ChangedAt.refl _ k, fun hused => absurd hu hused⟩
  | some r =>
    obtain ⟨k', p⟩ := r
    obtain ⟨-, -, -, hu, -, -⟩ := h.claim hclaim
    obtain ⟨-, hrest, -, -, hnew⟩ := addTask_spec S name entry hclaim
    exact ⟨p, hu, hrest, fun _ => .inl hnew.parent_eq⟩

/-! ### Calls that free nothing -/

/-- **The other calls are quiet**: to terminate a child, which keeps its slot until it is reaped… -/
theorem terminateChild_quiet (pid : ℤ) (code : Word) (k : Kernel) :
    Quiet k (schedulerTerminateChild pid code k).1 := by
  simp only [schedulerTerminateChild]
  split
  · exact Quiet.refl k
  · rename_i hp
    simp only [Bool.not_eq_true', Bool.not_eq_false, canTerminate, Bool.and_eq_true,
      bne_iff_ne] at hp
    dsimp only
    exact Quiet.modTask k pid.toNat hp.1.2 (by simp) rfl

include h

/-- …to sleep… -/
theorem sleepMs_quiet (ms intervalMs : Word) : Quiet k (schedulerSleepMs ms intervalMs k).1 := by
  simp only [schedulerSleepMs]
  split
  · exact Quiet.refl k
  · refine Quiet.trans ?_ (Quiet.of_resched (yield_resched _))
    exact Quiet.modTask k k.currentTask h.current_used (by simp) rfl

/-- …to start the threads… -/
theorem startThreads_quiet : Quiet k (schedulerStartThreads k) := by
  have hidle : Used k 0 := by
    rcases h.idle with hi | hi <;>
    · rw [Used, hi]
      simp
  rw [schedulerStartThreads, schedulerSetRunningTask]
  have hstart : Quiet k { k with threadsStarted := true, currentTask := 0 } := Quiet.of_tasks rfl
  exact hstart.trans (Quiet.modTask _ 0 hidle (by simp) rfl)

omit h in
/-- …and all that a session does. -/
theorem finishUserTask_quiet {p : ℕ} (status : UserModeStatus) (hu : Used k p) :
    Quiet k (finishUserTask p status k).1 := by
  rw [finishUserTask]
  split
  · dsimp only
    exact Quiet.modTask k p hu (by simp) rfl
  · dsimp only
    exact Quiet.modTask k p hu (by simp) rfl

theorem enterEl0_quiet : Quiet k (schedulerRunUserTaskEnter S k.currentTask k).1 := by
  rw [schedulerRunUserTaskEnter]
  split
  · exact Quiet.refl k
  · split
    · exact Quiet.refl k
    · have hsame := Quiet.of_places (runTaskEnter_sameTable (k := k) S k.currentTask).place
      split
      · rename_i k₁ heq
        rw [heq] at hsame
        exact hsame
      · rename_i k₁ status _ heq
        rw [heq] at hsame
        exact hsame.trans (finishUserTask_quiet status ((hsame _).1.mpr h.current_used))

theorem completeUserTask_quiet : Quiet k (schedulerRunUserTaskReturn k.currentTask k).1 := by
  have hc := Quiet.of_closes (runTaskReturn_closes k.currentTask k)
  exact hc.trans (finishUserTask_quiet _ ((hc _).1.mpr h.current_used))

omit h in
/-- Orphans lose their parent: this is quiet, since −1 is nobody. -/
theorem orphanChildren_quiet (p : ℕ) (k : Kernel) : Quiet k (orphanChildren p k) := by
  intro i
  rw [Used]
  dsimp only [orphanChildren]
  split
  · exact ⟨Iff.rfl, .inr rfl⟩
  · exact ⟨Iff.rfl, .inl rfl⟩

theorem exitTask_quiet : Quiet k (schedulerExitTask k.currentTask k).1 := by
  have horphan := orphanChildren_quiet k.currentTask k
  have hzombie := horphan.trans (Quiet.modTask (orphanChildren k.currentTask k) k.currentTask
    (f := fun t => { t with state := .zombie }) ((horphan _).1.mpr h.current_used) nofun rfl)
  simp only [schedulerExitTask]
  exact (hzombie.trans (Quiet.of_tasks rfl)).trans (Quiet.of_resched (yield_resched _))

/-! ### Calls that free slots -/

omit h in
/-- **The reaping calls clear what they free**: the zombie with a pid… -/
theorem clears_reapZombieTask (pid : ℤ) (k : Kernel) :
    Clears (Frees k (.reapZombieTask pid)) k (schedulerReapZombieTask pid k).1 := by
  simp only [schedulerReapZombieTask]
  split
  · rename_i hp
    refine Clears.none k ?_
    rintro i ⟨⟨h0, hlt, hcur, -⟩, rfl⟩
    simp only [pidInTable, Bool.or_eq_true, Bool.not_eq_true', Bool.and_eq_false_iff,
      decide_eq_false_iff_not, beq_iff_eq] at hp
    omega
  · rename_i hp
    simp only [Bool.or_eq_true, Bool.not_eq_true', beq_iff_eq, not_or, Bool.not_eq_false] at hp
    obtain ⟨hlt, heq⟩ := pidInTable_lt hp.1.1
    split
    · rename_i hz
      refine Clears.none k ?_
      rintro i ⟨⟨-, -, -, hzombie⟩, rfl⟩
      exact hz hzombie
    · rename_i hz
      have hzombie : (k.tasks pid.toNat).state = .zombie := by simpa using hz
      refine (clears_slot hzombie).congr fun i => ?_
      constructor
      · rintro rfl
        exact ⟨⟨by omega, hlt, by omega, hzombie⟩, heq.symm⟩
      · rintro ⟨-, rfl⟩
        rfl

omit h in
/-- …every zombie… -/
theorem clears_reapZombies (k : Kernel) :
    Clears (Frees k .reapZombies) k (schedulerReapZombies k).1 := by
  obtain ⟨hcurrent, -, hsessions, hkind, httbr0, hslots⟩ :=
    foldl_reapSlot_spec ((List.range k.taskCount).drop 1) k
  have hreaps : ∀ i, Reapable k ((List.range k.taskCount).drop 1) i ↔ Reaps k i := by
    intro i
    rw [Reapable, mem_slots, Reaps, and_assoc]
  refine ⟨fun i hi => hi.2.2.2, fun i hi => ?_, fun i hi => ?_, hcurrent, hsessions, httbr0,
    hkind⟩
  · obtain ⟨t, ht⟩ := (hslots i).1 ((hreaps i).mpr hi)
    show ((List.foldl reapSlot k _).tasks i).state = .unused
    rw [ht]
    rfl
  · exact (hslots i).2 fun hr => hi ((hreaps i).mp hr)

omit h in
/-- …a child that is waited for by its pid… -/
theorem clears_waitOnTask (p : ℕ) (k : Kernel) :
    Clears (fun i => i = p ∧ (k.tasks i).state = .zombie
      ∧ (k.taskSpace i).map (·.kind) = some .user ∧ (k.tasks i).parentPid = k.currentTask)
      k (waitOnTask p k).1 := by
  simp only [waitOnTask]
  split
  · rename_i hp
    refine Clears.none k ?_
    rintro i ⟨rfl, -, huser, hparent⟩
    rcases hp with hp | hp
    · exact hp huser
    · exact hp hparent
  · rename_i hp
    rw [not_or, not_not, not_not] at hp
    split
    · rename_i hz
      refine Clears.none k ?_
      rintro i ⟨rfl, hzombie, -⟩
      exact hz hzombie
    · rename_i hz
      have hzombie : (k.tasks p).state = .zombie := by simpa using hz
      refine (clears_slot hzombie).congr fun i => ⟨?_, And.left⟩
      rintro rfl
      exact ⟨rfl, hzombie, hp⟩

/-- …or the first that is found. -/
theorem clears_waitTaskStatus (pid : ℤ) (hasStatus : Bool) :
    Clears (Frees k (.waitTaskStatus pid hasStatus)) k
      (schedulerWaitTaskStatus pid hasStatus k).1 := by
  simp only [schedulerWaitTaskStatus]
  split
  · rename_i hp
    refine Clears.none k ?_
    rintro i ⟨⟨h0, hlt, hcur, -⟩, rfl, -, -, rfl | ⟨rfl, hcur0, -⟩⟩ <;>
    · simp only [pidInTable, Bool.or_eq_true, Bool.not_eq_true', Bool.and_eq_false_iff,
        decide_eq_false_iff_not, beq_iff_eq, reduceCtorEq, false_or] at hp
      omega
  · rename_i hp
    simp only [Bool.or_eq_true, Bool.not_eq_true', beq_iff_eq, not_or, Bool.not_eq_false] at hp
    obtain ⟨hlt, heq⟩ := pidInTable_lt hp.1.2
    split
    · rename_i hpid
      split
      · rename_i p hz
        obtain ⟨h0, hplt, hparent, hzombie, hcur⟩ := zombieChild_spec h hz
        refine (clears_waitOnTask p k).congr fun i => ?_
        constructor
        · rintro ⟨rfl, hzi, huser, hpar⟩
          exact ⟨⟨h0, hplt, hcur, hzi⟩, hp.1.1, huser, hpar, .inr ⟨hpid, by omega, hz⟩⟩
        · rintro ⟨⟨hi0, -, -, hzi⟩, -, huser, hpar, hpi | ⟨-, -, hzc⟩⟩
          · omega
          · exact ⟨Option.some.inj (hzc.symm.trans hz), hzi, huser, hpar⟩
      · rename_i hz
        refine Clears.none k ?_
        rintro i ⟨⟨hi0, -⟩, -, -, -, hpi | ⟨-, -, hzc⟩⟩
        · omega
        · rw [hz] at hzc
          cases hzc
    · rename_i hpid
      refine (clears_waitOnTask pid.toNat k).congr fun i => ?_
      constructor
      · rintro ⟨rfl, hzi, huser, hpar⟩
        exact ⟨⟨by omega, hlt, by omega, hzi⟩, hp.1.1, huser, hpar, .inl heq.symm⟩
      · rintro ⟨⟨hi0, -, -, hzi⟩, -, huser, hpar, rfl | ⟨hpi, -⟩⟩
        · exact ⟨by simp, hzi, huser, hpar⟩
        · exact absurd hpi hpid

/-- **What any call does to slots and parents.** -/
theorem turnover_call {op : KernelOp} {k' : Kernel} {sw : Switch} (hop : Callable k op)
    (hcall : kernelCall L S k op = some (k', sw)) : Turnover (Frees k op) k k' := by
  cases op with
  | createKernelThread name entry =>
    obtain ⟨rfl, rfl⟩ := Prod.mk.inj (Option.some.inj hcall)
    obtain ⟨p, hp⟩ := fills_createKernelThread S h name entry
    exact Turnover.of_fills hp
  | createUserTask name file argument =>
    obtain ⟨rfl, rfl⟩ := Prod.mk.inj (Option.some.inj hcall)
    obtain ⟨p, hp⟩ := fills_outcome h (createUserTask_outcome L S name file argument h.count_le)
    exact Turnover.of_fills hp
  | spawn file argument =>
    obtain ⟨rfl, rfl⟩ := Prod.mk.inj (Option.some.inj hcall)
    obtain ⟨p, hp⟩ := fills_spawnChild L S h file argument
    exact Turnover.of_fills hp
  | unblockUserTask pid =>
    obtain ⟨rfl, rfl⟩ := Prod.mk.inj (Option.some.inj hcall)
    exact (readmits_quiet (unblockUserTask_readmits S pid k)).1.turnover
  | blockTask pid =>
    obtain ⟨rfl, rfl⟩ := Prod.mk.inj (Option.some.inj hcall)
    exact (readmits_quiet (blockTask_readmits pid k)).1.turnover
  | unblockTask pid =>
    obtain ⟨rfl, rfl⟩ := Prod.mk.inj (Option.some.inj hcall)
    exact (readmits_quiet (unblockTask_readmits pid k)).1.turnover
  | reapZombieTask pid =>
    obtain ⟨rfl, rfl⟩ := Prod.mk.inj (Option.some.inj hcall)
    exact Turnover.of_clears (clears_reapZombieTask pid k)
  | reapZombies =>
    obtain ⟨rfl, rfl⟩ := Prod.mk.inj (Option.some.inj hcall)
    exact Turnover.of_clears (clears_reapZombies k)
  | waitTaskStatus pid hasStatus =>
    obtain ⟨rfl, rfl⟩ := Prod.mk.inj (Option.some.inj hcall)
    exact Turnover.of_clears (clears_waitTaskStatus h pid hasStatus)
  | setTaskParent pid parentPid => exact hop.elim
  | terminateChild pid code =>
    obtain ⟨rfl, rfl⟩ := Prod.mk.inj (Option.some.inj hcall)
    exact (terminateChild_quiet pid code k).turnover
  | startThreads =>
    obtain ⟨rfl, rfl⟩ := Prod.mk.inj (Option.some.inj hcall)
    exact (startThreads_quiet h).turnover
  | yield =>
    obtain rfl := congrArg Prod.fst (Option.some.inj hcall)
    exact (Quiet.of_resched (yield_resched k)).turnover
  | sleepMs ms intervalMs =>
    obtain rfl := congrArg Prod.fst (Option.some.inj hcall)
    exact (sleepMs_quiet h ms intervalMs).turnover
  | preempt =>
    obtain rfl := congrArg Prod.fst (Option.some.inj hcall)
    exact (Quiet.of_resched (preempt_resched k)).turnover
  | enterEl0 =>
    obtain ⟨-, hcall⟩ := Option.ite_none_right_eq_some.mp hcall
    obtain ⟨rfl, rfl⟩ := Prod.mk.inj (Option.some.inj hcall)
    exact (enterEl0_quiet S h).turnover
  | exitSyscall code =>
    obtain ⟨rfl, rfl⟩ := Prod.mk.inj (Option.some.inj hcall)
    exact (Quiet.of_closes (handleExitSyscall_closes code k)).turnover
  | fault spsr =>
    obtain ⟨rfl, rfl⟩ := Prod.mk.inj (Option.some.inj hcall)
    exact (Quiet.of_closes (handleException_closes spsr k)).turnover
  | completeUserTask =>
    obtain ⟨-, hcall⟩ := Option.ite_none_right_eq_some.mp hcall
    obtain ⟨rfl, rfl⟩ := Prod.mk.inj (Option.some.inj hcall)
    exact (completeUserTask_quiet h).turnover
  | exit =>
    obtain ⟨-, hcall⟩ := Option.ite_none_right_eq_some.mp hcall
    obtain rfl := congrArg Prod.fst (Option.some.inj hcall)
    exact (exitTask_quiet h).turnover

end Calls

/-! ## Incarnations -/

/-- The kernel with the history its pids leave out. -/
structure Owned where
  kernel : Kernel
  /-- How often a slot has been filled. -/
  filled : ℕ → ℕ
  /-- The filling of the spawner's slot when the slot's own task was made. -/
  spawnedBy : ℕ → ℕ

/-- A step of the scheduler, with who spawned whom kept beside it. -/
def ownedStep (L : Layout) (S : Symbols) (o : Owned) (op : KernelOp) : Option Owned :=
  (systemStep L S o.kernel op).map fun k' =>
    { kernel := k'
      filled := fun i => if ¬ Used o.kernel i ∧ Used k' i then o.filled i + 1 else o.filled i
      spawnedBy := fun i =>
        if ¬ Used o.kernel i ∧ Used k' i then o.filled o.kernel.currentTask else o.spawnedBy i }

/-- At boot nobody has spawned anybody. -/
def bootOwned (S : Symbols) (spaces : SpaceStatics) : Owned :=
  { kernel := bootKernel S spaces, filled := fun _ => 0, spawnedBy := fun _ => 0 }

/-- **Parents are never stale**: the slot a task's parent pid names holds the task that spawned
it. -/
def NotStale (o : Owned) : Prop :=
  ∀ c p : ℕ, Used o.kernel c → 0 < p → (o.kernel.tasks c).parentPid = p →
    Used o.kernel p ∧ o.filled p = o.spawnedBy c

/-- Slots are freed only when no task left in the table has them as its parent. -/
def FreesChildless (k : Kernel) (op : KernelOp) : Prop :=
  ∀ p, Frees k op p → ∀ c, Used k c → ¬ Frees k op c → (k.tasks c).parentPid ≠ p

/-- **A step keeps parents fresh exactly when it frees childless slots.** -/
theorem notStale_step {L : Layout} {S : Symbols} {o o' : Owned} {op : KernelOp}
    (h : TableOk o.kernel) (hP : NotStale o) (hstep : ownedStep L S o op = some o') :
    NotStale o' ↔ FreesChildless o.kernel op := by
  obtain ⟨k', hk', rfl⟩ := Option.map_eq_some_iff.mp hstep
  obtain ⟨hop, sw, hcall⟩ := systemStep_spec hk'
  have ht := turnover_call L S h hop hcall
  set k := o.kernel with hk
  constructor
  · intro hP' p hp c hc hnc hparent
    have hc' : Used k' c := by
      by_contra hn
      exact hnc ((ht.gone c hc).mp hn)
    have hpu : Used k p := by
      rw [Used, hp.reaps.2.2.2]
      exact nofun
    have hparent' : (k'.tasks c).parentPid = p := by
      rcases ht.kept c hc hc' with hsame | ⟨-, hnone⟩
      · rw [hsame, hparent]
      · exact absurd hp (hnone p)
    exact (ht.gone p hpu).mpr hp (hP' c p hc' hp.reaps.1 hparent').1
  · intro hC c p hc' hp hparent
    dsimp only at hc' hparent ⊢
    by_cases hc : Used k c
    · -- a task that was there: its parent's slot was not freed
      have hparent₀ : (k.tasks c).parentPid = p := by
        rcases ht.kept c hc hc' with hsame | ⟨hnone, -⟩
        · rw [← hsame, hparent]
        · omega
      obtain ⟨hpu, hgen⟩ := hP c p hc hp hparent₀
      have hcn : ¬ Frees k op c := fun hf => (ht.gone c hc).mpr hf hc'
      have hpu' : Used k' p := by
        by_contra hn
        exact hC p ((ht.gone p hpu).mp hn) c hc hcn hparent₀
      refine ⟨hpu', ?_⟩
      rw [if_neg fun hb => hb.1 hpu, if_neg fun hb => hb.1 hc]
      exact hgen
    · -- a new one: its parent is the current task, which no call frees
      have hparent₀ : p = k.currentTask := by
        rcases ht.born c hc hc' with hnone | hcur <;> omega
      have hcu : Used k k.currentTask := h.current_used
      have hcu' : Used k' k.currentTask := by
        by_contra hn
        exact ((ht.gone _ hcu).mp hn).reaps.2.2.1 rfl
      rw [hparent₀]
      refine ⟨hcu', ?_⟩
      rw [if_neg fun hb => hb.1 hcu, if_pos ⟨hc, hc'⟩]

/-! ## Every run -/

theorem notStale_boot (S : Symbols) (spaces : SpaceStatics) : NotStale (bootOwned S spaces) := by
  obtain ⟨-, hrest, hnew⟩ := bootKernel_spec S spaces
  intro c p hc hp hparent
  by_cases hc0 : c = 0
  · subst hc0
    have : ((bootKernel S spaces).tasks 0).parentPid = p := hparent
    rw [hnew.parent_eq] at this
    omega
  · have hslot : (bootKernel S spaces).tasks c = {} := hrest.tasks c hc0
    exact absurd (congrArg Task.state hslot) hc

/-- **No parent goes stale in a run exactly when every slot it frees is childless.** -/
theorem notStale_iff (L : Layout) (S : Symbols) (spaces : SpaceStatics) (ops : List KernelOp) :
    Always (ownedStep L S) NotStale (bootOwned S spaces) ops
      ↔ Along (ownedStep L S) (fun o op _ => FreesChildless o.kernel op)
      (bootOwned S spaces) ops := by
  refine always_iff_along (T := ownedStep L S) (P := NotStale)
    (C := fun o op _ => FreesChildless o.kernel op) (J := fun o => TableOk o.kernel)
    (fun o op o' h _ hstep => ?_) (fun o op o' h hP hstep => notStale_step h hP hstep)
    (tableOk_boot S spaces) (notStale_boot S spaces)
  obtain ⟨k', hk', rfl⟩ := Option.map_eq_some_iff.mp hstep
  exact tableOk_system h hk'

/-- Three generations: 1 spawns 2, 2 spawns 3, and 1 terminates 2 and waits for it. -/
def staleRun : List KernelOp :=
  [.createUserTask none (some wordImage) none, .unblockUserTask 1, .startThreads, .preempt,
    .enterEl0, .spawn (some wordImage) none, .yield, .enterEl0, .spawn (some wordImage) none,
    .yield, .enterEl0, .yield, .terminateChild 2 99, .waitTaskStatus 2 true,
    .spawn (some wordImage) none]

/-- **A terminated parent goes stale**: the next task spawned gets its slot, and with it a child it
never had. -/
theorem terminated_parent_stale :
    ¬ ∀ ops, Always (ownedStep bssLayout imageSymbols) NotStale
      (bootOwned imageSymbols (addressSpaceInit (bssLayout.table .vmL1) {})) ops := by
  intro hall
  refine not_always_of_run staleRun (fun o => decide (Used o.kernel 3
    ∧ (o.kernel.tasks 3).parentPid = 2 ∧ o.filled 2 ≠ o.spawnedBy 3)) (by decide +kernel)
    (fun o ho hP => ?_) (hall staleRun)
  obtain ⟨hu, hparent, hne⟩ := of_decide_eq_true ho
  exact hne (hP 3 2 hu (by decide) hparent).2

end SaturnOS
