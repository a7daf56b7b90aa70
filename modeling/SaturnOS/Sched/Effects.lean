import SaturnOS.Sched.Scheduler

/-!
# Sched/Effects — what each operation does to the task table

One statement per operation, read by every invariant that follows: creation fills the claimed slot
or gives it back (`createUserTask_outcome`), a switch changes nothing but states and accounts
(`yield_resched`, `preempt_resched`), and the reaping loop clears the zombies it passes
(`foldl_reapSlot_spec`).
-/

namespace SaturnOS

/-! ## Places -/

/-- Same place in the table. -/
structure SamePlace (t t' : Task) : Prop where
  pid_eq : t'.pid = t.pid
  parent_eq : t'.parentPid = t.parentPid
  state_eq : t'.state = t.state

theorem SamePlace.refl (t : Task) : SamePlace t t := ⟨rfl, rfl, rfl⟩

theorem SamePlace.trans {t t' t'' : Task} (h : SamePlace t t') (h' : SamePlace t' t'') :
    SamePlace t t'' :=
  ⟨h'.pid_eq.trans h.pid_eq, h'.parent_eq.trans h.parent_eq, h'.state_eq.trans h.state_eq⟩

/-! ## Claiming a slot -/

/-- The slots of the table past the idle one. -/
theorem mem_slots {n i : ℕ} : i ∈ (List.range n).drop 1 ↔ 0 < i ∧ i < n := by
  constructor
  · intro h
    obtain ⟨j, hj, hget⟩ := List.mem_iff_getElem.mp h
    simp only [List.length_drop, List.length_range, List.getElem_drop,
      List.getElem_range] at hj hget
    omega
  · rintro ⟨h0, hn⟩
    refine List.mem_iff_getElem.mpr ⟨i - 1, ?_, ?_⟩
    · simp only [List.length_drop, List.length_range]
      omega
    · simp only [List.getElem_drop, List.getElem_range]
      omega

/-- What a claimed slot is: unused, past the idle one, in the table that now holds it. -/
theorem claimTaskSlot_spec {k k' : Kernel} {p : ℕ} (hclaim : claimTaskSlot k = some (k', p)) :
    ChangedAt p k k' ∧ k'.tasks = k.tasks ∧ k'.spaces = k.spaces
      ∧ (0 < p ∧ p < k.taskCount ∧ (k.tasks p).state = .unused ∧ k'.taskCount = k.taskCount
        ∨ p = k.taskCount ∧ k'.taskCount = k.taskCount + 1 ∧ k.taskCount < schedMaxTasks) := by
  rw [claimTaskSlot] at hclaim
  split at hclaim
  · rename_i i hfind
    obtain ⟨rfl, rfl⟩ := Prod.mk.inj (Option.some.inj hclaim)
    have hmem := List.mem_of_find?_eq_some hfind
    have hu := List.find?_some hfind
    have hpos : 0 < i ∧ i < k.taskCount := mem_slots.mp hmem
    exact ⟨ChangedAt.refl _ k, rfl, rfl, .inl ⟨hpos.1, hpos.2, by simpa using hu, rfl⟩⟩
  · split at hclaim
    · exact nomatch hclaim
    · rename_i hlt
      obtain ⟨rfl, rfl⟩ := Prod.mk.inj (Option.some.inj hclaim)
      exact ⟨ChangedAt.taskCount _ k _, rfl, rfl, .inr ⟨rfl, rfl, Nat.not_le.mp hlt⟩⟩

/-- Giving a slot back changes the count alone. -/
theorem releaseTaskSlot_spec (p : ℕ) (k : Kernel) :
    (releaseTaskSlot p k).tasks = k.tasks ∧ ChangedAt p k (releaseTaskSlot p k) := by
  rw [releaseTaskSlot]
  split
  · exact ⟨rfl, ChangedAt.taskCount _ k _⟩
  · exact ⟨rfl, ChangedAt.refl _ k⟩

/-! ## Creation -/

section Creation

variable (L : Layout) (S : Symbols)

/-- A new kernel thread. -/
structure NewThread (p : ℕ) (entry : Word) (t : Task) : Prop where
  pid_eq : t.pid = p
  parent_eq : t.parentPid = -1
  state_eq : t.state = .ready
  status_eq : t.userStatus = {}
  space_eq : t.memory.addressSpace = .kernel
  entry_eq : t.entry = entry

/-- **A kernel thread fills the claimed slot.** -/
theorem addTask_spec {k k' : Kernel} {p : ℕ} (name : Option String) (entry : Word)
    (hclaim : claimTaskSlot k = some (k', p)) :
    (schedulerAddTask S name entry k).2 = p
      ∧ ChangedAt p k (schedulerAddTask S name entry k).1
      ∧ (schedulerAddTask S name entry k).1.taskCount = k'.taskCount
      ∧ (schedulerAddTask S name entry k).1.spaces = k.spaces
      ∧ NewThread p entry ((schedulerAddTask S name entry k).1.tasks p) := by
  obtain ⟨hk', -, hspaces, -⟩ := claimTaskSlot_spec hclaim
  rw [schedulerAddTask, hclaim]
  dsimp only
  refine ⟨rfl, ?_⟩
  set k₁ := k'.modTask p (resetTask S p name .ready entry) with hk₁
  set k₂ := k₁.modTask p fun t => { t with el0 := schedulerInitTaskEl0 (k₁.taskSpace p) } with hk₂
  have h₂ : ChangedAt p k k₂ :=
    (hk'.trans (ChangedAt.modTask k' p _)).trans (ChangedAt.modTask k₁ p _)
  have hnew : NewThread p entry (k₂.tasks p) := by
    rw [hk₂, Kernel.modTask_self, hk₁, Kernel.modTask_self]
    exact ⟨rfl, rfl, rfl, rfl, rfl, rfl⟩
  split
  · exact ⟨h₂, rfl, hspaces, hnew⟩
  · refine ⟨h₂.trans (ChangedAt.modTask k₂ p _), rfl, hspaces, ?_⟩
    rw [Kernel.modTask_self]
    exact ⟨hnew.pid_eq, hnew.parent_eq, hnew.state_eq, hnew.status_eq, hnew.space_eq, hnew.entry_eq⟩

/-- …and starts from the trampoline. -/
theorem addTask_context {k k' : Kernel} {p : ℕ} (name : Option String) {entry : Word}
    (hentry : entry ≠ 0) (hclaim : claimTaskSlot k = some (k', p)) :
    ((schedulerAddTask S name entry k).1.tasks p).context = threadContext S p entry := by
  rw [schedulerAddTask, hclaim]
  dsimp only
  rw [if_neg hentry, Kernel.modTask_self]

/-- A new user task, not yet admitted. -/
structure NewUserTask (p : ℕ) (t : Task) : Prop where
  pid_eq : t.pid = p
  parent_eq : t.parentPid = -1
  state_eq : t.state = .blocked
  status_eq : t.userStatus = {}
  space_eq : t.memory.addressSpace = .user

/-- How the creation of a user task can end. -/
inductive UserTaskOutcome (k : Kernel) : Kernel × ℤ → Prop
  /-- Refused before a slot was claimed. -/
  | refused : UserTaskOutcome k (k, -1)
  /-- Undone: the claimed slot is given back, unused. -/
  | undone {k' k₁ : Kernel} {p : ℕ} (hclaim : claimTaskSlot k = some (k', p))
      (hrest : ChangedAt p k k₁) (hcount : k₁.taskCount = k'.taskCount)
      (hslot : SamePlace (k.tasks p) (k₁.tasks p)
        ∨ (k₁.tasks p).pid = p ∧ (k₁.tasks p).parentPid = -1 ∧ (k₁.tasks p).state = .unused) :
      UserTaskOutcome k (releaseTaskSlot p k₁, -1)
  /-- Created in the claimed slot. -/
  | created {k' k₁ : Kernel} {p : ℕ} (hclaim : claimTaskSlot k = some (k', p))
      (hrest : ChangedAt p k k₁) (hcount : k₁.taskCount = k'.taskCount)
      (hnew : NewUserTask p (k₁.tasks p)) : UserTaskOutcome k (k₁, p)

/-- **A creation that fails** leaves the claimed slot as it was, or unused and without a parent. -/
theorem UserTaskOutcome.place {k k' : Kernel} {r : Kernel × ℤ} {p : ℕ} (ho : UserTaskOutcome k r)
    (hneg : r.2 < 0) (hclaim : claimTaskSlot k = some (k', p)) :
    (r.1.tasks p).state = (k.tasks p).state ∧ (r.1.tasks p).parentPid = (k.tasks p).parentPid
      ∨ (r.1.tasks p).state = .unused ∧ (r.1.tasks p).parentPid = -1 := by
  cases ho with
  | refused => exact .inl ⟨rfl, rfl⟩
  | undone hclaim' hrest hcount hslot =>
    rename_i k₀ k₁ q
    obtain ⟨-, rfl⟩ := Prod.mk.inj (Option.some.inj (hclaim'.symm.trans hclaim))
    rw [(releaseTaskSlot_spec q k₁).1]
    rcases hslot with hsame | ⟨-, hparent, hstate⟩
    · exact .inl ⟨hsame.state_eq, hsame.parent_eq⟩
    · exact .inr ⟨hstate, hparent⟩
  | created hclaim' hrest hcount hnew =>
    dsimp only at hneg
    omega

/-- An abandoned task leaves its slot unused. -/
theorem abandonUserTask_spec (p : ℕ) (k : Kernel) :
    ∃ k₁, abandonUserTask p k = (releaseTaskSlot p k₁, -1) ∧ ChangedAt p k k₁
      ∧ k₁.taskCount = k.taskCount ∧ (k₁.tasks p).pid = (k.tasks p).pid
      ∧ (k₁.tasks p).parentPid = (k.tasks p).parentPid ∧ (k₁.tasks p).state = .unused := by
  obtain ⟨hd, hc, space, ht⟩ := destroyUserAddressSpace_spec p k
  refine ⟨_, rfl, hd.trans (ChangedAt.modTask _ p _), hc, ?_⟩
  rw [Kernel.modTask_self, ht]
  exact ⟨rfl, rfl, rfl⟩

/-- Packing strings keeps whatever a write of user data keeps. -/
theorem packStrings_keeps {P : SpaceStatics → Prop} {space : AddressSpace}
    (hwrite : ∀ st offset data size, P st →
      P (addressSpaceWriteUserData st space offset data size).1) :
    ∀ (tokens : List (List Byte)) (cursor : Word) (st : SpaceStatics), P st →
      P (packStrings space tokens cursor st).1 := by
  intro tokens
  induction tokens with
  | nil => exact fun _ _ h => h
  | cons token rest ih =>
    intro cursor st h
    have htoken := hwrite st cursor (listBuffer token) (BitVec.ofNat 64 token.length) h
    rw [packStrings]
    dsimp only
    split
    · rename_i heq
      rwa [heq] at htoken
    · rename_i st₁ heq
      rw [heq] at htoken
      have hnul := hwrite st₁ (cursor + BitVec.ofNat 64 token.length) (listBuffer [0]) 1 htoken
      have hrest := ih (cursor + BitVec.ofNat 64 token.length + 1) _ hnul
      split
      · rename_i heq₂
        rwa [heq₂] at hrest
      · rename_i heq₂
        rwa [heq₂] at hrest

/-- The statics but for tables and pages. -/
structure SameSlots (st st' : SpaceStatics) : Prop where
  kernel : st'.kernelAddressSpace = st.kernelAddressSpace
  flags : st'.userTableSlotsUsed = st.userTableSlotsUsed

theorem SameSlots.refl (st : SpaceStatics) : SameSlots st st := ⟨rfl, rfl⟩

theorem SameSlots.trans {st st' st'' : SpaceStatics} (h : SameSlots st st')
    (h' : SameSlots st' st'') : SameSlots st st'' :=
  ⟨h'.kernel.trans h.kernel, h'.flags.trans h.flags⟩

theorem writeUserData_sameSlots (st : SpaceStatics) (space : AddressSpace) (offset : Word)
    (data : Buffer) (size : Word) :
    SameSlots st (addressSpaceWriteUserData st space offset data size).1 :=
  ⟨addressSpaceWriteUserData_kernel .., addressSpaceWriteUserData_slots ..⟩

theorem packStrings_sameSlots (space : AddressSpace) (tokens : List (List Byte)) (cursor : Word)
    (st : SpaceStatics) : SameSlots st (packStrings space tokens cursor st).1 :=
  packStrings_keeps (P := SameSlots st) (fun _ _ _ _ h => h.trans (writeUserData_sameSlots ..))
    tokens cursor st (SameSlots.refl st)

/-- **Packing the arguments** completes a new task or abandons it, over the slot it has. -/
theorem packArguments_spec {p : ℕ} (image : SaturnExecImage) (argument : List Byte) {k : Kernel}
    (hnew : NewUserTask p (k.tasks p)) :
    ∃ k₁, ChangedAt p k k₁ ∧ k₁.taskCount = k.taskCount ∧ NewUserTask p (k₁.tasks p)
      ∧ SameSlots k.spaces k₁.spaces
      ∧ (k₁.tasks p).userAddressSpace = (k.tasks p).userAddressSpace
      ∧ (packArguments p image argument k = (k₁, (p : ℤ))
        ∨ packArguments p image argument k = abandonUserTask p k₁) := by
  have hspaces : ∀ (k : Kernel) {st : SpaceStatics}, NewUserTask p (k.tasks p) →
      SameSlots k.spaces st →
      ChangedAt p k { k with spaces := st } ∧ { k with spaces := st }.taskCount = k.taskCount
        ∧ NewUserTask p ({ k with spaces := st }.tasks p) :=
    fun k _ h hst => ⟨ChangedAt.spaces p k (congrArg AddressSpace.kind hst.kernel), rfl, h⟩
  have hpack := packStrings_sameSlots (k.tasks p).userAddressSpace (argumentTokens argument)
    (argumentBase image + 128) k.spaces
  simp only [packArguments]
  split
  · rename_i st heq
    rw [heq] at hpack
    obtain ⟨h1, h2, h3⟩ := hspaces k hnew hpack
    exact ⟨_, h1, h2, h3, hpack, rfl, .inr rfl⟩
  · rename_i st argv lengths heq
    rw [heq] at hpack
    set k₁ := Kernel.modTask { k with spaces := st } p fun t =>
      { t with
        userArgc := BitVec.ofNat 64 (argumentTokens argument).length
        userArgvAddress := (k.tasks p).userAddressSpace.userDataStart + argumentBase image
        userArgLengthsAddress :=
          (k.tasks p).userAddressSpace.userDataStart + argumentBase image + 64 } with hk₁
    have h₁ : ChangedAt p k k₁ :=
      (hspaces k hnew hpack).1.trans (ChangedAt.modTask { k with spaces := st } p _)
    have hnew₁ : NewUserTask p (k₁.tasks p)
        ∧ (k₁.tasks p).userAddressSpace = (k.tasks p).userAddressSpace := by
      rw [hk₁, Kernel.modTask_self]
      exact ⟨⟨hnew.pid_eq, hnew.parent_eq, hnew.state_eq, hnew.status_eq, hnew.space_eq⟩, rfl⟩
    have hargv := writeUserData_sameSlots k₁.spaces (k.tasks p).userAddressSpace
      (argumentBase image) (listBuffer (argumentArray argv)) 64
    split
    · rename_i st₁ heq₁
      rw [heq₁] at hargv
      obtain ⟨h1, h2, h3⟩ := hspaces k₁ hnew₁.1 hargv
      exact ⟨_, h₁.trans h1, h2, h3, hpack.trans hargv, hnew₁.2, .inr rfl⟩
    · rename_i st₁ heq₁
      rw [heq₁] at hargv
      have hlengths := writeUserData_sameSlots st₁ (k.tasks p).userAddressSpace
        (argumentBase image + 64) (listBuffer (argumentArray lengths)) 64
      split
      · rename_i st₂ heq₂
        rw [heq₂] at hlengths
        obtain ⟨h1, h2, h3⟩ := hspaces k₁ hnew₁.1 (hargv.trans hlengths)
        exact ⟨_, h₁.trans h1, h2, h3, hpack.trans (hargv.trans hlengths), hnew₁.2, .inr rfl⟩
      · rename_i st₂ heq₂
        rw [heq₂] at hlengths
        obtain ⟨h1, h2, h3⟩ := hspaces k₁ hnew₁.1 (hargv.trans hlengths)
        refine ⟨_, (h₁.trans h1).trans (ChangedAt.modTask _ p _), h2, ?_,
          hpack.trans (hargv.trans hlengths), ?_, .inl rfl⟩
        · rw [Kernel.modTask_self]
          exact ⟨h3.pid_eq, h3.parent_eq, h3.state_eq, h3.status_eq, h3.space_eq⟩
        · rw [Kernel.modTask_self]
          exact hnew₁.2

/-- **A user task is created in the claimed slot or nowhere.** -/
theorem createUserTask_outcome (name : Option String) (file argument : Option (List Byte))
    {k : Kernel} (hmax : k.taskCount ≤ schedMaxTasks) :
    UserTaskOutcome k (schedulerCreateUserTaskFromImage L S name file argument k) := by
  rw [schedulerCreateUserTaskFromImage]
  split
  · exact .refused
  · rename_i image _
    split
    · exact .refused
    · rename_i k' p hclaim
      obtain ⟨hk', htasks, -, hslot⟩ := claimTaskSlot_spec hclaim
      have hlt : ¬ schedMaxTasks ≤ p := by omega
      rw [if_neg hlt]
      dsimp only
      set init := addressSpaceInitUser L (some (name.getD "user-demo"))
        k'.spaces.kernelAddressSpace.rootTable k'.spaces
      set load := addressSpaceLoadUserImage init.1 init.2 (listBuffer image.code)
        (BitVec.ofNat 64 image.code.length) (listBuffer image.data)
        (BitVec.ofNat 64 image.data.length) (BitVec.ofNat 64 image.entryOffset)
      set k₁ := Kernel.modTask { k' with spaces := load.1 } p fun t =>
        { t with userAddressSpace := load.2.1 } with hk₁
      have hload : load.1.kernelAddressSpace = k'.spaces.kernelAddressSpace :=
        (addressSpaceLoadUserImage_kernel _ _ _ _ _ _ _).trans
          (addressSpaceInitUser_kernel _ _ _ _)
      have h₁ : ChangedAt p k k₁ := (hk'.trans
        (ChangedAt.spaces p k' (congrArg AddressSpace.kind hload))).trans
        (ChangedAt.modTask { k' with spaces := load.1 } p _)
      split
      · -- the image does not load: the slot still holds what it held
        obtain ⟨hd, hc, space, ht⟩ := destroyUserAddressSpace_spec p k₁
        refine .undone hclaim (h₁.trans hd) hc (.inl ?_)
        rw [ht, hk₁, Kernel.modTask_self, htasks]
        exact ⟨rfl, rfl, rfl⟩
      · set k₂ := k₁.modTask p (resetTask S p (some (name.getD "user-demo")) .blocked 0) with hk₂
        set k₃ := k₂.modTask p fun t =>
          { t with memory := { t.memory with addressSpace := .user } } with hk₃
        have h₃ : ChangedAt p k k₃ :=
          (h₁.trans (ChangedAt.modTask k₁ p _)).trans (ChangedAt.modTask k₂ p _)
        have hnew : NewUserTask p (k₃.tasks p) := by
          rw [hk₃, Kernel.modTask_self, hk₂, Kernel.modTask_self]
          exact ⟨rfl, rfl, rfl, rfl, rfl⟩
        obtain ⟨k₄, h₄, hc₄, hnew₄, -, -, hpack | hpack⟩ :=
          packArguments_spec image (argument.getD []) hnew
        · rw [hpack]
          exact .created hclaim (h₃.trans h₄) hc₄ hnew₄
        · obtain ⟨k₅, habandon, h₅, hc₅, hpid, hparent, hstate⟩ := abandonUserTask_spec p k₄
          rw [hpack, habandon]
          exact .undone hclaim ((h₃.trans h₄).trans h₅) (hc₅.trans hc₄)
            (.inr ⟨hpid.trans hnew₄.pid_eq, hparent.trans hnew₄.parent_eq, hstate⟩)

end Creation

/-! ## Scheduling -/

/-- What scheduling leaves of a task: everything but the state of a live task, its sleep and its
accounts. -/
structure SameTask (t t' : Task) : Prop where
  pid_eq : t'.pid = t.pid
  parent_eq : t'.parentPid = t.parentPid
  entry_eq : t'.entry = t.entry
  context_eq : t'.context = t.context
  memory_eq : t'.memory = t.memory
  space_eq : t'.userAddressSpace = t.userAddressSpace
  el0_eq : t'.el0 = t.el0
  status_eq : t'.userStatus = t.userStatus
  unused_iff : t'.state = .unused ↔ t.state = .unused
  zombie_iff : t'.state = .zombie ↔ t.state = .zombie

theorem SameTask.refl (t : Task) : SameTask t t :=
  ⟨rfl, rfl, rfl, rfl, rfl, rfl, rfl, rfl, Iff.rfl, Iff.rfl⟩

theorem SameTask.trans {t t' t'' : Task} (h : SameTask t t') (h' : SameTask t' t'') :
    SameTask t t'' :=
  ⟨h'.pid_eq.trans h.pid_eq, h'.parent_eq.trans h.parent_eq, h'.entry_eq.trans h.entry_eq,
    h'.context_eq.trans h.context_eq, h'.memory_eq.trans h.memory_eq,
    h'.space_eq.trans h.space_eq, h'.el0_eq.trans h.el0_eq, h'.status_eq.trans h.status_eq,
    h'.unused_iff.trans h.unused_iff, h'.zombie_iff.trans h.zombie_iff⟩

/-- `k'` is `k` rescheduled. -/
structure Resched (k k' : Kernel) : Prop where
  tasks : ∀ i, SameTask (k.tasks i) (k'.tasks i)
  taskCount : k'.taskCount = k.taskCount
  threadsStarted : k'.threadsStarted = k.threadsStarted
  userSessions : k'.userSessions = k.userSessions
  spaces : k'.spaces = k.spaces

namespace Resched

variable {k k' k'' : Kernel}

theorem refl (k : Kernel) : Resched k k := ⟨fun _ => SameTask.refl _, rfl, rfl, rfl, rfl⟩

theorem trans (h : Resched k k') (h' : Resched k' k'') : Resched k k'' :=
  ⟨fun i => (h.tasks i).trans (h'.tasks i), h'.taskCount.trans h.taskCount,
    h'.threadsStarted.trans h.threadsStarted, h'.userSessions.trans h.userSessions,
    h'.spaces.trans h.spaces⟩

theorem modTask (k : Kernel) (p : ℕ) {f : Task → Task}
    (hf : SameTask (k.tasks p) (f (k.tasks p))) : Resched k (k.modTask p f) :=
  ⟨k.modTask_ind p f (P := fun i t => SameTask (k.tasks i) t) hf fun _ _ => SameTask.refl _,
    rfl, rfl, rfl, rfl⟩

/-- The counters and the current task are not part of it. -/
theorem of_tasks (ht : k'.tasks = k.tasks) (hc : k'.taskCount = k.taskCount)
    (hs : k'.threadsStarted = k.threadsStarted) (hu : k'.userSessions = k.userSessions)
    (hsp : k'.spaces = k.spaces) : Resched k k' :=
  ⟨fun i => by rw [ht]; exact SameTask.refl _, hc, hs, hu, hsp⟩

end Resched

theorem wakeTask_same (ticks : Word) (t : Task) : SameTask t (wakeTask ticks t) := by
  rw [wakeTask]
  split
  · rename_i h
    exact ⟨rfl, rfl, rfl, rfl, rfl, rfl, rfl, rfl, by simp [h.1], by simp [h.1]⟩
  · exact SameTask.refl t

theorem wakeSleepingTasks_resched (k : Kernel) : Resched k (schedulerWakeSleepingTasks k) := by
  refine ⟨fun i => ?_, rfl, rfl, rfl, rfl⟩
  dsimp only [schedulerWakeSleepingTasks]
  split
  · exact wakeTask_same _ _
  · exact SameTask.refl _

theorem runnable_iff {t : Task} :
    schedulerTaskIsRunnable t = true ↔ t.state = .ready ∨ t.state = .running := by
  simp [schedulerTaskIsRunnable]

/-- A live state given to a runnable task. -/
theorem SameTask.of_runnable {t t' : Task} (hrun : schedulerTaskIsRunnable t = true)
    (hrun' : schedulerTaskIsRunnable t' = true) (hpid : t'.pid = t.pid)
    (hparent : t'.parentPid = t.parentPid) (hentry : t'.entry = t.entry)
    (hcontext : t'.context = t.context) (hmemory : t'.memory = t.memory)
    (hspace : t'.userAddressSpace = t.userAddressSpace) (hel0 : t'.el0 = t.el0)
    (hstatus : t'.userStatus = t.userStatus) : SameTask t t' := by
  refine ⟨hpid, hparent, hentry, hcontext, hmemory, hspace, hel0, hstatus, ?_, ?_⟩ <;>
    rcases runnable_iff.mp hrun with h | h <;> rcases runnable_iff.mp hrun' with h' | h' <;>
    simp [h, h']

/-- **Where the search ends** it found a runnable task, or it is where it started. -/
theorem nextRunnable_cases (k : Kernel) :
    schedulerTaskIsRunnable (k.tasks (schedulerNextRunnableTask k)) = true
      ∨ schedulerNextRunnableTask k = k.currentTask := by
  rw [schedulerNextRunnableTask]
  split
  · rename_i c hfind
    have hc := List.find?_some hfind
    exact .inl (Bool.and_eq_true_iff.mp hc).2
  · split
    · exact .inl ‹_›
    · exact .inr rfl

theorem runTask_resched {k : Kernel} {next : ℕ}
    (hrun : schedulerTaskIsRunnable (k.tasks next) = true) : Resched k (runTask next k) := by
  have hset : Resched k (schedulerSetRunningTask next k) :=
    Resched.modTask k next (SameTask.of_runnable hrun rfl rfl rfl rfl rfl rfl rfl rfl rfl)
  exact hset.trans (Resched.of_tasks rfl rfl rfl rfl rfl)

theorem demoteTask_resched (k : Kernel) (p : ℕ) (account : TaskAccounting → TaskAccounting) :
    Resched k (demoteTask p account k) := by
  rw [demoteTask]
  split
  · rename_i h
    refine Resched.modTask k p ?_
    exact SameTask.of_runnable (runnable_iff.mpr (.inr h)) rfl rfl rfl rfl rfl rfl rfl rfl rfl
  · exact Resched.refl k

theorem demoteTask_of_ne (k : Kernel) (p : ℕ) (account : TaskAccounting → TaskAccounting) {i : ℕ}
    (h : i ≠ p) : (demoteTask p account k).tasks i = k.tasks i := by
  rw [demoteTask]
  split
  · exact k.modTask_of_ne p _ h
  · rfl

/-- **Yielding reschedules and no more.** -/
theorem yield_resched (k : Kernel) : Resched k (schedulerYield k).1 := by
  simp only [schedulerYield]
  split
  · exact Resched.refl k
  · set w := schedulerWakeSleepingTasks k with hw
    have hwake : Resched k w := wakeSleepingTasks_resched k
    have hcur : w.currentTask = k.currentTask := rfl
    set next := schedulerNextRunnableTask w with hnext
    split
    · split
      · rename_i hrun
        dsimp only
        refine hwake.trans (Resched.modTask w k.currentTask ?_)
        exact SameTask.of_runnable hrun rfl rfl rfl rfl rfl rfl rfl rfl rfl
      · exact hwake
    · rename_i hne
      have hrun : schedulerTaskIsRunnable (w.tasks next) = true :=
        (nextRunnable_cases w).resolve_right fun h => hne (h.trans hcur)
      set d := demoteTask k.currentTask (fun a => { a with yields := a.yields + 1 }) w with hd
      have hdrun : schedulerTaskIsRunnable (d.tasks next) = true := by
        rw [hd, demoteTask_of_ne w _ _ hne]
        exact hrun
      have hr : Resched k (runTask next d) :=
        (hwake.trans (demoteTask_resched w _ _)).trans (runTask_resched hdrun)
      split
      · exact hr.trans (Resched.of_tasks rfl rfl rfl rfl rfl)
      · exact hr

/-- **…and so does a preemption.** -/
theorem preempt_resched (k : Kernel) : Resched k (schedulerPreempt k).1 := by
  simp only [schedulerPreempt]
  split
  · exact Resched.refl k
  · set w := schedulerWakeSleepingTasks { k with schedulerTicks := k.schedulerTicks + 1 } with hw
    have htick : Resched k { k with schedulerTicks := k.schedulerTicks + 1 } :=
      Resched.of_tasks rfl rfl rfl rfl rfl
    have hwake : Resched k w := htick.trans (wakeSleepingTasks_resched _)
    set u := w.modTask w.currentTask fun t =>
      { t with accounting := { t.accounting with runTicks := t.accounting.runTicks + 1 } } with hu
    have huse : Resched w u := by
      refine Resched.modTask w w.currentTask ?_
      exact ⟨rfl, rfl, rfl, rfl, rfl, rfl, rfl, rfl, Iff.rfl, Iff.rfl⟩
    have hcur : u.currentTask = w.currentTask := rfl
    set next := schedulerNextRunnableTask u
    split
    · exact hwake.trans huse
    · rename_i hne
      have hrun : schedulerTaskIsRunnable (u.tasks next) = true :=
        (nextRunnable_cases u).resolve_right fun h => hne (h.trans hcur)
      set d := demoteTask w.currentTask id u with hd
      set a := d.modTask w.currentTask fun t =>
        { t with accounting := { t.accounting with preemptions := t.accounting.preemptions + 1 } }
      have ha : Resched d a := by
        refine Resched.modTask d w.currentTask ?_
        exact ⟨rfl, rfl, rfl, rfl, rfl, rfl, rfl, rfl, Iff.rfl, Iff.rfl⟩
      have harun : schedulerTaskIsRunnable (a.tasks next) = true := by
        rw [d.modTask_of_ne _ _ hne, hd, demoteTask_of_ne u _ _ hne]
        exact hrun
      exact (((hwake.trans huse).trans (demoteTask_resched u _ _)).trans ha).trans
        (runTask_resched harun)

/-- What a switch says: from the task that was current to the one that is now, another one. -/
def SwitchOk (k : Kernel) (r : Kernel × Switch) : Prop :=
  match r.2 with
  | .stay => r.1.currentTask = k.currentTask
  | .to prev next => prev = k.currentTask ∧ next = r.1.currentTask ∧ next ≠ prev
  | .stuck => True

theorem yield_switchOk (k : Kernel) : SwitchOk k (schedulerYield k) := by
  simp only [schedulerYield]
  split
  · exact (rfl : k.currentTask = k.currentTask)
  · set w := schedulerWakeSleepingTasks k
    split
    · split
      · exact (rfl : k.currentTask = k.currentTask)
      · exact trivial
    · rename_i hne
      refine ⟨rfl, ?_, hne⟩
      dsimp only
      split <;> rfl

/-- **A yield installs the root of the task it switches to**, if that has one. -/
theorem yield_ttbr0 (k : Kernel) :
    ((schedulerYield k).2 = .stay → (schedulerYield k).1.ttbr0 = k.ttbr0)
      ∧ ∀ prev next, (schedulerYield k).2 = .to prev next →
        userModeTaskResumeRoot (schedulerYield k).1 next ≠ 0 →
        (schedulerYield k).1.ttbr0 = userModeTaskResumeRoot (schedulerYield k).1 next := by
  simp only [schedulerYield]
  split
  · exact ⟨fun _ => rfl, nofun⟩
  · set w := schedulerWakeSleepingTasks k
    split
    · split
      · exact ⟨fun _ => rfl, nofun⟩
      · exact ⟨nofun, nofun⟩
    · set r := runTask (schedulerNextRunnableTask w)
        (demoteTask k.currentTask (fun a => { a with yields := a.yields + 1 }) w)
      refine ⟨nofun, fun prev next hsw hne => ?_⟩
      obtain ⟨-, rfl⟩ := Switch.to.inj hsw
      dsimp only at hne ⊢
      by_cases hroot : userModeTaskResumeRoot r (schedulerNextRunnableTask w) = 0
      · rw [if_neg (not_not.mpr hroot)] at hne
        exact absurd hroot hne
      · rw [if_pos hroot]
        rfl

/-- **…a preemption does not.** -/
theorem preempt_ttbr0 (k : Kernel) : (schedulerPreempt k).1.ttbr0 = k.ttbr0 := by
  simp only [schedulerPreempt]
  split
  · rfl
  · split
    · rfl
    · simp only [runTask, schedulerSetRunningTask, demoteTask]
      split <;> rfl

theorem sleepMs_switchOk (ms intervalMs : Word) (k : Kernel) :
    SwitchOk k (schedulerSleepMs ms intervalMs k) := by
  simp only [schedulerSleepMs]
  split
  · exact (rfl : k.currentTask = k.currentTask)
  · exact yield_switchOk _

theorem preempt_switchOk (k : Kernel) : SwitchOk k (schedulerPreempt k) := by
  simp only [schedulerPreempt]
  split
  · exact (rfl : k.currentTask = k.currentTask)
  · split
    · exact (rfl : k.currentTask = k.currentTask)
    · rename_i hne
      exact ⟨rfl, rfl, hne⟩

/-! ## Admission -/

/-- A pid argument that passed the bounds check. -/
theorem pidInTable_lt {k : Kernel} {pid : ℤ} (hp : pidInTable k pid = true) :
    pid.toNat < k.taskCount ∧ (pid.toNat : ℤ) = pid := by
  simp only [pidInTable, Bool.and_eq_true, decide_eq_true_eq] at hp
  omega

/-- A task goes from ready to blocked or back, with its place and its program. -/
structure Readmitted (t t' : Task) : Prop where
  was : t.state = .ready ∨ t.state = .blocked
  now : t'.state = .ready ∨ t'.state = .blocked
  pid_eq : t'.pid = t.pid
  parent_eq : t'.parentPid = t.parentPid
  memory_eq : t'.memory = t.memory
  space_eq : t'.userAddressSpace = t.userAddressSpace
  entries_eq : t'.userStatus.el0Entries = t.userStatus.el0Entries
  completed_eq : t'.userStatus.programCompleted = t.userStatus.programCompleted

theorem Readmitted.used {t t' : Task} (h : Readmitted t t') :
    t.state ≠ .unused ∧ t'.state ≠ .unused := by
  constructor
  · rcases h.was with hs | hs <;> rw [hs] <;> exact nofun
  · rcases h.now with hs | hs <;> rw [hs] <;> exact nofun

/-- At most the task `p` is readmitted, the idle task only out of a block it is never in. -/
def Readmits (p : ℕ) (k k' : Kernel) : Prop :=
  k' = k ∨ p < k.taskCount ∧ (p = 0 → (k.tasks p).state = .blocked)
    ∧ ∃ f, k' = k.modTask p f ∧ Readmitted (k.tasks p) (f (k.tasks p))

theorem unblockUserTask_readmits (S : Symbols) (pid : ℤ) (k : Kernel) :
    Readmits pid.toNat k (schedulerUnblockUserTask S pid k).1 := by
  simp only [schedulerUnblockUserTask]
  split
  · exact .inl rfl
  · rename_i hp
    split
    · exact .inl rfl
    · rename_i hblocked
      have hb : (k.tasks pid.toNat).state = .blocked := by simpa using hblocked
      split
      · exact .inl rfl
      · split
        · exact .inl rfl
        · dsimp only
          refine .inr ⟨(pidInTable_lt (by simpa using hp)).1, fun _ => hb, _, rfl, ?_⟩
          exact ⟨.inr hb, .inl rfl, rfl, rfl, rfl, rfl, rfl, rfl⟩

theorem blockTask_readmits (pid : ℤ) (k : Kernel) :
    Readmits pid.toNat k (schedulerBlockTask pid k).1 := by
  simp only [schedulerBlockTask]
  split
  · exact .inl rfl
  · rename_i hp
    simp only [Bool.or_eq_true, Bool.not_eq_true', beq_iff_eq, not_or, Bool.not_eq_false] at hp
    obtain ⟨hlt, heq⟩ := pidInTable_lt hp.1.1
    split
    · exact .inl rfl
    · split
      · exact .inl rfl
      · rename_i hready
        have hr : (k.tasks pid.toNat).state = .ready := by simpa using hready
        dsimp only
        refine .inr ⟨hlt, fun h0 => absurd (by omega) hp.1.2, _, rfl, ?_⟩
        exact ⟨.inl hr, .inr rfl, rfl, rfl, rfl, rfl, rfl, rfl⟩

theorem unblockTask_readmits (pid : ℤ) (k : Kernel) :
    Readmits pid.toNat k (schedulerUnblockTask pid k).1 := by
  simp only [schedulerUnblockTask]
  split
  · exact .inl rfl
  · rename_i hp
    simp only [Bool.or_eq_true, Bool.not_eq_true', beq_iff_eq, not_or, Bool.not_eq_false] at hp
    obtain ⟨hlt, heq⟩ := pidInTable_lt hp.1
    split
    · exact .inl rfl
    · split
      · exact .inl rfl
      · rename_i hblocked
        have hb : (k.tasks pid.toNat).state = .blocked := by simpa using hblocked
        dsimp only
        refine .inr ⟨hlt, fun _ => hb, _, rfl, ?_⟩
        exact ⟨.inr hb, .inl rfl, rfl, rfl, rfl, rfl, rfl, rfl⟩

/-! ## Reaping -/

/-- What the reaping loop takes. -/
def Reapable (k : Kernel) (slots : List ℕ) (i : ℕ) : Prop :=
  i ∈ slots ∧ i ≠ k.currentTask ∧ (k.tasks i).state = .zombie

/-- **The loop clears the zombies it passes**, but for the current task, and touches nothing
else. -/
theorem foldl_reapSlot_spec (slots : List ℕ) (k : Kernel) :
    (slots.foldl reapSlot k).currentTask = k.currentTask
      ∧ (slots.foldl reapSlot k).taskCount = k.taskCount
      ∧ (slots.foldl reapSlot k).userSessions = k.userSessions
      ∧ (slots.foldl reapSlot k).spaces.kernelAddressSpace.kind = k.spaces.kernelAddressSpace.kind
      ∧ (slots.foldl reapSlot k).ttbr0 = k.ttbr0
      ∧ ∀ i, (Reapable k slots i → ∃ t, (slots.foldl reapSlot k).tasks i = clearTask i t)
        ∧ (¬ Reapable k slots i → (slots.foldl reapSlot k).tasks i = k.tasks i) := by
  induction slots generalizing k with
  | nil =>
    exact ⟨rfl, rfl, rfl, rfl, rfl, fun i => ⟨fun h => absurd h.1 List.not_mem_nil, fun _ => rfl⟩⟩
  | cons a rest ih =>
    obtain ⟨hcur, hcount, hsess, hkind, httbr0, hrest⟩ := ih (reapSlot k a)
    rw [List.foldl_cons]
    by_cases ha : a ≠ k.currentTask ∧ (k.tasks a).state = .zombie
    · have hk : reapSlot k a = schedulerClearTaskSlot a k := if_pos ha
      obtain ⟨hch, hc, space, hslot⟩ := clearTaskSlot_spec a k
      rw [hk] at hcur hcount hsess hkind httbr0 hrest ⊢
      refine ⟨hcur.trans hch.currentTask, hcount.trans hc, hsess.trans hch.userSessions,
        hkind.trans hch.kernelKind, httbr0.trans hch.ttbr0, fun i => ?_⟩
      by_cases hia : i = a
      · obtain rfl := hia
        -- the slot is already clear when the loop goes on
        have hnot : ¬ Reapable (schedulerClearTaskSlot i k) rest i := by
          rintro ⟨-, -, hz⟩
          rw [hslot] at hz
          exact nomatch hz
        have hi := (hrest i).2 hnot
        exact ⟨fun _ => ⟨_, hi.trans hslot⟩,
          fun hn => absurd ⟨List.mem_cons_self, ha⟩ hn⟩
      · have hiff : Reapable (schedulerClearTaskSlot a k) rest i ↔ Reapable k (a :: rest) i := by
          simp only [Reapable, List.mem_cons, hia, false_or, hch.currentTask, hch.tasks i hia]
        rw [← hiff]
        exact ⟨(hrest i).1, fun hn => ((hrest i).2 hn).trans (hch.tasks i hia)⟩
    · have hk : reapSlot k a = k := if_neg ha
      rw [hk] at hcur hcount hsess hkind httbr0 hrest ⊢
      refine ⟨hcur, hcount, hsess, hkind, httbr0, fun i => ?_⟩
      have hiff : Reapable k rest i ↔ Reapable k (a :: rest) i := by
        constructor
        · rintro ⟨hm, hz⟩
          exact ⟨List.mem_cons_of_mem _ hm, hz⟩
        · rintro ⟨hm, hz⟩
          rcases List.mem_cons.mp hm with rfl | hm
          · exact absurd hz ha
          · exact ⟨hm, hz⟩
      rw [← hiff]
      exact hrest i

/-! ## Sessions -/

/-- What the session code leaves of a task: everything but counters and the exit code. -/
structure SameProgram (t t' : Task) : Prop where
  pid_eq : t'.pid = t.pid
  parent_eq : t'.parentPid = t.parentPid
  state_eq : t'.state = t.state
  entry_eq : t'.entry = t.entry
  context_eq : t'.context = t.context
  memory_eq : t'.memory = t.memory
  space_eq : t'.userAddressSpace = t.userAddressSpace
  el0Entries_eq : t'.userStatus.el0Entries = t.userStatus.el0Entries
  completed_eq : t'.userStatus.programCompleted = t.userStatus.programCompleted

theorem SameProgram.refl (t : Task) :
    SameProgram t t := ⟨rfl, rfl, rfl, rfl, rfl, rfl, rfl, rfl, rfl⟩

theorem SameProgram.trans {t t' t'' : Task} (h : SameProgram t t') (h' : SameProgram t' t'') :
    SameProgram t t'' :=
  ⟨h'.pid_eq.trans h.pid_eq, h'.parent_eq.trans h.parent_eq, h'.state_eq.trans h.state_eq,
    h'.entry_eq.trans h.entry_eq, h'.context_eq.trans h.context_eq, h'.memory_eq.trans h.memory_eq,
    h'.space_eq.trans h.space_eq, h'.el0Entries_eq.trans h.el0Entries_eq,
    h'.completed_eq.trans h.completed_eq⟩

theorem SameProgram.samePlace {t t' : Task} (h : SameProgram t t') : SamePlace t t' :=
  ⟨h.pid_eq, h.parent_eq, h.state_eq⟩

/-- An active session was so before, as it is. -/
def KeepsSession (s s' : UserSession) : Prop :=
  s'.active = true → s.active = true ∧ s'.completed = s.completed ∧ s'.userRoot = s.userRoot

/-- `k'` is `k` with sessions possibly closed, none opened. -/
structure ClosesSessions (k k' : Kernel) : Prop where
  tasks : ∀ i, SameProgram (k.tasks i) (k'.tasks i)
  taskCount : k'.taskCount = k.taskCount
  currentTask : k'.currentTask = k.currentTask
  threadsStarted : k'.threadsStarted = k.threadsStarted
  spaces : k'.spaces = k.spaces
  sessions : ∀ i, KeepsSession (k.userSessions i) (k'.userSessions i)

namespace ClosesSessions

variable {k k' k'' : Kernel}

theorem refl (k : Kernel) : ClosesSessions k k :=
  ⟨fun _ => SameProgram.refl _, rfl, rfl, rfl, rfl, fun _ h => ⟨h, rfl, rfl⟩⟩

theorem trans (h : ClosesSessions k k') (h' : ClosesSessions k' k'') : ClosesSessions k k'' where
  tasks i := (h.tasks i).trans (h'.tasks i)
  taskCount := h'.taskCount.trans h.taskCount
  currentTask := h'.currentTask.trans h.currentTask
  threadsStarted := h'.threadsStarted.trans h.threadsStarted
  spaces := h'.spaces.trans h.spaces
  sessions i ha := by
    obtain ⟨h1, h2, h3⟩ := h'.sessions i ha
    obtain ⟨h4, h5, h6⟩ := h.sessions i h1
    exact ⟨h4, h2.trans h5, h3.trans h6⟩

theorem modTask (k : Kernel) (p : ℕ) {f : Task → Task}
    (hf : SameProgram (k.tasks p) (f (k.tasks p))) : ClosesSessions k (k.modTask p f) :=
  ⟨k.modTask_ind p f (P := fun i t => SameProgram (k.tasks i) t) hf fun _ _ => SameProgram.refl _,
    rfl, rfl, rfl, rfl, fun _ h => ⟨h, rfl, rfl⟩⟩

theorem modSessionTask (k : Kernel) {f : Task → Task} (hf : ∀ t, SameProgram t (f t)) :
    ClosesSessions k (k.modSessionTask f) := by
  rw [Kernel.modSessionTask]
  split
  · exact refl k
  · exact modTask k _ (hf _)

theorem switchTtbr0 (k : Kernel) (root : Word) : ClosesSessions k (k.arm64MmuSwitchTtbr0 root) :=
  ⟨fun _ => SameProgram.refl _, rfl, rfl, rfl, rfl, fun _ h => ⟨h, rfl, rfl⟩⟩

theorem modSession (k : Kernel) {f : UserSession → UserSession}
    (hf : KeepsSession k.userSession (f k.userSession)) : ClosesSessions k (k.modSession f) := by
  refine ⟨fun _ => SameProgram.refl _, rfl, rfl, rfl, rfl, fun i => ?_⟩
  dsimp only [Kernel.modSession]
  by_cases hi : i = k.sessionIndex
  · rw [hi, Function.update_self]
    exact hf
  · rw [Function.update_of_ne hi]
    exact fun h => ⟨h, rfl, rfl⟩

end ClosesSessions

theorem userSessionReject_closes (reason : UserSessionRejectReason) (k : Kernel) :
    ClosesSessions k (userSessionReject reason k) := by
  simp only [userSessionReject]
  set k₁ := (if k.userSession.kernelRoot ≠ 0 then
    k.arm64MmuSwitchTtbr0 k.userSession.kernelRoot else k)
  have h₁ : ClosesSessions k k₁ := by
    show ClosesSessions k (if _ then _ else _)
    split
    · exact ClosesSessions.switchTtbr0 _ _
    · exact ClosesSessions.refl _
  refine h₁.trans (ClosesSessions.trans (ClosesSessions.trans (ClosesSessions.modSession k₁ ?_)
    (ClosesSessions.modSessionTask _ ?_)) (ClosesSessions.modSession _ ?_))
  · exact fun h => ⟨h, rfl, rfl⟩
  · exact fun t => ⟨rfl, rfl, rfl, rfl, rfl, rfl, rfl, rfl, rfl⟩
  · exact nofun

/-- **A fault closes the session it meets.** -/
theorem handleException_closes (spsr : Word) (k : Kernel) :
    ClosesSessions k (userModeHandleException spsr k).1 := by
  simp only [userModeHandleException]
  split
  · exact ClosesSessions.refl k
  · split
    · exact userSessionReject_closes _ k
    · split
      · exact userSessionReject_closes _ k
      · split
        · exact userSessionReject_closes _ k
        · dsimp only
          refine (ClosesSessions.switchTtbr0 k _).trans (ClosesSessions.trans
            (ClosesSessions.modSessionTask _ ?_) (ClosesSessions.modSession _ ?_))
          · exact fun t => ⟨rfl, rfl, rfl, rfl, rfl, rfl, rfl, rfl, rfl⟩
          · exact nofun

/-- **…and so does the exit syscall.** -/
theorem handleExitSyscall_closes (code : Word) (k : Kernel) :
    ClosesSessions k (userModeHandleExitSyscall code k).1 := by
  simp only [userModeHandleExitSyscall]
  split
  · exact ClosesSessions.refl k
  · set k₁ := (if k.userSession.kernelRoot ≠ 0 then
      k.arm64MmuSwitchTtbr0 k.userSession.kernelRoot else k)
    have h₁ : ClosesSessions k k₁ := by
      show ClosesSessions k (if _ then _ else _)
      split
      · exact ClosesSessions.switchTtbr0 _ _
      · exact ClosesSessions.refl _
    dsimp only
    refine h₁.trans (ClosesSessions.trans (ClosesSessions.modSessionTask _ ?_)
      (ClosesSessions.modSession _ ?_))
    · exact fun t => ⟨rfl, rfl, rfl, rfl, rfl, rfl, rfl, rfl, rfl⟩
    · exact nofun

/-- The other sessions stay as they are. -/
theorem userSessionReject_others (reason : UserSessionRejectReason) (k : Kernel) {p : ℕ}
    (hp : p ≠ k.sessionIndex) :
    (userSessionReject reason k).userSessions p = k.userSessions p := by
  simp only [userSessionReject]
  set k₁ := (if k.userSession.kernelRoot ≠ 0 then
    k.arm64MmuSwitchTtbr0 k.userSession.kernelRoot else k)
  have hk₁ : k₁.sessionIndex = k.sessionIndex ∧ k₁.userSessions = k.userSessions := by
    show Kernel.sessionIndex (if _ then _ else _) = _ ∧ Kernel.userSessions (if _ then _ else _) = _
    split <;> exact ⟨rfl, rfl⟩
  have hp₁ : p ≠ k₁.sessionIndex := by
    rw [hk₁.1]
    exact hp
  rw [Kernel.modSession_of_ne, Kernel.modSessionTask_userSessions, Kernel.modSession_of_ne _ _ hp₁,
    hk₁.2]
  rw [Kernel.modSessionTask_sessionIndex]
  · exact hp₁
  · exact fun _ => rfl

theorem handleException_others (spsr : Word) (k : Kernel) {p : ℕ} (hp : p ≠ k.sessionIndex) :
    (userModeHandleException spsr k).1.userSessions p = k.userSessions p := by
  simp only [userModeHandleException]
  split
  · rfl
  · split
    · exact userSessionReject_others _ k hp
    · split
      · exact userSessionReject_others _ k hp
      · split
        · exact userSessionReject_others _ k hp
        · dsimp only
          rw [Kernel.modSession_of_ne, Kernel.modSessionTask_userSessions]
          · rfl
          · rw [Kernel.modSessionTask_sessionIndex]
            · exact hp
            · exact fun _ => rfl

theorem handleExitSyscall_others (code : Word) (k : Kernel) {p : ℕ} (hp : p ≠ k.sessionIndex) :
    (userModeHandleExitSyscall code k).1.userSessions p = k.userSessions p := by
  simp only [userModeHandleExitSyscall]
  split
  · rfl
  · set k₁ := (if k.userSession.kernelRoot ≠ 0 then
      k.arm64MmuSwitchTtbr0 k.userSession.kernelRoot else k)
    have hk₁ : k₁.sessionIndex = k.sessionIndex ∧ k₁.userSessions = k.userSessions := by
      show Kernel.sessionIndex (if _ then _ else _) = _
        ∧ Kernel.userSessions (if _ then _ else _) = _
      split <;> exact ⟨rfl, rfl⟩
    dsimp only
    rw [Kernel.modSession_of_ne, Kernel.modSessionTask_userSessions, hk₁.2]
    rw [Kernel.modSessionTask_sessionIndex]
    · rw [hk₁.1]
      exact hp
    · exact fun _ => rfl

theorem runTaskReturn_closes (p : ℕ) (k : Kernel) :
    ClosesSessions k (userModeRunTaskReturn p k).1 := by
  simp only [userModeRunTaskReturn]
  split
  · dsimp only
    refine (ClosesSessions.modTask k p ?_).trans (ClosesSessions.modSession _ ?_)
    · exact ⟨rfl, rfl, rfl, rfl, rfl, rfl, rfl, rfl, rfl⟩
    · exact fun h => ⟨h, rfl, rfl⟩
  · dsimp only
    refine (ClosesSessions.modSession k ?_).trans (ClosesSessions.switchTtbr0 _ _)
    exact nofun

/-- What `user_mode_can_enter` admits. -/
theorem userModePrepare_ready {k : Kernel} {p : ℕ} {space : AddressSpace}
    (h : userModePrepare k p = .ready) (hspace : k.taskSpace p = some space) :
    space.kind = .user ∧ space.validationReady = true ∧ (k.tasks p).el0.spsr = arm64SpsrEl0t := by
  rw [userModePrepare, userModeCanEnter, hspace] at h
  dsimp only at h
  split at h
  · exact nomatch h
  · rename_i hkind
    split at h
    · exact nomatch h
    · rename_i hvalid
      simp only [Bool.or_eq_true, Bool.not_eq_true', not_or, Bool.not_eq_false] at hvalid
      split at h
      · exact nomatch h
      · split at h
        · exact nomatch h
        · split at h
          · exact nomatch h
          · rename_i hentry
            simp only [not_or, not_not] at hentry
            exact ⟨by simpa using hkind, hvalid.1, hentry.2.2.2⟩

theorem switchStub_ready {space : AddressSpace} (h : addressSpaceSwitchStub space = .ready) :
    space.targetRootTable ≠ 0 := by
  rw [addressSpaceSwitchStub] at h
  split at h
  · exact nomatch h
  · split at h
    · exact nomatch h
    · rename_i hblocked
      simp only [Bool.or_eq_true, beq_iff_eq, not_or] at hblocked
      exact hblocked.1.1.2

/-- **Entering EL0** opens the session over the task's own root, or changes nothing. -/
theorem runTaskEnter_spec (S : Symbols) (p : ℕ) (k : Kernel) :
    (∃ status, status ≠ .ready ∧ userModeRunTaskEnter S p k = (k, status))
      ∨ ∃ space, k.taskSpace p = some space ∧ space.kind = .user ∧ space.validationReady = true
        ∧ space.targetRootTable ≠ 0 ∧ (k.tasks p).el0.spsr = arm64SpsrEl0t
        ∧ ((k.tasks p).state = .eligible ∨ (k.tasks p).state = .running)
        ∧ userModeRunTaskEnter S p k
          = (((k.modSession (openSession S p space)).arm64MmuSwitchTtbr0
              space.targetRootTable).modTask p fun t =>
            { t with userStatus :=
              { t.userStatus with el0Entries := t.userStatus.el0Entries + 1 } }, .ready) := by
  rw [userModeRunTaskEnter]
  split
  · rename_i hn
    exact .inl ⟨_, hn, rfl⟩
  · rename_i hready
    have hprepare : userModePrepare k p = .ready := by simpa using hready
    split
    · exact .inl ⟨.notEligible, nofun, rfl⟩
    · rename_i hstate
      split
      · exact .inl ⟨.switchNotReady, nofun, rfl⟩
      · rename_i space hspace
        obtain ⟨hkind, hvalid, hspsr⟩ := userModePrepare_ready hprepare hspace
        split
        · exact .inl ⟨.switchNotReady, nofun, rfl⟩
        · rename_i hstub
          refine .inr ⟨space, hspace, hkind, hvalid, switchStub_ready (by simpa using hstub), hspsr,
            ?_, ?_⟩
          · by_contra hneither
            exact hstate (not_or.mp hneither)
          · dsimp only
            rw [Kernel.modSession_userSession]
            rfl

end SaturnOS
