import SaturnOS.Sched.Slots

/-!
# Sched/Records — what a call leaves of a task

    created ──▸ admitted ──▸ EL0 ──exit / fault──▸ completed ──▸ zombie ──▸ cleared
                    └──────────── terminated ───────────────────────┘

A task's **record** is what it is and how it ended: its status, its address space, whether it is a
zombie.  Scheduling, admission and blocking keep every record (`KeepsRecords`).  The calls around a
program — in and out of EL0, and its end — stay within its slot (`WithinSlot`), each with one lemma
that says what becomes of the task and of its session.  A filled slot holds a fresh task
(`FreshIn`).
-/

open Machinery

namespace SaturnOS

/-! ## Records -/

/-- A task keeps its record: what it is and how it ended.  Its parent may be taken away, and its
entry set by an admission. -/
structure SameRecord (S : Symbols) (t t' : Task) : Prop extends SameSpace t t' where
  zombie_iff : t'.state = .zombie ↔ t.state = .zombie
  parent : t'.parentPid = t.parentPid ∨ t'.parentPid = -1
  entry : t'.entry = t.entry ∨ t'.entry = S.schedulerUserTaskEntry
  exitCode_eq : t'.userStatus.lastExitCode = t.userStatus.lastExitCode
  succeeded_eq : t'.userStatus.programSucceeded = t.userStatus.programSucceeded
  completed_eq : t'.userStatus.programCompleted = t.userStatus.programCompleted
  entries_eq : t'.userStatus.el0Entries = t.userStatus.el0Entries

namespace SameRecord

variable {S : Symbols} {t t' t'' : Task}

/-- A record is kept by no step, and by one after another. -/
theorem refl (S : Symbols) (t : Task) : SameRecord S t t :=
  ⟨SameSpace.refl t, Iff.rfl, .inl rfl, .inl rfl, rfl, rfl, rfl, rfl⟩

theorem trans (h : SameRecord S t t') (h' : SameRecord S t' t'') : SameRecord S t t'' where
  unused_iff := h'.unused_iff.trans h.unused_iff
  pointer_eq := h'.pointer_eq.trans h.pointer_eq
  space_eq := h'.space_eq.trans h.space_eq
  zombie_iff := h'.zombie_iff.trans h.zombie_iff
  parent := by
    rcases h'.parent with hp | hp
    · rw [hp]
      exact h.parent
    · exact .inr hp
  entry := by
    rcases h'.entry with he | he
    · rw [he]
      exact h.entry
    · exact .inr he
  exitCode_eq := h'.exitCode_eq.trans h.exitCode_eq
  succeeded_eq := h'.succeeded_eq.trans h.succeeded_eq
  completed_eq := h'.completed_eq.trans h.completed_eq
  entries_eq := h'.entries_eq.trans h.entries_eq

theorem of_sameTask (h : SameTask t t') : SameRecord S t t' where
  unused_iff := h.unused_iff
  pointer_eq := by rw [h.memory_eq]
  space_eq := h.space_eq
  zombie_iff := h.zombie_iff
  parent := .inl h.parent_eq
  entry := .inl h.entry_eq
  exitCode_eq := by rw [h.status_eq]
  succeeded_eq := by rw [h.status_eq]
  completed_eq := by rw [h.status_eq]
  entries_eq := by rw [h.status_eq]

/-- A live task given another live state. -/
theorem of_live (hu : t.state ≠ .unused) (hz : t.state ≠ .zombie) (hu' : t'.state ≠ .unused)
    (hz' : t'.state ≠ .zombie) (hmemory : t'.memory = t.memory)
    (hspace : t'.userAddressSpace = t.userAddressSpace) (hparent : t'.parentPid = t.parentPid)
    (hentry : t'.entry = t.entry ∨ t'.entry = S.schedulerUserTaskEntry)
    (hcode : t'.userStatus.lastExitCode = t.userStatus.lastExitCode)
    (hsucceeded : t'.userStatus.programSucceeded = t.userStatus.programSucceeded)
    (hcompleted : t'.userStatus.programCompleted = t.userStatus.programCompleted)
    (hentries : t'.userStatus.el0Entries = t.userStatus.el0Entries) : SameRecord S t t' :=
  ⟨SameSpace.of_used hu hu' hmemory hspace, iff_of_false hz' hz, .inl hparent, hentry, hcode,
    hsucceeded, hcompleted, hentries⟩

end SameRecord

/-- Every task but `p` keeps its record, and every session but that of `p` stays. -/
structure RecordsBut (S : Symbols) (p : ℕ) (k k' : Kernel) : Prop where
  tasks : ∀ i, i ≠ p → SameRecord S (k.tasks i) (k'.tasks i)
  sessions : ∀ i, i ≠ p → k'.userSessions i = k.userSessions i

/-- …and `p` too; the CPU moves to nobody but a running task. -/
structure KeepsRecords (S : Symbols) (k k' : Kernel) : Prop where
  tasks : ∀ i, SameRecord S (k.tasks i) (k'.tasks i)
  sessions : k'.userSessions = k.userSessions
  current : k'.currentTask = k.currentTask ∨ k'.current.state = .running

namespace KeepsRecords

variable {S : Symbols} {k k' k'' : Kernel}

theorem refl (S : Symbols) (k : Kernel) : KeepsRecords S k k :=
  ⟨fun _ => SameRecord.refl S _, rfl, .inl rfl⟩

theorem modTask (k : Kernel) (p : ℕ) {f : Task → Task}
    (hf : SameRecord S (k.tasks p) (f (k.tasks p))) : KeepsRecords S k (k.modTask p f) :=
  ⟨k.modTask_ind p f (P := fun i t => SameRecord S (k.tasks i) t) hf fun _ _ => SameRecord.refl S _,
    rfl, .inl rfl⟩

/-- A call that stays, then another. -/
theorem trans (h : KeepsRecords S k k') (hstay : k'.currentTask = k.currentTask)
    (h' : KeepsRecords S k' k'') : KeepsRecords S k k'' :=
  ⟨fun i => (h.tasks i).trans (h'.tasks i), h'.sessions.trans h.sessions,
    h'.current.imp_left fun hc => hc.trans hstay⟩

end KeepsRecords

/-! ## Calls that keep every record -/

section Quiet

variable (S : Symbols) {k : Kernel}

/-- **A switch leaves a running task current**: `scheduler_yield`… -/
theorem runTask_current (next : ℕ) (k : Kernel) : (runTask next k).current.state = .running := by
  show ((schedulerSetRunningTask next k).tasks next).state = .running
  rw [schedulerSetRunningTask, Kernel.modTask_self]

theorem yield_current (k : Kernel) :
    (schedulerYield k).1.currentTask = k.currentTask
      ∨ (schedulerYield k).1.current.state = .running := by
  simp only [schedulerYield]
  split
  · exact .inl rfl
  · split
    · split <;> exact .inl rfl
    · refine .inr ?_
      dsimp only
      split <;> exact runTask_current _ _

/-- …and `scheduler_preempt`, unless they stay. -/
theorem preempt_current (k : Kernel) :
    (schedulerPreempt k).1.currentTask = k.currentTask
      ∨ (schedulerPreempt k).1.current.state = .running := by
  simp only [schedulerPreempt]
  split
  · exact .inl rfl
  · split
    · exact .inl rfl
    · exact .inr (runTask_current _ _)

/-- **The scheduler's own calls keep the records**, a sleep where its task is alive. -/
theorem yield_records (k : Kernel) : KeepsRecords S k (schedulerYield k).1 :=
  ⟨fun i => SameRecord.of_sameTask ((yield_resched k).tasks i), (yield_resched k).userSessions,
    yield_current k⟩

theorem preempt_records (k : Kernel) : KeepsRecords S k (schedulerPreempt k).1 :=
  ⟨fun i => SameRecord.of_sameTask ((preempt_resched k).tasks i), (preempt_resched k).userSessions,
    preempt_current k⟩

theorem sleepMs_records (h : TableOk k) (hlive : k.current.state ≠ .zombie) (ms intervalMs : Word) :
    KeepsRecords S k (schedulerSleepMs ms intervalMs k).1 := by
  simp only [schedulerSleepMs]
  split
  · exact KeepsRecords.refl S k
  · refine KeepsRecords.trans (KeepsRecords.modTask k k.currentTask ?_) rfl (yield_records S _)
    exact SameRecord.of_live h.current_used hlive (by simp) (by simp) rfl rfl rfl (.inl rfl) rfl rfl
      rfl rfl

theorem startThreads_records (h : TableOk k) (h0 : k.currentTask = 0) :
    KeepsRecords S k (schedulerStartThreads k) := by
  have hidle : (k.tasks 0).state ≠ .unused ∧ (k.tasks 0).state ≠ .zombie := by
    rcases h.idle with hi | hi <;> simp [hi]
  have hset := KeepsRecords.modTask (S := S) { k with threadsStarted := true, currentTask := 0 } 0
    (f := fun t => { t with
      state := .running
      accounting := { t.accounting with switches := t.accounting.switches + 1 } })
    (SameRecord.of_live hidle.1 hidle.2 (by simp) (by simp) rfl rfl rfl (.inl rfl) rfl rfl rfl rfl)
  rw [schedulerStartThreads, schedulerSetRunningTask]
  exact ⟨hset.tasks, hset.sessions, .inl h0.symm⟩

/-- So do the calls that block and unblock. -/
theorem unblockUserTask_records (pid : ℤ) (k : Kernel) :
    KeepsRecords S k (schedulerUnblockUserTask S pid k).1 := by
  simp only [schedulerUnblockUserTask]
  split
  · exact KeepsRecords.refl S k
  · split
    · exact KeepsRecords.refl S k
    · rename_i hblocked
      rw [not_not] at hblocked
      split
      · exact KeepsRecords.refl S k
      · split
        · exact KeepsRecords.refl S k
        · dsimp only
          refine KeepsRecords.modTask k _ ?_
          exact SameRecord.of_live (by simp [hblocked]) (by simp [hblocked]) (by simp) (by simp) rfl
            rfl rfl (.inr rfl) rfl rfl rfl rfl

theorem blockTask_records (pid : ℤ) (k : Kernel) :
    KeepsRecords S k (schedulerBlockTask pid k).1 := by
  simp only [schedulerBlockTask]
  split
  · exact KeepsRecords.refl S k
  · split
    · exact KeepsRecords.refl S k
    · split
      · exact KeepsRecords.refl S k
      · rename_i hready
        rw [not_not] at hready
        dsimp only
        refine KeepsRecords.modTask k _ ?_
        exact SameRecord.of_live (by simp [hready]) (by simp [hready]) (by simp) (by simp) rfl rfl
          rfl (.inl rfl) rfl rfl rfl rfl

theorem unblockTask_records (pid : ℤ) (k : Kernel) :
    KeepsRecords S k (schedulerUnblockTask pid k).1 := by
  simp only [schedulerUnblockTask]
  split
  · exact KeepsRecords.refl S k
  · split
    · exact KeepsRecords.refl S k
    · split
      · exact KeepsRecords.refl S k
      · rename_i hblocked
        rw [not_not] at hblocked
        dsimp only
        refine KeepsRecords.modTask k _ ?_
        exact SameRecord.of_live (by simp [hblocked]) (by simp [hblocked]) (by simp) (by simp) rfl
          rfl rfl (.inl rfl) rfl rfl rfl rfl

end Quiet

/-! ## Calls that move one task -/

/-- The session of slot `p` is its own: it names the task there, or nobody and is closed. -/
def OwnSession (p : ℕ) (s : UserSession) : Prop :=
  s.task = some p ∨ s.task = none ∧ s.active = false

/-- `p` is where the session code is at work. -/
structure AtSlot (p : ℕ) (k : Kernel) : Prop where
  index : k.sessionIndex = p
  own : OwnSession p (k.userSessions p)

/-- The current session is the one of the slot. -/
theorem AtSlot.session_eq {p : ℕ} {k : Kernel} (h : AtSlot p k) :
    k.userSession = k.userSessions p := by
  rw [Kernel.userSession, h.index]

/-- `k'` is `k` but for the task and the session in slot `p`. -/
structure WithinSlot (p : ℕ) (k k' : Kernel) : Prop where
  tasks : ∀ i, i ≠ p → k'.tasks i = k.tasks i
  sessions : ∀ i, i ≠ p → k'.userSessions i = k.userSessions i
  currentTask : k'.currentTask = k.currentTask
  atSlot : AtSlot p k'

theorem WithinSlot.records {S : Symbols} {p : ℕ} {k k' : Kernel} (h : WithinSlot p k k') :
    RecordsBut S p k k' :=
  ⟨fun i hi => by rw [h.tasks i hi]; exact SameRecord.refl S _, h.sessions⟩

namespace AtSlot

variable {p : ℕ} {k k' k'' : Kernel} (h : AtSlot p k)

include h

/-- Inside a slot: nothing, a root, the task, the session… -/
theorem stay : WithinSlot p k k := ⟨fun _ _ => rfl, fun _ _ => rfl, rfl, h⟩

theorem switchTtbr0 (root : Word) : WithinSlot p k (k.arm64MmuSwitchTtbr0 root) :=
  ⟨fun _ _ => rfl, fun _ _ => rfl, rfl, ⟨h.index, h.own⟩⟩

theorem modTask {f : Task → Task} (hf : (f (k.tasks p)).pid = (k.tasks p).pid) :
    WithinSlot p k (k.modTask p f) :=
  ⟨fun _ hi => k.modTask_of_ne p f hi, fun _ _ => rfl, rfl,
    ⟨(k.modTask_sessionIndex hf).trans h.index, h.own⟩⟩

theorem modSession_self (f : UserSession → UserSession) :
    (k.modSession f).userSessions p = f (k.userSessions p) := by
  rw [Kernel.modSession, h.index, h.session_eq]
  exact Function.update_self _ _ _

theorem modSession {f : UserSession → UserSession} (hf : OwnSession p (f (k.userSessions p))) :
    WithinSlot p k (k.modSession f) := by
  refine ⟨fun _ _ => rfl, fun i hi => k.modSession_of_ne f (by rw [h.index]; exact hi), rfl,
    ⟨h.index, ?_⟩⟩
  rw [h.modSession_self f]
  exact hf

/-- An open session names the task in its slot. -/
theorem task_eq (hactive : k.userSession.active = true) : (k.userSessions p).task = some p := by
  rw [h.session_eq] at hactive
  exact h.own.resolve_right fun hn => by cases hn.2.symm.trans hactive

theorem modSessionTask_eq (hactive : k.userSession.active = true) (f : Task → Task) :
    k.modSessionTask f = k.modTask p f := by
  rw [Kernel.modSessionTask, h.session_eq, h.task_eq hactive]

theorem modSessionTask {f : Task → Task} (hf : ∀ t, (f t).pid = t.pid) :
    WithinSlot p k (k.modSessionTask f) := by
  rw [Kernel.modSessionTask, h.session_eq]
  rcases h.own with ht | ⟨ht, -⟩
  · rw [ht]
    exact h.modTask (hf _)
  · rw [ht]
    exact h.stay

end AtSlot

/-- …and one of these after another. -/
theorem WithinSlot.trans {p : ℕ} {k k' k'' : Kernel} (h : WithinSlot p k k')
    (h' : WithinSlot p k' k'') : WithinSlot p k k'' :=
  ⟨fun i hi => (h'.tasks i hi).trans (h.tasks i hi),
    fun i hi => (h'.sessions i hi).trans (h.sessions i hi), h'.currentTask.trans h.currentTask,
    h'.atSlot⟩

/-- A task made a zombie, with the success flag and the exit code it leaves. -/
structure Ended (succeeded : Bool) (code : Word) (t t' : Task) : Prop where
  zombie : t'.state = .zombie
  completed : t'.userStatus.programCompleted = true
  succeeded_eq : t'.userStatus.programSucceeded = succeeded
  exitCode_eq : t'.userStatus.lastExitCode = code
  entries_eq : t'.userStatus.el0Entries = t.userStatus.el0Entries
  parent_eq : t'.parentPid = t.parentPid
  entry_eq : t'.entry = t.entry
  pointer_eq : t'.memory.addressSpace = t.memory.addressSpace
  space_eq : t'.userAddressSpace = t.userAddressSpace

section Session

variable {p : ℕ} {k : Kernel} (h : AtSlot p k)

include h

/-- **The exit syscall** records its code and closes the session, or is not taken. -/
theorem handleExitSyscall_life (code : Word) :
    userModeHandleExitSyscall code k = (k, none)
      ∨ ∃ k' back, userModeHandleExitSyscall code k = (k', some back) ∧ WithinSlot p k k'
        ∧ k'.tasks p = { k.tasks p with userStatus := { (k.tasks p).userStatus with
          traps := (k.tasks p).userStatus.traps + 1
          exits := (k.tasks p).userStatus.exits + 1
          lastExitCode := code } }
        ∧ k'.userSessions p
          = { k.userSessions p with completed := true, faulted := false, active := false } := by
  simp only [userModeHandleExitSyscall]
  split
  · exact .inl rfl
  · rename_i hopen
    simp only [Bool.or_eq_true, Bool.not_eq_true', not_or, Bool.not_eq_false] at hopen
    set k₁ := (if k.userSession.kernelRoot ≠ 0 then
      k.arm64MmuSwitchTtbr0 k.userSession.kernelRoot else k) with hk₁
    have h₁ : WithinSlot p k k₁ ∧ k₁.tasks = k.tasks ∧ k₁.userSessions = k.userSessions := by
      rw [hk₁]
      split
      · exact ⟨h.switchTtbr0 _, rfl, rfl⟩
      · exact ⟨h.stay, rfl, rfl⟩
    have hactive : k₁.userSession.active = true := by
      rw [h₁.1.atSlot.session_eq, h₁.2.2, ← h.session_eq]
      exact hopen.1
    rw [h₁.1.atSlot.modSessionTask_eq hactive]
    set k₂ := k₁.modTask p fun t =>
      { t with userStatus :=
        { t.userStatus with
          traps := t.userStatus.traps + 1
          exits := t.userStatus.exits + 1
          lastExitCode := code } } with hk₂
    have h₂ : WithinSlot p k₁ k₂ := h₁.1.atSlot.modTask rfl
    have h₃ := h₂.atSlot.modSession (f := fun s =>
      { s with completed := true, faulted := false, active := false })
      (h₂.atSlot.own.imp_right fun hn => ⟨hn.1, rfl⟩)
    refine .inr ⟨_, _, rfl, (h₁.1.trans h₂).trans h₃, ?_, ?_⟩
    · show k₂.tasks p = _
      rw [hk₂, Kernel.modTask_self, h₁.2.1]
    · rw [h₂.atSlot.modSession_self]
      show { k₁.userSessions p with completed := true, faulted := false, active := false } = _
      rw [h₁.2.2]

/-- A rejected exception counts against the task and changes nothing else of it. -/
theorem userSessionReject_life (S : Symbols) (reason : UserSessionRejectReason) :
    WithinSlot p k (userSessionReject reason k)
      ∧ SameRecord S (k.tasks p) ((userSessionReject reason k).tasks p)
      ∧ ((userSessionReject reason k).userSessions p).completed
        = (k.userSessions p).completed := by
  simp only [userSessionReject]
  set k₁ := (if k.userSession.kernelRoot ≠ 0 then
    k.arm64MmuSwitchTtbr0 k.userSession.kernelRoot else k) with hk₁
  have h₁ : WithinSlot p k k₁ ∧ k₁.tasks = k.tasks ∧ k₁.userSessions = k.userSessions := by
    rw [hk₁]
    split
    · exact ⟨h.switchTtbr0 _, rfl, rfl⟩
    · exact ⟨h.stay, rfl, rfl⟩
  have h₂ := h₁.1.atSlot.modSession (f := fun s =>
    { s with lastRejectReason := reason, rejectCount := s.rejectCount + 1 })
    (h₁.1.atSlot.own.imp_right id)
  have hs₂ := h₁.1.atSlot.modSession_self fun s =>
    { s with lastRejectReason := reason, rejectCount := s.rejectCount + 1 }
  set k₂ := k₁.modSession fun s =>
    { s with lastRejectReason := reason, rejectCount := s.rejectCount + 1 }
  set f : Task → Task := fun t =>
    { t with userStatus := { t.userStatus with rejects := t.userStatus.rejects + 1 } } with hf
  have h₃ : WithinSlot p k₂ (k₂.modSessionTask f) := h₂.atSlot.modSessionTask fun _ => rfl
  have h₄ := h₃.atSlot.modSession (f := fun s => { s with active := false })
    (h₃.atSlot.own.imp_right fun hn => ⟨hn.1, rfl⟩)
  refine ⟨((h₁.1.trans h₂).trans h₃).trans h₄, ?_, ?_⟩
  · show SameRecord S (k.tasks p) ((k₂.modSessionTask f).tasks p)
    have hsame : ∀ t, SameRecord S t (f t) := fun t =>
      ⟨⟨Iff.rfl, rfl, rfl⟩, Iff.rfl, .inl rfl, .inl rfl, rfl, rfl, rfl, rfl⟩
    have hk₂ : k₂.tasks p = k.tasks p := congrFun h₁.2.1 p
    rw [Kernel.modSessionTask]
    split
    · rw [hk₂]
      exact SameRecord.refl S _
    · rw [← hk₂]
      exact (KeepsRecords.modTask k₂ _ (hsame _)).tasks p
  · have hs₃ : (k₂.modSessionTask f).userSessions = k₂.userSessions := by
      rw [Kernel.modSessionTask]
      split <;> rfl
    rw [h₃.atSlot.modSession_self]
    show ((k₂.modSessionTask f).userSessions p).completed = _
    rw [hs₃, hs₂, h₁.2.2]

/-- **A fault** closes the session as faulted, or is rejected. -/
theorem handleException_life (S : Symbols) (spsr : Word) :
    ∃ k' back, userModeHandleException spsr k = (k', back) ∧ WithinSlot p k k'
      ∧ SameRecord S (k.tasks p) (k'.tasks p)
      ∧ (back = none → (k'.userSessions p).completed = (k.userSessions p).completed)
      ∧ (back.isSome = true → (k'.userSessions p).active = false
        ∧ (k'.userSessions p).completed = true ∧ (k'.userSessions p).faulted = true) := by
  simp only [userModeHandleException]
  split
  · exact ⟨k, none, rfl, h.stay, SameRecord.refl S _, fun _ => rfl, by simp⟩
  · rename_i hopen
    have hactive : k.userSession.active = true := by simpa using hopen
    split
    · obtain ⟨hw, hr, hc⟩ := userSessionReject_life h S .badRoots
      exact ⟨_, none, rfl, hw, hr, fun _ => hc, by simp⟩
    · split
      · obtain ⟨hw, hr, hc⟩ := userSessionReject_life h S .badReturn
        exact ⟨_, none, rfl, hw, hr, fun _ => hc, by simp⟩
      · split
        · obtain ⟨hw, hr, hc⟩ := userSessionReject_life h S .unexpectedMode
          exact ⟨_, none, rfl, hw, hr, fun _ => hc, by simp⟩
        · set k₁ := k.arm64MmuSwitchTtbr0 k.userSession.kernelRoot with hk₁
          have h₁ : WithinSlot p k k₁ := h.switchTtbr0 _
          rw [h₁.atSlot.modSessionTask_eq hactive]
          set k₂ := k₁.modTask p fun t =>
            { t with userStatus := { t.userStatus with
              traps := t.userStatus.traps + 1, rejects := t.userStatus.rejects + 1 } } with hk₂
          have h₂ : WithinSlot p k₁ k₂ := h₁.atSlot.modTask rfl
          set g : UserSession → UserSession := fun s =>
            { s with
              rejectCount := s.rejectCount + 1
              lastRejectReason := .none
              completed := true
              faulted := true
              active := false } with hg
          have h₃ := h₂.atSlot.modSession (f := g)
            (h₂.atSlot.own.imp_right fun hn => ⟨hn.1, rfl⟩)
          refine ⟨_, _, rfl, (h₁.trans h₂).trans h₃, ?_, by simp, fun _ => ?_⟩
          · show SameRecord S (k.tasks p) (k₂.tasks p)
            rw [hk₂, Kernel.modTask_self]
            exact ⟨⟨Iff.rfl, rfl, rfl⟩, Iff.rfl, .inl rfl, .inl rfl, rfl, rfl, rfl, rfl⟩
          · rw [h₂.atSlot.modSession_self]
            exact ⟨rfl, rfl, rfl⟩

/-- **The end of a user task** is inside its slot, and says how it ended. -/
theorem finishUserTask_life (status : UserModeStatus) :
    WithinSlot p k (finishUserTask p status k).1
      ∧ Ended (status == .ready) (k.tasks p).userStatus.lastExitCode (k.tasks p)
        ((finishUserTask p status k).1.tasks p) := by
  rw [finishUserTask]
  split
  · rename_i hstatus
    dsimp only
    refine ⟨h.modTask rfl, ?_⟩
    rw [Kernel.modTask_self]
    exact ⟨rfl, rfl, (beq_false_of_ne hstatus).symm, rfl, rfl, rfl, rfl, rfl, rfl⟩
  · rename_i hstatus
    rw [not_not] at hstatus
    subst hstatus
    dsimp only
    refine ⟨h.modTask rfl, ?_⟩
    rw [Kernel.modTask_self]
    exact ⟨rfl, rfl, rfl, rfl, rfl, rfl, rfl, rfl, rfl⟩

/-- **A completed program** succeeded exactly when its session was completed without a fault. -/
theorem completeUserTask_life (hclosed : (k.userSessions p).active = false) :
    WithinSlot p k (schedulerRunUserTaskReturn p k).1
      ∧ Ended ((k.userSessions p).completed && !(k.userSessions p).faulted)
        (k.tasks p).userStatus.lastExitCode (k.tasks p)
        ((schedulerRunUserTaskReturn p k).1.tasks p) := by
  have hreturn : ∃ k' status, userModeRunTaskReturn p k = (k', status) ∧ WithinSlot p k k'
      ∧ (status == .ready) = ((k.userSessions p).completed && !(k.userSessions p).faulted)
      ∧ ∃ n, k'.tasks p
        = { k.tasks p with userStatus := { (k.tasks p).userStatus with recoveries := n } } := by
    rw [userModeRunTaskReturn, h.session_eq]
    split
    · rename_i hcompleted
      set k₁ := k.modTask p fun t =>
        { t with userStatus := { t.userStatus with recoveries := t.userStatus.recoveries + 1 } }
        with hk₁
      have h₁ : WithinSlot p k k₁ := h.modTask rfl
      have h₂ := h₁.atSlot.modSession (f := fun s => { s with task := none })
        (.inr ⟨rfl, hclosed⟩)
      refine ⟨_, _, rfl, h₁.trans h₂, ?_, (k.tasks p).userStatus.recoveries + 1, ?_⟩
      · rw [h₂.atSlot.session_eq, h₁.atSlot.modSession_self, hcompleted]
        show ((if (k.userSessions p).faulted = true then UserModeStatus.taskFailed else .ready)
          == UserModeStatus.ready) = _
        cases (k.userSessions p).faulted <;> rfl
      · show k₁.tasks p = _
        rw [hk₁, Kernel.modTask_self]
    · rename_i hcompleted
      have h₁ := h.modSession (f := fun s => { s with active := false, task := none })
        (.inr ⟨rfl, rfl⟩)
      refine ⟨_, _, rfl, h₁.trans (h₁.atSlot.switchTtbr0 _), ?_,
        (k.tasks p).userStatus.recoveries, rfl⟩
      rw [Bool.not_eq_true] at hcompleted
      rw [hcompleted]
      rfl
  obtain ⟨k', status, heq, hw, hstatus, n, htask⟩ := hreturn
  obtain ⟨hfinish, hended⟩ := finishUserTask_life hw.atSlot status
  rw [schedulerRunUserTaskReturn, heq]
  refine ⟨hw.trans hfinish, ?_⟩
  rw [hstatus, htask] at hended
  exact ⟨hended.zombie, hended.completed, hended.succeeded_eq, hended.exitCode_eq,
    hended.entries_eq, hended.parent_eq, hended.entry_eq, hended.pointer_eq, hended.space_eq⟩

/-- **Entering EL0** opens a fresh session, or ends the task as failed, or does nothing. -/
theorem enterEl0_life (S : Symbols) :
    (schedulerRunUserTaskEnter S p k).1 = k
      ∨ WithinSlot p k (schedulerRunUserTaskEnter S p k).1
        ∧ (Ended false (k.tasks p).userStatus.lastExitCode (k.tasks p)
            ((schedulerRunUserTaskEnter S p k).1.tasks p)
          ∨ (schedulerRunUserTaskEnter S p k).1.tasks p
            = { k.tasks p with userStatus := { (k.tasks p).userStatus with
              el0Entries := (k.tasks p).userStatus.el0Entries + 1 } }
            ∧ ((schedulerRunUserTaskEnter S p k).1.userSessions p).completed = false) := by
  rw [schedulerRunUserTaskEnter]
  split
  · exact .inl rfl
  · split
    · exact .inl rfl
    · refine .inr ?_
      obtain ⟨status, hne, heq⟩ | ⟨space, -, -, -, -, -, -, heq⟩ := runTaskEnter_spec S p k
      · obtain ⟨hw, hended⟩ := finishUserTask_life h status
        rw [beq_false_of_ne hne] at hended
        rw [heq]
        split
        · rename_i hready
          exact absurd (Prod.mk.inj hready).2 hne
        · rename_i hother
          obtain ⟨rfl, rfl⟩ := Prod.mk.inj hother
          exact ⟨hw, .inl hended⟩
      · have h₁ := h.modSession (f := openSession S p space) (.inl rfl)
        have h₂ := h₁.atSlot.switchTtbr0 space.targetRootTable
        have h₃ := h₂.atSlot.modTask (f := fun t =>
          { t with userStatus := { t.userStatus with el0Entries := t.userStatus.el0Entries + 1 } })
          rfl
        rw [heq]
        refine ⟨(h₁.trans h₂).trans h₃, .inr ⟨?_, ?_⟩⟩
        · rw [Kernel.modTask_self]
          rfl
        · show ((k.modSession (openSession S p space)).userSessions p).completed = false
          rw [h.modSession_self]
          rfl

end Session

/-- **A terminated child** ends as failed, with the code of its parent. -/
theorem terminateChild_life (S : Symbols) (pid : ℤ) (code : Word) (k : Kernel) :
    canTerminate k pid = false ∧ schedulerTerminateChild pid code k = (k, false)
      ∨ canTerminate k pid = true ∧ (schedulerTerminateChild pid code k).2 = true
        ∧ (k.tasks pid.toNat).state ≠ .zombie ∧ (k.tasks pid.toNat).state ≠ .unused
        ∧ 0 < pid ∧ (schedulerTerminateChild pid code k).1.currentTask = k.currentTask
        ∧ RecordsBut S pid.toNat k (schedulerTerminateChild pid code k).1
        ∧ (schedulerTerminateChild pid code k).1.userSessions = k.userSessions
        ∧ Ended false code (k.tasks pid.toNat)
          ((schedulerTerminateChild pid code k).1.tasks pid.toNat) := by
  cases hcan : canTerminate k pid with
  | false =>
    refine .inl ⟨rfl, ?_⟩
    rw [schedulerTerminateChild, hcan]
    rfl
  | true =>
    have hguard := hcan
    simp only [canTerminate, Bool.and_eq_true, bne_iff_ne, decide_eq_true_eq] at hguard
    rw [schedulerTerminateChild, hcan]
    refine .inr ⟨rfl, rfl, hguard.2, hguard.1.2, hguard.1.1.1.1.1, rfl,
      ⟨fun i hi => ?_, fun _ _ => rfl⟩, rfl, ?_⟩
    · dsimp only
      rw [if_neg (by decide), Kernel.modTask_of_ne _ _ _ hi]
      exact SameRecord.refl S _
    · dsimp only
      rw [if_neg (by decide), Kernel.modTask_self]
      exact ⟨rfl, rfl, rfl, rfl, rfl, rfl, rfl, rfl, rfl⟩

/-- **A task that exits** is a zombie with the status it has. -/
theorem exitTask_life (S : Symbols) {k : Kernel} (h : TableOk k) :
    RecordsBut S k.currentTask k (schedulerExitTask k.currentTask k).1
      ∧ (schedulerExitTask k.currentTask k).1.userSessions = k.userSessions
      ∧ ((schedulerExitTask k.currentTask k).1.currentTask = k.currentTask
        ∨ (schedulerExitTask k.currentTask k).1.current.state = .running)
      ∧ ∃ t, SameRecord S { k.tasks k.currentTask with state := .zombie } t
        ∧ (schedulerExitTask k.currentTask k).1.tasks k.currentTask = t := by
  have horphan : ∀ i, SameRecord S (k.tasks i) ((orphanChildren k.currentTask k).tasks i) := by
    intro i
    dsimp only [orphanChildren]
    split
    · exact ⟨⟨Iff.rfl, rfl, rfl⟩, Iff.rfl, .inr rfl, .inl rfl, rfl, rfl, rfl, rfl⟩
    · exact SameRecord.refl S _
  have hself : (orphanChildren k.currentTask k).tasks k.currentTask = k.tasks k.currentTask := by
    have hne := h.parent_ne _ h.current_lt
    dsimp only [orphanChildren]
    rw [if_neg fun hc => hne hc.2.2]
  have hyield := yield_records S { (orphanChildren k.currentTask k).modTask k.currentTask
    (fun t => { t with state := .zombie }) with currentTask := k.currentTask }
  simp only [schedulerExitTask]
  refine ⟨⟨fun i hi => (horphan i).trans ?_, fun _ _ => by rw [hyield.sessions]; rfl⟩,
    by rw [hyield.sessions]; rfl, hyield.current, _, ?_, rfl⟩
  · have hi' := hyield.tasks i
    dsimp only at hi'
    rwa [Kernel.modTask_of_ne _ _ _ hi] at hi'
  · have hi' := hyield.tasks k.currentTask
    dsimp only at hi'
    rwa [Kernel.modTask_self, hself] at hi'

/-! ## Fresh tasks -/

/-- What a task is when its slot is filled. -/
structure FreshTask (t : Task) : Prop where
  not_zombie : t.state ≠ .zombie
  exitCode : t.userStatus.lastExitCode = 0
  completed : t.userStatus.programCompleted = false
  succeeded : t.userStatus.programSucceeded = false
  entries : t.userStatus.el0Entries = 0
  /-- A child is a user task. -/
  user : 0 < t.parentPid → t.memory.addressSpace = .user ∧ t.userAddressSpace.kind = .user

/-- A fresh task stays fresh while its record is the same. -/
theorem FreshTask.congr {S : Symbols} {t t' : Task} (h : FreshTask t) (hr : SameRecord S t t') :
    FreshTask t' where
  not_zombie hz := h.not_zombie (hr.zombie_iff.mp hz)
  exitCode := hr.exitCode_eq.trans h.exitCode
  completed := hr.completed_eq.trans h.completed
  succeeded := hr.succeeded_eq.trans h.succeeded
  entries := hr.entries_eq.trans h.entries
  user hp := by
    rcases hr.parent with hparent | hparent
    · rw [hparent] at hp
      rw [hr.pointer_eq, hr.space_eq]
      exact h.user hp
    · omega

/-- Every task new in `k'` is fresh, and a slot left unused gets no parent. -/
structure FreshIn (k k' : Kernel) : Prop where
  new : ∀ i, ¬ Used k i → Used k' i → FreshTask (k'.tasks i)
  left : ∀ i, ¬ Used k' i →
    (k'.tasks i).parentPid = (k.tasks i).parentPid ∨ (k'.tasks i).parentPid = -1

theorem FreshIn.refl (k : Kernel) : FreshIn k k :=
  ⟨fun _ hi hi' => absurd hi' hi, fun _ _ => .inl rfl⟩

/-- A call that fills one slot is about that one. -/
theorem FreshIn.of_changedAt {p : ℕ} {k k' : Kernel} (hrest : ChangedAt p k k')
    (hp : Used k' p → FreshTask (k'.tasks p))
    (hp' : ¬ Used k' p →
      (k'.tasks p).parentPid = (k.tasks p).parentPid ∨ (k'.tasks p).parentPid = -1) :
    FreshIn k k' := by
  constructor
  · intro i hi hi'
    by_cases hip : i = p
    · subst hip
      exact hp hi'
    · rw [Used, hrest.tasks i hip] at hi'
      exact absurd hi' hi
  · intro i hi'
    by_cases hip : i = p
    · subst hip
      exact hp' hi'
    · rw [hrest.tasks i hip]
      exact .inl rfl

/-- A fresh task is in use. -/
theorem FreshIn.of_fresh {p : ℕ} {k k' : Kernel} (hrest : ChangedAt p k k') (hu : Used k' p)
    (hp : FreshTask (k'.tasks p)) : FreshIn k k' :=
  .of_changedAt hrest (fun _ => hp) fun hn => absurd hu hn

section Fresh

variable (L : Layout) (S : Symbols) {k : Kernel} (h : TableOk k)

/-- **Whoever is created is fresh**: a kernel thread… -/
theorem createKernelThread_fresh (name : Option String) (entry : Word) :
    FreshIn k (schedulerCreateKernelThread S name entry k).1 := by
  rw [schedulerCreateKernelThread]
  cases hclaim : claimTaskSlot k with
  | none =>
    rw [schedulerAddTask, hclaim]
    exact FreshIn.refl k
  | some r =>
    obtain ⟨k', p⟩ := r
    obtain ⟨-, hrest, -, -, hnew⟩ := addTask_spec S name entry hclaim
    refine FreshIn.of_fresh hrest ?_ ⟨?_, ?_, ?_, ?_, ?_, fun hpos => ?_⟩
    · rw [Used, hnew.state_eq]
      simp
    · rw [hnew.state_eq]
      simp
    · rw [hnew.status_eq]
    · rw [hnew.status_eq]
    · rw [hnew.status_eq]
    · rw [hnew.status_eq]
    · rw [hnew.parent_eq] at hpos
      omega

include h

omit h in
/-- …a user task… -/
theorem NewUserTask.fresh {p : ℕ} {t : Task} (hnew : NewUserTask p t)
    (hkind : t.userAddressSpace.kind = .user) : FreshTask t where
  not_zombie := by rw [hnew.state_eq]; simp
  exitCode := by rw [hnew.status_eq]
  completed := by rw [hnew.status_eq]
  succeeded := by rw [hnew.status_eq]
  entries := by rw [hnew.status_eq]
  user _ := ⟨hnew.space_eq, hkind⟩

/-- A user task is fresh in the slot it is created in. -/
theorem createUserTask_fresh (name : Option String) (file argument : Option (List Byte)) :
    (schedulerCreateUserTaskFromImage L S name file argument k).2 < 0
        ∧ FreshIn k (schedulerCreateUserTaskFromImage L S name file argument k).1
      ∨ ∃ p : ℕ, (schedulerCreateUserTaskFromImage L S name file argument k).2 = p
        ∧ ChangedAt p k (schedulerCreateUserTaskFromImage L S name file argument k).1
        ∧ NewUserTask p ((schedulerCreateUserTaskFromImage L S name file argument k).1.tasks p)
        ∧ ((schedulerCreateUserTaskFromImage L S name file argument k).1.tasks
          p).userAddressSpace.kind = .user := by
  have ho := createUserTask_outcome L S name file argument h.count_le
  obtain heq | ⟨k', p, hclaim, hrest, hslot⟩ :=
    createUserTask_slots L S name file argument h.count_le
  · rw [heq]
    exact .inl ⟨Int.negSucc_lt_zero 0, FreshIn.refl k⟩
  · generalize schedulerCreateUserTaskFromImage L S name file argument k = r at ho hrest hslot ⊢
    cases hslot with
    | undone hflags hroot =>
      refine .inl ⟨Int.negSucc_lt_zero 0, ?_⟩
      obtain ⟨-, -, -, hunused, -, -⟩ := h.claim hclaim
      rcases ho.place (Int.negSucc_lt_zero 0) hclaim with ⟨hstate, hparent⟩ | ⟨hstate, hparent⟩
      · exact FreshIn.of_changedAt hrest (fun hu => absurd (hstate.trans hunused) hu)
          fun _ => .inl hparent
      · exact FreshIn.of_changedAt hrest (fun hu => absurd hstate hu) fun _ => .inr hparent
    | created hfree hflags hroot hnew => exact .inr ⟨p, rfl, hrest, hnew, hroot.1⟩

/-- …and a child. -/
theorem spawnChild_fresh (file argument : Option (List Byte)) :
    FreshIn k (spawnChild L S file argument k).1 := by
  have hcreate := createUserTask_fresh L S h (some "user-child") file argument
  simp only [spawnChild]
  generalize schedulerCreateUserTaskFromImage L S (some "user-child") file argument k = r
    at hcreate ⊢
  obtain ⟨k₁, pid⟩ := r
  dsimp only at hcreate ⊢
  obtain ⟨hneg, hfresh⟩ | ⟨p, rfl, hrest, hnew, hkind⟩ := hcreate
  · rw [if_pos hneg]
    exact hfresh
  · rw [if_neg (by omega)]
    obtain ⟨hset, -⟩ := setTaskParent_spec (p : ℤ) k₁.current.pid k₁
    rw [Int.toNat_natCast] at hset
    -- whatever parent it gets, the task is as it was made
    have hparent : Used (schedulerSetTaskParent (p : ℤ) k₁.current.pid k₁).1 p
        ∧ FreshTask ((schedulerSetTaskParent (p : ℤ) k₁.current.pid k₁).1.tasks p) := by
      have hfresh := hnew.fresh hkind
      have hused : Used k₁ p := by
        rw [Used, hnew.state_eq]
        simp
      rw [schedulerSetTaskParent]
      split
      · exact ⟨hused, hfresh⟩
      · dsimp only
        rw [Used, Int.toNat_natCast, Kernel.modTask_self]
        exact ⟨hused, hfresh.not_zombie, hfresh.exitCode, hfresh.completed,
          hfresh.succeeded, hfresh.entries, fun _ => ⟨hnew.space_eq, hkind⟩⟩
    split
    · rename_i k₂ heq
      rw [heq] at hset hparent
      exact FreshIn.of_fresh (hrest.trans hset) hparent.1 hparent.2
    · rename_i k₂ heq
      rw [heq] at hset hparent
      have hadmit : FreshIn k (schedulerUnblockUserTask S (p : ℤ) k₂).1 := by
        have hat := (readmits_quiet (unblockUserTask_readmits S (p : ℤ) k₂)).2
        have hrec := (unblockUserTask_records S (p : ℤ) k₂).tasks p
        rw [Int.toNat_natCast] at hat
        exact FreshIn.of_fresh ((hrest.trans hset).trans hat)
          (fun hu => hparent.1 (hrec.unused_iff.mp hu)) (hparent.2.congr hrec)
      split <;> exact hadmit

end Fresh

end SaturnOS
