import SaturnOS.Sched.Ownership

/-!
# Sched/Sessions — sessions and their tasks

    session p:   closed ──enterEl0──▸ active ──exit / fault──▸ closed

The session array of `user.c` is a second state machine over the slots of the task table.
`SessionsLive` ties the two: an active session belongs to a live user task that has entered EL0,
and holds the root of its space.  Every call keeps it but one — `scheduler_terminate_child` makes a
zombie of a child without closing the session it is suspended in (`sessionsLive_iff`).
-/

open Machinery

namespace SaturnOS

/-! ## The invariant -/

/-- The task of an active session. -/
structure LiveSession (k : Kernel) (p : ℕ) : Prop where
  used : (k.tasks p).state ≠ .unused
  not_zombie : (k.tasks p).state ≠ .zombie
  user : (k.tasks p).memory.addressSpace = .user
  kind : (k.tasks p).userAddressSpace.kind = .user
  /-- The space was not destroyed. -/
  intact : (k.tasks p).userAddressSpace.validationReady = true
  entered : (k.tasks p).userStatus.el0Entries ≠ 0
  not_completed : (k.tasks p).userStatus.programCompleted = false
  root : (k.userSessions p).userRoot = (k.tasks p).userAddressSpace.targetRootTable

/-- **Sessions never outlive their tasks.** -/
def SessionsLive (k : Kernel) : Prop := ∀ p, (k.userSessions p).active = true → LiveSession k p

/-- **The root a switch installs** for a task in a session is that of its own space. -/
theorem SessionsLive.resumeRoot {k : Kernel} (h : SessionsLive k) {p : ℕ}
    (hpid : (k.tasks p).pid = p) (hlt : p < schedMaxTasks)
    (hactive : (k.userSessions p).active = true) :
    (k.taskSpace p).map (·.targetRootTable) = some (userModeTaskResumeRoot k p) := by
  have hl := h p hactive
  have hspace : k.taskSpace p = some (k.tasks p).userAddressSpace := by
    rw [Kernel.taskSpace, hl.user]
  have hin : ¬ ((p : ℤ) < 0 ∨ (schedMaxTasks : ℤ) ≤ p) := by omega
  rw [userModeTaskResumeRoot, hspace]
  dsimp only
  rw [hpid, if_neg hin, Int.toNat_natCast, if_pos hactive, hl.root]
  rfl

/-- What a live session's task has to keep. -/
structure KeepsLive (t t' : Task) : Prop where
  used : t.state ≠ .unused → t'.state ≠ .unused
  not_zombie : t.state ≠ .zombie → t'.state ≠ .zombie
  pointer_eq : t'.memory.addressSpace = t.memory.addressSpace
  space_eq : t'.userAddressSpace = t.userAddressSpace
  entries_eq : t'.userStatus.el0Entries = t.userStatus.el0Entries
  completed_eq : t'.userStatus.programCompleted = t.userStatus.programCompleted

theorem KeepsLive.refl (t : Task) : KeepsLive t t := ⟨id, id, rfl, rfl, rfl, rfl⟩

theorem KeepsLive.trans {t t' t'' : Task} (h : KeepsLive t t') (h' : KeepsLive t' t'') :
    KeepsLive t t'' :=
  ⟨h'.used ∘ h.used, h'.not_zombie ∘ h.not_zombie, h'.pointer_eq.trans h.pointer_eq,
    h'.space_eq.trans h.space_eq, h'.entries_eq.trans h.entries_eq,
    h'.completed_eq.trans h.completed_eq⟩

theorem SameTask.keepsLive {t t' : Task} (h : SameTask t t') : KeepsLive t t' where
  used := (not_congr h.unused_iff).mpr
  not_zombie := (not_congr h.zombie_iff).mpr
  pointer_eq := by rw [h.memory_eq]
  space_eq := h.space_eq
  entries_eq := by rw [h.status_eq]
  completed_eq := by rw [h.status_eq]

theorem SameProgram.keepsLive {t t' : Task} (h : SameProgram t t') : KeepsLive t t' where
  used := by rw [h.state_eq]; exact id
  not_zombie := by rw [h.state_eq]; exact id
  pointer_eq := by rw [h.memory_eq]
  space_eq := h.space_eq
  entries_eq := h.el0Entries_eq
  completed_eq := h.completed_eq

theorem Readmitted.keepsLive {t t' : Task} (h : Readmitted t t') : KeepsLive t t' where
  used _ := h.used.2
  not_zombie _ := by rcases h.now with hs | hs <;> rw [hs] <;> exact nofun
  pointer_eq := by rw [h.memory_eq]
  space_eq := h.space_eq
  entries_eq := h.entries_eq
  completed_eq := h.completed_eq

theorem LiveSession.congr {k k' : Kernel} {p : ℕ} (h : LiveSession k p)
    (ht : KeepsLive (k.tasks p) (k'.tasks p))
    (hroot : (k'.userSessions p).userRoot = (k.userSessions p).userRoot) : LiveSession k' p where
  used := ht.used h.used
  not_zombie := ht.not_zombie h.not_zombie
  user := ht.pointer_eq.trans h.user
  kind := by rw [ht.space_eq]; exact h.kind
  intact := by rw [ht.space_eq]; exact h.intact
  entered := by rw [ht.entries_eq]; exact h.entered
  not_completed := ht.completed_eq.trans h.not_completed
  root := by rw [hroot, ht.space_eq]; exact h.root

/-- `k'` has the sessions of `k`, and the tasks of those that are active. -/
structure KeepsSessions (k k' : Kernel) : Prop where
  sessions : k'.userSessions = k.userSessions
  tasks : ∀ p, (k.userSessions p).active = true → KeepsLive (k.tasks p) (k'.tasks p)
  kernelKind : k'.spaces.kernelAddressSpace.kind = k.spaces.kernelAddressSpace.kind

namespace KeepsSessions

variable {k k' k'' : Kernel}

theorem live (h : KeepsSessions k k') (hk : SessionsLive k) : SessionsLive k' := by
  intro p hp
  rw [h.sessions] at hp
  exact (hk p hp).congr (h.tasks p hp) (by rw [h.sessions])

theorem refl (k : Kernel) : KeepsSessions k k := ⟨rfl, fun _ _ => KeepsLive.refl _, rfl⟩

theorem trans (h : KeepsSessions k k') (h' : KeepsSessions k' k'') : KeepsSessions k k'' :=
  ⟨h'.sessions.trans h.sessions,
    fun p hp => (h.tasks p hp).trans (h'.tasks p (by rw [h.sessions]; exact hp)),
    h'.kernelKind.trans h.kernelKind⟩

theorem modTask (k : Kernel) (p : ℕ) {f : Task → Task}
    (hf : (k.userSessions p).active = true → KeepsLive (k.tasks p) (f (k.tasks p))) :
    KeepsSessions k (k.modTask p f) :=
  ⟨rfl, k.modTask_ind p f (P := fun i t => (k.userSessions i).active = true →
    KeepsLive (k.tasks i) t) hf fun _ _ _ => KeepsLive.refl _, rfl⟩

theorem of_resched (h : Resched k k') : KeepsSessions k k' :=
  ⟨h.userSessions, fun p _ => (h.tasks p).keepsLive, by rw [h.spaces]⟩

/-- A slot filled was unused, so in no session. -/
theorem of_fills {p : ℕ} (h : Fills p k k') (hk : SessionsLive k) : KeepsSessions k k' := by
  refine ⟨h.rest.userSessions, fun i hi => ?_, h.rest.kernelKind⟩
  have hip : i ≠ p := by
    rintro rfl
    exact (hk i hi).used h.unused
  rw [h.rest.tasks i hip]
  exact KeepsLive.refl _

/-- A slot cleared held a zombie, in no session either. -/
theorem of_clears {F : ℕ → Prop} (h : Clears F k k') (hk : SessionsLive k) :
    KeepsSessions k k' := by
  refine ⟨h.userSessions, fun i hi => ?_, h.kernelKind⟩
  have hni : ¬ F i := fun hF => (hk i hi).not_zombie (h.zombie i hF)
  rw [h.rest i hni]
  exact KeepsLive.refl _

end KeepsSessions

/-- Sessions closed, none opened. -/
theorem SessionsLive.closes {k k' : Kernel} (hk : SessionsLive k) (h : ClosesSessions k k') :
    SessionsLive k' := by
  intro p hp
  obtain ⟨hactive, -, hroot⟩ := h.sessions p hp
  exact (hk p hactive).congr (h.tasks p).keepsLive hroot

/-! ## The calls -/

section Calls

variable (S : Symbols) {k : Kernel}

theorem readmits_keeps {p : ℕ} {k' : Kernel} (hr : Readmits p k k') : KeepsSessions k k' := by
  rcases hr with rfl | ⟨-, -, f, rfl, ht⟩
  · exact KeepsSessions.refl k'
  · exact KeepsSessions.modTask k p fun _ => ht.keepsLive

theorem startThreads_keeps (k : Kernel) : KeepsSessions k (schedulerStartThreads k) := by
  have hstart : KeepsSessions k { k with threadsStarted := true, currentTask := 0 } :=
    ⟨rfl, fun _ _ => KeepsLive.refl _, rfl⟩
  rw [schedulerStartThreads, schedulerSetRunningTask]
  refine hstart.trans (KeepsSessions.modTask _ 0 fun _ => ?_)
  exact ⟨fun _ => by simp, fun _ => by simp, rfl, rfl, rfl, rfl⟩

theorem sleepMs_keeps (ms intervalMs : Word) (k : Kernel) :
    KeepsSessions k (schedulerSleepMs ms intervalMs k).1 := by
  simp only [schedulerSleepMs]
  split
  · exact KeepsSessions.refl k
  · refine KeepsSessions.trans ?_ (KeepsSessions.of_resched (yield_resched _))
    refine KeepsSessions.modTask k _ fun _ => ?_
    exact ⟨fun _ => by simp, fun _ => by simp, rfl, rfl, rfl, rfl⟩

/-- Finishing the program of a task in no session. -/
theorem finishUserTask_keeps {p : ℕ} (status : UserModeStatus)
    (hp : (k.userSessions p).active = false) : KeepsSessions k (finishUserTask p status k).1 := by
  have hno : ∀ {t t' : Task}, (k.userSessions p).active = true → KeepsLive t t' := by
    intro t t' ha
    rw [hp] at ha
    exact nomatch ha
  rw [finishUserTask]
  split
  · dsimp only
    exact KeepsSessions.modTask k p hno
  · dsimp only
    exact KeepsSessions.modTask k p hno

/-- **A program that ended** has no session, so its task may go. -/
theorem sessionsLive_completeUserTask (h : TableOk k) (hk : SessionsLive k) (hat : AtUserReturn k) :
    SessionsLive (schedulerRunUserTaskReturn k.currentTask k).1
      ∧ (schedulerRunUserTaskReturn k.currentTask k).1.spaces.kernelAddressSpace.kind
        = k.spaces.kernelAddressSpace.kind := by
  have hc := runTaskReturn_closes k.currentTask k
  have hclosed : ((userModeRunTaskReturn k.currentTask k).1.userSessions k.currentTask).active
      = false := by
    by_contra ha
    obtain ⟨hactive, -, -⟩ := hc.sessions _ (by simpa using ha)
    rw [← h.userSession_eq.2, hat.2.1] at hactive
    exact nomatch hactive
  have hkeep := finishUserTask_keeps (userModeRunTaskReturn k.currentTask k).2 hclosed
  exact ⟨hkeep.live (hk.closes hc), hkeep.kernelKind.trans (by rw [hc.spaces])⟩

theorem exitTask_keeps (h : TableOk k) (hat : AtExit S k) :
    KeepsSessions k (schedulerExitTask k.currentTask k).1 := by
  have hclosed : (k.userSessions k.currentTask).active = false := by
    rw [← h.userSession_eq.2]
    exact hat.2.1
  have horphan : KeepsSessions k (orphanChildren k.currentTask k) := by
    refine ⟨rfl, fun p _ => ?_, rfl⟩
    dsimp only [orphanChildren]
    split
    · exact ⟨id, id, rfl, rfl, rfl, rfl⟩
    · exact KeepsLive.refl _
  have hzombie := horphan.trans (KeepsSessions.modTask (orphanChildren k.currentTask k)
    k.currentTask (f := fun t => { t with state := .zombie }) fun ha => by
      rw [horphan.sessions, hclosed] at ha
      exact nomatch ha)
  have hcurrent : KeepsSessions k { (orphanChildren k.currentTask k).modTask k.currentTask
      (fun t => { t with state := .zombie }) with currentTask := k.currentTask } := hzombie
  simp only [schedulerExitTask]
  exact hcurrent.trans (KeepsSessions.of_resched (yield_resched _))

/-- A user space a task points to is its own. -/
theorem taskSpace_user {p : ℕ} {space : AddressSpace}
    (hkind : k.spaces.kernelAddressSpace.kind = .kernel) (hspace : k.taskSpace p = some space)
    (huser : space.kind = .user) :
    (k.tasks p).memory.addressSpace = .user ∧ (k.tasks p).userAddressSpace = space := by
  rw [Kernel.taskSpace] at hspace
  split at hspace
  · exact nomatch hspace
  · obtain rfl := Option.some.inj hspace
    rw [hkind] at huser
    exact nomatch huser
  · exact ⟨‹_›, Option.some.inj hspace⟩

/-- A task that enters EL0, once its session is open. -/
theorem liveSession_entered {k' : Kernel} {p : ℕ}
    (hstate : (k.tasks p).state = .eligible ∨ (k.tasks p).state = .running)
    (hpointer : (k.tasks p).memory.addressSpace = .user)
    (huser : (k.tasks p).userAddressSpace.kind = .user)
    (hvalid : (k.tasks p).userAddressSpace.validationReady = true)
    (hentries : (k.tasks p).userStatus.el0Entries = 0)
    (hcompleted : (k.tasks p).userStatus.programCompleted = false)
    (htask : k'.tasks p = { k.tasks p with
      userStatus := { (k.tasks p).userStatus with
        el0Entries := (k.tasks p).userStatus.el0Entries + 1 } })
    (hroot : (k'.userSessions p).userRoot = (k.tasks p).userAddressSpace.targetRootTable) :
    LiveSession k' p := by
  refine ⟨?_, ?_, ?_, ?_, ?_, ?_, ?_, ?_⟩ <;> rw [htask]
  · rcases hstate with hs | hs <;> exact fun hu => nomatch hs.symm.trans hu
  · rcases hstate with hs | hs <;> exact fun hz => nomatch hs.symm.trans hz
  · exact hpointer
  · exact huser
  · exact hvalid
  · dsimp only
    rw [hentries]
    decide
  · exact hcompleted
  · exact hroot

/-- **Entering EL0 opens a live session.** -/
theorem sessionsLive_enterEl0 (h : TableOk k)
    (hkind : k.spaces.kernelAddressSpace.kind = .kernel) (hk : SessionsLive k)
    (hat : AtUserEntry S k) :
    SessionsLive (schedulerRunUserTaskEnter S k.currentTask k).1
      ∧ (schedulerRunUserTaskEnter S k.currentTask k).1.spaces.kernelAddressSpace.kind
        = k.spaces.kernelAddressSpace.kind := by
  obtain ⟨-, -, hentries, hcompleted⟩ := hat
  have hclosed : (k.userSessions k.currentTask).active = false := by
    by_contra ha
    exact (hk _ (by simpa using ha)).entered hentries
  rw [schedulerRunUserTaskEnter]
  split
  · exact ⟨hk, rfl⟩
  · split
    · exact ⟨hk, rfl⟩
    · obtain ⟨status, hne, heq⟩ | ⟨space, hspace, huser, hvalid, -, -, hstate, heq⟩ :=
        runTaskEnter_spec S k.currentTask k
      · rw [heq]
        split
        · rename_i hready
          exact absurd (Prod.mk.inj hready).2 hne
        · rename_i k₁ status₁ _ hready
          obtain ⟨rfl, rfl⟩ := Prod.mk.inj hready
          have hkeep := finishUserTask_keeps status hclosed
          exact ⟨hkeep.live hk, hkeep.kernelKind⟩
      · rw [heq]
        dsimp only
        refine ⟨fun p hp => ?_, rfl⟩
        have hindex := h.userSession_eq.1
        by_cases hpc : p = k.currentTask
        · obtain rfl := hpc
          obtain ⟨hpointer, rfl⟩ := taskSpace_user hkind hspace huser
          refine liveSession_entered hstate hpointer huser hvalid hentries hcompleted
            (Kernel.modTask_self _ _ _) ?_
          show (Function.update k.userSessions k.sessionIndex _ k.currentTask).userRoot = _
          rw [hindex, Function.update_self]
          rfl
        · have hsame : (k.modSession (openSession S k.currentTask space)).userSessions p
              = k.userSessions p := by
            refine Kernel.modSession_of_ne _ _ ?_
            rw [hindex]
            exact hpc
          have hactive : (k.userSessions p).active = true := by
            rw [← hsame]
            exact hp
          refine (hk p hactive).congr ?_ (congrArg UserSession.userRoot hsame)
          rw [Kernel.modTask_of_ne _ _ _ hpc]
          exact KeepsLive.refl _

/-- A child can only be terminated while it is in no session. -/
def TerminatesClosed (k : Kernel) (op : KernelOp) : Prop :=
  ∀ pid code, op = .terminateChild pid code → canTerminate k pid = true →
    (k.userSessions pid.toNat).active = false

/-- **Terminating a child keeps sessions live exactly when the child is in none.** -/
theorem sessionsLive_terminateChild (pid : ℤ) (code : Word) (hk : SessionsLive k) :
    (SessionsLive (schedulerTerminateChild pid code k).1
        ↔ TerminatesClosed k (.terminateChild pid code))
      ∧ (schedulerTerminateChild pid code k).1.spaces.kernelAddressSpace.kind
        = k.spaces.kernelAddressSpace.kind := by
  rw [schedulerTerminateChild]
  split
  · rename_i hno
    refine ⟨iff_of_true hk ?_, rfl⟩
    rintro pid' code' heq hcan
    obtain ⟨rfl, rfl⟩ := KernelOp.terminateChild.inj heq
    rw [hcan] at hno
    cases hno
  · rename_i hcan
    refine ⟨⟨fun hlive pid' code' heq _ => ?_, fun hC => ?_⟩, rfl⟩
    · obtain ⟨rfl, rfl⟩ := KernelOp.terminateChild.inj heq
      by_contra ha
      have := (hlive pid.toNat (by simpa using ha)).not_zombie
      rw [Kernel.modTask_self] at this
      exact this rfl
    · have hclosed := hC pid code rfl (by simpa using hcan)
      dsimp only
      refine (KeepsSessions.modTask k pid.toNat fun ha => ?_).live hk
      rw [hclosed] at ha
      cases ha

/-- A call other than a termination has nothing to respect. -/
theorem terminatesClosed_of_ne {op : KernelOp} (h : ∀ pid code, op ≠ .terminateChild pid code) :
    TerminatesClosed k op := fun pid code heq => absurd heq (h pid code)

theorem KeepsSessions.result {k' : Kernel} {op : KernelOp} (h : KeepsSessions k k')
    (hk : SessionsLive k) (hop : ∀ pid code, op ≠ .terminateChild pid code) :
    (SessionsLive k' ↔ TerminatesClosed k op)
      ∧ k'.spaces.kernelAddressSpace.kind = k.spaces.kernelAddressSpace.kind :=
  ⟨iff_of_true (h.live hk) (terminatesClosed_of_ne hop), h.kernelKind⟩

/-- **What any call does to sessions.** -/
theorem sessionsLive_call (L : Layout) (h : TableOk k)
    (hkind : k.spaces.kernelAddressSpace.kind = .kernel) (hk : SessionsLive k) {op : KernelOp}
    {k' : Kernel} {sw : Switch} (hop : Callable k op)
    (hcall : kernelCall L S k op = some (k', sw)) :
    (SessionsLive k' ↔ TerminatesClosed k op)
      ∧ k'.spaces.kernelAddressSpace.kind = k.spaces.kernelAddressSpace.kind := by
  cases op with
  | createKernelThread name entry =>
    obtain ⟨rfl, rfl⟩ := Prod.mk.inj (Option.some.inj hcall)
    obtain ⟨p, hp⟩ := fills_createKernelThread S h name entry
    exact (KeepsSessions.of_fills hp hk).result hk nofun
  | createUserTask name file argument =>
    obtain ⟨rfl, rfl⟩ := Prod.mk.inj (Option.some.inj hcall)
    obtain ⟨p, hp⟩ := fills_outcome h (createUserTask_outcome L S name file argument h.count_le)
    exact (KeepsSessions.of_fills hp hk).result hk nofun
  | spawn file argument =>
    obtain ⟨rfl, rfl⟩ := Prod.mk.inj (Option.some.inj hcall)
    obtain ⟨p, hp⟩ := fills_spawnChild L S h file argument
    exact (KeepsSessions.of_fills hp hk).result hk nofun
  | unblockUserTask pid =>
    obtain ⟨rfl, rfl⟩ := Prod.mk.inj (Option.some.inj hcall)
    exact (readmits_keeps (unblockUserTask_readmits S pid k)).result hk nofun
  | blockTask pid =>
    obtain ⟨rfl, rfl⟩ := Prod.mk.inj (Option.some.inj hcall)
    exact (readmits_keeps (blockTask_readmits pid k)).result hk nofun
  | unblockTask pid =>
    obtain ⟨rfl, rfl⟩ := Prod.mk.inj (Option.some.inj hcall)
    exact (readmits_keeps (unblockTask_readmits pid k)).result hk nofun
  | reapZombieTask pid =>
    obtain ⟨rfl, rfl⟩ := Prod.mk.inj (Option.some.inj hcall)
    exact (KeepsSessions.of_clears (clears_reapZombieTask pid k) hk).result hk nofun
  | reapZombies =>
    obtain ⟨rfl, rfl⟩ := Prod.mk.inj (Option.some.inj hcall)
    exact (KeepsSessions.of_clears (clears_reapZombies k) hk).result hk nofun
  | waitTaskStatus pid hasStatus =>
    obtain ⟨rfl, rfl⟩ := Prod.mk.inj (Option.some.inj hcall)
    exact (KeepsSessions.of_clears (clears_waitTaskStatus h pid hasStatus) hk).result hk nofun
  | setTaskParent pid parentPid => exact hop.elim
  | terminateChild pid code =>
    obtain ⟨rfl, rfl⟩ := Prod.mk.inj (Option.some.inj hcall)
    exact sessionsLive_terminateChild pid code hk
  | startThreads =>
    obtain ⟨rfl, rfl⟩ := Prod.mk.inj (Option.some.inj hcall)
    exact (startThreads_keeps k).result hk nofun
  | yield =>
    obtain rfl := congrArg Prod.fst (Option.some.inj hcall)
    exact (KeepsSessions.of_resched (yield_resched k)).result hk nofun
  | sleepMs ms intervalMs =>
    obtain rfl := congrArg Prod.fst (Option.some.inj hcall)
    exact (sleepMs_keeps ms intervalMs k).result hk nofun
  | preempt =>
    obtain rfl := congrArg Prod.fst (Option.some.inj hcall)
    exact (KeepsSessions.of_resched (preempt_resched k)).result hk nofun
  | enterEl0 =>
    obtain ⟨hat, hcall⟩ := Option.ite_none_right_eq_some.mp hcall
    obtain ⟨rfl, rfl⟩ := Prod.mk.inj (Option.some.inj hcall)
    obtain ⟨hlive, hkind'⟩ := sessionsLive_enterEl0 S h hkind hk hat
    exact ⟨iff_of_true hlive (terminatesClosed_of_ne nofun), hkind'⟩
  | exitSyscall code =>
    obtain ⟨rfl, rfl⟩ := Prod.mk.inj (Option.some.inj hcall)
    have hc := handleExitSyscall_closes code k
    exact ⟨iff_of_true (hk.closes hc) (terminatesClosed_of_ne nofun), by rw [hc.spaces]⟩
  | fault spsr =>
    obtain ⟨rfl, rfl⟩ := Prod.mk.inj (Option.some.inj hcall)
    have hc := handleException_closes spsr k
    exact ⟨iff_of_true (hk.closes hc) (terminatesClosed_of_ne nofun), by rw [hc.spaces]⟩
  | completeUserTask =>
    obtain ⟨hat, hcall⟩ := Option.ite_none_right_eq_some.mp hcall
    obtain ⟨rfl, rfl⟩ := Prod.mk.inj (Option.some.inj hcall)
    obtain ⟨hlive, hkind'⟩ := sessionsLive_completeUserTask h hk hat
    exact ⟨iff_of_true hlive (terminatesClosed_of_ne nofun), hkind'⟩
  | exit =>
    obtain ⟨hat, hcall⟩ := Option.ite_none_right_eq_some.mp hcall
    obtain rfl := congrArg Prod.fst (Option.some.inj hcall)
    exact (exitTask_keeps S h hat).result hk nofun

end Calls

/-! ## Every run -/

theorem sessionsLive_boot (S : Symbols) (spaces : SpaceStatics) :
    SessionsLive (bootKernel S spaces) := by
  obtain ⟨-, hrest, -⟩ := bootKernel_spec S spaces
  intro p hp
  rw [hrest.userSessions] at hp
  exact nomatch hp

/-- **No session outlives its task in a run exactly when no child is terminated in a session.**  The
run starts where `address_space_init` and `scheduler_init` leave the kernel. -/
theorem sessionsLive_iff (L : Layout) (S : Symbols) (root : Word) (st : SpaceStatics)
    (ops : List KernelOp) :
    Always (systemStep L S) SessionsLive (bootKernel S (addressSpaceInit root st)) ops
      ↔ Along (systemStep L S) (fun k op _ => TerminatesClosed k op)
        (bootKernel S (addressSpaceInit root st)) ops := by
  refine always_iff_along (T := systemStep L S) (P := SessionsLive)
    (C := fun k op _ => TerminatesClosed k op)
    (J := fun k => TableOk k ∧ k.spaces.kernelAddressSpace.kind = .kernel)
    (fun k op k' hJ hP hstep => ?_) (fun k op k' hJ hP hstep => ?_)
    ⟨tableOk_boot S _, (bootKernel_spec S _).2.1.kernelKind⟩ (sessionsLive_boot S _)
  · obtain ⟨hop, sw, hcall⟩ := systemStep_spec hstep
    refine ⟨tableOk_system hJ.1 hstep, ?_⟩
    exact (sessionsLive_call S L hJ.1 hJ.2 hP hop hcall).2.trans hJ.2
  · obtain ⟨hop, sw, hcall⟩ := systemStep_spec hstep
    exact (sessionsLive_call S L hJ.1 hJ.2 hP hop hcall).1

/-- A child yields inside a syscall and its parent terminates it. -/
def terminateRun : List KernelOp :=
  [.createUserTask none (some wordImage) none, .unblockUserTask 1, .startThreads, .preempt,
    .enterEl0, .spawn (some wordImage) none, .yield, .enterEl0, .yield, .terminateChild 2 99]

/-- **A terminated child leaves its session active.** -/
theorem terminated_child_session_active :
    ¬ ∀ ops, Always (systemStep bssLayout imageSymbols) SessionsLive bssKernel ops := by
  intro hall
  refine not_always_of_run terminateRun (fun k => decide
    ((k.userSessions 2).active = true ∧ (k.tasks 2).state = .zombie)) (by decide +kernel)
    (fun k hk hP => ?_) (hall terminateRun)
  obtain ⟨hactive, hzombie⟩ := of_decide_eq_true hk
  exact (hP 2 hactive).not_zombie hzombie

end SaturnOS
