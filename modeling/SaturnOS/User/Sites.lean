import SaturnOS.Sched.Sessions

/-!
# User/Sites — where the tasks are between the kernel and EL0

    outside ──▸ opened ──TTBR0──▸ wroteRoot ──eret──▸ el0 ⇄ handling ⇄ suspended

The steps of `user_mode_run_task` and of the syscalls, task by task, over the kernel's own
transitions.  The timer can cut in everywhere but in EL0: `cpu_switch_to` carries no interrupt mask,
so that even a syscall may come back from the scheduler with interrupts enabled.  `SitesOk` holds in
every state (`siteStep_ok`): a task that is not outside is in the session it opened, over its own
address space.
-/

open Machinery

namespace SaturnOS

/-- Where a task is. -/
inductive Site
  /-- Not in `user_mode_run_task`; or a kernel thread. -/
  | outside
  /-- The session is open. -/
  | opened
  /-- `TTBR0` is written. -/
  | wroteRoot
  | el0
  /-- In the handler of a syscall. -/
  | handling
  /-- In the call of the scheduler a syscall makes. -/
  | suspended
  deriving DecidableEq

structure SiteState where
  kernel : Kernel
  site : ℕ → Site

inductive SiteEvent
  /-- A call that stays with the task, from a kernel thread or from a syscall. -/
  | call (op : KernelOp)
  | openSession
  | writeRoot
  | enter
  | svc
  | yield
  | sleep (ms intervalMs : Word)
  | afterYield
  | sysReturn (result : Word)
  | exit (code : Word)
  | fault (spsr : Word)
  | complete
  | exitTask
  | preempt
  deriving DecidableEq

/-- The events that end in the `eret` into EL0. -/
def SiteEvent.entersEl0 : SiteEvent → Bool
  | .enter | .sysReturn _ => true
  | .call _ | .openSession | .writeRoot | .svc | .yield | .sleep _ _ | .afterYield | .exit _
  | .fault _ | .complete | .exitTask | .preempt => false

namespace SiteState

variable (s : SiteState)

/-- The site of the current task. -/
def here : Site := s.site s.kernel.currentTask

/-- The current task moves to another site. -/
def moveTo (k : Kernel) (site : Site) : SiteState :=
  { kernel := k, site := Function.update s.site s.kernel.currentTask site }

/-- After a call that may have freed slots: whatever is put in them starts outside. -/
def afterCall (k : Kernel) : SiteState :=
  { kernel := k, site := fun p => if (k.tasks p).state = .unused then .outside else s.site p }

end SiteState

/-- The calls that touch neither sessions nor the CPU. -/
def KernelOp.onlyTable : KernelOp → Bool
  | .createKernelThread _ _ | .createUserTask _ _ _ | .spawn _ _ | .unblockUserTask _
  | .blockTask _ | .unblockTask _ | .reapZombieTask _ | .reapZombies | .waitTaskStatus _ _
  | .terminateChild _ _ | .startThreads => true
  | .setTaskParent _ _ | .yield | .sleepMs _ _ | .preempt | .enterEl0 | .exitSyscall _ | .fault _
  | .completeUserTask | .exit => false

/-- A call of the scheduler: a syscall is suspended in it, a kernel thread just yields. -/
def schedulerHandover (r : Kernel × Switch) (s : SiteState) : Option SiteState :=
  if r.2 = .stuck then none
  else if s.here = .handling then some (s.moveTo r.1 .suspended)
  else if s.here = .outside then some { s with kernel := r.1 }
  else none

/-- What `syscall_scheduler_yield` and `syscall_sleep` do to `TTBR0` once the scheduler has
returned. -/
def reinstallRoot (k : Kernel) : Kernel :=
  match userModeActiveAddressSpace k with
  | some space => k.arm64MmuSwitchTtbr0 space.targetRootTable
  | none => k

/-- The handlers of the last exception of a program: back in EL1, or a panic. -/
def leaveEl0 (r : Kernel × Option (Word × Word)) (s : SiteState) : Option SiteState :=
  match r with
  | (k, some _) => some (s.moveTo k .outside)
  | (_, none) => none

/-- An interrupt in EL0 does not reach `scheduler_preempt`. -/
def siteStep (L : Layout) (S : Symbols) (s : SiteState) : SiteEvent → Option SiteState
  | .call op =>
    if (s.here = .outside ∨ s.here = .handling) ∧ op.onlyTable = true then
      (systemStep L S s.kernel op).map s.afterCall
    else none
  | .openSession =>
    if s.here = .outside then
      (userModeRunTaskOpen S s.kernel.currentTask s.kernel).map fun k => s.moveTo k .opened
    else none
  | .writeRoot =>
    if s.here = .opened then
      some (s.moveTo (s.kernel.arm64MmuSwitchTtbr0 s.kernel.userSession.userRoot) .wroteRoot)
    else none
  | .enter =>
    if s.here = .wroteRoot then
      some (s.moveTo (s.kernel.modTask s.kernel.currentTask fun t =>
        { t with userStatus :=
          { t.userStatus with el0Entries := t.userStatus.el0Entries + 1 } }) .el0)
    else none
  | .svc => if s.here = .el0 then some (s.moveTo s.kernel .handling) else none
  | .yield => schedulerHandover (schedulerYield s.kernel) s
  | .sleep ms intervalMs => schedulerHandover (schedulerSleepMs ms intervalMs s.kernel) s
  | .afterYield =>
    if s.here = .suspended then some (s.moveTo (reinstallRoot s.kernel) .handling) else none
  | .sysReturn _ => if s.here = .handling then some (s.moveTo s.kernel .el0) else none
  | .exit code =>
    if s.here = .handling then leaveEl0 (userModeHandleExitSyscall code s.kernel) s else none
  | .fault spsr =>
    if s.here = .el0 then leaveEl0 (userModeHandleException spsr s.kernel) s else none
  | .complete =>
    if s.here = .outside ∧ AtUserReturn s.kernel then
      some (s.moveTo (schedulerRunUserTaskReturn s.kernel.currentTask s.kernel).1 .outside)
    else none
  | .exitTask =>
    if s.here = .outside ∧ s.kernel.currentTask ≠ 0 then
      schedulerHandover (schedulerExitTask s.kernel.currentTask s.kernel) s
    else none
  | .preempt =>
    if s.here ≠ .el0 then some { s with kernel := (schedulerPreempt s.kernel).1 } else none

/-- The machine `address_space_init` and `scheduler_init` leave. -/
def bootSites (S : Symbols) (root : Word) (st : SpaceStatics) : SiteState :=
  { kernel := bootKernel S (addressSpaceInit root st), site := fun _ => .outside }

/-! ## The invariant -/

/-- A task in the session it opened. -/
structure SessionOf (k : Kernel) (p : ℕ) : Prop where
  used : Used k p
  user : (k.tasks p).memory.addressSpace = .user
  active : (k.userSessions p).active = true
  task : (k.userSessions p).task = some p
  root : (k.userSessions p).userRoot = (k.tasks p).userAddressSpace.targetRootTable
  root_ne : (k.userSessions p).userRoot ≠ 0

/-- A task keeps its slot and its address space. -/
structure KeepsSpace (t t' : Task) : Prop where
  used : t.state ≠ .unused → t'.state ≠ .unused
  pointer_eq : t'.memory.addressSpace = t.memory.addressSpace
  space_eq : t'.userAddressSpace = t.userAddressSpace

theorem KeepsLive.keepsSpace {t t' : Task} (h : KeepsLive t t') : KeepsSpace t t' :=
  ⟨h.used, h.pointer_eq, h.space_eq⟩

theorem KeepsSpace.refl (t : Task) : KeepsSpace t t := ⟨id, rfl, rfl⟩

theorem KeepsSpace.trans {t t' t'' : Task} (h : KeepsSpace t t') (h' : KeepsSpace t' t'') :
    KeepsSpace t t'' :=
  ⟨h'.used ∘ h.used, h'.pointer_eq.trans h.pointer_eq, h'.space_eq.trans h.space_eq⟩

theorem KeepsSpace.modTask (k : Kernel) (p : ℕ) {f : Task → Task}
    (hf : KeepsSpace (k.tasks p) (f (k.tasks p))) (i : ℕ) :
    KeepsSpace (k.tasks i) ((k.modTask p f).tasks i) :=
  k.modTask_ind p f (P := fun i t => KeepsSpace (k.tasks i) t) hf (fun _ _ => KeepsSpace.refl _) i

namespace SessionOf

variable {k k' : Kernel} {p : ℕ}

theorem congr (h : SessionOf k p) (hs : k'.userSessions p = k.userSessions p)
    (ht : KeepsSpace (k.tasks p) (k'.tasks p)) : SessionOf k' p where
  used := ht.used h.used
  user := ht.pointer_eq.trans h.user
  active := by rw [hs]; exact h.active
  task := by rw [hs]; exact h.task
  root := by rw [hs, ht.space_eq]; exact h.root
  root_ne := by rw [hs]; exact h.root_ne

theorem taskSpace (h : SessionOf k p) : k.taskSpace p = some (k.tasks p).userAddressSpace := by
  rw [Kernel.taskSpace, h.user]

/-- Its address space is the active one. -/
theorem activeSpace (h : SessionOf k k.currentTask) (htable : TableOk k) :
    userModeActiveAddressSpace k = some (k.tasks k.currentTask).userAddressSpace := by
  rw [userModeActiveAddressSpace, htable.userSession_eq.2, if_pos h.active, h.task,
    Option.bind_some, h.taskSpace]

end SessionOf

structure SitesOk (s : SiteState) : Prop where
  table : TableOk s.kernel
  kernelKind : s.kernel.spaces.kernelAddressSpace.kind = .kernel
  session : ∀ p, s.site p ≠ .outside → SessionOf s.kernel p
  away : ∀ p, p ≠ s.kernel.currentTask → s.site p ≠ .el0

theorem SitesOk.sessionHere {s : SiteState} (h : SitesOk s) {site : Site} (hhere : s.here = site)
    (hne : site ≠ .outside) : SessionOf s.kernel s.kernel.currentTask :=
  h.session _ fun hout => hne (hhere.symm.trans hout)

/-- **The current task moves on.** -/
theorem SitesOk.move {s : SiteState} (h : SitesOk s) {k : Kernel} {site : Site} (htable : TableOk k)
    (hkind : k.spaces.kernelAddressSpace.kind = s.kernel.spaces.kernelAddressSpace.kind)
    (hcur : k.currentTask = s.kernel.currentTask)
    (hothers : ∀ p, p ≠ s.kernel.currentTask → k.userSessions p = s.kernel.userSessions p
      ∧ KeepsSpace (s.kernel.tasks p) (k.tasks p))
    (hself : site ≠ .outside → SessionOf k s.kernel.currentTask) : SitesOk (s.moveTo k site) := by
  refine ⟨htable, hkind.trans h.kernelKind, fun p hp => ?_, fun p hp => ?_⟩
  · dsimp only [SiteState.moveTo] at hp
    by_cases hpc : p = s.kernel.currentTask
    · subst hpc
      rw [Function.update_self] at hp
      exact hself hp
    · rw [Function.update_of_ne hpc] at hp
      exact (h.session p hp).congr (hothers p hpc).1 (hothers p hpc).2
  · have hpc : p ≠ s.kernel.currentTask := hcur ▸ hp
    dsimp only [SiteState.moveTo]
    rw [Function.update_of_ne hpc]
    exact h.away p hpc

/-! ## Calls of the scheduler -/

/-- What a scheduling function does to sessions and tasks. -/
structure HandsOver (k : Kernel) (r : Kernel × Switch) : Prop where
  table : TableOk r.1
  kernelKind : r.1.spaces.kernelAddressSpace.kind = k.spaces.kernelAddressSpace.kind
  sessions : r.1.userSessions = k.userSessions
  tasks : ∀ p, KeepsSpace (k.tasks p) (r.1.tasks p)
  switch : SwitchOk k r

theorem keepsSpace_of_resched {k k' : Kernel} (h : Resched k k') (p : ℕ) :
    KeepsSpace (k.tasks p) (k'.tasks p) := (h.tasks p).keepsLive.keepsSpace

theorem yield_handsOver {k : Kernel} (h : TableOk k) : HandsOver k (schedulerYield k) where
  table := (tableOk_yield h).1
  kernelKind := by rw [(yield_resched k).spaces]
  sessions := (yield_resched k).userSessions
  tasks := keepsSpace_of_resched (yield_resched k)
  switch := yield_switchOk k

theorem preempt_handsOver {k : Kernel} (h : TableOk k) : HandsOver k (schedulerPreempt k) where
  table := (tableOk_preempt h).1
  kernelKind := by rw [(preempt_resched k).spaces]
  sessions := (preempt_resched k).userSessions
  tasks := keepsSpace_of_resched (preempt_resched k)
  switch := preempt_switchOk k

theorem sleepMs_handsOver {k : Kernel} (h : TableOk k) (ms intervalMs : Word) :
    HandsOver k (schedulerSleepMs ms intervalMs k) := by
  refine ⟨(tableOk_sleepMs h ms intervalMs).1, (sleepMs_keeps ms intervalMs k).kernelKind,
    (sleepMs_keeps ms intervalMs k).sessions, fun p => ?_, sleepMs_switchOk ms intervalMs k⟩
  simp only [schedulerSleepMs]
  split
  · exact KeepsSpace.refl _
  · refine KeepsSpace.trans ?_ (keepsSpace_of_resched (yield_resched _) p)
    refine KeepsSpace.modTask k k.currentTask ?_ p
    exact ⟨fun _ => by simp, rfl, rfl⟩

theorem exitTask_handsOver {k : Kernel} (h : TableOk k) (h0 : k.currentTask ≠ 0) :
    HandsOver k (schedulerExitTask k.currentTask k) := by
  refine ⟨(tableOk_exitTask h h0).1, ?_, (yield_resched _).userSessions, fun p => ?_,
    yield_switchOk _⟩
  · simp only [schedulerExitTask]
    rw [(yield_resched _).spaces]
    rfl
  · have horphan : KeepsSpace (k.tasks p) ((orphanChildren k.currentTask k).tasks p) := by
      dsimp only [orphanChildren]
      split
      · exact ⟨id, rfl, rfl⟩
      · exact KeepsSpace.refl _
    simp only [schedulerExitTask]
    refine (horphan.trans ?_).trans (keepsSpace_of_resched (yield_resched _) p)
    exact KeepsSpace.modTask (orphanChildren k.currentTask k) k.currentTask
      (f := fun t => { t with state := .zombie }) ⟨fun _ => by simp, rfl, rfl⟩ p

/-- What a call of the scheduler does to the sites. -/
theorem schedulerHandover_spec {r : Kernel × Switch} {s s' : SiteState}
    (h : schedulerHandover r s = some s') :
    s'.kernel = r.1 ∧ (∀ p, p ≠ s.kernel.currentTask → s'.site p = s.site p)
      ∧ (s.here = .handling ∧ s'.site s.kernel.currentTask = .suspended
        ∨ s.here = .outside ∧ s'.site s.kernel.currentTask = .outside) := by
  rw [schedulerHandover] at h
  split at h
  · exact nomatch h
  · split at h
    · rename_i hhere
      obtain rfl := Option.some.inj h
      exact ⟨rfl, fun p hp => Function.update_of_ne hp _ _,
        .inl ⟨hhere, Function.update_self _ _ _⟩⟩
    · split at h
      · rename_i hhere
        obtain rfl := Option.some.inj h
        exact ⟨rfl, fun _ _ => rfl, .inr ⟨hhere, hhere⟩⟩
      · exact nomatch h

/-- **A handover.**  The task left keeps its site but may be suspended in the call. -/
theorem SitesOk.handover {s s' : SiteState} (h : SitesOk s) {r : Kernel × Switch}
    (hr : HandsOver s.kernel r) (hk : s'.kernel = r.1)
    (hsite : ∀ p, p ≠ s.kernel.currentTask → s'.site p = s.site p)
    (hself : s'.site s.kernel.currentTask ≠ .outside → s.here ≠ .outside)
    (hleft : s'.site s.kernel.currentTask ≠ .el0) : SitesOk s' := by
  refine ⟨hk ▸ hr.table, by rw [hk]; exact hr.kernelKind.trans h.kernelKind, fun p hp => ?_,
    fun p _ => ?_⟩
  · have hold : s.site p ≠ .outside := by
      by_cases hpc : p = s.kernel.currentTask
      · subst hpc
        exact hself hp
      · rw [← hsite p hpc]
        exact hp
    rw [hk]
    exact (h.session p hold).congr (by rw [hr.sessions]) (hr.tasks p)
  · by_cases hpc : p = s.kernel.currentTask
    · subst hpc
      exact hleft
    · rw [hsite p hpc]
      exact h.away p hpc

theorem SitesOk.schedulerHandover {s s' : SiteState} (h : SitesOk s) {r : Kernel × Switch}
    (hr : HandsOver s.kernel r) (hstep : schedulerHandover r s = some s') : SitesOk s' := by
  obtain ⟨hk, hsite, ⟨hhere, hsusp⟩ | ⟨-, hout⟩⟩ := schedulerHandover_spec hstep
  · refine h.handover hr hk hsite (fun _ => ?_) ?_
    · rw [hhere]
      exact nofun
    · rw [hsusp]
      exact nofun
  · refine h.handover hr hk hsite (fun hne => absurd hout hne) ?_
    rw [hout]
    exact nofun

/-! ## Calls that stay -/

/-- What such a call leaves alone. -/
structure KeepsTasks (k k' : Kernel) : Prop where
  currentTask : k'.currentTask = k.currentTask
  userSessions : k'.userSessions = k.userSessions
  ttbr0 : k'.ttbr0 = k.ttbr0
  kernelKind : k'.spaces.kernelAddressSpace.kind = k.spaces.kernelAddressSpace.kind
  tasks : ∀ p, Used k p → Used k' p → KeepsSpace (k.tasks p) (k'.tasks p)

namespace KeepsTasks

variable {k k' : Kernel}

theorem refl (k : Kernel) : KeepsTasks k k := ⟨rfl, rfl, rfl, rfl, fun _ _ _ => KeepsSpace.refl _⟩

theorem modTask (k : Kernel) (p : ℕ) {f : Task → Task}
    (hf : KeepsSpace (k.tasks p) (f (k.tasks p))) : KeepsTasks k (k.modTask p f) :=
  ⟨rfl, rfl, rfl, rfl, fun i _ _ => KeepsSpace.modTask k p hf i⟩

theorem of_fills {p : ℕ} (h : Fills p k k') : KeepsTasks k k' := by
  refine ⟨h.rest.currentTask, h.rest.userSessions, h.rest.ttbr0, h.rest.kernelKind, fun i hi _ =>
    ?_⟩
  have hip : i ≠ p := by
    rintro rfl
    exact hi h.unused
  rw [h.rest.tasks i hip]
  exact KeepsSpace.refl _

theorem of_clears {F : ℕ → Prop} (h : Clears F k k') : KeepsTasks k k' := by
  refine ⟨h.currentTask, h.userSessions, h.ttbr0, h.kernelKind, fun i _ hi => ?_⟩
  rw [h.rest i fun hF => hi (h.cleared i hF)]
  exact KeepsSpace.refl _

end KeepsTasks

section Calls

variable {L : Layout} {S : Symbols} {k k' : Kernel}

theorem readmits_keepsTasks {p : ℕ} (hr : Readmits p k k') : KeepsTasks k k' := by
  rcases hr with rfl | ⟨-, -, f, rfl, ht⟩
  · exact KeepsTasks.refl k'
  · exact KeepsTasks.modTask k p ht.keepsLive.keepsSpace

theorem terminateChild_keepsTasks (pid : ℤ) (code : Word) (k : Kernel) :
    KeepsTasks k (schedulerTerminateChild pid code k).1 := by
  rw [schedulerTerminateChild]
  split
  · exact KeepsTasks.refl k
  · dsimp only
    refine KeepsTasks.modTask k _ ?_
    exact ⟨fun _ => by simp, rfl, rfl⟩

theorem startThreads_keepsTasks (h0 : k.currentTask = 0) :
    KeepsTasks k (schedulerStartThreads k) := by
  have hset := KeepsTasks.modTask { k with threadsStarted := true, currentTask := 0 } 0
    (f := fun t => { t with
      state := .running
      accounting := { t.accounting with switches := t.accounting.switches + 1 } })
    ⟨fun _ => nofun, rfl, rfl⟩
  rw [schedulerStartThreads, schedulerSetRunningTask]
  exact ⟨h0.symm, hset.userSessions, hset.ttbr0, hset.kernelKind, hset.tasks⟩

/-- **A call that stays** moves nobody, and leaves every task it does not free its address space. -/
theorem onlyTable_keepsTasks {op : KernelOp} (h : TableOk k) (hop : op.onlyTable = true)
    (hstep : systemStep L S k op = some k') : KeepsTasks k k' := by
  obtain ⟨hcallable, sw, hcall⟩ := systemStep_spec hstep
  cases op with
  | createKernelThread name entry =>
    obtain ⟨rfl, rfl⟩ := Prod.mk.inj (Option.some.inj hcall)
    obtain ⟨p, hp⟩ := fills_createKernelThread S h name entry
    exact KeepsTasks.of_fills hp
  | createUserTask name file argument =>
    obtain ⟨rfl, rfl⟩ := Prod.mk.inj (Option.some.inj hcall)
    obtain ⟨p, hp⟩ := fills_outcome h (createUserTask_outcome L S name file argument h.count_le)
    exact KeepsTasks.of_fills hp
  | spawn file argument =>
    obtain ⟨rfl, rfl⟩ := Prod.mk.inj (Option.some.inj hcall)
    obtain ⟨p, hp⟩ := fills_spawnChild L S h file argument
    exact KeepsTasks.of_fills hp
  | unblockUserTask pid =>
    obtain ⟨rfl, rfl⟩ := Prod.mk.inj (Option.some.inj hcall)
    exact readmits_keepsTasks (unblockUserTask_readmits S pid k)
  | blockTask pid =>
    obtain ⟨rfl, rfl⟩ := Prod.mk.inj (Option.some.inj hcall)
    exact readmits_keepsTasks (blockTask_readmits pid k)
  | unblockTask pid =>
    obtain ⟨rfl, rfl⟩ := Prod.mk.inj (Option.some.inj hcall)
    exact readmits_keepsTasks (unblockTask_readmits pid k)
  | reapZombieTask pid =>
    obtain ⟨rfl, rfl⟩ := Prod.mk.inj (Option.some.inj hcall)
    exact KeepsTasks.of_clears (clears_reapZombieTask pid k)
  | reapZombies =>
    obtain ⟨rfl, rfl⟩ := Prod.mk.inj (Option.some.inj hcall)
    exact KeepsTasks.of_clears (clears_reapZombies k)
  | waitTaskStatus pid hasStatus =>
    obtain ⟨rfl, rfl⟩ := Prod.mk.inj (Option.some.inj hcall)
    exact KeepsTasks.of_clears (clears_waitTaskStatus h pid hasStatus)
  | terminateChild pid code =>
    obtain ⟨rfl, rfl⟩ := Prod.mk.inj (Option.some.inj hcall)
    exact terminateChild_keepsTasks pid code k
  | startThreads =>
    obtain ⟨rfl, rfl⟩ := Prod.mk.inj (Option.some.inj hcall)
    exact startThreads_keepsTasks hcallable
  | setTaskParent pid parentPid => exact nomatch hop
  | yield => exact nomatch hop
  | sleepMs ms intervalMs => exact nomatch hop
  | preempt => exact nomatch hop
  | enterEl0 => exact nomatch hop
  | exitSyscall code => exact nomatch hop
  | fault spsr => exact nomatch hop
  | completeUserTask => exact nomatch hop
  | exit => exact nomatch hop

end Calls

theorem SitesOk.afterCall {s : SiteState} (h : SitesOk s) {k : Kernel} (htable : TableOk k)
    (hk : KeepsTasks s.kernel k) : SitesOk (s.afterCall k) := by
  refine ⟨htable, hk.kernelKind.trans h.kernelKind, fun p hp => ?_, fun p hp => ?_⟩
  · dsimp only [SiteState.afterCall] at hp
    split at hp
    · exact absurd rfl hp
    · rename_i hused
      have hsession := h.session p hp
      exact hsession.congr (congrFun hk.userSessions p) (hk.tasks p hsession.used hused)
  · dsimp only [SiteState.afterCall]
    split
    · exact nofun
    · exact h.away p (hk.currentTask ▸ hp)

/-! ## Steps -/

/-- The session a task opens is its own. -/
theorem runTaskOpen_spec {S : Symbols} {p : ℕ} {k k' : Kernel}
    (hkind : k.spaces.kernelAddressSpace.kind = .kernel)
    (h : userModeRunTaskOpen S p k = some k') :
    (k.tasks p).memory.addressSpace = .user
      ∧ (k.tasks p).userAddressSpace.targetRootTable ≠ 0
      ∧ k' = k.modSession (openSession S p (k.tasks p).userAddressSpace) := by
  rw [userModeRunTaskOpen] at h
  split at h
  · exact nomatch h
  · rename_i hprepare
    split at h
    · exact nomatch h
    · split at h
      · exact nomatch h
      · rename_i space hspace
        split at h
        · exact nomatch h
        · rename_i hstub
          obtain rfl := Option.some.inj h
          obtain ⟨huser, -⟩ := userModePrepare_ready (by simpa using hprepare) hspace
          obtain ⟨hpointer, hown⟩ := taskSpace_user hkind hspace huser
          rw [hown]
          exact ⟨hpointer, switchStub_ready (by simpa using hstub), rfl⟩

/-- The site the current task moved to. -/
theorem moveTo_here (s : SiteState) {k : Kernel} (site : Site)
    (hcur : k.currentTask = s.kernel.currentTask) : (s.moveTo k site).here = site := by
  show Function.update s.site s.kernel.currentTask site k.currentTask = site
  rw [hcur, Function.update_self]

theorem leaveEl0_spec {s s' : SiteState} {r : Kernel × Option (Word × Word)}
    (hstep : leaveEl0 r s = some s') : s' = s.moveTo r.1 .outside := by
  obtain ⟨k, _ | wr⟩ := r
  · exact nomatch hstep
  · exact (Option.some.inj hstep).symm

/-- **Leaving EL0 for good.** -/
theorem SitesOk.leaveEl0 {s s' : SiteState} (h : SitesOk s) {r : Kernel × Option (Word × Word)}
    (hc : ClosesSessions s.kernel r.1)
    (hothers : ∀ p, p ≠ s.kernel.sessionIndex → r.1.userSessions p = s.kernel.userSessions p)
    (hstep : leaveEl0 r s = some s') : SitesOk s' := by
  obtain rfl := leaveEl0_spec hstep
  refine h.move (tableOk_closes h.table hc) (by rw [hc.spaces]) hc.currentTask
    (fun p hp => ⟨hothers p ?_, (hc.tasks p).keepsLive.keepsSpace⟩) (fun hne => absurd rfl hne)
  rw [h.table.userSession_eq.1]
  exact hp

theorem finishUserTask_rest (p : ℕ) (status : UserModeStatus) (k : Kernel) :
    (finishUserTask p status k).1.spaces = k.spaces
      ∧ ChangedAt p k (finishUserTask p status k).1 := by
  rw [finishUserTask]
  split
  · dsimp only
    exact ⟨rfl, ChangedAt.modTask k p _⟩
  · dsimp only
    exact ⟨rfl, ChangedAt.modTask k p _⟩

theorem runTaskReturn_others (p : ℕ) (k : Kernel) {i : ℕ} (hp : i ≠ p) (hi : i ≠ k.sessionIndex) :
    (userModeRunTaskReturn p k).1.userSessions i = k.userSessions i
      ∧ (userModeRunTaskReturn p k).1.tasks i = k.tasks i := by
  rw [userModeRunTaskReturn]
  split
  · dsimp only
    constructor
    · refine Kernel.modSession_of_ne _ _ ?_
      rw [Kernel.modTask_sessionIndex]
      · exact hi
      · rfl
    · dsimp only [Kernel.modSession]
      exact k.modTask_of_ne p _ hp
  · dsimp only
    exact ⟨Kernel.modSession_of_ne k (fun s => { s with active := false, task := none }) hi, rfl⟩

theorem runUserTaskReturn_currentTask (p : ℕ) (k : Kernel) :
    (schedulerRunUserTaskReturn p k).1.currentTask = k.currentTask :=
  (finishUserTask_rest p _ _).2.currentTask.trans (runTaskReturn_closes p k).currentTask

/-- **A session is opened** for the task that runs, over its own root. -/
theorem SitesOk.openSession {L : Layout} {S : Symbols} {s s' : SiteState} (h : SitesOk s)
    (hstep : siteStep L S s .openSession = some s') : SitesOk s' := by
  have hindex := h.table.userSession_eq
  obtain ⟨-, hstep⟩ := Option.ite_none_right_eq_some.mp hstep
  obtain ⟨k, hopen, rfl⟩ := Option.map_eq_some_iff.mp hstep
  obtain ⟨huser, hroot, rfl⟩ := runTaskOpen_spec h.kernelKind hopen
  refine h.move (h.table.congr (SameTable.of_tasks rfl rfl rfl)) rfl rfl
    (fun p hp => ⟨?_, KeepsSpace.refl _⟩) (fun _ => ?_)
  · refine Kernel.modSession_of_ne _ _ ?_
    rw [hindex.1]
    exact hp
  · have hsession : (s.kernel.modSession (SaturnOS.openSession S s.kernel.currentTask
        (s.kernel.tasks s.kernel.currentTask).userAddressSpace)).userSessions s.kernel.currentTask
        = SaturnOS.openSession S s.kernel.currentTask
          (s.kernel.tasks s.kernel.currentTask).userAddressSpace s.kernel.userSession := by
      rw [Kernel.modSession, hindex.1]
      exact Function.update_self _ _ _
    exact ⟨h.table.current_used, huser, by rw [hsession]; rfl, by rw [hsession]; rfl,
      by rw [hsession]; rfl, by rw [hsession]; exact hroot⟩

/-- **The end of an entry is recorded** in the slot of its task. -/
theorem SitesOk.complete {L : Layout} {S : Symbols} {s s' : SiteState} (h : SitesOk s)
    (hstep : siteStep L S s .complete = some s') : SitesOk s' := by
  have hindex := h.table.userSession_eq
  obtain ⟨⟨-, hat⟩, hstep⟩ := Option.ite_none_right_eq_some.mp hstep
  obtain rfl := Option.some.inj hstep
  have hc := runTaskReturn_closes s.kernel.currentTask s.kernel
  obtain ⟨hspaces, hrest⟩ := finishUserTask_rest s.kernel.currentTask
    (userModeRunTaskReturn s.kernel.currentTask s.kernel).2
    (userModeRunTaskReturn s.kernel.currentTask s.kernel).1
  refine h.move (tableOk_completeUserTask h.table h.table.current_lt hat.1) ?_
    (runUserTaskReturn_currentTask _ _) (fun p hp => ?_) fun hne => absurd rfl hne
  · rw [schedulerRunUserTaskReturn, hspaces, hc.spaces]
  · obtain ⟨hsession, htask⟩ := runTaskReturn_others s.kernel.currentTask s.kernel hp
      (by rw [hindex.1]; exact hp)
    rw [schedulerRunUserTaskReturn, hrest.userSessions, hrest.tasks p hp, hsession, htask]
    exact ⟨rfl, KeepsSpace.refl _⟩

/-- **One step.** -/
theorem siteStep_ok {L : Layout} {S : Symbols} {s s' : SiteState} {e : SiteEvent} (h : SitesOk s)
    (hstep : siteStep L S s e = some s') : SitesOk s' := by
  cases e with
  | call op =>
    obtain ⟨⟨-, hop⟩, hstep⟩ := Option.ite_none_right_eq_some.mp hstep
    obtain ⟨k, hk, rfl⟩ := Option.map_eq_some_iff.mp hstep
    exact h.afterCall (tableOk_system h.table hk) (onlyTable_keepsTasks h.table hop hk)
  | openSession => exact h.openSession hstep
  | writeRoot =>
    obtain ⟨hhere, hstep⟩ := Option.ite_none_right_eq_some.mp hstep
    obtain rfl := Option.some.inj hstep
    exact h.move (h.table.congr (SameTable.of_tasks rfl rfl rfl)) rfl rfl
      (fun _ _ => ⟨rfl, KeepsSpace.refl _⟩) fun _ =>
        (h.sessionHere hhere (by simp)).congr rfl (KeepsSpace.refl _)
  | enter =>
    obtain ⟨hhere, hstep⟩ := Option.ite_none_right_eq_some.mp hstep
    obtain rfl := Option.some.inj hstep
    have hkeeps := KeepsSpace.modTask s.kernel s.kernel.currentTask (f := fun t =>
      { t with userStatus := { t.userStatus with el0Entries := t.userStatus.el0Entries + 1 } })
      ⟨id, rfl, rfl⟩
    exact h.move (h.table.congr (SameTable.modTask _ _ ⟨rfl, rfl, rfl⟩)) rfl rfl
      (fun p _ => ⟨rfl, hkeeps p⟩) fun _ => (h.sessionHere hhere (by simp)).congr rfl (hkeeps _)
  | svc =>
    obtain ⟨hhere, hstep⟩ := Option.ite_none_right_eq_some.mp hstep
    obtain rfl := Option.some.inj hstep
    exact h.move h.table rfl rfl (fun _ _ => ⟨rfl, KeepsSpace.refl _⟩)
      fun _ => h.sessionHere hhere (by simp)
  | yield => exact h.schedulerHandover (yield_handsOver h.table) hstep
  | sleep ms intervalMs => exact h.schedulerHandover (sleepMs_handsOver h.table ms intervalMs) hstep
  | afterYield =>
    obtain ⟨hhere, hstep⟩ := Option.ite_none_right_eq_some.mp hstep
    obtain rfl := Option.some.inj hstep
    have hsession := h.sessionHere hhere (by simp)
    rw [reinstallRoot, hsession.activeSpace h.table]
    exact h.move (h.table.congr (SameTable.of_tasks rfl rfl rfl)) rfl rfl
      (fun _ _ => ⟨rfl, KeepsSpace.refl _⟩) fun _ => hsession.congr rfl (KeepsSpace.refl _)
  | sysReturn result =>
    obtain ⟨hhere, hstep⟩ := Option.ite_none_right_eq_some.mp hstep
    obtain rfl := Option.some.inj hstep
    exact h.move h.table rfl rfl (fun _ _ => ⟨rfl, KeepsSpace.refl _⟩)
      fun _ => h.sessionHere hhere (by simp)
  | exit code =>
    obtain ⟨-, hstep⟩ := Option.ite_none_right_eq_some.mp hstep
    exact h.leaveEl0 (handleExitSyscall_closes code s.kernel)
      (fun _ hp => handleExitSyscall_others code s.kernel hp) hstep
  | fault spsr =>
    obtain ⟨-, hstep⟩ := Option.ite_none_right_eq_some.mp hstep
    exact h.leaveEl0 (handleException_closes spsr s.kernel)
      (fun _ hp => handleException_others spsr s.kernel hp) hstep
  | complete => exact h.complete hstep
  | exitTask =>
    obtain ⟨⟨-, h0⟩, hstep⟩ := Option.ite_none_right_eq_some.mp hstep
    exact h.schedulerHandover (exitTask_handsOver h.table h0) hstep
  | preempt =>
    obtain ⟨hhere, hstep⟩ := Option.ite_none_right_eq_some.mp hstep
    obtain rfl := Option.some.inj hstep
    exact h.handover (preempt_handsOver h.table) rfl (fun _ _ => rfl) id hhere

theorem sitesOk_boot (S : Symbols) (root : Word) (st : SpaceStatics) :
    SitesOk (bootSites S root st) where
  table := tableOk_boot S _
  kernelKind := (bootKernel_spec S _).2.1.kernelKind
  session _ hp := absurd rfl hp
  away _ _ := nofun

/-- Two user tasks are admitted and the first runs. -/
def twoTasks : List SiteEvent :=
  [.call (.createUserTask none (some wordImage) none),
    .call (.createUserTask none (some wordImage) none), .call (.unblockUserTask 1),
    .call (.unblockUserTask 2), .call .startThreads, .preempt]

end SaturnOS
