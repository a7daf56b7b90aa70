import SaturnOS.User.Sites

/-!
# User/Roots — the translation root at the entry into EL0

`scheduler_yield` installs the root of the task it switches to, and the syscalls install their own
when they come back; `scheduler_preempt` installs none.  A task stopped between its write of `TTBR0`
and its `eret` relies on nobody writing it meanwhile: `own_root_at_entry` says that this is all it
relies on.
-/

open Machinery

namespace SaturnOS

/-- The root of a task's own space. -/
def ownRoot (k : Kernel) (p : ℕ) : Option Word := (k.taskSpace p).map (·.targetRootTable)

theorem SessionOf.ownRoot_eq {k : Kernel} {p : ℕ} (h : SessionOf k p) :
    ownRoot k p = some (k.userSessions p).userRoot := by
  rw [ownRoot, h.taskSpace, h.root]
  rfl

/-- The task `scheduler_preempt` leaves the CPU to. -/
def preemptTarget (k : Kernel) : ℕ := (schedulerPreempt k).1.currentTask

/-- A task enters EL0, or returns to it, over its own root. -/
def EntersOwnRoot (s : SiteState) (e : SiteEvent) (_ : SiteState) : Prop :=
  e.entersEl0 = true → ownRoot s.kernel s.kernel.currentTask = some s.kernel.ttbr0

/-- A preemption that resumes a task between its write of `TTBR0` and its `eret` finds its root
still there. -/
def ResumesAtOwnRoot (s : SiteState) (e : SiteEvent) : Prop :=
  e = .preempt →
    s.site (preemptTarget s.kernel) = .wroteRoot ∨ s.site (preemptTarget s.kernel) = .handling →
    ownRoot s.kernel (preemptTarget s.kernel) = some s.kernel.ttbr0

instance (s : SiteState) (e : SiteEvent) (s' : SiteState) : Decidable (EntersOwnRoot s e s') :=
  inferInstanceAs (Decidable (_ → _))

instance (s : SiteState) (e : SiteEvent) : Decidable (ResumesAtOwnRoot s e) :=
  inferInstanceAs (Decidable (_ → _ → _))

theorem entersOwnRoot_of_stays {s s' : SiteState} {e : SiteEvent} (he : e.entersEl0 = false) :
    EntersOwnRoot s e s' := fun h => absurd (he.symm.trans h) Bool.false_ne_true

/-! ## The invariant -/

/-- A site at which a task relies on `TTBR0`. -/
def Site.reliesOnRoot (site : Site) : Prop := site = .wroteRoot ∨ site = .el0 ∨ site = .handling

instance : DecidablePred Site.reliesOnRoot := fun _ => inferInstanceAs (Decidable (_ ∨ _ ∨ _))

theorem Site.reliesOnRoot.ne_outside {site : Site} (h : site.reliesOnRoot) : site ≠ .outside := by
  rintro rfl
  rcases h with h | h | h <;> exact nomatch h

/-- The current task has the root of its session where it relies on it. -/
def RootInstalled (s : SiteState) : Prop :=
  s.here.reliesOnRoot → s.kernel.ttbr0 = (s.kernel.userSessions s.kernel.currentTask).userRoot

theorem RootInstalled.ownRoot {s : SiteState} (h : RootInstalled s) (hs : SitesOk s)
    (hr : s.here.reliesOnRoot) : ownRoot s.kernel s.kernel.currentTask = some s.kernel.ttbr0 := by
  rw [h hr]
  exact (hs.session _ hr.ne_outside).ownRoot_eq

/-- At a site where nothing relies on it. -/
theorem rootInstalled_of_here {s : SiteState} {site : Site} (hhere : s.here = site)
    (hr : ¬ site.reliesOnRoot) : RootInstalled s := fun h => absurd (hhere ▸ h) hr

/-! ## Calls of the scheduler -/

/-- A switch that gives the next task its root. -/
def InstallsRoot (r : Kernel × Switch) : Prop :=
  ∀ prev next, r.2 = .to prev next → userModeTaskResumeRoot r.1 next ≠ 0 →
    r.1.ttbr0 = userModeTaskResumeRoot r.1 next

theorem sleepMs_installsRoot (ms intervalMs : Word) (k : Kernel) :
    InstallsRoot (schedulerSleepMs ms intervalMs k) := by
  simp only [schedulerSleepMs]
  split
  · intro prev next hto
    cases hto
  · exact (yield_ttbr0 _).2

/-- A task in its session is resumed with its own root. -/
theorem resumeRoot_of_session {k : Kernel} (h : TableOk k) {p : ℕ} (hp : p < k.taskCount)
    (hs : SessionOf k p) : userModeTaskResumeRoot k p = (k.userSessions p).userRoot := by
  have hle := h.count_le
  have hin : ¬ ((p : ℤ) < 0 ∨ (schedMaxTasks : ℤ) ≤ p) := by omega
  rw [userModeTaskResumeRoot, hs.taskSpace]
  dsimp only
  rw [h.pid_eq p hp, if_neg hin, Int.toNat_natCast, if_pos hs.active]

/-- **After `scheduler_yield`** the next task has its root, because the scheduler installed it. -/
theorem rootInstalled_schedulerHandover {s s' : SiteState} (h : SitesOk s) {r : Kernel × Switch}
    (hr : HandsOver s.kernel r) (hstuck : r.2 ≠ .stuck) (hinstalls : InstallsRoot r)
    (hstep : schedulerHandover r s = some s') : RootInstalled s' := by
  have hok := h.schedulerHandover hr hstep
  obtain ⟨hk, -, hself⟩ := schedulerHandover_spec hstep
  intro hrelies
  have hleft : ¬ (s'.site s.kernel.currentTask).reliesOnRoot := by
    rcases hself with ⟨-, hsusp⟩ | ⟨-, hout⟩
    · rw [hsusp]
      decide
    · rw [hout]
      decide
  have hhere : s'.here = s'.site r.1.currentTask := by rw [SiteState.here, hk]
  obtain ⟨k', _ | ⟨prev, next⟩ | _⟩ := r
  · have hcur : k'.currentTask = s.kernel.currentTask := hr.switch
    dsimp only at hhere
    rw [hhere, hcur] at hrelies
    exact absurd hrelies hleft
  · obtain ⟨-, hnext, -⟩ := hr.switch
    dsimp only at hk hnext
    rw [hk, ← hnext]
    have hsession : SessionOf k' next := by
      have := hok.session _ hrelies.ne_outside
      rwa [hk, ← hnext] at this
    have hroot := resumeRoot_of_session hr.table (hnext ▸ hr.table.current_lt) hsession
    rw [← hroot]
    exact hinstalls prev next rfl (by rw [hroot]; exact hsession.root_ne)
  · exact absurd rfl hstuck

/-- **After `scheduler_preempt`** it has its root if it was there. -/
theorem rootInstalled_preempt {s : SiteState} (h : SitesOk s) (hI : RootInstalled s)
    (hC : ResumesAtOwnRoot s .preempt) :
    RootInstalled { s with kernel := (schedulerPreempt s.kernel).1 } := by
  intro hrelies
  have htarget : (s.site (preemptTarget s.kernel)).reliesOnRoot := hrelies
  show (schedulerPreempt s.kernel).1.ttbr0
    = ((schedulerPreempt s.kernel).1.userSessions (preemptTarget s.kernel)).userRoot
  rw [preempt_ttbr0, (preempt_handsOver h.table).sessions]
  by_cases hstay : preemptTarget s.kernel = s.kernel.currentTask
  · rw [hstay] at htarget ⊢
    exact hI htarget
  · have hown : ownRoot s.kernel (preemptTarget s.kernel) = some s.kernel.ttbr0 := by
      refine hC rfl ?_
      rcases htarget with hw | he | hh
      · exact .inl hw
      · exact absurd he (h.away _ hstay)
      · exact .inr hh
    rw [(h.session _ htarget.ne_outside).ownRoot_eq] at hown
    exact (Option.some.inj hown).symm

/-! ## Steps -/

/-- **A call that stays** leaves the root register and the sessions as they were. -/
theorem RootInstalled.afterCall {s : SiteState} (hI : RootInstalled s) {k : Kernel}
    (hkeeps : KeepsTasks s.kernel k) : RootInstalled (s.afterCall k) := by
  intro hrelies
  have hhere : (s.afterCall k).here = if (k.tasks k.currentTask).state = .unused then .outside
    else s.site k.currentTask := rfl
  rw [hhere, hkeeps.currentTask] at hrelies
  split at hrelies
  · exact absurd hrelies (by decide)
  · show k.ttbr0 = (k.userSessions k.currentTask).userRoot
    rw [hkeeps.ttbr0, hkeeps.userSessions, hkeeps.currentTask]
    exact hI hrelies

/-- **One step.** -/
theorem rootStep_spec {L : Layout} {S : Symbols} {s s' : SiteState} {e : SiteEvent} (h : SitesOk s)
    (hI : RootInstalled s) (hC : ResumesAtOwnRoot s e) (hstep : siteStep L S s e = some s') :
    RootInstalled s' ∧ EntersOwnRoot s e s' := by
  have hindex := h.table.userSession_eq
  cases e with
  | call op =>
    obtain ⟨⟨-, hop⟩, hstep⟩ := Option.ite_none_right_eq_some.mp hstep
    obtain ⟨k, hk, rfl⟩ := Option.map_eq_some_iff.mp hstep
    exact ⟨hI.afterCall (onlyTable_keepsTasks h.table hop hk), entersOwnRoot_of_stays rfl⟩
  | openSession =>
    obtain ⟨-, hstep⟩ := Option.ite_none_right_eq_some.mp hstep
    obtain ⟨k, hopen, rfl⟩ := Option.map_eq_some_iff.mp hstep
    obtain ⟨-, -, rfl⟩ := runTaskOpen_spec h.kernelKind hopen
    exact ⟨rootInstalled_of_here (moveTo_here s .opened rfl) (by decide),
      entersOwnRoot_of_stays rfl⟩
  | writeRoot =>
    obtain ⟨-, hstep⟩ := Option.ite_none_right_eq_some.mp hstep
    obtain rfl := Option.some.inj hstep
    refine ⟨fun _ => ?_, entersOwnRoot_of_stays rfl⟩
    show s.kernel.userSession.userRoot = (s.kernel.userSessions s.kernel.currentTask).userRoot
    rw [hindex.2]
  | enter =>
    obtain ⟨hhere, hstep⟩ := Option.ite_none_right_eq_some.mp hstep
    obtain rfl := Option.some.inj hstep
    exact ⟨fun _ => hI (.inl hhere), fun _ => hI.ownRoot h (.inl hhere)⟩
  | svc =>
    obtain ⟨hhere, hstep⟩ := Option.ite_none_right_eq_some.mp hstep
    obtain rfl := Option.some.inj hstep
    exact ⟨fun _ => hI (.inr (.inl hhere)), entersOwnRoot_of_stays rfl⟩
  | yield =>
    exact ⟨rootInstalled_schedulerHandover h (yield_handsOver h.table) (tableOk_yield h.table).2
      (yield_ttbr0 _).2 hstep, entersOwnRoot_of_stays rfl⟩
  | sleep ms intervalMs =>
    exact ⟨rootInstalled_schedulerHandover h (sleepMs_handsOver h.table ms intervalMs)
      (tableOk_sleepMs h.table ms intervalMs).2 (sleepMs_installsRoot ms intervalMs _) hstep,
      entersOwnRoot_of_stays rfl⟩
  | afterYield =>
    obtain ⟨hhere, hstep⟩ := Option.ite_none_right_eq_some.mp hstep
    obtain rfl := Option.some.inj hstep
    have hsession := h.sessionHere hhere (by simp)
    rw [reinstallRoot, hsession.activeSpace h.table]
    exact ⟨fun _ => hsession.root.symm, entersOwnRoot_of_stays rfl⟩
  | sysReturn result =>
    obtain ⟨hhere, hstep⟩ := Option.ite_none_right_eq_some.mp hstep
    obtain rfl := Option.some.inj hstep
    exact ⟨fun _ => hI (.inr (.inr hhere)), fun _ => hI.ownRoot h (.inr (.inr hhere))⟩
  | exit code =>
    obtain ⟨-, hstep⟩ := Option.ite_none_right_eq_some.mp hstep
    obtain rfl := leaveEl0_spec hstep
    have hcur := (handleExitSyscall_closes code s.kernel).currentTask
    exact ⟨rootInstalled_of_here (moveTo_here s .outside hcur) (by decide),
      entersOwnRoot_of_stays rfl⟩
  | fault spsr =>
    obtain ⟨-, hstep⟩ := Option.ite_none_right_eq_some.mp hstep
    obtain rfl := leaveEl0_spec hstep
    have hcur := (handleException_closes spsr s.kernel).currentTask
    exact ⟨rootInstalled_of_here (moveTo_here s .outside hcur) (by decide),
      entersOwnRoot_of_stays rfl⟩
  | complete =>
    obtain ⟨-, hstep⟩ := Option.ite_none_right_eq_some.mp hstep
    obtain rfl := Option.some.inj hstep
    refine ⟨rootInstalled_of_here (moveTo_here s .outside ?_) (by decide),
      entersOwnRoot_of_stays rfl⟩
    exact runUserTaskReturn_currentTask _ _
  | exitTask =>
    obtain ⟨⟨-, h0⟩, hstep⟩ := Option.ite_none_right_eq_some.mp hstep
    exact ⟨rootInstalled_schedulerHandover h (exitTask_handsOver h.table h0)
      (tableOk_exitTask h.table h0).2 (yield_ttbr0 _).2 hstep, entersOwnRoot_of_stays rfl⟩
  | preempt =>
    obtain ⟨-, hstep⟩ := Option.ite_none_right_eq_some.mp hstep
    obtain rfl := Option.some.inj hstep
    exact ⟨rootInstalled_preempt h hI hC, entersOwnRoot_of_stays rfl⟩

/-! ## Every run -/

/-- **Tasks enter EL0 over their own roots** in every run whose preemptions resume no task that has
written `TTBR0` and not yet executed its `eret`, unless its root is still there. -/
theorem own_root_at_entry (L : Layout) (S : Symbols) (root : Word) (st : SpaceStatics)
    (events : List SiteEvent)
    (hresumes : Along (siteStep L S) (fun s e _ => ResumesAtOwnRoot s e) (bootSites S root st)
      events) :
    Along (siteStep L S) EntersOwnRoot (bootSites S root st) events := by
  refine Along.imp_of_inv (T := siteStep L S) (C := fun s e _ => ResumesAtOwnRoot s e)
    (D := EntersOwnRoot) (I := fun s => SitesOk s ∧ RootInstalled s)
    (fun s e s' hI hstep hC => ?_)
    ⟨sitesOk_boot S root st, fun hr => absurd rfl hr.ne_outside⟩ hresumes
  obtain ⟨hI', hD⟩ := rootStep_spec hI.1 hI.2 hC hstep
  exact ⟨⟨siteStep_ok hI.1 hstep, hI'⟩, hD⟩

/-- The first task is preempted before it writes `TTBR0`; the second enters EL0, yields in a syscall
to the first, and comes back when that one yields. -/
theorem own_root_two_tasks :
    Along (siteStep bssLayout imageSymbols) EntersOwnRoot
      (bootSites imageSymbols (bssLayout.table .vmL1) {})
      (twoTasks ++ [.openSession, .preempt, .openSession, .writeRoot, .enter, .svc, .yield,
        .writeRoot, .enter, .svc, .yield, .afterYield, .sysReturn 0]) :=
  own_root_at_entry bssLayout imageSymbols _ _ _ (by decide +kernel)

/-- **The second of two preemptions leaves the first task the other's root**: it enters EL0 over
it. -/
theorem preempted_task_other_root :
    ¬ ∀ events, Along (siteStep bssLayout imageSymbols) EntersOwnRoot
      (bootSites imageSymbols (bssLayout.table .vmL1) {}) events := by
  intro hall
  have hrun := hall (twoTasks ++ [.openSession, .writeRoot, .preempt, .openSession, .writeRoot,
    .preempt, .enter])
  revert hrun
  decide +kernel

end SaturnOS
