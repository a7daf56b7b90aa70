import SaturnOS.Sched.Lives

/-!
# Sched/Endings — how a child ended, and who hears of it

    exit syscall ──▸ (code, 1) ┐
    EL0 fault ─────▸ (0, 0)    ├──▸ zombie ──wait──▸ reported, once, and gone
    terminated ────▸ (code, 0) ┘

`Watch` carries beside the kernel how the task in each slot ended, how often each slot was filled
and which tasks were reported.  The status of a task is *accounted for* by its ending all along
(`Accounted`): an ending inside EL0 shows in the session first, and in the task when its program is
completed.  `wait_delivers` reads `scheduler_wait_task_status` off it.
-/

open Machinery

namespace SaturnOS

/-- How a user task ended. -/
inductive Ending
  | exited (code : Word)
  | faulted
  | terminated (code : Word)
  deriving DecidableEq

/-- The exit code an ending leaves; a task that did not end so has none. -/
def endingCode : Option Ending → Word
  | some (.exited code) | some (.terminated code) => code
  | some .faulted | none => 0

/-- …and the success flag. -/
def endingSucceeded : Option Ending → Bool
  | some (.exited _) => true
  | some .faulted | some (.terminated _) | none => false

/-- The task a call ends, and how. -/
def endedBy (k : Kernel) : KernelOp → Option (ℕ × Ending)
  | .exitSyscall code =>
    if (userModeHandleExitSyscall code k).2.isSome then some (k.currentTask, .exited code) else none
  | .fault spsr =>
    if (userModeHandleException spsr k).2.isSome then some (k.currentTask, .faulted) else none
  | .terminateChild pid code =>
    if (schedulerTerminateChild pid code k).2 then some (pid.toNat, .terminated code) else none
  | _ => none

/-- The slot a wait reports. -/
def reportedBy (k : Kernel) : KernelOp → Option ℕ
  | .waitTaskStatus pid hasStatus =>
    (schedulerWaitTaskStatus pid hasStatus k).2.2.map fun status => status.pid.toNat
  | _ => none

/-- The kernel under watch: `(p, n)` is the `n`-th task of slot `p`. -/
structure Watch where
  kernel : Kernel
  filled : ℕ → ℕ := fun _ => 0
  ending : ℕ → Option Ending := fun _ => none
  reported : List (ℕ × ℕ) := []

/-- What a call leaves of the endings: the last one counts, and a cleared slot has none. -/
def endingAfter (k k' : Kernel) (op : KernelOp) (ending : ℕ → Option Ending) (i : ℕ) :
    Option Ending :=
  if Used k' i then
    match endedBy k op with
    | some (p, e) => Function.update ending p (some e) i
    | none => ending i
  else none

def watchStep (L : Layout) (S : Symbols) (w : Watch) (op : KernelOp) : Option Watch :=
  (lifeStep L S w.kernel op).map fun k' =>
    { kernel := k'
      filled := fun i => if ¬ Used w.kernel i ∧ Used k' i then w.filled i + 1 else w.filled i
      ending := endingAfter w.kernel k' op w.ending
      reported :=
        match reportedBy w.kernel op with
        | some p => (p, w.filled p) :: w.reported
        | none => w.reported }

def bootWatch (S : Symbols) (spaces : SpaceStatics) : Watch := { kernel := bootKernel S spaces }

theorem endingAfter_of_used {k k' : Kernel} {op : KernelOp} {ending : ℕ → Option Ending} {i : ℕ}
    (hu : Used k' i) (hop : ∀ e, endedBy k op ≠ some (i, e)) :
    endingAfter k k' op ending i = ending i := by
  rw [endingAfter, if_pos hu]
  split
  · rename_i p e heq
    rw [Function.update_of_ne]
    rintro rfl
    exact hop e heq
  · rfl

theorem endingAfter_self {k k' : Kernel} {op : KernelOp} {ending : ℕ → Option Ending} {i : ℕ}
    {e : Ending} (hu : Used k' i) (hop : endedBy k op = some (i, e)) :
    endingAfter k k' op ending i = some e := by
  rw [endingAfter, if_pos hu, hop]
  exact Function.update_self _ _ _

/-! ## The status accounts for the ending -/

/-- The status of a task, and the session in its slot, account for its ending `e`. -/
structure Accounted (S : Symbols) (e : Option Ending) (t : Task) (s : UserSession) : Prop where
  entered : t.userStatus.el0Entries ≠ 0 → t.entry = S.schedulerUserTaskEntry
  live : t.state ≠ .zombie → t.userStatus.programCompleted = false
  exitCode : t.userStatus.lastExitCode = endingCode e
  dead : t.state = .zombie → t.userStatus.programSucceeded = endingSucceeded e
  /-- It has ended in EL0 but is not completed yet: the session holds the outcome. -/
  left : e ≠ none → t.state ≠ .zombie → t.userStatus.el0Entries ≠ 0 ∧ s.active = false
    ∧ (s.completed && !s.faulted) = endingSucceeded e
  inside : e = none → t.userStatus.programSucceeded = false
    ∧ (t.state ≠ .zombie → t.userStatus.el0Entries ≠ 0 → s.completed = false)

namespace Accounted

variable {S : Symbols} {e : Option Ending} {t t' : Task} {s s' : UserSession}

/-- The record is all of it. -/
theorem congr (h : Accounted S e t s) (hr : SameRecord S t t') : Accounted S e t' s where
  entered he := by
    rw [hr.entries_eq] at he
    rcases hr.entry with hentry | hentry
    · rw [hentry]
      exact h.entered he
    · exact hentry
  live hz := by
    rw [Ne, hr.zombie_iff] at hz
    exact hr.completed_eq.trans (h.live hz)
  exitCode := hr.exitCode_eq.trans h.exitCode
  dead hz := hr.succeeded_eq.trans (h.dead (hr.zombie_iff.mp hz))
  left he hz := by
    rw [Ne, hr.zombie_iff] at hz
    rw [hr.entries_eq]
    exact h.left he hz
  inside he := by
    rw [Ne, hr.zombie_iff, hr.entries_eq, hr.succeeded_eq]
    exact h.inside he

theorem fresh (h : FreshTask t) : Accounted S none t s where
  entered he := absurd h.entries he
  live _ := h.completed
  exitCode := h.exitCode
  dead hz := absurd hz h.not_zombie
  left he := absurd rfl he
  inside _ := ⟨h.succeeded, fun _ he => absurd h.entries he⟩

/-- A task that ends with the flag and the code of its ending. -/
theorem ended (h : Accounted S e t s) (he : Ended (endingSucceeded e) (endingCode e) t t') :
    Accounted S e t' s' where
  entered := by
    rw [he.entries_eq, he.entry_eq]
    exact h.entered
  live hz := absurd he.zombie hz
  exitCode := he.exitCode_eq
  dead _ := he.succeeded_eq
  left _ hz := absurd he.zombie hz
  inside hn := by
    subst hn
    exact ⟨he.succeeded_eq, fun hz => absurd he.zombie hz⟩

/-- Nothing has ended while the session is open. -/
theorem none_of_active (h : Accounted S e t s) (hz : t.state ≠ .zombie) (ha : s.active = true) :
    e = none := by
  by_contra he
  cases (h.left he hz).2.1.symm.trans ha

/-- Nothing has ended before EL0. -/
theorem none_of_entries (h : Accounted S e t s) (hz : t.state ≠ .zombie)
    (hn : t.userStatus.el0Entries = 0) : e = none := by
  by_contra he
  exact (h.left he hz).1 hn

end Accounted

/-- Every task is accounted for, and only tasks have ended. -/
structure EndingsOk (S : Symbols) (k : Kernel) (ending : ℕ → Option Ending) : Prop where
  used : ∀ i, Used k i → Accounted S (ending i) (k.tasks i) (k.userSessions i)
  unused : ∀ i, ¬ Used k i → ending i = none

section Step

variable {L : Layout} {S : Symbols} {k k' : Kernel} {op : KernelOp} {ending : ℕ → Option Ending}

/-- **All slots but one** keep what they have; the one is seen to by itself. -/
theorem EndingsOk.but {p : ℕ} (h : EndingsOk S k ending) (hrec : RecordsBut S p k k')
    (hended : ∀ i e, endedBy k op = some (i, e) → i = p)
    (hp : Used k' p → Accounted S (endingAfter k k' op ending p) (k'.tasks p) (k'.userSessions p)) :
    EndingsOk S k' (endingAfter k k' op ending) := by
  refine ⟨fun i hi => ?_, fun i hi => by rw [endingAfter, if_neg hi]⟩
  by_cases hip : i = p
  · subst hip
    exact hp hi
  · have hr := hrec.tasks i hip
    have hu : Used k i := fun hn => hi (hr.unused_iff.mpr hn)
    rw [endingAfter_of_used hi fun e he => hip (hended i e he), hrec.sessions i hip]
    exact (h.used i hu).congr hr

theorem endings_ordinary (htable : TableOk k) (h : EndingsOk S k ending)
    (hmakes : MakesCall S k op) (hop : op.ordinary = true) (hstep : taskStep L S k op = some k') :
    EndingsOk S k' (endingAfter k k' op ending) := by
  have hended : ∀ i e, endedBy k op ≠ some (i, e) := by
    intro i e he
    cases op <;> first | cases he | cases hop
  have hkept : ∀ i, Used k' i → endingAfter k k' op ending i = ending i :=
    fun i hi => endingAfter_of_used hi (hended i)
  refine ⟨fun i hi => ?_, fun i hi => by rw [endingAfter, if_neg hi]⟩
  rw [hkept i hi]
  cases ordinary_change htable hmakes hop hstep with
  | records hr =>
    rw [hr.sessions]
    exact (h.used i fun hn => hi ((hr.tasks i).unused_iff.mpr hn)).congr (hr.tasks i)
  | filled hf hfresh =>
    by_cases hu : Used k i
    · have hsame : k'.tasks i = k.tasks i := hf.rest.tasks i fun hip => hu (hip ▸ hf.unused)
      rw [hsame, hf.rest.userSessions]
      exact h.used i hu
    · rw [h.unused i hu]
      exact .fresh (hfresh.new i hu hi)
  | cleared hc hparent =>
    have hnot : ¬ Frees k op i := fun hf => hi (hc.cleared i hf)
    rw [Used, hc.rest i hnot] at hi
    rw [hc.rest i hnot, hc.userSessions]
    exact h.used i hi

variable (htable : TableOk k) (hown : SessionsOwn k) (h : EndingsOk S k ending)

include htable hown h

theorem endings_exitSyscall {code : Word} (hmakes : MakesCall S k (.exitSyscall code)) :
    EndingsOk S (userModeHandleExitSyscall code k).1
      (endingAfter k (userModeHandleExitSyscall code k).1 (.exitSyscall code) ending) := by
  obtain ⟨hlive, -, hentries, hcompleted⟩ := hmakes
  have hat := hown.atSlot htable
  have hcur := h.used _ htable.current_used
  obtain heq | ⟨k', back, heq, hw, htask, hsession⟩ := handleExitSyscall_life hat code
  · have hended : ∀ i e, endedBy k (.exitSyscall code) ≠ some (i, e) := by
      intro i e he
      rw [endedBy, heq] at he
      cases he
    rw [heq]
    refine h.but hat.stay.records (fun i e he => absurd he (hended i e)) fun hu => ?_
    rw [endingAfter_of_used hu (hended _)]
    exact hcur
  · have hended : endedBy k (.exitSyscall code) = some (k.currentTask, .exited code) := by
      rw [endedBy, heq]
      rfl
    rw [heq]
    refine h.but hw.records (fun i e he => ?_) fun hu => ?_
    · rw [hended] at he
      exact (congrArg Prod.fst (Option.some.inj he)).symm
    · rw [endingAfter_self hu hended, htask, hsession]
      exact ⟨hcur.entered, hcur.live, rfl, fun hz => absurd hz hlive,
        fun _ _ => ⟨hentries, rfl, rfl⟩, fun hn => by cases hn⟩

theorem endings_fault {spsr : Word} (hmakes : MakesCall S k (.fault spsr)) :
    EndingsOk S (userModeHandleException spsr k).1
      (endingAfter k (userModeHandleException spsr k).1 (.fault spsr) ending) := by
  obtain ⟨hlive, hactive, hentries, hcompleted⟩ := hmakes
  have hat := hown.atSlot htable
  have hcur := h.used _ htable.current_used
  -- an open session: no ending yet, so no code
  have hnone := hcur.none_of_active hlive (hat.session_eq ▸ hactive)
  rw [hnone] at hcur
  obtain ⟨k', back, heq, hw, hr, hrejected, hhandled⟩ := handleException_life hat S spsr
  cases back with
  | none =>
    have hended : ∀ i e, endedBy k (.fault spsr) ≠ some (i, e) := by
      intro i e he
      rw [endedBy, heq] at he
      cases he
    rw [heq]
    refine h.but hw.records (fun i e he => absurd he (hended i e)) fun hu => ?_
    rw [endingAfter_of_used hu (hended _), hnone]
    have hkept := hcur.congr hr
    refine ⟨hkept.entered, hkept.live, hkept.exitCode, hkept.dead, fun hn => absurd rfl hn,
      fun _ => ⟨(hkept.inside rfl).1, fun hz he => ?_⟩⟩
    rw [hrejected rfl]
    exact (hkept.inside rfl).2 hz he
  | some pc =>
    have hended : endedBy k (.fault spsr) = some (k.currentTask, .faulted) := by
      rw [endedBy, heq]
      rfl
    obtain ⟨hclosed, hdone, hfaulted⟩ := hhandled rfl
    rw [heq]
    refine h.but hw.records (fun i e he => ?_) fun hu => ?_
    · rw [hended] at he
      exact (congrArg Prod.fst (Option.some.inj he)).symm
    · rw [endingAfter_self hu hended]
      have hkept := hcur.congr hr
      refine ⟨hkept.entered, hkept.live, hkept.exitCode, hkept.dead, fun _ _ => ⟨?_, hclosed, ?_⟩,
        fun hn => by cases hn⟩
      · rw [hr.entries_eq]
        exact hentries
      · rw [hdone, hfaulted]
        rfl

omit htable hown in
theorem endings_terminateChild {pid : ℤ} {code : Word} :
    EndingsOk S (schedulerTerminateChild pid code k).1
      (endingAfter k (schedulerTerminateChild pid code k).1 (.terminateChild pid code) ending) := by
  obtain ⟨-, heq⟩ | ⟨-, hok, -, hused, -, -, hrec, hsess, hend⟩ := terminateChild_life S pid code k
  · have hended : ∀ i e, endedBy k (.terminateChild pid code) ≠ some (i, e) := by
      intro i e he
      rw [endedBy, heq] at he
      cases he
    rw [heq]
    refine ⟨fun i hi => ?_, fun i hi => by rw [endingAfter, if_neg hi]⟩
    rw [endingAfter_of_used hi (hended i)]
    exact h.used i hi
  · have hended : endedBy k (.terminateChild pid code) = some (pid.toNat, .terminated code) := by
      rw [endedBy, hok]
      rfl
    refine h.but hrec (fun i e he => ?_) fun hu => ?_
    · rw [hended] at he
      exact (congrArg Prod.fst (Option.some.inj he)).symm
    · rw [endingAfter_self hu hended]
      have hchild := h.used _ hused
      exact ⟨by rw [hend.entries_eq, hend.entry_eq]; exact hchild.entered,
        fun hz => absurd hend.zombie hz, hend.exitCode_eq, fun _ => hend.succeeded_eq,
        fun _ hz => absurd hend.zombie hz, fun hn => by cases hn⟩

theorem endings_enterEl0 (hlive : k.current.state ≠ .zombie) (hat : AtUserEntry S k) :
    EndingsOk S (schedulerRunUserTaskEnter S k.currentTask k).1
      (endingAfter k (schedulerRunUserTaskEnter S k.currentTask k).1 .enterEl0 ending) := by
  obtain ⟨-, hentry, hentries, -⟩ := hat
  have hcur := h.used _ htable.current_used
  have hnone := hcur.none_of_entries hlive hentries
  rw [hnone] at hcur
  have hended : ∀ i e, endedBy k .enterEl0 ≠ some (i, e) := by
    intro i e he
    cases he
  obtain heq | ⟨hw, hpart⟩ := enterEl0_life (hown.atSlot htable) S
  · rw [heq]
    refine h.but (hown.atSlot htable).stay.records (fun i e he => absurd he (hended i e))
      fun hu => ?_
    rw [endingAfter_of_used hu (hended _), hnone]
    exact hcur
  · refine h.but hw.records (fun i e he => absurd he (hended i e)) fun hu => ?_
    rw [endingAfter_of_used hu (hended _), hnone]
    obtain hfailed | ⟨htask, hsession⟩ := hpart
    · refine hcur.ended ?_
      rw [hcur.exitCode] at hfailed
      exact hfailed
    · rw [htask]
      exact ⟨fun _ => hentry, hcur.live, hcur.exitCode, hcur.dead, fun hn => absurd rfl hn,
        fun _ => ⟨(hcur.inside rfl).1, fun _ _ => hsession⟩⟩

theorem endings_completeUserTask (hlive : k.current.state ≠ .zombie) (hat : AtUserReturn k) :
    EndingsOk S (schedulerRunUserTaskReturn k.currentTask k).1
      (endingAfter k (schedulerRunUserTaskReturn k.currentTask k).1 .completeUserTask ending) := by
  obtain ⟨-, hclosed, hentries, -⟩ := hat
  have hslot := hown.atSlot htable
  have hcur := h.used _ htable.current_used
  obtain ⟨hw, hend⟩ := completeUserTask_life hslot (hslot.session_eq ▸ hclosed)
  refine h.but hw.records (fun i e he => by cases he) fun hu => ?_
  rw [endingAfter_of_used hu fun e he => by cases he]
  refine hcur.ended ?_
  -- the session holds the outcome of whatever ended it
  have hflag : ((k.userSessions k.currentTask).completed && !(k.userSessions k.currentTask).faulted)
      = endingSucceeded (ending k.currentTask) := by
    by_cases hn : ending k.currentTask = none
    · rw [(hcur.inside hn).2 hlive hentries, hn]
      rfl
    · exact (hcur.left hn hlive).2.2
  rw [hflag, hcur.exitCode] at hend
  exact hend

omit hown in
theorem endings_exit (hmakes : MakesCall S k .exit) :
    EndingsOk S (schedulerExitTask k.currentTask k).1
      (endingAfter k (schedulerExitTask k.currentTask k).1 .exit ending) := by
  have hcur := h.used _ htable.current_used
  obtain ⟨hrec, hsess, -, t, ht, heq⟩ := exitTask_life S htable
  refine h.but hrec (fun i e he => by cases he) fun hu => ?_
  rw [endingAfter_of_used hu (fun e he => by cases he), heq, hsess]
  refine Accounted.congr ?_ ht
  by_cases hz : k.current.state = .zombie
  · refine hcur.congr ?_
    exact ⟨⟨by simp [show (k.tasks k.currentTask).state = .zombie from hz], rfl, rfl⟩,
      by simp [show (k.tasks k.currentTask).state = .zombie from hz], .inl rfl, .inl rfl, rfl, rfl,
      rfl, rfl⟩
  · -- a task that ended in EL0 is completed before it exits
    have hnone : ending k.currentTask = none := by
      by_contra hn
      have hentry := hcur.entered (hcur.left hn hz).1
      cases (hcur.live hz).symm.trans (hmakes hentry)
    rw [hnone] at hcur ⊢
    exact ⟨hcur.entered, fun hn => absurd rfl hn, hcur.exitCode, fun _ => (hcur.inside rfl).1,
      fun hn => absurd rfl hn, fun _ => ⟨(hcur.inside rfl).1, fun hn => absurd rfl hn⟩⟩

/-- **Every step accounts for the endings.** -/
theorem endings_step (hstep : lifeStep L S k op = some k') :
    EndingsOk S k' (endingAfter k k' op ending) := by
  obtain ⟨hmakes, hstep⟩ := lifeStep_spec hstep
  cases hop : op.ordinary with
  | true => exact endings_ordinary htable h hmakes hop hstep
  | false =>
    cases op with
    | exit =>
      obtain ⟨-, -, rfl⟩ | ⟨hne, -⟩ := taskStep_spec hstep
      · exact endings_exit htable h hmakes
      · exact absurd rfl hne
    | terminateChild pid code =>
      obtain ⟨-, sw, hcall⟩ := systemStep_spec hstep
      obtain ⟨rfl, rfl⟩ := Prod.mk.inj (Option.some.inj hcall)
      exact endings_terminateChild h
    | enterEl0 =>
      obtain ⟨-, sw, hcall⟩ := systemStep_spec hstep
      obtain ⟨hat, hcall⟩ := Option.ite_none_right_eq_some.mp hcall
      obtain ⟨rfl, rfl⟩ := Prod.mk.inj (Option.some.inj hcall)
      exact endings_enterEl0 htable hown h hmakes hat
    | exitSyscall code =>
      obtain ⟨-, sw, hcall⟩ := systemStep_spec hstep
      obtain ⟨rfl, rfl⟩ := Prod.mk.inj (Option.some.inj hcall)
      exact endings_exitSyscall htable hown h hmakes
    | fault spsr =>
      obtain ⟨-, sw, hcall⟩ := systemStep_spec hstep
      obtain ⟨rfl, rfl⟩ := Prod.mk.inj (Option.some.inj hcall)
      exact endings_fault htable hown h hmakes
    | completeUserTask =>
      obtain ⟨-, sw, hcall⟩ := systemStep_spec hstep
      obtain ⟨hat, hcall⟩ := Option.ite_none_right_eq_some.mp hcall
      obtain ⟨rfl, rfl⟩ := Prod.mk.inj (Option.some.inj hcall)
      exact endings_completeUserTask htable hown h hmakes hat
    | _ => cases hop

end Step

/-! ## Children -/

/-- Parents are user tasks, and so are children; an unused slot is nobody's child. -/
structure ParentsOk (k : Kernel) : Prop where
  idle : (k.tasks 0).memory.addressSpace = .kernel
  unused : ∀ i, ¬ Used k i → (k.tasks i).parentPid ≤ 0
  user : ∀ i, Used k i → 0 < (k.tasks i).parentPid →
    (k.tasks i).memory.addressSpace = .user ∧ (k.tasks i).userAddressSpace.kind = .user

theorem ParentsOk.congr {k k' : Kernel} (h : ParentsOk k) (hq : Quiet k k')
    (hs : ∀ i, SameSpace (k.tasks i) (k'.tasks i)) : ParentsOk k' where
  idle := (hs 0).pointer_eq.trans h.idle
  unused i hi := by
    have hle := h.unused i fun hu => hi ((hq i).1.mpr hu)
    rcases (hq i).2 with hp | hp <;> omega
  user i hi hpos := by
    rw [(hs i).pointer_eq, (hs i).space_eq]
    refine h.user i ((hq i).1.mp hi) ?_
    rcases (hq i).2 with hp | hp <;> omega

/-- The idle task is no user task. -/
theorem ParentsOk.user_ne_idle {k : Kernel} (h : ParentsOk k)
    (huser : k.current.memory.addressSpace = .user) : k.currentTask ≠ 0 := by
  intro h0
  rw [Kernel.current, h0, h.idle] at huser
  cases huser

/-- A task whose parent runs, and is not idle, is in use. -/
theorem ParentsOk.child_used {k : Kernel} (h : ParentsOk k) (h0 : k.currentTask ≠ 0) {i : ℕ}
    (hi : (k.tasks i).parentPid = k.currentTask) : Used k i := by
  by_contra hu
  have := h.unused i hu
  omega

/-- …and has a user space. -/
theorem ParentsOk.child_user {k : Kernel} (h : ParentsOk k) (h0 : k.currentTask ≠ 0) {i : ℕ}
    (hi : (k.tasks i).parentPid = k.currentTask) :
    (k.taskSpace i).map (·.kind) = some .user := by
  obtain ⟨hpointer, hkind⟩ := h.user i (h.child_used h0 hi) (by omega)
  rw [Kernel.taskSpace, hpointer]
  exact congrArg some hkind

theorem parents_change {S : Symbols} {k k' : Kernel} {op : KernelOp} (htable : TableOk k)
    (h : ParentsOk k) (hc : TableChange S op k k') : ParentsOk k' := by
  cases hc with
  | records hr =>
    refine h.congr (fun i => ⟨?_, (hr.tasks i).parent⟩) fun i => (hr.tasks i).toSameSpace
    exact not_congr (hr.tasks i).unused_iff
  | filled hf hfresh =>
    refine ⟨?_, fun i hi => ?_, fun i hi hpos => ?_⟩
    · have hidle : Used k 0 := by
        rcases htable.idle with h0 | h0 <;> simp [Used, h0]
      rw [hf.rest.tasks 0 fun hp => hidle (hp ▸ hf.unused)]
      exact h.idle
    · by_cases hu : Used k i
      · have hsame : k'.tasks i = k.tasks i := hf.rest.tasks i fun hp => hu (hp ▸ hf.unused)
        rw [Used, hsame] at hi
        exact absurd hu hi
      · have hle := h.unused i hu
        rcases hfresh.left i hi with hp | hp <;> omega
    · by_cases hu : Used k i
      · have hsame : k'.tasks i = k.tasks i := hf.rest.tasks i fun hp => hu (hp ▸ hf.unused)
        rw [hsame] at hpos ⊢
        exact h.user i hu hpos
      · exact (hfresh.new i hu hi).user hpos
  | cleared hc hparent =>
    refine ⟨?_, fun i hi => ?_, fun i hi hpos => ?_⟩
    · rw [hc.rest 0 fun hf => absurd hf.reaps.1 (Nat.lt_irrefl 0)]
      exact h.idle
    · by_cases hf : Frees k op i
      · rw [hparent i hf]
        omega
      · rw [Used, hc.rest i hf] at hi
        rw [hc.rest i hf]
        exact h.unused i hi
    · have hnot : ¬ Frees k op i := fun hf => hi (hc.cleared i hf)
      rw [Used, hc.rest i hnot] at hi
      rw [hc.rest i hnot] at hpos ⊢
      exact h.user i hi hpos

/-- The calls that end a task or cross EL0 move no parent and no space. -/
theorem special_quiet {L : Layout} {S : Symbols} {k k' : Kernel} {op : KernelOp} (h : TableOk k)
    (hop : op.ordinary = false) (hstep : taskStep L S k op = some k') :
    Quiet k k' ∧ SameSpaces k k' := by
  obtain ⟨-, -, rfl⟩ | ⟨-, hsystem⟩ := taskStep_spec hstep
  · exact ⟨exitTask_quiet h, exitTask_sameSpaces h⟩
  obtain ⟨-, sw, hcall⟩ := systemStep_spec hsystem
  cases op with
  | terminateChild pid code =>
    obtain ⟨rfl, rfl⟩ := Prod.mk.inj (Option.some.inj hcall)
    exact ⟨terminateChild_quiet pid code k, terminateChild_sameSpaces pid code k⟩
  | enterEl0 =>
    obtain ⟨-, hcall⟩ := Option.ite_none_right_eq_some.mp hcall
    obtain ⟨rfl, rfl⟩ := Prod.mk.inj (Option.some.inj hcall)
    exact ⟨enterEl0_quiet S h, enterEl0_sameSpaces S h⟩
  | exitSyscall code =>
    obtain ⟨rfl, rfl⟩ := Prod.mk.inj (Option.some.inj hcall)
    have hc := handleExitSyscall_closes code k
    exact ⟨Quiet.of_closes hc, SameSpaces.of_closes hc⟩
  | fault spsr =>
    obtain ⟨rfl, rfl⟩ := Prod.mk.inj (Option.some.inj hcall)
    have hc := handleException_closes spsr k
    exact ⟨Quiet.of_closes hc, SameSpaces.of_closes hc⟩
  | completeUserTask =>
    obtain ⟨-, hcall⟩ := Option.ite_none_right_eq_some.mp hcall
    obtain ⟨rfl, rfl⟩ := Prod.mk.inj (Option.some.inj hcall)
    exact ⟨completeUserTask_quiet h, completeUserTask_sameSpaces h⟩
  | exit =>
    obtain ⟨-, hcall⟩ := Option.ite_none_right_eq_some.mp hcall
    obtain rfl := congrArg Prod.fst (Option.some.inj hcall)
    exact ⟨exitTask_quiet h, exitTask_sameSpaces h⟩
  | _ => cases hop

theorem parents_step {L : Layout} {S : Symbols} {k k' : Kernel} {op : KernelOp} (htable : TableOk k)
    (h : ParentsOk k) (hstep : lifeStep L S k op = some k') : ParentsOk k' := by
  obtain ⟨hmakes, hstep⟩ := lifeStep_spec hstep
  cases hop : op.ordinary with
  | true => exact parents_change htable h (ordinary_change htable hmakes hop hstep)
  | false =>
    obtain ⟨hq, hs⟩ := special_quiet htable hop hstep
    exact h.congr hq hs.tasks

theorem parents_boot (S : Symbols) (spaces : SpaceStatics) : ParentsOk (bootKernel S spaces) := by
  obtain ⟨-, hrest, hnew⟩ := bootKernel_spec S spaces
  have hslot : ∀ i, i ≠ 0 → (bootKernel S spaces).tasks i = {} := fun i hi => hrest.tasks i hi
  refine ⟨hnew.space_eq, fun i hi => ?_, fun i hi hpos => ?_⟩
  · by_cases hi0 : i = 0
    · subst hi0
      rw [hnew.parent_eq]
      omega
    · rw [hslot i hi0]
  · by_cases hi0 : i = 0
    · subst hi0
      rw [hnew.parent_eq] at hpos
      omega
    · exact absurd (congrArg Task.state (hslot i hi0)) hi

/-! ## Waiting -/

/-- A child of the current task that a wait for `pid` is about. -/
def Child (k : Kernel) (pid : ℤ) (i : ℕ) : Prop :=
  Used k i ∧ (k.tasks i).parentPid = k.currentTask ∧ (pid = 0 ∨ pid = i)

/-- What `scheduler_wait_task_status` tells of the task in slot `p`. -/
def waitStatus (k : Kernel) (p : ℕ) : TaskWaitStatus :=
  ⟨BitVec.ofNat 64 p, (k.tasks p).userStatus.lastExitCode,
    if (k.tasks p).userStatus.programSucceeded then 1 else 0⟩

theorem waitOnTask_spec (p : ℕ) (k : Kernel) :
    waitOnTask p k = (k, -1, none)
        ∧ ¬ ((k.taskSpace p).map (·.kind) = some .user ∧ (k.tasks p).parentPid = k.currentTask)
      ∨ ((k.taskSpace p).map (·.kind) = some .user ∧ (k.tasks p).parentPid = k.currentTask)
        ∧ (waitOnTask p k = (k, 0, none) ∧ (k.tasks p).state ≠ .zombie
          ∨ (waitOnTask p k).2 = (1, some (waitStatus k p)) ∧ (k.tasks p).state = .zombie) := by
  simp only [waitOnTask]
  split
  · rename_i hp
    refine .inl ⟨rfl, fun hn => ?_⟩
    rcases hp with hp | hp
    · exact hp hn.1
    · exact hp hn.2
  · rename_i hp
    rw [not_or, not_not, not_not] at hp
    refine .inr ⟨hp, ?_⟩
    split
    · rename_i hz
      exact .inl ⟨rfl, hz⟩
    · rename_i hz
      rw [not_not] at hz
      exact .inr ⟨rfl, hz⟩

/-- A wait frees one slot at most. -/
theorem Frees.unique_wait {k : Kernel} {pid : ℤ} {hasStatus : Bool} {i j : ℕ}
    (hi : Frees k (.waitTaskStatus pid hasStatus) i)
    (hj : Frees k (.waitTaskStatus pid hasStatus) j) : i = j := by
  obtain ⟨⟨hi0, -⟩, -, -, -, hpi⟩ := hi
  obtain ⟨⟨hj0, -⟩, -, -, -, hpj⟩ := hj
  rcases hpi with hpi | ⟨hpi, -, hzi⟩ <;> rcases hpj with hpj | ⟨hpj, -, hzj⟩
  · omega
  · omega
  · omega
  · exact Option.some.inj (hzi.symm.trans hzj)

section Wait

variable {k : Kernel} (h : TableOk k)

include h

/-- **A wait** reports a zombie child, or leaves everything as it is. -/
theorem waitTaskStatus_spec (pid : ℤ) (hasStatus : Bool) :
    (∃ p, (schedulerWaitTaskStatus pid hasStatus k).2 = (1, some (waitStatus k p))
        ∧ Frees k (.waitTaskStatus pid hasStatus) p)
      ∨ ∃ r : ℤ, r ≠ 1 ∧ schedulerWaitTaskStatus pid hasStatus k = (k, r, none) := by
  have hguarded : ∀ p, (k.taskSpace p).map (·.kind) = some .user →
      (k.tasks p).parentPid = k.currentTask → (k.tasks p).state = .zombie → 0 < p →
      p < k.taskCount → hasStatus = true →
      (pid = p ∨ pid = 0 ∧ k.currentTask ≠ 0 ∧ zombieChild k = some p) →
      Frees k (.waitTaskStatus pid hasStatus) p := fun p huser hparent hz h0 hlt hst hpid =>
    ⟨⟨h0, hlt, child_ne_current h hlt hparent, hz⟩, hst, huser, hparent, hpid⟩
  simp only [schedulerWaitTaskStatus]
  split
  · exact .inr ⟨-1, by decide, rfl⟩
  · rename_i hp
    simp only [Bool.or_eq_true, Bool.not_eq_true', beq_iff_eq, not_or, Bool.not_eq_false] at hp
    obtain ⟨hlt, heq⟩ := pidInTable_lt hp.1.2
    split
    · rename_i hpid
      split
      · rename_i p hzc
        obtain ⟨h0, hplt, hparent, hzombie, -⟩ := zombieChild_spec h hzc
        obtain ⟨hw, -⟩ | ⟨⟨huser, -⟩, ⟨hw, -⟩ | ⟨hw, -⟩⟩ := waitOnTask_spec p k
        · exact .inr ⟨-1, by decide, hw⟩
        · exact .inr ⟨0, by decide, hw⟩
        · exact .inl ⟨p, hw, hguarded p huser hparent hzombie h0 hplt hp.1.1
            (.inr ⟨hpid, by omega, hzc⟩)⟩
      · refine .inr ⟨_, ?_, rfl⟩
        split <;> decide
    · rename_i hpid
      obtain ⟨hw, -⟩ | ⟨⟨huser, hparent⟩, ⟨hw, -⟩ | ⟨hw, hz⟩⟩ := waitOnTask_spec pid.toNat k
      · exact .inr ⟨-1, by decide, hw⟩
      · exact .inr ⟨0, by decide, hw⟩
      · exact .inl ⟨pid.toNat, hw, hguarded _ huser hparent hz (by omega) hlt hp.1.1
          (.inl heq.symm)⟩

section Children

variable (hparents : ParentsOk k) (h0 : k.currentTask ≠ 0)

include hparents h0

/-- The children of a user task are in the slots behind the idle task's. -/
theorem child_slot {pid : ℤ} {i : ℕ} (hi : Child k pid i) :
    i ∈ (List.range k.taskCount).drop 1 := by
  obtain ⟨hu, hp, -⟩ := hi
  refine mem_slots.mpr ⟨Nat.pos_of_ne_zero ?_, Nat.lt_of_not_le fun hge => hu (h.unused_ge i hge)⟩
  rintro rfl
  have := (hparents.user 0 hu (by omega)).1
  rw [hparents.idle] at this
  cases this

/-- A wait for any child that finds no dead one tells whether there is a live one. -/
theorem waitAny_none (hzc : zombieChild k = none) :
    (∀ i, Child k 0 i → (k.tasks i).state ≠ .zombie)
      ∧ (((List.range k.taskCount).drop 1).any
          (fun i => (k.tasks i).parentPid == k.currentTask) = true ↔ ∃ i, Child k 0 i) := by
  refine ⟨fun i hi hz => ?_, fun hown => ?_, ?_⟩
  · have hnone := List.find?_eq_none.mp hzc i (child_slot h hparents h0 hi)
    rw [hz, hi.2.1] at hnone
    simp at hnone
  · obtain ⟨i, -, hi⟩ := List.any_eq_true.mp hown
    rw [beq_iff_eq] at hi
    exact ⟨i, hparents.child_used h0 hi, hi, .inl rfl⟩
  · rintro ⟨i, hi⟩
    exact List.any_eq_true.mpr ⟨i, child_slot h hparents h0 hi, by rw [beq_iff_eq]; exact hi.2.1⟩

/-- **A wait of a user task**: it has no such child, or none of them is dead, or one is. -/
theorem waitTaskStatus_outcome (pid : ℤ) :
    (schedulerWaitTaskStatus pid true k).2.1 = -1 ∧ (∀ i, ¬ Child k pid i)
      ∨ (schedulerWaitTaskStatus pid true k).2.1 = 0 ∧ (∃ i, Child k pid i)
        ∧ (∀ i, Child k pid i → (k.tasks i).state ≠ .zombie)
      ∨ (schedulerWaitTaskStatus pid true k).2.1 = 1
        ∧ ∃ i, Child k pid i ∧ (k.tasks i).state = .zombie := by
  simp only [schedulerWaitTaskStatus]
  split
  · rename_i hp
    refine .inl ⟨rfl, ?_⟩
    rintro i ⟨hu, hparent, hpid⟩
    have hi : i < k.taskCount := Nat.lt_of_not_le fun hge => hu (h.unused_ge i hge)
    have hne := child_ne_current h hi hparent
    have hcount := h.count_pos
    simp only [Bool.not_true, pidInTable, Bool.false_or, Bool.or_eq_true, Bool.not_eq_true',
      Bool.and_eq_false_iff, decide_eq_false_iff_not, beq_iff_eq] at hp
    omega
  · split
    · rename_i hpid
      subst hpid
      split
      · rename_i p hzc
        obtain ⟨-, -, hparent, hzombie, -⟩ := zombieChild_spec h hzc
        have hchild : Child k 0 p := ⟨hparents.child_used h0 hparent, hparent, .inl rfl⟩
        obtain ⟨-, hn⟩ | ⟨-, ⟨-, hn⟩ | ⟨hw, -⟩⟩ := waitOnTask_spec p k
        · exact absurd ⟨hparents.child_user h0 hparent, hparent⟩ hn
        · exact absurd hzombie hn
        · exact .inr (.inr ⟨congrArg Prod.fst hw, p, hchild, hzombie⟩)
      · rename_i hzc
        obtain ⟨hlive, hown⟩ := waitAny_none h hparents h0 hzc
        dsimp only
        split
        · rename_i hsome
          exact .inr (.inl ⟨rfl, hown.mp hsome, hlive⟩)
        · rename_i hnone
          exact .inl ⟨rfl, fun i hi => hnone (hown.mpr ⟨i, hi⟩)⟩
    · rename_i hp hpid
      simp only [Bool.not_true, Bool.false_or, Bool.or_eq_true, Bool.not_eq_true', beq_iff_eq,
        not_or, Bool.not_eq_false] at hp
      obtain ⟨-, heq⟩ := pidInTable_lt hp.1
      -- the child is the one task asked for
      have honly : ∀ i, Child k pid i → i = pid.toNat := by
        rintro i ⟨-, -, hi⟩
        omega
      have hchild : (k.tasks pid.toNat).parentPid = k.currentTask → Child k pid pid.toNat :=
        fun hparent => ⟨hparents.child_used h0 hparent, hparent, .inr heq.symm⟩
      obtain ⟨hw, hn⟩ | ⟨⟨-, hparent⟩, ⟨hw, hz⟩ | ⟨hw, hz⟩⟩ := waitOnTask_spec pid.toNat k
      · refine .inl ⟨by rw [hw], fun i hi => hn ?_⟩
        rw [← honly i hi]
        exact ⟨hparents.child_user h0 hi.2.1, hi.2.1⟩
      · refine .inr (.inl ⟨by rw [hw], ⟨_, hchild hparent⟩, fun i hi => ?_⟩)
        rw [honly i hi]
        exact hz
      · exact .inr (.inr ⟨congrArg Prod.fst hw, _, hchild hparent, hz⟩)

end Children

end Wait

/-! ## Every run -/

/-- What a wait that returns 1 delivers, from slot `p`. -/
structure Delivered (w : Watch) (pid : ℤ) (status : TaskWaitStatus) (k' : Kernel) (p : ℕ) :
    Prop where
  slot : status.pid.toNat = p
  zombie : (w.kernel.tasks p).state = .zombie
  user : (w.kernel.taskSpace p).map (·.kind) = some .user
  parent : (w.kernel.tasks p).parentPid = w.kernel.currentTask
  asked : pid = 0 ∨ pid = p
  exitCode : status.exitCode = endingCode (w.ending p)
  succeeded : status.succeeded = if endingSucceeded (w.ending p) then 1 else 0
  removed : ¬ Used k' p
  rest : ∀ i, i ≠ p → k'.tasks i = w.kernel.tasks i
  first : (p, w.filled p) ∉ w.reported

/-- What waiting promises in a state. -/
structure WaitDelivers (w : Watch) : Prop where
  once : w.reported.Nodup
  reports : ∀ pid hasStatus, (schedulerWaitTaskStatus pid hasStatus w.kernel).2.1 = 1 →
    ∃ p status, (schedulerWaitTaskStatus pid hasStatus w.kernel).2.2 = some status
      ∧ Delivered w pid status (schedulerWaitTaskStatus pid hasStatus w.kernel).1 p
  unchanged : ∀ pid hasStatus, (schedulerWaitTaskStatus pid hasStatus w.kernel).2.1 ≠ 1 →
    (schedulerWaitTaskStatus pid hasStatus w.kernel).1 = w.kernel
  /-- A user task gets 0 exactly while it has such a child and none is dead… -/
  pending_iff : w.kernel.current.memory.addressSpace = .user → ∀ pid,
    ((schedulerWaitTaskStatus pid true w.kernel).2.1 = 0
      ↔ (∃ i, Child w.kernel pid i)
        ∧ ∀ i, Child w.kernel pid i → (w.kernel.tasks i).state ≠ .zombie)
  /-- …and −1 exactly when it has none. -/
  childless_iff : w.kernel.current.memory.addressSpace = .user → ∀ pid,
    ((schedulerWaitTaskStatus pid true w.kernel).2.1 = -1 ↔ ∀ i, ¬ Child w.kernel pid i)

structure WatchOk (S : Symbols) (w : Watch) : Prop where
  table : TableOk w.kernel
  own : SessionsOwn w.kernel
  parents : ParentsOk w.kernel
  endings : EndingsOk S w.kernel w.ending
  counted : ∀ r ∈ w.reported, r.2 ≤ w.filled r.1 ∧ (Used w.kernel r.1 → r.2 < w.filled r.1)
  nodup : w.reported.Nodup

namespace WatchOk

variable {L : Layout} {S : Symbols} {w w' : Watch} {op : KernelOp} (h : WatchOk S w)

include h

/-- A task in its slot was not reported. -/
theorem not_reported {p : ℕ} (hp : Used w.kernel p) : (p, w.filled p) ∉ w.reported :=
  fun hmem => Nat.lt_irrefl _ ((h.counted _ hmem).2 hp)

/-- A call reports nothing, or the task it frees. -/
theorem reportedBy_spec {p : ℕ} (hr : reportedBy w.kernel op = some p) : Frees w.kernel op p := by
  cases op with
  | waitTaskStatus pid hasStatus =>
    simp only [reportedBy] at hr
    obtain ⟨q, heq, hf⟩ | ⟨r, -, heq⟩ := waitTaskStatus_spec h.table pid hasStatus
    · rw [heq] at hr
      have hlt : q < 2 ^ 64 := by
        have := h.table.count_le
        have := hf.reaps.2.1
        simp only [schedMaxTasks] at *
        omega
      have hq : q % 2 ^ 64 = p := Option.some.inj hr
      rw [Nat.mod_eq_of_lt hlt] at hq
      exact hq ▸ hf
    · rw [heq] at hr
      cases hr
  | _ => cases hr

theorem delivers : WaitDelivers w where
  once := h.nodup
  reports pid hasStatus hone := by
    obtain ⟨p, heq, hf⟩ | ⟨r, hr, heq⟩ := waitTaskStatus_spec h.table pid hasStatus
    · have hclears := clears_waitTaskStatus h.table pid hasStatus
      have hzombie := hclears.zombie p hf
      have hslot : (waitStatus w.kernel p).pid.toNat = p := by
        have := h.table.count_le
        have := hf.reaps.2.1
        refine Nat.mod_eq_of_lt ?_
        simp only [schedMaxTasks] at *
        omega
      have hused : Used w.kernel p := by simp [Used, hzombie]
      have hacc := h.endings.used p hused
      have hf' := hf
      obtain ⟨-, -, huser, hparent, hpid⟩ := hf'
      refine ⟨p, _, congrArg Prod.snd heq, hslot, hzombie, huser, hparent, ?_, hacc.exitCode, ?_,
        ?_, fun i hi => hclears.rest i fun hfi => hi ?_, h.not_reported hused⟩
      · exact hpid.elim .inr fun hz => .inl hz.1
      · rw [← hacc.dead hzombie]
        rfl
      · have hgone := hclears.cleared p hf
        exact fun hu => hu hgone
      · exact hfi.unique_wait hf
    · rw [heq] at hone
      exact absurd hone hr
  unchanged pid hasStatus hne := by
    obtain ⟨p, heq, -⟩ | ⟨r, -, heq⟩ := waitTaskStatus_spec h.table pid hasStatus
    · rw [heq] at hne
      exact absurd rfl hne
    · rw [heq]
  pending_iff huser pid := by
    have h0 := h.parents.user_ne_idle huser
    obtain ⟨heq, hn⟩ | ⟨heq, hyes⟩ | ⟨heq, i, hi, hz⟩ :=
      waitTaskStatus_outcome h.table h.parents h0 pid
    · refine iff_of_false (by rw [heq]; decide) ?_
      rintro ⟨⟨i, hi⟩, -⟩
      exact hn i hi
    · exact iff_of_true heq hyes
    · exact iff_of_false (by rw [heq]; decide) fun hyes => hyes.2 i hi hz
  childless_iff huser pid := by
    have h0 := h.parents.user_ne_idle huser
    obtain ⟨heq, hn⟩ | ⟨heq, ⟨i, hi⟩, -⟩ | ⟨heq, i, hi, -⟩ :=
      waitTaskStatus_outcome h.table h.parents h0 pid
    · exact iff_of_true heq hn
    · exact iff_of_false (by rw [heq]; decide) fun hn => hn i hi
    · exact iff_of_false (by rw [heq]; decide) fun hn => hn i hi

/-- A task counted once is not counted again: its slot is unused until it is filled anew. -/
theorem counted_step {k' : Kernel} (hstep : lifeStep L S w.kernel op = some k') (r : ℕ × ℕ)
    (hr : r ∈ w.reported ∨ ∃ p, reportedBy w.kernel op = some p ∧ r = (p, w.filled p)) :
    let filled := if ¬ Used w.kernel r.1 ∧ Used k' r.1 then w.filled r.1 + 1 else w.filled r.1
    r.2 ≤ filled ∧ (Used k' r.1 → r.2 < filled) := by
  dsimp only
  rcases hr with hr | ⟨p, hp, rfl⟩
  · obtain ⟨hle, hlt⟩ := h.counted r hr
    split
    · omega
    · rename_i hnot
      refine ⟨hle, fun hu => hlt ?_⟩
      by_contra hn
      exact hnot ⟨hn, hu⟩
  · have hf := h.reportedBy_spec hp
    have hgone : ¬ Used k' p := by
      obtain ⟨hmakes, hstep⟩ := lifeStep_spec hstep
      obtain ⟨rfl, -⟩ | ⟨-, hsystem⟩ := taskStep_spec hstep
      · cases hp
      · obtain ⟨hcallable, sw, hcall⟩ := systemStep_spec hsystem
        have hu : Used w.kernel p := by simp [Used, hf.reaps.2.2.2]
        exact ((turnover_call L S h.table hcallable hcall).gone p hu).mpr hf
    dsimp only
    rw [if_neg fun hn => hgone hn.2]
    exact ⟨le_refl _, fun hu => absurd hu hgone⟩

theorem step (hstep : watchStep L S w op = some w') : WatchOk S w' := by
  obtain ⟨k', hk', rfl⟩ := Option.map_eq_some_iff.mp hstep
  refine ⟨tableOk_life h.table hk', (dead_step h.table h.own hk').1,
    parents_step h.table h.parents hk', endings_step h.table h.own h.endings hk', ?_, ?_⟩
  · intro r hr
    dsimp only at hr ⊢
    refine h.counted_step hk' r ?_
    split at hr
    · rename_i p hp
      rcases List.mem_cons.mp hr with rfl | hr
      · exact .inr ⟨p, hp, rfl⟩
      · exact .inl hr
    · exact .inl hr
  · dsimp only
    split
    · rename_i p hp
      refine List.nodup_cons.mpr ⟨h.not_reported ?_, h.nodup⟩
      simp [Used, (h.reportedBy_spec hp).reaps.2.2.2]
    · exact h.nodup

end WatchOk

theorem watchOk_boot (S : Symbols) (spaces : SpaceStatics) : WatchOk S (bootWatch S spaces) where
  table := tableOk_boot S spaces
  own := sessionsOwn_boot S spaces
  parents := parents_boot S spaces
  endings := by
    obtain ⟨-, hrest, hnew⟩ := bootKernel_spec S spaces
    refine ⟨fun i hi => ?_, fun _ _ => rfl⟩
    have hi0 : i = 0 := by
      by_contra hi0
      exact hi (congrArg Task.state (hrest.tasks i hi0))
    subst hi0
    refine .fresh ⟨?_, ?_, ?_, ?_, ?_, fun hpos => ?_⟩
    · rw [show ((bootWatch S spaces).kernel.tasks 0).state = _ from hnew.state_eq]
      simp
    · rw [show ((bootWatch S spaces).kernel.tasks 0).userStatus = _ from hnew.status_eq]
    · rw [show ((bootWatch S spaces).kernel.tasks 0).userStatus = _ from hnew.status_eq]
    · rw [show ((bootWatch S spaces).kernel.tasks 0).userStatus = _ from hnew.status_eq]
    · rw [show ((bootWatch S spaces).kernel.tasks 0).userStatus = _ from hnew.status_eq]
    · rw [show ((bootWatch S spaces).kernel.tasks 0).parentPid = _ from hnew.parent_eq] at hpos
      omega
  counted r hr := by cases hr
  nodup := List.nodup_nil

/-- **Waiting delivers**: in every state of every run, a wait that reports reports a dead child of
the caller as it ended, for the first time, and takes it away; else it changes nothing, and tells a
user task whether it has such a child. -/
theorem wait_delivers (L : Layout) (S : Symbols) (spaces : SpaceStatics) (ops : List KernelOp) :
    Always (watchStep L S) WaitDelivers (bootWatch S spaces) ops :=
  Always.of_inv (I := WatchOk S) (fun _ _ _ h hstep => h.step hstep) (fun _ h => h.delivers)
    (watchOk_boot S spaces) ops

end SaturnOS
