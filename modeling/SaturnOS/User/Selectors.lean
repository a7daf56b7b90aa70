import SaturnOS.User.Os

/-!
# User/Selectors — the task a pid argument selects

    unsigned long pid ──(int)──▸ tasks[…]        wait, terminate
                     └─pid < 32──▸ tasks[pid]    process_status

Three calls take the pid of a task, 64 bits of it.  `process_status` looks at them all; `wait` and
`terminate` look at the low half, so that `2³² + pid` is taken for `pid`
(`terminate_high_pid`).  They act on a task the argument does not name precisely when its high half
is not zero and its low half selects one (`pid_selectors`).
-/

open Machinery

namespace SaturnOS

/-! ## Naming a task -/

/-- A child of the current task, as the scheduler has it. -/
def OwnChild (k : Kernel) (i : ℕ) : Prop :=
  0 < i ∧ i < k.taskCount ∧ (k.tasks i).parentPid = k.currentTask

/-- The calls with a pid: `wait`, `terminate` and `process_status`. -/
def PidCall (number : Word) : Prop := number = 9 ∨ number = 11 ∨ number = 18

/-- The argument is the pid of a child; or, where that stands for something, `0` or the caller's. -/
def Names (k : Kernel) (number pid : Word) : Prop :=
  (∃ i, OwnChild k i ∧ (k.tasks i).pid = pid.toNat) ∨ number = 9 ∧ pid = 0
    ∨ number = 18 ∧ (pid = 0 ∨ k.current.pid = pid.toNat)

/-- **An argument that names no task is refused**, and nothing is changed. -/
def RefusesUnnamed (L : Layout) (S : Symbols) (o : OsState) (number pid arg1 arg2 arg3 : Word) :
    Prop :=
  ¬ Names o.kernel number pid → ∃ result, result < 0
    ∧ syscallDispatch L S o number pid arg1 arg2 arg3 = (o, .returns result)

/-! ## What the low half selects -/

/-- A child that can be waited for. -/
def Waitable (k : Kernel) (p : ℕ) : Prop :=
  (k.taskSpace p).map (·.kind) = some .user ∧ (k.tasks p).parentPid = k.currentTask

/-- A pid that `scheduler_wait_task_status` does not refuse: that of a child, or `0`, with a child
to wait for. -/
def WaitSelects (k : Kernel) (pid : ℤ) : Prop :=
  pidInTable k pid = true ∧ pid ≠ k.currentTask
    ∧ if pid = 0 then
        match zombieChild k with
        | some p => Waitable k p
        | none => ownsChild k = true
      else Waitable k pid.toNat

/-- The high half of the argument is zero, or the low half selects nothing. -/
def WholePid (o : OsState) (number pid arg1 arg2 : Word) : Prop :=
  pid.toNat < 2 ^ 32
    ∨ (number = 9 → (waitRefused o arg1 arg2).isSome = true ∨ arg1 = 0
        ∨ ¬ WaitSelects o.kernel (toInt32 pid))
      ∧ (number = 11 → canTerminate o.kernel (toInt32 pid) = false)

/-! ## The low half -/

theorem toInt32_small {pid : Word} (h : pid.toNat < 2 ^ 32) (hpos : 0 ≤ toInt32 pid) :
    (toInt32 pid).toNat = pid.toNat := by
  have hlow : (pid.setWidth 32).toNat = pid.toNat := by
    rw [BitVec.toNat_setWidth]
    exact Nat.mod_eq_of_lt h
  rw [toInt32, BitVec.toInt_eq_toNat_cond, hlow] at hpos ⊢
  split_ifs at hpos ⊢ <;> omega

theorem toInt32_index {pid : Word} (h : pid.toNat < 2 ^ 31) : toInt32 pid = pid.toNat := by
  have hlow : (pid.setWidth 32).toNat = pid.toNat := by
    rw [BitVec.toNat_setWidth]
    exact Nat.mod_eq_of_lt (by omega)
  rw [toInt32, BitVec.toInt_eq_toNat_of_lt (by omega), hlow]

section Calls

variable {L : Layout} {S : Symbols} {o : OsState}

/-- **What the wait of the scheduler refuses.** -/
theorem waitTaskStatus_refuses {k : Kernel} (pid : ℤ) (hasStatus : Bool) :
    (schedulerWaitTaskStatus pid hasStatus k).2.1 < 0 ↔ hasStatus = false
    ∨ ¬ WaitSelects k pid := by
  have hneg : (-1 : ℤ) < 0 := by decide
  have hwait : ∀ p, (waitOnTask p k).2.1 < 0 ↔ ¬ Waitable k p := by
    intro p
    rw [waitOnTask, Waitable, not_and_or]
    split
    · exact iff_of_true hneg ‹_›
    split
    · exact iff_of_false (Int.lt_irrefl 0) ‹_›
    · exact iff_of_false (Int.not_lt.mpr Int.one_nonneg) ‹_›
  rw [schedulerWaitTaskStatus, WaitSelects]
  split
  · rename_i hbad
    simp only [Bool.or_eq_true, Bool.not_eq_true', beq_iff_eq] at hbad
    refine iff_of_true hneg ?_
    rcases hbad with (hs | hin) | hcur
    · exact .inl hs
    · refine .inr fun hn => ?_
      rw [hin] at hn
      cases hn.1
    · exact .inr fun hn => hn.2.1 hcur
  · rename_i hok
    simp only [Bool.not_eq_true, Bool.or_eq_false_iff, Bool.not_eq_false',
      beq_eq_false_iff_ne] at hok
    obtain ⟨⟨hs, hin⟩, hcur⟩ := hok
    rw [hs, hin]
    simp only [Bool.true_eq_false, false_or, true_and, hcur, ne_eq, not_false_eq_true]
    split
    · cases zombieChild k with
      | some p => exact hwait p
      | none =>
        dsimp only
        cases ownsChild k with
        | true => exact iff_of_false (Int.lt_irrefl 0) (not_not.mpr rfl)
        | false => exact iff_of_true hneg Bool.false_ne_true
    · exact hwait pid.toNat

/-- A turn of the wait that does not give a status leaves the state. -/
theorem waitTurn_refused {pid statusAddress : Word}
    (hneg : (schedulerWaitTaskStatus (toInt32 pid) (statusAddress != 0) o.kernel).2.1 < 0) :
    waitTurn L o pid statusAddress
      = some (o, (schedulerWaitTaskStatus (toInt32 pid) (statusAddress != 0) o.kernel).2.1) := by
  rw [waitTurn]
  generalize hr : schedulerWaitTaskStatus (toInt32 pid) (statusAddress != 0) o.kernel = r at hneg ⊢
  obtain ⟨k, result, status⟩ := r
  cases status with
  | none => rfl
  | some status =>
    have hone := waitTaskStatus_one hr
    dsimp only at hneg
    omega

/-- **A refused wait**: bad options or a bad pointer, or nothing to wait for. -/
theorem syscallWait_refuses (pid statusAddress options : Word)
    (hend : (syscallWait L o pid statusAddress options).2 ≠ .aborts) :
    (∃ result, result < 0 ∧ syscallWait L o pid statusAddress options = (o, .returns result))
      ↔ (waitRefused o statusAddress options).isSome = true ∨ statusAddress = 0
        ∨ ¬ WaitSelects o.kernel (toInt32 pid) := by
  have hrefuses := waitTaskStatus_refuses (k := o.kernel) (toInt32 pid) (statusAddress != 0)
  simp only [bne_eq_false_iff_eq] at hrefuses
  rw [syscallWait] at hend ⊢
  cases hr : waitRefused o statusAddress options with
  | some error =>
    refine iff_of_true ⟨error, ?_, rfl⟩ (.inl rfl)
    rw [waitRefused] at hr
    split_ifs at hr <;> obtain rfl := Option.some.inj hr <;> decide
  | none =>
    rw [hr] at hend
    dsimp only at hend ⊢
    rw [Option.isSome_none, Bool.false_eq_true, false_or, ← hrefuses]
    constructor
    · rintro ⟨result, hneg, heq⟩
      by_contra hpos
      -- a turn that is not refused gives a result that is not negative, or none
      cases hturn : waitTurn L o pid statusAddress with
      | none =>
        rw [hturn] at hend
        exact hend rfl
      | some turn =>
        obtain ⟨o', result'⟩ := turn
        have hresult : result' = (schedulerWaitTaskStatus (toInt32 pid) (statusAddress != 0)
            o.kernel).2.1 := by
          rw [waitTurn] at hturn
          generalize schedulerWaitTaskStatus (toInt32 pid) (statusAddress != 0) o.kernel
            = r at hturn ⊢
          obtain ⟨k, value, status⟩ := r
          cases status with
          | none => exact (congrArg Prod.snd (Option.some.inj hturn)).symm
          | some status =>
            obtain ⟨o₁, -, ho⟩ := Option.map_eq_some_iff.mp hturn
            exact (congrArg Prod.snd ho).symm
        rw [hturn] at heq
        dsimp only at heq
        split at heq
        · cases heq
        · obtain rfl : result' = result := SyscallEnd.returns.inj (congrArg Prod.snd heq)
          exact hpos (hresult ▸ hneg)
    · intro hneg
      rw [waitTurn_refused hneg]
      dsimp only
      rw [if_neg (by omega)]
      exact ⟨_, hneg, rfl⟩

/-- **A refused termination.** -/
theorem syscallTerminate_refuses (pid code : Word) :
    (∃ result, result < 0
      ∧ ended o (some (syscallTerminate o pid code)) = (o, .returns result))
      ↔ canTerminate o.kernel (toInt32 pid) = false := by
  rw [syscallTerminate, schedulerTerminateChild]
  cases canTerminate o.kernel (toInt32 pid) with
  | false => exact iff_of_true ⟨syscallErrInval, by decide, rfl⟩ rfl
  | true =>
    refine iff_of_false ?_ (show ¬ true = false by decide)
    rintro ⟨result, hneg, heq⟩
    have hzero : (0 : ℤ) = result := SyscallEnd.returns.inj (congrArg Prod.snd heq)
    omega

/-! ## Whole pids -/

variable (h : TableOk o.kernel)

include h

/-- An argument with a high half names nothing. -/
theorem not_names_high {number pid : Word} (hhigh : 2 ^ 32 ≤ pid.toNat) :
    ¬ Names o.kernel number pid := by
  have hmax := h.count_le
  have hcap : schedMaxTasks = 8 := rfl
  have hzero : pid ≠ 0 := by
    rintro rfl
    exact absurd hhigh (by decide)
  have hsmall : ∀ i < o.kernel.taskCount, (o.kernel.tasks i).pid ≠ pid.toNat := by
    intro i hi heq
    have := h.pid_eq i hi
    omega
  rintro (⟨i, ⟨-, hi, -⟩, hpid⟩ | ⟨-, h0⟩ | ⟨-, h0 | hpid⟩)
  · exact hsmall i hi hpid
  · exact hzero h0
  · exact hzero h0
  · exact hsmall _ h.current_lt hpid

/-- A child in the low half is named, where that is all there is. -/
theorem names_low {number pid : Word} (hlow : pid.toNat < 2 ^ 32) (hpos : 0 < toInt32 pid)
    (hlt : toInt32 pid < o.kernel.taskCount)
    (hparent : (o.kernel.tasks (toInt32 pid).toNat).parentPid = o.kernel.currentTask) :
    Names o.kernel number pid := by
  have hsame := toInt32_small hlow hpos.le
  refine .inl ⟨(toInt32 pid).toNat, ⟨by omega, by omega, hparent⟩, ?_⟩
  rw [h.pid_eq _ (by omega), hsame]

/-- **`process_status` looks at the whole argument.** -/
theorem syscallProcessStatus_names {pid : Word} (address : Word) (hno : ¬ Names o.kernel 18 pid) :
    ∃ result, result < 0 ∧ syscallProcessStatus L o pid address = some (o, result) := by
  rw [syscallProcessStatus]
  split
  · exact ⟨syscallErrFault, by decide, rfl⟩
  have hinval : ∃ result, result < 0 ∧ some o.inval = some (o, result) :=
    ⟨syscallErrInval, by decide, rfl⟩
  split
  · exact hinval
  rename_i hmax
  have hcap : schedMaxTasks = 8 := rfl
  have hindex : toInt32 pid = pid.toNat := toInt32_index (by omega)
  dsimp only
  split
  · exact hinval
  rename_i i hi
  split
  · exact hinval
  rename_i hmine
  have h0 : pid ≠ 0 := fun h0 => hno (.inr (.inr ⟨rfl, .inl h0⟩))
  rw [if_neg h0, hindex, schedulerTaskByPid] at hi
  split at hi
  · cases hi
  rename_i hin
  simp only [Bool.or_eq_true, Bool.not_eq_true', not_or, Bool.not_eq_false] at hin
  obtain ⟨hlt, -⟩ := pidInTable_lt hin.1
  obtain rfl := Option.some.inj hi
  rw [Int.toNat_natCast] at hlt hmine
  have hpid := h.pid_eq _ hlt
  refine absurd ?_ hno
  by_cases hself : (o.kernel.tasks pid.toNat).pid = o.kernel.current.pid
  · exact .inr (.inr ⟨rfl, .inr (hself.symm.trans hpid)⟩)
  · have hcaller : o.kernel.current.pid = o.kernel.currentTask := h.pid_eq _ h.current_lt
    have hparent : (o.kernel.tasks pid.toNat).parentPid = o.kernel.currentTask := by
      by_contra hne
      exact hmine ⟨hself, fun heq => hne (heq.trans hcaller)⟩
    have hpos : pid.toNat ≠ 0 := fun heq => h0 (BitVec.eq_of_toNat_eq heq)
    exact .inl ⟨pid.toNat, ⟨by omega, hlt, hparent⟩, hpid⟩

/-- A child that is waited for is named. -/
theorem names_waitSelects {pid : Word} (hlow : pid.toNat < 2 ^ 32)
    (hselects : WaitSelects o.kernel (toInt32 pid)) : Names o.kernel 9 pid := by
  obtain ⟨hin, -, hchild⟩ := hselects
  have hrange := hin
  simp only [pidInTable, Bool.and_eq_true, decide_eq_true_eq] at hrange
  by_cases h0 : toInt32 pid = 0
  · have hzero : pid.toNat = 0 := by rw [← toInt32_small hlow hrange.1, h0]; rfl
    exact .inr (.inl ⟨rfl, BitVec.eq_of_toNat_eq hzero⟩)
  · rw [if_neg h0] at hchild
    exact names_low h hlow (by omega) hrange.2 hchild.2

theorem names_canTerminate {pid : Word} (hlow : pid.toNat < 2 ^ 32)
    (hcan : canTerminate o.kernel (toInt32 pid) = true) : Names o.kernel 11 pid := by
  simp only [canTerminate, Bool.and_eq_true, decide_eq_true_eq, beq_iff_eq] at hcan
  exact names_low h hlow hcan.1.1.1.1.1 hcan.1.1.1.1.2 hcan.1.1.2

/-- **An argument is refused that names no task**, precisely when it is looked at whole. -/
theorem refusesUnnamed_iff {number : Word} (hcall : PidCall number) (pid arg1 arg2 arg3 : Word)
    (hend : (syscallDispatch L S o number pid arg1 arg2 arg3).2 ≠ .aborts) :
    RefusesUnnamed L S o number pid arg1 arg2 arg3 ↔ WholePid o number pid arg1 arg2 := by
  rw [RefusesUnnamed, WholePid]
  rcases hcall with rfl | rfl | rfl
  · have hwait : syscallDispatch L S o 9 pid arg1 arg2 arg3 = syscallWait L o pid arg1 arg2 := rfl
    rw [hwait] at hend ⊢
    rw [syscallWait_refuses pid arg1 arg2 hend]
    constructor
    · intro hrefuses
      by_cases hlow : pid.toNat < 2 ^ 32
      · exact .inl hlow
      · exact .inr ⟨fun _ => hrefuses (not_names_high h (Nat.le_of_not_lt hlow)), nofun⟩
    · rintro (hlow | ⟨hrefused, -⟩) hno
      · exact .inr (.inr fun hselects => hno (names_waitSelects h hlow hselects))
      · exact hrefused rfl
  · have hterminate : syscallDispatch L S o 11 pid arg1 arg2 arg3
        = ended o (some (syscallTerminate o pid arg1)) := rfl
    rw [hterminate, syscallTerminate_refuses]
    constructor
    · intro hrefuses
      by_cases hlow : pid.toNat < 2 ^ 32
      · exact .inl hlow
      · exact .inr ⟨nofun, fun _ => hrefuses (not_names_high h (Nat.le_of_not_lt hlow))⟩
    · rintro (hlow | ⟨-, hrefused⟩) hno
      · rw [← Bool.not_eq_true]
        exact fun hcan => hno (names_canTerminate h hlow hcan)
      · exact hrefused rfl
  · refine iff_of_true (fun hno => ?_) (.inr ⟨nofun, nofun⟩)
    obtain ⟨result, hneg, heq⟩ := syscallProcessStatus_names (L := L) h arg1 hno
    refine ⟨result, hneg, ?_⟩
    have hstatus : syscallDispatch L S o 18 pid arg1 arg2 arg3
        = ended o (syscallProcessStatus L o pid arg1) := rfl
    rw [hstatus, heq]
    rfl

end Calls

/-! ## Runs -/

/-- Of a user task's calls with a pid, those that come back refuse an argument that names no task
precisely when they look at it whole. -/
def SelectorsExact (L : Layout) (S : Symbols) (o : OsState) : Prop :=
  UserCurrent o.kernel → ∀ number pid arg1 arg2 arg3, PidCall number →
    (syscallDispatch L S o number pid arg1 arg2 arg3).2 ≠ .aborts →
    (RefusesUnnamed L S o number pid arg1 arg2 arg3 ↔ WholePid o number pid arg1 arg2)

/-- **Pid arguments**, in every state of every run from boot. -/
theorem pid_selectors (L : Layout) (S : Symbols) (st : SpaceStatics) (v : Vfs)
    (events : List OsEvent) :
    Always (osStep L S) (SelectorsExact L S) (bootOs L S st v) events :=
  Always.of_inv (I := OsOk L) (fun _ _ _ h hstep => osOk_step h hstep)
    (fun _ h _ _ pid arg1 arg2 arg3 hcall hend => refusesUnnamed_iff h.table hcall pid arg1 arg2
    arg3 hend)
    (osOk_boot L S st v) events

/-- A program with a child, about to ask for something. -/
def parentRun : List OsEvent :=
  [.kernel (.createUserTask none (some wordImage) none), .kernel (.unblockUserTask 1),
    .kernel .startThreads, .kernel .preempt, .kernel .enterEl0,
    .kernel (.spawn (some wordImage) none)]

/-- `terminate(2³² + 2)` kills the child 2. -/
theorem terminate_high_pid : ¬ Always (osStep bssLayout imageSymbols)
    (fun o => UserCurrent o.kernel → ∀ number pid arg1 arg2 arg3, PidCall number →
      (syscallDispatch bssLayout imageSymbols o number pid arg1 arg2 arg3).2 ≠ .aborts →
      RefusesUnnamed bssLayout imageSymbols o number pid arg1 arg2 arg3)
    (bootOs bssLayout imageSymbols {} freshVfs) parentRun := by
  refine not_always_of_run _ (fun o => decide (UserCurrent o.kernel)
    && (syscallDispatch bssLayout imageSymbols o 11 0x100000002 7 0 0).2 == .returns 0
    && decide (o.kernel.taskCount = 3) && decide ((o.kernel.tasks 1).pid = 1)
    && decide ((o.kernel.tasks 2).pid = 2)) ?_ ?_
  · decide +kernel
  · intro o hbad hall
    simp only [Bool.and_eq_true, decide_eq_true_eq, beq_iff_eq] at hbad
    obtain ⟨⟨⟨⟨huser, hzero⟩, hcount⟩, hone⟩, htwo⟩ := hbad
    have hunnamed : ¬ Names o.kernel 11 0x100000002 := by
      rintro (⟨i, ⟨hpos, hlt, -⟩, hpid⟩ | ⟨hn, -⟩ | ⟨hn, -⟩)
      · have hi : i = 1 ∨ i = 2 := by omega
        rcases hi with rfl | rfl
        · cases hone.symm.trans hpid
        · cases htwo.symm.trans hpid
      · cases hn
      · cases hn
    have hends : (syscallDispatch bssLayout imageSymbols o 11 0x100000002 7 0 0).2 ≠ .aborts := by
      rw [hzero]
      exact nofun
    obtain ⟨result, hneg, heq⟩ := hall huser 11 0x100000002 7 0 0 (.inr (.inl rfl)) hends hunnamed
    rw [heq] at hzero
    obtain rfl : result = 0 := SyscallEnd.returns.inj hzero
    exact Int.lt_irrefl 0 hneg

end SaturnOS
