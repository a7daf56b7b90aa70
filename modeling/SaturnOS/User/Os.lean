import SaturnOS.User.Outcomes

/-!
# User/Os — the system, and what a failed syscall leaves of it

    o ──kernel | file system | program | syscall──▸ o'

Every step of the machine between two points where a program can look: the calls the kernel makes by
itself, the shell's on the file systems, the stores of a program, and its syscalls.  In every state
reached from boot a syscall that fails leaves all there is to see as it was (`failures_quiet`).
-/

open Machinery

namespace SaturnOS

/-- A user task is current. -/
def UserCurrent (k : Kernel) : Prop :=
  k.currentTask ≠ 0 ∧ (k.taskSpace k.currentTask).map (·.kind) = some .user

instance (k : Kernel) : Decidable (UserCurrent k) := inferInstanceAs (Decidable (_ ∧ _))

inductive OsEvent
  | kernel (op : KernelOp)
  | fs (op : FsOp)
  | format
  /-- Stores of the program in EL0. -/
  | program (pages : Fin 4 → Fin 3 → Page)
  /-- The page allocator's counts and the timer's interval. -/
  | machine (totalPages freePages intervalMs : Word)
  | syscall (number arg0 arg1 arg2 arg3 : Word)

/-- A syscall that ends in a data abort does not come back. -/
def osStep (L : Layout) (S : Symbols) (o : OsState) : OsEvent → Option OsState
  | .kernel op => (taskStep L S o.kernel op).map fun k => { o with kernel := k }
  | .fs op => (fsStep o.vfs op).map fun v => { o with vfs := v }
  | .format => some { o with vfs := { o.vfs with sfs := (sfsFormat o.vfs.sfs).1 } }
  | .program pages => some { o with kernel := o.kernel.setPages pages }
  | .machine totalPages freePages intervalMs =>
    some { o with totalPages := totalPages, freePages := freePages, intervalMs := intervalMs }
  | .syscall number arg0 arg1 arg2 arg3 =>
    if UserCurrent o.kernel ∧ (syscallDispatch L S o number arg0 arg1 arg2 arg3).2 ≠ .aborts then
      some (syscallDispatch L S o number arg0 arg1 arg2 arg3).1
    else none

/-- The system after `scheduler_init` and `vfs_init`, over the kernel map of `vm_init`. -/
def bootOs (L : Layout) (S : Symbols) (st : SpaceStatics) (v : Vfs) : OsState :=
  { kernel := bootKernel S (addressSpaceInit (L.table .vmL1) st), vfs := vfsInit v }

/-! ## The invariant -/

structure OsOk (L : Layout) (o : OsState) : Prop where
  table : TableOk o.kernel
  kind : o.kernel.spaces.kernelAddressSpace.kind = .kernel
  root : o.kernel.spaces.kernelAddressSpace.rootTable = L.table .vmL1
  descriptors : DescriptorsOk o.kernel
  names : NamesOk o.vfs

theorem osOk_boot (L : Layout) (S : Symbols) (st : SpaceStatics) (v : Vfs) :
    OsOk L (bootOs L S st v) := by
  have hclaim : claimTaskSlot { spaces := addressSpaceInit (L.table .vmL1) st }
      = some ({ spaces := addressSpaceInit (L.table .vmL1) st, taskCount := 1 }, 0) := rfl
  obtain ⟨-, hrest, -, hspaces, -⟩ := addTask_spec S (some "idle") S.idleTask hclaim
  have hkernel : (bootOs L S st v).kernel.spaces = addressSpaceInit (L.table .vmL1) st := hspaces
  refine ⟨tableOk_boot S _, ?_, ?_, ?_, vfsInit_names v⟩
  · rw [hkernel]
    rfl
  · rw [hkernel]
    rfl
  · intro i j hused
    have hkeeps := (addTask_files S (some "idle") S.idleTask
      { spaces := addressSpaceInit (L.table .vmL1) st }).files i j hused
    cases hkeeps ▸ hused

namespace OsOk

variable {L : Layout} {S : Symbols} {o o' : OsState} (h : OsOk L o)

include h

/-- **What a call edits keeps the invariant.** -/
theorem edits (he : Edits o o') : OsOk L o' where
  table := h.table.congr he.table
  kind := (congrArg AddressSpace.kind he.kernelSpace).trans h.kind
  root := (congrArg AddressSpace.rootTable he.kernelSpace).trans h.root
  descriptors := he.files h.names h.descriptors
  names := he.names h.names

/-- **…and so does a step of the tasks.** -/
theorem kernel {k : Kernel} (op : KernelOp) (hstep : taskStep L S o.kernel op = some k) :
    OsOk L { o with kernel := k } := by
  have hkeeps := keepsFiles_task hstep
  have hspace := hkeeps.kernelSpace h.kind
  refine ⟨tableOk_task h.table hstep, (congrArg AddressSpace.kind hspace).trans h.kind,
    (congrArg AddressSpace.rootTable hspace).trans h.root, fun i j hused => ?_, h.names⟩
  have heq := hkeeps.files i j hused
  rw [heq] at hused ⊢
  exact h.descriptors i j hused

end OsOk

/-! ## Dispatch -/

/-- What a dispatch promises: the invariant, and where its result is negative nothing to see. -/
structure DispatchOk (L : Layout) (o : OsState) (r : OsState × SyscallEnd) : Prop where
  ok : OsOk L r.1
  keeps : ∀ result, r.2 = .returns result → result < 0 → DiskOk o.vfs.sfs → Kept o r.1

section Dispatch

variable {L : Layout} {S : Symbols} {o : OsState}

/-- A result alone. -/
theorem CallOutcome.same (o : OsState) (result : ℤ) : CallOutcome o (some (o, result)) := by
  by_cases hneg : result < 0
  · exact .failed hneg (Edits.refl o) fun _ _ => Kept.refl o
  · exact .done (fun _ => Int.not_lt.mp hneg) (Edits.refl o)

theorem DispatchOk.ended (h : OsOk L o) {r : SyscallReturn} (ho : CallOutcome o r) :
    DispatchOk L o (ended o r) := by
  cases ho with
  | aborted => exact ⟨h, nofun⟩
  | failed hneg he hk => exact ⟨h.edits he, fun _ _ _ hdisk => hk h.names hdisk⟩
  | @done o' result hpos he =>
    refine ⟨h.edits he, fun result' hr hneg _ => ?_⟩
    have heq : result = result' := SyscallEnd.returns.inj hr
    have := hpos h.names
    omega

/-- A switch has no result yet. -/
theorem DispatchOk.switched {o' : OsState} (h : OsOk L o') {r : Kernel × Switch} (op : KernelOp)
    (hstep : taskStep L S o'.kernel op = some r.1) (result : Option ℤ) :
    DispatchOk L o (switched o' r result) := ⟨h.kernel op hstep, nofun⟩

/-! ### The calls that schedule -/

theorem syscallSleep_ok (h : OsOk L o) (milliseconds : Word) :
    DispatchOk L o (syscallSleep o milliseconds) := by
  rw [syscallSleep]
  split
  · exact ⟨h, fun _ _ _ _ => Kept.refl o⟩
  · exact .switched (S := imageSymbols) h (.sleepMs milliseconds o.intervalMs) rfl _

/-- A wait that gives a status has reaped. -/
theorem waitTaskStatus_one {pid : ℤ} {hasStatus : Bool} {k k' : Kernel} {result : ℤ}
    {status : TaskWaitStatus} (h : schedulerWaitTaskStatus pid hasStatus k
    = (k', result, some status)) :
    result = 1 := by
  have hwait : ∀ p, waitOnTask p k = (k', result, some status) → result = 1 := by
    intro p hp
    rw [waitOnTask] at hp
    split_ifs at hp
    · cases hp
    · cases hp
    · exact (congrArg (fun r => r.2.1) hp).symm
  rw [schedulerWaitTaskStatus] at h
  split at h
  · cases h
  split at h
  · split at h
    · exact hwait _ h
    · cases h
  · exact hwait _ h

theorem syscallWait_ok (h : OsOk L o) (pid statusAddress options : Word) :
    DispatchOk L o (syscallWait L o pid statusAddress options) := by
  rw [syscallWait]
  split
  · exact ⟨h, fun _ _ _ _ => Kept.refl o⟩
  have hturn : ∀ o' result, waitTurn L o pid statusAddress = some (o', result) →
      OsOk L o' ∧ (result < 0 → Kept o o') := by
    intro o' result hturn
    rw [waitTurn] at hturn
    split at hturn
    · obtain ⟨rfl, rfl⟩ := Prod.mk.inj (Option.some.inj hturn)
      exact ⟨h, fun _ => Kept.refl o⟩
    · rename_i k' r status heq
      obtain ⟨o₁, hstore, heq'⟩ := Option.map_eq_some_iff.mp hturn
      obtain ⟨rfl, rfl⟩ := Prod.mk.inj heq'
      obtain ⟨k₁, hpages, rfl⟩ := Option.map_eq_some_iff.mp hstore
      have hone := waitTaskStatus_one heq
      refine ⟨?_, fun hneg => by omega⟩
      exact (h.edits ((Edits.refl o).stores hpages)).kernel (S := imageSymbols)
        (.waitTaskStatus (toInt32 pid) (statusAddress != 0)) rfl
  split
  · exact ⟨h, nofun⟩
  · rename_i o' result heq
    obtain ⟨hok, hkept⟩ := hturn o' result heq
    split
    · exact .switched (S := imageSymbols) hok .yield rfl _
    · refine ⟨hok, fun result' hr hneg _ => hkept ?_⟩
      have heq : result = result' := SyscallEnd.returns.inj hr
      omega

theorem syscallTerminate_ok (h : OsOk L o) (pid code : Word) :
    DispatchOk L o (ended o (some (syscallTerminate o pid code))) := by
  have hstep : taskStep L imageSymbols o.kernel (.terminateChild (toInt32 pid) code)
      = some (schedulerTerminateChild (toInt32 pid) code o.kernel).1 := rfl
  have hfails : (schedulerTerminateChild (toInt32 pid) code o.kernel).2 = false →
      (schedulerTerminateChild (toInt32 pid) code o.kernel).1 = o.kernel := by
    rw [schedulerTerminateChild]
    split
    · exact fun _ => rfl
    · intro hfalse
      cases hfalse
  rw [syscallTerminate]
  split
  · rename_i k heq
    rw [heq] at hstep
    refine ⟨h.kernel _ hstep, fun result hr hneg _ => ?_⟩
    cases hr
    cases hneg
  · rename_i k heq
    rw [heq] at hfails
    obtain rfl := hfails rfl
    exact .ended h (.same o _)

theorem syscallSpawn_ok (h : OsOk L o) (hcurrent : o.kernel.currentTask ≠ 0)
    (address length argumentAddress argumentLength : Word) :
    DispatchOk L o (ended o (syscallSpawn L S o address length argumentAddress
    argumentLength)) := by
  rw [syscallSpawn]
  split
  · exact .ended h (.fault o)
  rw [copyPath]
  split
  · exact .ended h .aborted
  · exact .ended h (.inval o)
  rename_i path _
  split
  · exact .ended h (.fault o)
  cases userLoadBytes L o.kernel argumentAddress argumentLength.toNat with
  | none => exact .ended h .aborted
  | some bytes =>
    have hloads := vfsFileData_loads o.vfs path
    rw [Option.map_some]
    dsimp only
    generalize vfsFileData o.vfs path = file at hloads ⊢
    obtain ⟨v, file⟩ := file
    set argument := if argumentLength = 0 then none else some (bytes.takeWhile (· ≠ 0))
    have hok := h.edits (Edits.loads o hloads)
    have hstep : taskStep L S o.kernel (.spawn file argument)
        = some (spawnChild L S file argument o.kernel).1 := rfl
    refine ⟨hok.kernel _ hstep, fun result hr hneg _ => ?_⟩
    have heq : (spawnChild L S file argument o.kernel).2 = result := SyscallEnd.returns.inj hr
    have hclean := spawnChild_fails L S h.table hcurrent h.root file argument (by omega)
    exact (Kept.loads o hloads).trans (Kept.failsClean { o with vfs := v } hclean)

/-- **Dispatch**, call by call. -/
theorem syscallDispatch_ok (h : OsOk L o) (hcurrent : o.kernel.currentTask ≠ 0)
    (number arg0 arg1 arg2 arg3 : Word) :
    DispatchOk L o (syscallDispatch L S o number arg0 arg1 arg2 arg3) := by
  rw [syscallDispatch]
  split
  · exact .ended h (syscallWrite_outcome arg0 arg1 arg2)
  · refine ⟨h.kernel (S := S) (.exitSyscall arg0) rfl, fun result hr hneg _ => ?_⟩
    cases hr
    cases hneg
  · exact .switched (S := S) h .yield rfl _
  · exact .ended h (syscallOpen_outcome arg0 arg1 false)
  · exact .ended h (syscallRead_outcome arg0 arg1 arg2)
  · exact .ended h (syscallClose_outcome arg0)
  · exact .ended h (syscallOpen_outcome arg0 arg1 true)
  · exact .ended h (syscallSeek_outcome arg0 arg1)
  · exact syscallWait_ok h arg0 arg1 arg2
  · exact syscallSpawn_ok h hcurrent arg0 arg1 arg2 arg3
  · exact syscallTerminate_ok h arg0 arg1
  · exact syscallSleep_ok h arg0
  · exact .ended h (.same o _)
  · exact .ended h (.same o _)
  · exact .ended h (.same o _)
  · exact .ended h (syscallSystemInfo_outcome arg0)
  · exact .ended h syscallRandom_outcome
  · exact .ended h (syscallProcessStatus_outcome arg0 arg1)
  · exact .ended h (syscallDirectoryList_outcome arg0 arg1)
  · exact .ended h (syscallMkdir_outcome arg0 arg1)
  · exact .ended h (syscallRemove_outcome arg0 arg1)
  · exact .ended h (syscallRename_outcome arg0 arg1 arg2 arg3)
  · exact .ended h (syscallPathStat_outcome arg0 arg1 arg2)
  · exact .ended h (syscallTruncate_outcome arg0 arg1 arg2)
  · exact .ended h (syscallDup_outcome arg0)
  · exact ⟨h, fun _ _ _ _ => Kept.refl o⟩

end Dispatch

/-! ## Runs -/

/-- **The invariant of a step.** -/
theorem osOk_step {L : Layout} {S : Symbols} {o o' : OsState} {e : OsEvent} (h : OsOk L o)
    (hstep : osStep L S o e = some o') : OsOk L o' := by
  cases e with
  | kernel op =>
    obtain ⟨k, hk, rfl⟩ := Option.map_eq_some_iff.mp hstep
    exact h.kernel op hk
  | fs op =>
    obtain ⟨v, hv, rfl⟩ := Option.map_eq_some_iff.mp hstep
    refine h.edits (Edits.vfs o fun hnames => ?_)
    cases op with
    | vfs op => exact hnames.step hv
    | sfs op =>
      obtain ⟨s, -, rfl⟩ := Option.map_eq_some_iff.mp hv
      exact hnames.frame rfl rfl rfl
  | format =>
    obtain rfl := Option.some.inj hstep
    exact h.edits (Edits.vfs o fun hnames => hnames.frame rfl rfl rfl)
  | program pages =>
    obtain rfl := Option.some.inj hstep
    exact h.edits (Edits.pages o pages)
  | machine totalPages freePages intervalMs =>
    obtain rfl := Option.some.inj hstep
    exact ⟨h.table, h.kind, h.root, h.descriptors, h.names⟩
  | syscall number arg0 arg1 arg2 arg3 =>
    obtain ⟨⟨hcurrent, -⟩, ho⟩ := Option.ite_none_right_eq_some.mp hstep
    obtain rfl := Option.some.inj ho
    exact (syscallDispatch_ok h hcurrent.1 number arg0 arg1 arg2 arg3).ok

/-- A syscall that failed, over the disk that is assumed, left everything there is to see. -/
def FailureQuiet (L : Layout) (S : Symbols) (o : OsState) (e : OsEvent) (o' : OsState) : Prop :=
  ∀ number arg0 arg1 arg2 arg3 result, e = .syscall number arg0 arg1 arg2 arg3 →
    (syscallDispatch L S o number arg0 arg1 arg2 arg3).2 = .returns result → result < 0 →
    DiskAssumed o.vfs.sfs → Kept o o'

/-- **Failing syscalls have no effect**, in any run from boot. -/
theorem failures_quiet (L : Layout) (S : Symbols) (st : SpaceStatics) (v : Vfs)
    (events : List OsEvent) :
    Along (osStep L S) (FailureQuiet L S) (bootOs L S st v) events := by
  refine Along.imp_of_inv (I := OsOk L) (C := fun _ _ _ => True) (fun o e o' h hstep _ => ?_)
    (osOk_boot L S st v) (Along.of_forall (fun _ _ _ _ => trivial) _ _)
  refine ⟨osOk_step h hstep, ?_⟩
  rintro number arg0 arg1 arg2 arg3 result rfl hresult hneg hdisk
  obtain ⟨⟨hcurrent, -⟩, ho⟩ := Option.ite_none_right_eq_some.mp hstep
  obtain rfl := Option.some.inj ho
  exact (syscallDispatch_ok h hcurrent.1 number arg0 arg1 arg2 arg3).keeps result hresult hneg
    hdisk.ok

end SaturnOS
