import SaturnOS.User.FilePrograms
import SaturnOS.Fs.Residue
import SaturnOS.Sched.Admission

/-!
# User/Launch — from boot to the exit of a program

    boot ──calls──▸ create ──calls──▸ its turn ──▸ EL0 ──▸ exit ──▸ zombie, with its exit code

A program is created in any state that is reached from boot, and waits while anything else is
called.  When its task gets its turn, it enters EL0, finds in memory what the creation put there,
and runs to its end; what it printed, wrote and returned is all there is to it.
-/

open Machinery A64

namespace SaturnOS

/-! ## Launching -/

/-- **A launch** of a file: its task is created, and is there until it is running. -/
structure Launch (L : Layout) (S : Symbols) (file : List Byte) (argument : Option (List Byte)) where
  st : SpaceStatics
  name : Option String
  before : List KernelOp
  made : Kernel
  created : Kernel
  pid : ℕ
  after : List KernelOp
  ready : Kernel
  boots : run (taskStep L S) (bootKernel S (addressSpaceInit (L.table .vmL1) st)) before
    = some made
  creates : schedulerCreateUserTaskFromImage L S name (some file) argument made
    = (created, (pid : ℤ))
  runs : run (taskStep L S) created after = some ready
  stays : Always (taskStep L S) (fun k => Used k pid) created after
  current : ready.currentTask = pid
  running : (ready.tasks pid).state = .running

/-- What holds of a kernel between its calls. -/
structure KernelOk (L : Layout) (k : Kernel) : Prop where
  table : TableOk k
  slots : SlotsOk k
  root : k.spaces.kernelAddressSpace.rootTable = L.table .vmL1

section Kernels

variable {L : Layout} {S : Symbols} {k k' : Kernel} {op : KernelOp}

theorem kernelOk_boot (L : Layout) (S : Symbols) (st : SpaceStatics) :
    KernelOk L (bootKernel S (addressSpaceInit (L.table .vmL1) st)) := by
  have hkeeps := addTask_files S (some "idle") S.idleTask
    { spaces := addressSpaceInit (L.table .vmL1) st }
  exact ⟨tableOk_boot S _, slotsOk_boot S _ st,
    congrArg AddressSpace.rootTable (hkeeps.kernelSpace rfl)⟩

theorem KernelOk.step (h : KernelOk L k) (hstep : taskStep L S k op = some k') :
    KernelOk L k' where
  table := tableOk_task h.table hstep
  slots := slotsOk_task h.table h.slots hstep
  root := by
    rw [(keepsFiles_task hstep).kernelSpace h.slots.kernelKind]
    exact h.root

/-- A task without open files gets none. -/
theorem keepsFiles_run {p : ℕ} {ops : List KernelOp}
    (hfiles : ∀ file, ((k.tasks p).files file).used = false)
    (hrun : Machinery.run (taskStep L S) k ops = some k') (file : Fin 4) :
    ((k'.tasks p).files file).used = false :=
  (Always.of_inv (I := fun k : Kernel => ∀ file, ((k.tasks p).files file).used = false)
    (fun k k₁ _ h hstep file => (Bool.eq_false_or_eq_true _).resolve_left fun hused => by
      have hsame := (keepsFiles_task hstep).files p file hused
      rw [hsame, h file] at hused
      cases hused) (fun _ h => h) hfiles ops).last hrun file

theorem KernelOk.run {ops : List KernelOp} (h : KernelOk L k)
    (hrun : Machinery.run (taskStep L S) k ops = some k') : KernelOk L k' :=
  (Always.of_inv (I := KernelOk L) (fun _ _ _ h hstep => h.step hstep) (fun _ h => h) h ops).last
    hrun

/-- What an admission that succeeds has checked. -/
theorem unblock_checked {p : ℕ} (h : (schedulerUnblockUserTask S p k).2 = 0) :
    userModePrepare k p = .ready ∧ (k.taskSpace p).map addressSpaceSwitchStub = some .ready := by
  simp only [schedulerUnblockUserTask, Int.toNat_natCast] at h
  split at h
  · cases h
  split at h
  · cases h
  split at h
  · cases h
  split at h
  · cases h
  rename_i hprepare hstub
  exact ⟨not_not.mp hprepare, not_not.mp hstub⟩

/-- What the entry checks, a task keeps. -/
theorem KeepsMemory.checked {p : ℕ} {s : Fin 4} (h : KeepsMemory p s k k')
    (hpointer : (k.tasks p).memory.addressSpace = .user) :
    k'.taskSpace p = k.taskSpace p ∧ userModePrepare k' p = userModePrepare k p := by
  have hspace : k'.taskSpace p = k.taskSpace p := by
    rw [Kernel.taskSpace, Kernel.taskSpace, h.launch.pointer, hpointer]
    exact congrArg some h.launch.space
  refine ⟨hspace, ?_⟩
  rw [userModePrepare, userModePrepare, userModeCanEnter, userModeCanEnter, hspace, h.launch.el0]

/-- **A task whose checks pass enters EL0** when it is running. -/
theorem runUserTask_enters {p : ℕ} (hlt : p < k.taskCount) (hrunning : (k.tasks p).state = .running)
    (hprepare : userModePrepare k p = .ready)
    (hstub : (k.taskSpace p).map addressSpaceSwitchStub = some .ready) :
    ∃ k', userModeRunTaskEnter S p k = (k', .ready)
      ∧ schedulerRunUserTaskEnter S p k = (k', none) := by
  obtain ⟨space, hspace, hswitch⟩ := Option.map_eq_some_iff.mp hstub
  have hstate : ¬ ((k.tasks p).state ≠ .eligible ∧ (k.tasks p).state ≠ .running) :=
    fun hno => hno.2 hrunning
  have henter : ∃ k', userModeRunTaskEnter S p k = (k', .ready) := by
    rw [userModeRunTaskEnter, if_neg (not_not.mpr hprepare), if_neg hstate, hspace]
    exact ⟨_, if_neg (not_not.mpr hswitch)⟩
  obtain ⟨k', henter⟩ := henter
  refine ⟨k', henter, ?_⟩
  rw [schedulerRunUserTaskEnter, if_neg (Nat.not_le.mpr hlt), if_neg hstate, henter]

end Kernels

/-- **What a program finds** at its entry: its code and data, its arguments, and its session. -/
structure AtStart (L : Layout) (S : Symbols) (o : OsState) (c : Core) (slot : Fin 4)
    (code : List (BitVec 32)) (program : List Instr) (data argument : List Byte) (p : ℕ) : Prop
    extends Entered L S o c slot code program where
  page : List.ofFn (o.kernel.spaces.userRegionPages slot dataRegion)
    = childPage (programImage code data) argument
  registers : EntryRegisters c (programImage code data) (argumentTokens argument)
  short : argument.length ≤ 128
  few : (argumentTokens argument).length ≤ 8
  current : o.kernel.currentTask < o.kernel.taskCount
  task : o.kernel.userSession.task = some p
  free : (freeFile o.kernel.current).isSome = true

namespace Launch

variable {L : Layout} {S : Symbols} {file : List Byte} {argument : Option (List Byte)}
  (h : Launch L S file argument)

theorem kernelOk_created : KernelOk L h.created := by
  have hmade := (kernelOk_boot L S h.st).run h.boots
  have hstep : taskStep L S h.made (.createUserTask h.name (some file) argument)
      = some h.created := by
    show some (schedulerCreateUserTaskFromImage L S h.name (some file) argument h.made).1 = _
    rw [h.creates]
  exact hmade.step hstep

/-- **The task is ready for EL0** when it is running. -/
theorem staged : ∃ image slot, userTaskImage (some file) argument = some image
    ∧ Staged L h.ready h.pid slot image (argument.getD [])
    ∧ (h.ready.tasks h.pid).userAddressSpace.kernelRootTable ≠ 0
    ∧ userModePrepare h.ready h.pid = .ready
    ∧ (h.ready.taskSpace h.pid).map addressSpaceSwitchStub = some .ready
    ∧ ∀ file, ((h.ready.tasks h.pid).files file).used = false := by
  have hmade := (kernelOk_boot L S h.st).run h.boots
  have hcreated := h.kernelOk_created
  obtain ⟨image, slot, himage, hstaged, hrooted, hroot, hfiles⟩ := createUserTask_staged h.creates
  have hkeeps := keepsMemory_run h.after hcreated.table hcreated.slots hrooted h.runs h.stays
  have hapart : RootApart L h.made := fun slot heq =>
    nomatch L.table_injective (hmade.root.symm.trans heq)
  have hadmitted := createUserTask_admitted L S hmade.table hapart h.name (some file) argument
    (by rw [h.creates]; exact Int.natCast_nonneg _)
  rw [h.creates] at hadmitted
  obtain ⟨hprepare, hstub⟩ := unblock_checked hadmitted
  obtain ⟨hspace, hsame⟩ := hkeeps.checked hstaged.pointer
  refine ⟨image, slot, himage, hstaged.kept hkeeps, ?_, hsame.trans hprepare,
    (congrArg _ hspace).trans hstub, keepsFiles_run hfiles h.runs⟩
  rw [hkeeps.launch.space, hroot, hmade.root]
  exact L.table_ne_zero _

/-- A program at the entry of its task, and its core. -/
structure Enters (o : OsState) (c : Core) : Prop where
  entered : schedulerRunUserTaskEnter S h.pid h.ready = (o.kernel, none)
  core : ∃ call, EntryCall (h.ready.tasks h.pid) call ∧ c = entryCore call

/-- **A launch enters EL0**: nothing that is called in between keeps the task from it. -/
theorem enters : ∃ k, schedulerRunUserTaskEnter S h.pid h.ready = (k, none) := by
  have hok := h.kernelOk_created.run h.runs
  obtain ⟨image, slot, -, -, -, hprepare, hstub, -⟩ := h.staged
  obtain ⟨k, -, henter⟩ := runUserTask_enters (S := S) (h.current ▸ hok.table.current_lt) h.running
    hprepare hstub
  exact ⟨k, henter⟩

theorem atStart {o : OsState} {c : Core} (he : h.Enters o c) {code : List (BitVec 32)}
    (program : List Instr) {data : List Byte}
    (hfile : file = saturnExecFile (programImage code data))
    (hok : ImageOk (programImage code data)) (hdecode : code.map decode = program.map some) :
    ∃ slot, AtStart L S o c slot code program data (argument.getD []) h.pid := by
  have hkernel := h.kernelOk_created.run h.runs
  obtain ⟨image, slot, himage, hstaged, hroot, hprepare, hstub, hfiles⟩ := h.staged
  obtain ⟨k, henter, hrun⟩ := runUserTask_enters (S := S) (h.current ▸ hkernel.table.current_lt)
    h.running hprepare hstub
  obtain rfl : k = o.kernel := (Prod.mk.inj (hrun.symm.trans he.entered)).1
  obtain ⟨call, hcall, rfl⟩ := he.core
  obtain ⟨hparse, hlong, hfew, -⟩ := userTaskImage_iff.mp himage
  obtain rfl : programImage code data = image := by
    rw [hfile, parse_file hok] at hparse
    exact Option.some.inj hparse
  obtain ⟨hentered, hpage, hregisters⟩ := hstaged.entered hdecode hroot henter hcall
  have hsame := runTaskEnter_sameTable (k := h.ready) S h.pid
  rw [henter] at hsame
  refine ⟨slot, hentered, hpage, hregisters, hlong, hfew, ?_, ?_, ?_⟩
  · exact (hkernel.table.congr hsame).current_lt
  · obtain ⟨status, hne, heq⟩ | ⟨space, -, -, -, -, -, -, heq⟩ := runTaskEnter_spec S h.pid h.ready
    · exact absurd (Prod.mk.inj (heq.symm.trans henter)).2 hne
    · rw [← (Prod.mk.inj (heq.symm.trans henter)).1, Kernel.modTask_userSession,
        Kernel.switchTtbr0_userSession, Kernel.modSession_userSession]
      all_goals rfl
  · have hcurrent : o.kernel.currentTask = h.pid := hsame.currentTask.trans h.current
    have hkeeps := (runTaskEnter_files h.ready S h.pid).files h.pid 0
    rw [henter] at hkeeps
    refine List.find?_isSome.mpr ⟨0, List.mem_finRange 0, ?_⟩
    rw [Kernel.current, hcurrent]
    cases hused : ((o.kernel.tasks h.pid).files 0).used with
    | false => rfl
    | true =>
      have hsame := hkeeps hused
      rw [hsame, hfiles 0] at hused
      cases hused

end Launch

/-! ## Exit -/

/-- **How a program ends**: it leaves, and behind `arm64_enter_el0_task` its task is a zombie with
its exit code, or one that failed. -/
structure EndsAs (L : Layout) (S : Symbols) (p : ℕ) (o : OsState) (c : Core) (o' : OsState)
    (success : Bool) (code : Word) : Prop where
  leaves : ∀ r, Leaves (el0Platform L S).turn (o, c) r ↔ r = .left o'
  zombie : ((schedulerRunUserTaskReturn p o'.kernel).1.tasks p).state = .zombie
  succeeded : ((schedulerRunUserTaskReturn p o'.kernel).1.tasks p).userStatus.programSucceeded
    = success
  exitCode : ((schedulerRunUserTaskReturn p o'.kernel).1.tasks p).userStatus.lastExitCode = code
  result : (schedulerRunUserTaskReturn p o'.kernel).2 = if success then 0 else -1

/-- A session that is closed, and how. -/
structure Closed (k : Kernel) (p : ℕ) (faulted : Bool) (code : Word) : Prop where
  completed : k.userSession.completed = true
  faulted : k.userSession.faulted = faulted
  code : (k.tasks p).userStatus.lastExitCode = code

section Closing

variable {S : Symbols} {k : Kernel} {p : ℕ}

/-- What a closed session makes of its task. -/
theorem modSessionTask_own {f : Task → Task} {root : Word}
    (htask : k.userSession.task = some p) :
    (k.arm64MmuSwitchTtbr0 root).modSessionTask f = (k.arm64MmuSwitchTtbr0 root).modTask p f := by
  have hsession : (k.arm64MmuSwitchTtbr0 root).userSession.task = some p := htask
  rw [Kernel.modSessionTask, hsession]

/-- The exit syscall closes an open session. -/
theorem exitSyscall_closed (hopen : OpenSession S k) (htask : k.userSession.task = some p)
    (code : Word) : Closed (userModeHandleExitSyscall code k).1 p false code := by
  have hguard : (!k.userSession.active || k.userSession.returnPc == 0) = false := by
    rw [hopen.active, hopen.returnPc, beq_false_of_ne (arm64El0TaskReturn_ne_zero S)]
    rfl
  simp only [userModeHandleExitSyscall]
  rw [hguard, if_neg (by decide), if_pos hopen.kernelRoot, modSessionTask_own htask]
  refine ⟨?_, ?_, ?_⟩
  · rw [Kernel.modSession_userSession]
  · rw [Kernel.modSession_userSession]
  · rw [Kernel.modSession]
    dsimp only
    rw [Kernel.modTask_self]

/-- **An exception closes it too**, its exit code as it was. -/
theorem exception_closed (hopen : OpenSession S k) (htask : k.userSession.task = some p) :
    ∃ k' wr, userModeHandleException arm64SpsrModeEl0t k = (k', some wr)
      ∧ Closed k' p true (k.tasks p).userStatus.lastExitCode := by
  have hreturn : k.userSession.returnPc ≠ 0 := by
    rw [hopen.returnPc]
    exact arm64El0TaskReturn_ne_zero S
  simp only [userModeHandleException]
  rw [hopen.active, if_neg (by decide), if_neg (not_or.mpr ⟨hopen.kernelRoot, hopen.userRoot⟩),
    if_neg hreturn, if_neg (by decide), modSessionTask_own htask]
  refine ⟨_, _, rfl, ?_, ?_, ?_⟩
  · rw [Kernel.modSession_userSession]
  · rw [Kernel.modSession_userSession]
  · rw [Kernel.modSession]
    dsimp only
    rw [Kernel.modTask_self]
    rfl

/-- **Behind a closed session** the task is a zombie. -/
theorem Closed.ends {faulted : Bool} {code : Word} (h : Closed k p faulted code) :
    ((schedulerRunUserTaskReturn p k).1.tasks p).state = .zombie
      ∧ ((schedulerRunUserTaskReturn p k).1.tasks p).userStatus.programSucceeded = !faulted
      ∧ ((schedulerRunUserTaskReturn p k).1.tasks p).userStatus.lastExitCode = code
      ∧ (schedulerRunUserTaskReturn p k).2 = if !faulted then 0 else -1 := by
  obtain ⟨hcompleted, hfaulted, hcode⟩ := h
  set k₁ := k.modTask p fun t =>
    { t with userStatus := { t.userStatus with recoveries := t.userStatus.recoveries + 1 } }
    with hk₁
  have hsame : k₁.userSession = k.userSession := k.modTask_userSession rfl
  have hstill : (k₁.modSession fun s => { s with task := none }).userSession.faulted = faulted := by
    rw [Kernel.modSession_userSession, hsame]
    exact hfaulted
  have hreturned : userModeRunTaskReturn p k
      = (k₁.modSession fun s => { s with task := none },
        if faulted then .taskFailed else .ready) := by
    rw [userModeRunTaskReturn, if_pos hcompleted]
    dsimp only
    rw [← hk₁, hstill]
  have hcode₁ : ((k₁.modSession fun s => { s with task := none }).tasks p).userStatus.lastExitCode
      = code := by
    show (k₁.tasks p).userStatus.lastExitCode = code
    rw [hk₁, Kernel.modTask_self]
    exact hcode
  rw [schedulerRunUserTaskReturn, hreturned]
  dsimp only
  cases faulted with
  | false =>
    rw [finishUserTask, if_neg (by decide), Kernel.modTask_self]
    exact ⟨rfl, rfl, hcode₁, rfl⟩
  | true =>
    rw [finishUserTask, if_pos (by decide), Kernel.modTask_self]
    exact ⟨rfl, rfl, hcode₁, rfl⟩

end Closing

/-! ## A first launch -/

/-- The calls that bring the first task of a boot to its turn. -/
def firstCalls : List KernelOp := [.unblockUserTask 1, .startThreads, .preempt]

section First

variable (file : List Byte) (argument : Option (List Byte))

def firstCreated : Kernel :=
  (schedulerCreateUserTaskFromImage bssLayout imageSymbols none (some file) argument bssKernel).1

def firstReady : Kernel :=
  (run (taskStep bssLayout imageSymbols) (firstCreated file argument) firstCalls).getD {}

/-- The file can be launched first. -/
structure LaunchesFirst : Prop where
  pid : (schedulerCreateUserTaskFromImage bssLayout imageSymbols none (some file) argument
    bssKernel).2 = 1
  runs : (run (taskStep bssLayout imageSymbols) (firstCreated file argument) firstCalls).isSome
    = true
  stays : Used (firstCreated file argument) 1 ∧ Along (taskStep bssLayout imageSymbols)
    (fun _ _ k => Used k 1) (firstCreated file argument) firstCalls
  current : (firstReady file argument).currentTask = 1
  running : ((firstReady file argument).tasks 1).state = .running

/-- The core of the first task, and the system it enters EL0 in. -/
def firstCore : Core :=
  let t := (firstReady file argument).tasks 1
  entryCore { x := fun i =>
    if i = 0 then t.el0.pc else if i = 3 then t.userArgc else if i = 4 then t.userArgvAddress
    else if i = 5 then t.userArgLengthsAddress else 0 }

def firstOs (v : Vfs) : OsState :=
  { kernel := (schedulerRunUserTaskEnter imageSymbols 1 (firstReady file argument)).1, vfs := v }

variable {file argument}

def firstLaunch (h : LaunchesFirst file argument) :
    Launch bssLayout imageSymbols file argument where
  st := {}
  name := none
  before := []
  made := bssKernel
  created := firstCreated file argument
  pid := 1
  after := firstCalls
  ready := firstReady file argument
  boots := rfl
  creates := Prod.ext rfl h.pid
  runs := by
    obtain ⟨k, hk⟩ := Option.isSome_iff_exists.mp h.runs
    rw [firstReady, hk]
    rfl
  stays := h.stays
  current := h.current
  running := h.running

theorem firstLaunch_enters (h : LaunchesFirst file argument) (v : Vfs) :
    (firstLaunch h).Enters (firstOs file argument v) (firstCore file argument) := by
  obtain ⟨k, henter⟩ := (firstLaunch h).enters
  have hsnd := congrArg Prod.snd henter
  exact ⟨Prod.ext rfl hsnd, _, ⟨rfl, rfl, rfl, rfl⟩, rfl⟩

end First

/-! ## The programs -/

/-- What a launched program prints of a file, which no run changes. -/
structure Prints (o o' : OsState) (path : CStr) (part : List Byte → List Byte) : Prop where
  files : ∀ q, o'.vfs.contents q = o.vfs.contents q
  printed : ∃ bytes, o'.console = o.console ++ bytes ∧
    (bytes = [] ∨ ∃ c, o.vfs.contents path = some c ∧ bytes <:+: c)
  whole : Formatted o.vfs.sfs →
    o'.console = o.console ++ ((o.vfs.contents path).map part).getD []

section Programs

variable {L : Layout} {S : Symbols} {file : List Byte} {argument : Option (List Byte)} {o : OsState}
  {c : Core} {slot : Fin 4} {code : List (BitVec 32)} {program : List Instr}
  {data text : List Byte} {p : ℕ}

theorem AtStart.holds (h : AtStart L S o c slot code program data text p) :
    HoldsAt (o.kernel.spaces.userRegionPages slot dataRegion) 0 data :=
  (childPage_holds h.page h.few).1

/-- A run of a program that keeps its session, to its exit. -/
theorem AtStart.ends (h : AtStart L S o c slot code program data text p) {o' : OsState}
    {status : Word} (hsession : o'.kernel.userSession = o.kernel.userSession)
    (hleaves : ∀ r, Leaves (el0Platform L S).turn (o, c) r ↔ r = .left (exitState o' status)) :
    EndsAs L S p o c (exitState o' status) true status := by
  obtain ⟨hzombie, hsucceeded, hcode, hresult⟩ := (exitSyscall_closed (h.session.congr hsession)
    ((congrArg UserSession.task hsession).trans h.task) status).ends
  exact ⟨hleaves, hzombie, hsucceeded, hcode, hresult⟩

/-- A run of a program to its fault. -/
theorem AtStart.faults (h : AtStart L S o c slot code program data text p) {imm : BitVec 16}
    {l : List Instr} (hat : program = .brk imm :: l) : ∃ o',
    EndsAs L S p o c o' false (o.kernel.tasks p).userStatus.lastExitCode
      ∧ o'.console = o.console ∧ o'.vfs = o.vfs := by
  obtain ⟨k', wr, heq, hclosed⟩ := exception_closed h.session h.task
  have hlist := h.toRunning.listing (S := S) 0
  rw [← h.pc, hat] at hlist
  have hleaves : ∀ r, Leaves (el0Platform L S).turn (o, c) r
      ↔ r = .left { o with kernel := k' } := fun r => leaves_brk hlist (by
    show serveFault o = _
    rw [serveFault, heq])
  obtain ⟨hzombie, hsucceeded, hcode, hresult⟩ := hclosed.ends
  exact ⟨{ o with kernel := k' }, ⟨hleaves, hzombie, hsucceeded, hcode, hresult⟩, rfl, rfl⟩

/-- A descriptor is free at the entry of a program. -/
theorem AtStart.prints (h : AtStart L S o c slot code program data text p) {o' : OsState}
    {path : CStr} {part : List Byte → List Byte} {status : Word}
    (hreads : ReadsOut o o' path part) : Prints o (exitState o' status) path part where
  files := hreads.files
  printed := hreads.printed
  whole hformatted := by
    cases hc : o.vfs.contents path with
    | some bytes => exact hreads.whole hformatted h.free bytes hc
    | none =>
      obtain ⟨bytes, hconsole, rfl | ⟨c, hc', -⟩⟩ := hreads.printed
      · exact hconsole
      · cases hc.symm.trans hc'

/-- The programs are images that are accepted. -/
theorem userProgram_ok (n : ℕ) (hn : n < userPrograms.length) : ImageOk userPrograms[n].2 :=
  userPrograms_ok _ (List.getElem_mem hn)

/-- **user-demo, from boot.** -/
theorem user_demo_launched (h : Launch L S (saturnExecFile userDemoImage) argument)
    (he : h.Enters o c) : ∃ o', EndsAs L S h.pid o c o' true 7
      ∧ o'.console = o.console ++ userDemoMessage.chars ∧ o'.vfs = o.vfs := by
  obtain ⟨slot, hstart⟩ := h.atStart he userDemoProgram rfl
    (userProgram_ok 0 (by decide)) (by decide)
  exact ⟨exitState (o.print userDemoMessage.chars) 7,
    hstart.ends rfl (user_demo_run hstart.toEntered hstart.holds), rfl, rfl⟩

/-- **user-args, from boot**: whatever else is created, run and reaped before its turn, the program
prints the first two arguments it was created with. -/
theorem user_args_launched (h : Launch L S (saturnExecFile userArgsImage) argument)
    (he : h.Enters o c) : ∃ o', EndsAs L S h.pid o c o' true 0
      ∧ o'.console = o.console ++ userArgsOutput (argumentTokens (argument.getD []))
      ∧ o'.vfs = o.vfs := by
  obtain ⟨slot, hstart⟩ := h.atStart he userArgsProgram rfl
    (userProgram_ok 5 (by decide)) (by decide)
  exact ⟨exitState (o.print (userArgsOutput (argumentTokens (argument.getD [])))) 0,
    hstart.ends rfl (user_args_run hstart.toEntered hstart.page hstart.short hstart.few
      hstart.registers), rfl, rfl⟩

/-- …as the first task of a boot, with two arguments. -/
theorem user_args_first : ∃ o', EndsAs bssLayout imageSymbols 1
      (firstOs (saturnExecFile userArgsImage) (some (ascii "a b")) freshVfs)
      (firstCore (saturnExecFile userArgsImage) (some (ascii "a b"))) o' true 0
    ∧ o'.console = ascii "a b" ∧ o'.vfs = freshVfs := by
  have hfirst : LaunchesFirst (saturnExecFile userArgsImage) (some (ascii "a b")) :=
    ⟨by decide +kernel, by decide +kernel, by decide +kernel, by decide +kernel, by decide +kernel⟩
  exact user_args_launched (firstLaunch hfirst) (firstLaunch_enters hfirst freshVfs)

/-- **user-file, from boot.** -/
theorem user_file_launched (h : Launch L S (saturnExecFile userFileImage) argument)
    (he : h.Enters o c) : ∃ o', EndsAs L S h.pid o c o' true 0
      ∧ Prints o o' userFilePath fun c => c.take 24 := by
  obtain ⟨slot, hstart⟩ := h.atStart he userFileProgram rfl
    (userProgram_ok 2 (by decide)) (by decide)
  obtain ⟨o', hleaves, hsession, hreads⟩ := user_file_run hstart.toEntered hstart.current
    (hstart.holds.part (n := 0) (m := userFilePath.length))
  exact ⟨exitState o' 0, hstart.ends hsession hleaves, hstart.prints hreads⟩

/-- **user-file-seek, from boot**: it prints what stands in the file at its turn. -/
theorem user_file_seek_launched (h : Launch L S (saturnExecFile userFileSeekImage) argument)
    (he : h.Enters o c) : ∃ o', EndsAs L S h.pid o c o' true 0
      ∧ Prints o o' userFilePath fun c => (c.drop (if 6 ≤ c.length then 6 else 0)).take 18 := by
  obtain ⟨slot, hstart⟩ := h.atStart he userFileSeekProgram rfl
    (userProgram_ok 4 (by decide)) (by decide)
  obtain ⟨o', hleaves, hsession, hreads⟩ := user_file_seek_run hstart.toEntered hstart.current
    (hstart.holds.part (n := 0) (m := userFilePath.length))
  exact ⟨exitState o' 0, hstart.ends hsession hleaves, hstart.prints hreads⟩

/-- What the file of the programs holds. -/
def syscallText : List Byte := ascii "kept on the SaturnFS disk"

/-- A file system with that file, on a fresh disk. -/
def syscallVfs : Vfs :=
  (vfsCreate (vfsInit freshVfs) userFilePath (some fun i => syscallText.getD i 0)
    syscallText.length).1

theorem freshVfs_formatted : Formatted (vfsInit freshVfs).sfs :=
  formatted_format (s := blankDevice) (fun _ => rfl) (by decide)

theorem syscallVfs_holds : Formatted syscallVfs.sfs
    ∧ syscallVfs.contents userFilePath = some syscallText := by
  have hstep : fsStep (vfsInit freshVfs) (.vfs (.create userFilePath
    (some fun i => syscallText.getD i 0) syscallText.length)) = some syscallVfs := rfl
  refine ⟨freshVfs_formatted.fsStep hstep, ?_⟩
  decide +kernel

/-- …which is eighteen bytes of the text there. -/
theorem user_file_seek_first : ∃ o', EndsAs bssLayout imageSymbols 1
      (firstOs (saturnExecFile userFileSeekImage) none syscallVfs)
      (firstCore (saturnExecFile userFileSeekImage) none) o' true 0
    ∧ o'.console = ascii "n the SaturnFS dis"
    ∧ ∀ q, o'.vfs.contents q = syscallVfs.contents q := by
  have hfirst : LaunchesFirst (saturnExecFile userFileSeekImage) none :=
    ⟨by decide +kernel, by decide +kernel, by decide +kernel, by decide +kernel, by decide +kernel⟩
  obtain ⟨o', hends, hprints⟩ :=
    user_file_seek_launched (firstLaunch hfirst) (firstLaunch_enters hfirst syscallVfs)
  obtain ⟨hformatted, hcontents⟩ := syscallVfs_holds
  refine ⟨o', hends, ?_, hprints.files⟩
  have hwhole := hprints.whole hformatted
  rw [show (firstOs _ _ syscallVfs).vfs = syscallVfs from rfl, hcontents] at hwhole
  exact hwhole

/-- **user-file-write, from boot**: it writes its file, or nothing where the file cannot be made. -/
theorem user_file_write_launched (h : Launch L S (saturnExecFile userFileWriteImage) argument)
    (he : h.Enters o c) : ∃ o', EndsAs L S h.pid o c o' true 0 ∧ o'.console = o.console
      ∧ (NamesOk o.vfs → DiskOk o.vfs.sfs → ∀ q, o'.vfs.contents q
        = if q = userFileWritePath ∧ (openMade o.vfs userFileWritePath true).2 = true then
          some userFileWriteMessage.chars else o.vfs.contents q) := by
  obtain ⟨slot, hstart⟩ := h.atStart he userFileWriteProgram rfl
    (userProgram_ok 3 (by decide)) (by decide)
  obtain ⟨o', hleaves, hsession, hconsole, hwrites⟩ := user_file_write_run hstart.toEntered
    hstart.current (hstart.holds.part (n := 0) (m := userFileWritePath.length))
    (hstart.holds.part (n := 64) (m := userFileWriteMessage.length))
  refine ⟨exitState o' 0, hstart.ends hsession hleaves, hconsole, fun hnames hdisk q => ?_⟩
  obtain ⟨hothers, hstored, hrefused⟩ := hwrites hnames hdisk
  show o'.vfs.contents q = _
  by_cases hq : q = userFileWritePath
  · subst hq
    cases hmade : (openMade o.vfs userFileWritePath true).2 with
    | true => exact (hstored hstart.free hmade).trans (if_pos ⟨rfl, rfl⟩).symm
    | false =>
      rw [hrefused fun _ => hmade, if_neg fun hno => Bool.false_ne_true hno.2]
  · rw [hothers q hq, if_neg fun hno => hq hno.1]

/-- …on a fresh disk, where it can. -/
theorem user_file_write_first : ∃ o', EndsAs bssLayout imageSymbols 1
      (firstOs (saturnExecFile userFileWriteImage) none (vfsInit freshVfs))
      (firstCore (saturnExecFile userFileWriteImage) none) o' true 0
    ∧ o'.console = [] ∧ o'.vfs.contents userFileWritePath = some userFileWriteMessage.chars
    ∧ ∀ q, q ≠ userFileWritePath → o'.vfs.contents q = (vfsInit freshVfs).contents q := by
  have hfirst : LaunchesFirst (saturnExecFile userFileWriteImage) none :=
    ⟨by decide +kernel, by decide +kernel, by decide +kernel, by decide +kernel, by decide +kernel⟩
  obtain ⟨o', hends, hconsole, hwrites⟩ :=
    user_file_write_launched (firstLaunch hfirst) (firstLaunch_enters hfirst (vfsInit freshVfs))
  have hmade : (openMade (vfsInit freshVfs) userFileWritePath true).2 = true := by decide +kernel
  have hholds := hwrites (vfsInit_names freshVfs)
    ⟨freshVfs_formatted.serving, fun _ => freshVfs_formatted⟩
  refine ⟨o', hends, hconsole, ?_, fun q hq => ?_⟩
  · rw [hholds, if_pos ⟨rfl, hmade⟩]
  · rw [hholds, if_neg fun hboth => hq hboth.1]
    rfl

/-- **user-fault, from boot**: its task fails, and that is all. -/
theorem user_fault_launched (h : Launch L S (saturnExecFile userFaultImage) argument)
    (he : h.Enters o c) : ∃ o', EndsAs L S h.pid o c o' false
        (o.kernel.tasks h.pid).userStatus.lastExitCode
      ∧ o'.console = o.console ∧ o'.vfs = o.vfs := by
  obtain ⟨slot, hstart⟩ := h.atStart he [.brk 0] rfl (userProgram_ok 1 (by decide))
    (by decide)
  exact hstart.faults rfl

end Programs

end SaturnOS
