import SaturnOS.Fs.Listing
import SaturnOS.Sched.System
import SaturnOS.User.Access

/-!
# User/Syscalls — what a program asks of the kernel

    SVC ──▸ syscall_dispatch(number, arg0 … arg3) ──▸ result, or a switch to another task

`kernel/syscall/syscall.c`, all twenty-five calls.  A call is a function of the state at its last
step: a waiting call that finds nothing gives the CPU away and is made again.  The statistics, which
nothing reads but the shell, are left out; what a switch does to the registers is in `User/Sites`.
-/

open Machinery

namespace SaturnOS

/-- Everything a syscall can read or write. -/
structure OsState where
  kernel : Kernel
  vfs : Vfs
  randomState : Word := 0x6d2b79f5
  /-- What was put out on the console. -/
  console : List Byte := []
  totalPages : Word := 0
  freePages : Word := 0
  intervalMs : Word := 10

def syscallErrInval : ℤ := -1
def syscallErrFault : ℤ := -2
def syscallWriteMax : ℕ := 128
def syscallReadMax : ℕ := 128
def syscallSleepMaxMs : ℕ := 60000
def syscallWaitNohang : Word := 1
def taskFilePathSize : ℕ := 48

/-- What a call returns; `none` is a data abort on the caller's memory. -/
abbrev SyscallReturn := Option (OsState × ℤ)

/-! ## The caller -/

def syscallAddressSpace (k : Kernel) : Option AddressSpace :=
  match userModeActiveAddressSpace k with
  | some space => some space
  | none => (k.taskSpace k.currentTask).filter fun space => space.kind == .user

/-- `scheduler_current_task_mutable`. -/
def currentTaskMutable (k : Kernel) : Option Task :=
  if k.currentTask < k.taskCount then some k.current else none

/-- `(int)` of an `unsigned long`. -/
def toInt32 (w : Word) : ℤ := (w.setWidth 32).toInt

namespace OsState

variable (o : OsState)

/-- The caller's range, for the kernel to read. -/
def readable (address size : Word) : Bool :=
  addressSpaceUserRangeValid (syscallAddressSpace o.kernel) address size

/-- …and to write. -/
def writable (address size : Word) : Bool :=
  addressSpaceUserWritableRangeValid (syscallAddressSpace o.kernel) address size

def inval : OsState × ℤ := (o, syscallErrInval)
def fault : OsState × ℤ := (o, syscallErrFault)

/-- Rewrite a file of the caller. -/
def modFile (slot : Fin 4) (f : TaskFile → TaskFile) : OsState :=
  { o with kernel := o.kernel.modTask o.kernel.currentTask fun t =>
      { t with files := Function.update t.files slot (f (t.files slot)) } }

def file (slot : Fin 4) : TaskFile := o.kernel.current.files slot

/-- Words stored in the caller's memory. -/
def storeWords (L : Layout) (address : Word) (words : List Word) : Option OsState :=
  (userStoreBytes L address (words.flatMap wordBytes) o.kernel).map fun k => { o with kernel := k }

end OsState

/-! ## Files -/

/-- The string in the bytes of a path. -/
def TaskFile.name (file : TaskFile) : CStr :=
  ⟨stringAt (fun i => if h : i < 48 then file.path ⟨i, h⟩ else 0) 0 taskFilePathSize,
    zero_notMem_stringAt _ _ _⟩

/-- Bytes put at the start of a path. -/
def putPath (path : Fin 48 → Byte) (bytes : List Byte) : Fin 48 → Byte :=
  fun i => bytes.getD i (path i)

/-- `path[0] = '\0'`. -/
def clearPath (file : TaskFile) : TaskFile := { file with path := putPath file.path [0] }

/-- The slot of a descriptor. -/
def fdSlot (fd : Word) : Option (Fin 4) :=
  if h : 3 ≤ fd.toNat ∧ fd.toNat < 3 + 4 then some ⟨fd.toNat - 3, by omega⟩ else none

/-- The first unused slot. -/
def freeFile (t : Task) : Option (Fin 4) := (List.finRange 4).find? fun i => !(t.files i).used

/-- The slot of a descriptor in use. -/
def usedFile (k : Kernel) (fd : Word) : Option (Fin 4) :=
  match currentTaskMutable k, fdSlot fd with
  | some t, some slot => if (t.files slot).used then some slot else none
  | _, _ => none

section Calls

variable (L : Layout) (S : Symbols) (o : OsState)

/-- The end of `syscall_open`, over the path in the slot. -/
def openFile (slot : Fin 4) (create : Bool) : OsState × ℤ :=
  let path := (o.file slot).name
  let made :=
    if create then
      match vfsCreate o.vfs path none 0 with
      | (v, true) => (v, true)
      | (v, false) => vfsTruncate v path 0
    else (o.vfs, true)
  if !made.2 then (({ o with vfs := made.1 }.modFile slot clearPath), syscallErrInval)
  else
    match vfsFileData made.1 path with
    | (v, none) => (({ o with vfs := v }.modFile slot clearPath), syscallErrInval)
    | (v, some _) =>
      (({ o with vfs := v }.modFile slot fun f => { f with used := true, offset := 0 }), 3 + slot)

/-- `syscall_open`: the path is copied into the slot before it is looked at. -/
def syscallOpen (address length : Word) (create : Bool) : SyscallReturn :=
  match currentTaskMutable o.kernel with
  | none => some o.fault
  | some t =>
    if (syscallAddressSpace o.kernel).isNone || length == 0
        || decide (taskFilePathSize ≤ length.toNat) || !o.readable address length then some o.fault
    else
      match freeFile t with
      | none => some o.inval
      | some slot =>
        match copyString L o.kernel address length.toNat with
        | none => none
        | some (copied, false) =>
          some (o.modFile slot fun f => { f with path := putPath f.path copied.chars }).inval
        | some (path, true) =>
          some (openFile
            (o.modFile slot fun f => { f with path := putPath f.path (path.chars ++ [0]) })
            slot create)

/-- `syscall_write`.  The bytes are read once the checks of `vfs_write` have passed. -/
def syscallWrite (fd buffer length : Word) : SyscallReturn :=
  if length = 0 then some (o, 0)
  else if syscallWriteMax < length.toNat then some o.inval
  else if !o.readable buffer length then some o.fault
  else if fd = 1 ∨ fd = 2 then
    (userLoadBytes L o.kernel buffer length.toNat).map fun bytes =>
      ({ o with console := o.console ++ bytes }, (length.toNat : ℤ))
  else
    match usedFile o.kernel fd with
    | none => some o.inval
    | some slot =>
      match vfsWrite o.vfs (o.file slot).name (o.file slot).offset.toNat
          (some fun i => (userLoad L o.kernel (buffer + BitVec.ofNat 64 i)).getD 0)
          length.toNat with
      | (v, none) => some { o with vfs := v }.inval
      | (v, some written) =>
        (userLoadBytes L o.kernel buffer length.toNat).map fun _ =>
          ({ o with vfs := v }.modFile slot fun f =>
            { f with offset := f.offset + BitVec.ofNat 64 written }, (written : ℤ))

def syscallRead (fd buffer length : Word) : SyscallReturn :=
  if (currentTaskMutable o.kernel).isNone || (fdSlot fd).isNone
      || decide (syscallReadMax < length.toNat) then some o.inval
  else if length = 0 then some (o, 0)
  else if !o.writable buffer length then some o.fault
  else
    match usedFile o.kernel fd with
    | none => some o.inval
    | some slot =>
      match vfsRead o.vfs (o.file slot).name (o.file slot).offset.toNat true length.toNat with
      | (v, none) => some { o with vfs := v }.inval
      | (v, some bytes) =>
        (userStoreBytes L buffer bytes o.kernel).map fun k =>
          ({ o with kernel := k, vfs := v }.modFile slot fun f =>
            { f with offset := f.offset + BitVec.ofNat 64 bytes.length }, (bytes.length : ℤ))

def syscallClose (fd : Word) : OsState × ℤ :=
  match usedFile o.kernel fd with
  | none => o.inval
  | some slot => (o.modFile slot fun f => { clearPath f with used := false, offset := 0 }, 0)

def syscallSeek (fd offset : Word) : OsState × ℤ :=
  match usedFile o.kernel fd with
  | none => o.inval
  | some slot =>
    match vfsFileData o.vfs (o.file slot).name with
    | (v, none) => { o with vfs := v }.inval
    | (v, some bytes) =>
      if bytes.length < offset.toNat then { o with vfs := v }.inval
      else ({ o with vfs := v }.modFile slot fun f => { f with offset := offset }, offset.toInt)

def syscallDup (fd : Word) : OsState × ℤ :=
  match currentTaskMutable o.kernel, usedFile o.kernel fd with
  | some t, some source =>
    match freeFile t with
    | none => o.inval
    | some target => (o.modFile target fun _ => t.files source, 3 + target)
  | _, _ => o.inval

/-! ## Paths -/

/-- The copying loop over a path: a NUL inside is refused. -/
def copyPath (address length : Word) (use : CStr → SyscallReturn) : SyscallReturn :=
  match copyString L o.kernel address length.toNat with
  | none => none
  | some (_, false) => some o.inval
  | some (path, true) => use path

/-- A length no path has. -/
def badLength (length : Word) : Bool := length == 0 || decide (vfsMaxPath ≤ length.toNat)

/-- What a call of the VFS leaves. -/
def vfsResult (r : Vfs × Bool) : OsState × ℤ :=
  ({ o with vfs := r.1 }, if r.2 then 0 else syscallErrInval)

/-- The calls with one path. -/
def pathCall (address length : Word) (call : CStr → Vfs × Bool) : SyscallReturn :=
  if badLength length then some o.inval
  else if !o.readable address length then some o.fault
  else copyPath L o address length fun path => some (vfsResult o (call path))

def syscallMkdir (address length : Word) : SyscallReturn :=
  pathCall L o address length (vfsMkdir o.vfs)

def syscallRemove (address length : Word) : SyscallReturn :=
  pathCall L o address length (vfsRemove o.vfs)

def syscallTruncate (address length size : Word) : SyscallReturn :=
  if badLength length || decide (vfsMaxFileSize < size.toNat) then some o.inval
  else pathCall L o address length fun path => vfsTruncate o.vfs path size.toNat

def syscallRename (oldAddress oldLength newAddress newLength : Word) : SyscallReturn :=
  if badLength oldLength || badLength newLength then some o.inval
  else if !o.readable oldAddress oldLength || !o.readable newAddress newLength then some o.fault
  else
    copyPath L o oldAddress oldLength fun old =>
      copyPath L o newAddress newLength fun new => some (vfsResult o (vfsRename o.vfs old new))

/-- `VFS_ENTRY_FILE` and `VFS_ENTRY_DIRECTORY`. -/
def NodeKind.entryKind : NodeKind → Word
  | .file => 1
  | .directory => 2

/-- The bytes of `struct syscall_directory_entry`. -/
def entryBytes (e : VfsEntry) : List Byte :=
  e.path ++ wordBytes (BitVec.ofNat 64 e.size) ++ wordBytes e.kind.entryKind

def syscallPathStat (address length output : Word) : SyscallReturn :=
  if badLength length then some o.inval
  else if !o.readable address length || !o.writable output 64 then some o.fault
  else
    copyPath L o address length fun path =>
      match vfsStat o.vfs path with
      | (v, none) => some { o with vfs := v }.inval
      | (v, some e) =>
        (userStoreBytes L output (entryBytes e) o.kernel).map fun k =>
          ({ o with kernel := k, vfs := v }, 0)

def syscallDirectoryList (index output : Word) : SyscallReturn :=
  if !o.writable output 64 then some o.fault
  else
    match vfsList o.vfs index.toNat with
    | none => some (o, 0)
    | some e =>
      (userStoreBytes L output (entryBytes e) o.kernel).map fun k => ({ o with kernel := k }, 1)

/-! ## Tasks -/

/-- One turn of the loop of `syscall_wait`; a status is stored before the child is cleared. -/
def waitTurn (pid statusAddress : Word) : SyscallReturn :=
  match schedulerWaitTaskStatus (toInt32 pid) (statusAddress != 0) o.kernel with
  | (_, result, none) => some (o, result)
  | (_, result, some status) =>
    (o.storeWords L statusAddress [status.pid, status.exitCode, status.succeeded]).map fun o =>
      ({ o with kernel := (schedulerWaitTaskStatus (toInt32 pid) (statusAddress != 0) o.kernel).1 },
        result)

/-- `syscall_wait` as far as its loop. -/
def waitRefused (statusAddress options : Word) : Option ℤ :=
  if options &&& ~~~syscallWaitNohang ≠ 0 then some syscallErrInval
  else if !o.writable statusAddress 24 then some syscallErrFault
  else none

def syscallSpawn (address length argumentAddress argumentLength : Word) : SyscallReturn :=
  if (syscallAddressSpace o.kernel).isNone || length == 0
      || decide (taskFilePathSize ≤ length.toNat) || !o.readable address length then some o.fault
  else
    copyPath L o address length fun path =>
      if decide (taskUserArgumentMax < argumentLength.toNat)
          || (argumentLength != 0 && !o.readable argumentAddress argumentLength) then some o.fault
      else
        (userLoadBytes L o.kernel argumentAddress argumentLength.toNat).map fun bytes =>
          let argument := if argumentLength = 0 then none else some (bytes.takeWhile (· ≠ 0))
          match vfsFileData o.vfs path with
          | (v, file) =>
            match spawnChild L S file argument o.kernel with
            | (k, pid) => ({ o with kernel := k, vfs := v }, pid)

def syscallTerminate (pid code : Word) : OsState × ℤ :=
  match schedulerTerminateChild (toInt32 pid) code o.kernel with
  | (k, true) => ({ o with kernel := k }, 0)
  | (k, false) => ({ o with kernel := k }, syscallErrInval)

/-- `enum task_state`. -/
def TaskState.value : TaskState → Word
  | .unused => 0
  | .ready => 1
  | .running => 2
  | .blocked => 3
  | .sleeping => 4
  | .eligible => 5
  | .zombie => 6

/-- `scheduler_task_by_pid`, as the index of the task. -/
def schedulerTaskByPid (k : Kernel) (pid : ℤ) : Option ℕ :=
  if !pidInTable k pid || (k.tasks pid.toNat).state == .unused then none else some pid.toNat

/-- The words of `struct syscall_process_status`. -/
def processStatusWords (t : Task) : List Word :=
  [BitVec.ofInt 64 t.pid, if 0 < t.parentPid then BitVec.ofInt 64 t.parentPid else 0, t.state.value,
    t.accounting.switches, t.accounting.runTicks, t.accounting.yields, t.accounting.preemptions,
    t.userStatus.lastExitCode, if t.userStatus.programSucceeded then 1 else 0]

def syscallProcessStatus (pid address : Word) : SyscallReturn :=
  if !o.writable address 72 then some o.fault
  else if schedMaxTasks ≤ pid.toNat then some o.inval
  else
    let caller := o.kernel.current
    match schedulerTaskByPid o.kernel (if pid = 0 then caller.pid else toInt32 pid) with
    | none => some o.inval
    | some i =>
      let target := o.kernel.tasks i
      if target.pid ≠ caller.pid ∧ target.parentPid ≠ caller.pid then some o.inval
      else (o.storeWords L address (processStatusWords target)).map fun o => (o, 0)

/-! ## The machine -/

/-- `SATURNOS_VERSION_MAJOR`, `_MINOR` and `_PATCH`. -/
def saturnosVersion : List Word := [0, 6, 95]

def syscallSystemInfo (address : Word) : SyscallReturn :=
  if !o.writable address 72 then some o.fault
  else
    (o.storeWords L address (saturnosVersion ++ [arm64PageSize, o.totalPages, o.freePages,
      o.kernel.schedulerTicks, BitVec.ofNat 64 o.kernel.taskCount,
      BitVec.ofNat 64 schedMaxTasks])).map fun o => (o, 0)

def syscallRandom : OsState × ℤ :=
  let value := o.randomState ^^^ (o.kernel.schedulerTicks + BitVec.ofInt 64 o.kernel.current.pid)
  let value := value ^^^ (value <<< 13)
  let value := value ^^^ (value >>> 17)
  let value := value ^^^ (value <<< 5)
  ({ o with randomState := value }, (value &&& 0x7fffffff).toInt)

/-! ## Dispatch -/

/-- How a call leaves the kernel: with a result, through a switch — to return a result on the way
back, or to try again — or not at all. -/
inductive SyscallEnd
  | returns (result : ℤ)
  | switches (switch : Switch) (result : Option ℤ)
  | aborts
  deriving DecidableEq

/-- A call that does not switch. -/
def ended (r : SyscallReturn) : OsState × SyscallEnd :=
  match r with
  | none => (o, .aborts)
  | some (o, result) => (o, .returns result)

/-- A call that may. -/
def switched (r : Kernel × Switch) (result : Option ℤ) : OsState × SyscallEnd :=
  ({ o with kernel := r.1 }, .switches r.2 result)

def syscallSleep (milliseconds : Word) : OsState × SyscallEnd :=
  if milliseconds = 0 ∨ syscallSleepMaxMs < milliseconds.toNat then
    (o, .returns syscallErrInval)
  else switched o (schedulerSleepMs milliseconds o.intervalMs o.kernel) (some 0)

def syscallWait (pid statusAddress options : Word) : OsState × SyscallEnd :=
  match waitRefused o statusAddress options with
  | some error => (o, .returns error)
  | none =>
    match waitTurn L o pid statusAddress with
    | none => (o, .aborts)
    | some (o', result) =>
      if result = 0 ∧ options &&& syscallWaitNohang = 0 then
        switched o' (schedulerYield o'.kernel) none
      else (o', .returns result)

/-- `syscall_dispatch`. -/
def syscallDispatch (number arg0 arg1 arg2 arg3 : Word) : OsState × SyscallEnd :=
  match number.toNat with
  | 1 => ended o (syscallWrite L o arg0 arg1 arg2)
  | 2 => ended o (some ({ o with kernel := (userModeHandleExitSyscall arg0 o.kernel).1 }, 0))
  | 3 => switched o (schedulerYield o.kernel) (some 0)
  | 4 => ended o (syscallOpen L o arg0 arg1 false)
  | 5 => ended o (syscallRead L o arg0 arg1 arg2)
  | 6 => ended o (some (syscallClose o arg0))
  | 7 => ended o (syscallOpen L o arg0 arg1 true)
  | 8 => ended o (some (syscallSeek o arg0 arg1))
  | 9 => syscallWait L o arg0 arg1 arg2
  | 10 => ended o (syscallSpawn L S o arg0 arg1 arg2 arg3)
  | 11 => ended o (some (syscallTerminate o arg0 arg1))
  | 12 => syscallSleep o arg0
  | 13 => ended o (some (o, (o.kernel.schedulerTicks * o.intervalMs).toInt))
  | 14 => ended o (some (o, o.kernel.current.pid))
  | 15 => ended o (some (o, max 0 o.kernel.current.parentPid))
  | 16 => ended o (syscallSystemInfo L o arg0)
  | 17 => ended o (some (syscallRandom o))
  | 18 => ended o (syscallProcessStatus L o arg0 arg1)
  | 19 => ended o (syscallDirectoryList L o arg0 arg1)
  | 20 => ended o (syscallMkdir L o arg0 arg1)
  | 21 => ended o (syscallRemove L o arg0 arg1)
  | 22 => ended o (syscallRename L o arg0 arg1 arg2 arg3)
  | 23 => ended o (syscallPathStat L o arg0 arg1 arg2)
  | 24 => ended o (syscallTruncate L o arg0 arg1 arg2)
  | 25 => ended o (some (syscallDup o arg0))
  | _ => (o, .returns (-1))

end Calls

end SaturnOS
