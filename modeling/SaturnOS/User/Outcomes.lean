import SaturnOS.Fs.Failing
import SaturnOS.Sched.Creation
import SaturnOS.Sched.Files
import SaturnOS.User.Syscalls

/-!
# User/Outcomes — how a syscall ends

    call ──▸ aborted
         ├─▸ failed : what anybody can look at is as it was      (Kept)
         └─▸ done   : the files of the caller, its memory, the VFS   (Edits)

The calls that do not schedule, one lemma each.  Every exit of a call is followed to what has been
changed by then: a path that was copied into an unused descriptor, a request the device has served.
-/

open Machinery

namespace SaturnOS

/-! ## What a failure keeps -/

/-- A task but for its unused descriptors, and a space it does not use. -/
structure TaskKept (t t' : Task) : Prop where
  rest : ∃ files space, t' = { t with files := files, userAddressSpace := space }
  used : ∀ j, (t'.files j).used = (t.files j).used
  files : ∀ j, (t.files j).used = true → t'.files j = t.files j
  space : t.state ≠ .unused → t'.userAddressSpace = t.userAddressSpace

/-- Everything but what nobody looks at: the buffers, and the unused descriptors and slots. -/
structure Kept (o o' : OsState) : Prop where
  spaces : o'.kernel.spaces = o.kernel.spaces
  ttbr0 : o'.kernel.ttbr0 = o.kernel.ttbr0
  tasks : ∀ i, TaskKept (o.kernel.tasks i) (o'.kernel.tasks i)
  taskCount : o'.kernel.taskCount = o.kernel.taskCount
  currentTask : o'.kernel.currentTask = o.kernel.currentTask
  userSessions : o'.kernel.userSessions = o.kernel.userSessions
  nodes : o'.vfs.nodes = o.vfs.nodes
  counts : o'.vfs.fileCount = o.vfs.fileCount ∧ o'.vfs.dirCount = o.vfs.dirCount
  directory : o'.vfs.sfs.directory = o.vfs.sfs.directory
  mounted : o'.vfs.sfs.mounted = o.vfs.sfs.mounted
  sectors : o'.vfs.sfs.device.sectorCount = o.vfs.sfs.device.sectorCount
    ∧ o'.vfs.sfs.device.data = o.vfs.sfs.device.data
  randomState : o'.randomState = o.randomState
  console : o'.console = o.console

namespace TaskKept

variable {t t' t'' : Task}

theorem refl (t : Task) : TaskKept t t := ⟨⟨_, _, rfl⟩, fun _ => rfl, fun _ _ => rfl, fun _ => rfl⟩

theorem trans (h : TaskKept t t') (h' : TaskKept t' t'') : TaskKept t t'' := by
  obtain ⟨files, space, rfl⟩ := h.rest
  obtain ⟨files', space', rfl⟩ := h'.rest
  refine ⟨⟨_, _, rfl⟩, fun j => (h'.used j).trans (h.used j), fun j hj => ?_, fun hs => ?_⟩
  · exact (h'.files j ((h.used j).trans hj)).trans (h.files j hj)
  · exact (h'.space hs).trans (h.space hs)

end TaskKept

namespace Kept

variable {o o' o'' : OsState}

theorem refl (o : OsState) : Kept o o :=
  ⟨rfl, rfl, fun _ => TaskKept.refl _, rfl, rfl, rfl, rfl, ⟨rfl, rfl⟩, rfl, rfl, ⟨rfl, rfl⟩, rfl,
    rfl⟩

theorem trans (h : Kept o o') (h' : Kept o' o'') : Kept o o'' where
  spaces := h'.spaces.trans h.spaces
  ttbr0 := h'.ttbr0.trans h.ttbr0
  tasks i := (h.tasks i).trans (h'.tasks i)
  taskCount := h'.taskCount.trans h.taskCount
  currentTask := h'.currentTask.trans h.currentTask
  userSessions := h'.userSessions.trans h.userSessions
  nodes := h'.nodes.trans h.nodes
  counts := ⟨h'.counts.1.trans h.counts.1, h'.counts.2.trans h.counts.2⟩
  directory := h'.directory.trans h.directory
  mounted := h'.mounted.trans h.mounted
  sectors := ⟨h'.sectors.1.trans h.sectors.1, h'.sectors.2.trans h.sectors.2⟩
  randomState := h'.randomState.trans h.randomState
  console := h'.console.trans h.console

/-- A load. -/
theorem loads (o : OsState) {v : Vfs} (hv : Loads o.vfs v) : Kept o { o with vfs := v } := by
  rcases hv with rfl | ⟨data, rfl⟩
  · exact refl o
  · exact ⟨rfl, rfl, fun _ => TaskKept.refl _, rfl, rfl, rfl, rfl, ⟨rfl, rfl⟩, rfl, rfl, ⟨rfl, rfl⟩,
      rfl, rfl⟩

/-- A task is rewritten, as nobody sees. -/
theorem modTask (o : OsState) (p : ℕ) {f : Task → Task}
    (hf : TaskKept (o.kernel.tasks p) (f (o.kernel.tasks p))) :
    Kept o { o with kernel := o.kernel.modTask p f } :=
  ⟨rfl, rfl, o.kernel.modTask_ind p f (P := fun i t => TaskKept (o.kernel.tasks i) t) hf
    fun _ _ => TaskKept.refl _, rfl, rfl, rfl, rfl, ⟨rfl, rfl⟩, rfl, rfl, ⟨rfl, rfl⟩, rfl, rfl⟩

/-- An unused descriptor is rewritten. -/
theorem modFile (o : OsState) {slot : Fin 4} {f : TaskFile → TaskFile}
    (hunused : (o.file slot).used = false) (hf : (f (o.file slot)).used = false) :
    Kept o (o.modFile slot f) := by
  refine modTask o o.kernel.currentTask ⟨⟨_, _, rfl⟩, fun j => ?_, fun j hj => ?_, fun _ => rfl⟩
  · by_cases hj : j = slot
    · subst hj
      exact (congrArg TaskFile.used (Function.update_self ..)).trans (hf.trans hunused.symm)
    · exact congrArg TaskFile.used (Function.update_of_ne hj ..)
  · refine Function.update_of_ne ?_ ..
    rintro rfl
    cases hunused.symm.trans hj

/-- The creation of a task that fails. -/
theorem failsClean (o : OsState) {k : Kernel} (hk : FailsClean o.kernel k) :
    Kept o { o with kernel := k } := by
  rcases hk with rfl | ⟨p, space, hunused, rfl⟩
  · exact refl o
  · exact modTask o p ⟨⟨_, _, rfl⟩, fun _ => rfl, fun _ _ => rfl, fun hs => absurd hunused hs⟩

end Kept

/-! ## What a call edits -/

/-- A path of 1 to 47 characters and a NUL. -/
def PathOk (path : Fin 48 → Byte) : Prop :=
  ∃ n, 1 ≤ n ∧ ∃ h : n < 48, path ⟨n, h⟩ = 0 ∧ ∀ i (hi : i < n), path ⟨i, hi.trans h⟩ ≠ 0

/-- What a descriptor in use looks like. -/
structure DescriptorOk (file : TaskFile) : Prop where
  path : PathOk file.path
  offset : file.offset.toNat ≤ vfsMaxFileSize

/-- …and all of them do. -/
def DescriptorsOk (k : Kernel) : Prop :=
  ∀ i j, ((k.tasks i).files j).used = true → DescriptorOk ((k.tasks i).files j)

/-- The tasks keep their places, and the files and the nodes stay right. -/
structure Edits (o o' : OsState) : Prop where
  table : SameTable o.kernel o'.kernel
  kernelSpace : o'.kernel.spaces.kernelAddressSpace = o.kernel.spaces.kernelAddressSpace
  names : NamesOk o.vfs → NamesOk o'.vfs
  files : NamesOk o.vfs → DescriptorsOk o.kernel → DescriptorsOk o'.kernel

namespace Edits

variable {o o' o'' : OsState}

theorem refl (o : OsState) : Edits o o := ⟨SameTable.refl _, rfl, id, fun _ => id⟩

theorem trans (h : Edits o o') (h' : Edits o' o'') : Edits o o'' where
  table := h.table.trans h'.table
  kernelSpace := h'.kernelSpace.trans h.kernelSpace
  names hn := h'.names (h.names hn)
  files hn hf := h'.files (h.names hn) (h.files hn hf)

theorem vfs (o : OsState) {v : Vfs} (hv : NamesOk o.vfs → NamesOk v) :
    Edits o { o with vfs := v } :=
  ⟨SameTable.refl _, rfl, hv, fun _ => id⟩

theorem loads (o : OsState) {v : Vfs} (hv : Loads o.vfs v) : Edits o { o with vfs := v } :=
  vfs o fun hn => hn.loads hv

theorem pages (o : OsState) (pages : Fin 4 → Fin 3 → Page) :
    Edits o { o with kernel := o.kernel.setPages pages } :=
  ⟨SameTable.of_tasks rfl rfl rfl, rfl, id, fun _ => id⟩

/-- …and a descriptor of the caller is rewritten. -/
theorem modFile (h : Edits o o') {slot : Fin 4} {f : TaskFile → TaskFile}
    (hf : NamesOk o.vfs → DescriptorsOk o'.kernel → (f (o'.file slot)).used = true →
      DescriptorOk (f (o'.file slot))) : Edits o (o'.modFile slot f) where
  table := by
    refine h.table.trans ?_
    dsimp only [OsState.modFile]
    refine SameTable.modTask o'.kernel o'.kernel.currentTask ?_
    exact ⟨rfl, rfl, rfl⟩
  kernelSpace := h.kernelSpace
  names := h.names
  files hn hk := by
    have hk' := h.files hn hk
    dsimp only [OsState.modFile]
    refine o'.kernel.modTask_ind o'.kernel.currentTask _
      (P := fun _ t => ∀ j, (t.files j).used = true → DescriptorOk (t.files j)) (fun j hj => ?_)
      fun i _ => hk' i
    dsimp only at hj ⊢
    by_cases hslot : j = slot
    · subst hslot
      rw [Function.update_self] at hj ⊢
      exact hf hn hk' hj
    · rw [Function.update_of_ne hslot] at hj ⊢
      exact hk' _ j hj

/-- …to one that is not in use. -/
theorem scribble (h : Edits o o') {slot : Fin 4} {f : TaskFile → TaskFile}
    (hf : (f (o'.file slot)).used = false) : Edits o (o'.modFile slot f) :=
  h.modFile fun _ _ hused => by
    rw [hf] at hused
    cases hused

end Edits

/-- How a call ends. -/
inductive CallOutcome (o : OsState) : SyscallReturn → Prop
  | aborted : CallOutcome o none
  | failed {o' : OsState} {result : ℤ} (hneg : result < 0) (he : Edits o o')
      (hk : NamesOk o.vfs → DiskOk o.vfs.sfs → Kept o o') : CallOutcome o (some (o', result))
  | done {o' : OsState} {result : ℤ} (hpos : NamesOk o.vfs → 0 ≤ result) (he : Edits o o') :
      CallOutcome o (some (o', result))

namespace CallOutcome

variable {o : OsState}

theorem inval (o : OsState) : CallOutcome o (some o.inval) :=
  .failed (by decide) (Edits.refl o) fun _ _ => Kept.refl o

theorem fault (o : OsState) : CallOutcome o (some o.fault) :=
  .failed (by decide) (Edits.refl o) fun _ _ => Kept.refl o

/-- A load, and no result. -/
theorem unread (o : OsState) {v : Vfs} (hv : Loads o.vfs v) :
    CallOutcome o (some { o with vfs := v }.inval) :=
  .failed (by decide) (Edits.loads o hv) fun _ _ => Kept.loads o hv

end CallOutcome

/-! ## Descriptors -/

section Calls

variable {L : Layout} {S : Symbols} {o : OsState}

theorem usedFile_spec {k : Kernel} {fd : Word} {slot : Fin 4} (h : usedFile k fd = some slot) :
    k.currentTask < k.taskCount ∧ fdSlot fd = some slot ∧ (k.current.files slot).used = true := by
  rw [usedFile, currentTaskMutable] at h
  split at h
  · rename_i t s ht hs
    obtain ⟨hlt, ht⟩ := Option.ite_none_right_eq_some.mp ht
    obtain ⟨hused, hslot⟩ := Option.ite_none_right_eq_some.mp h
    obtain rfl := Option.some.inj ht
    obtain rfl := Option.some.inj hslot
    exact ⟨hlt, hs, hused⟩
  · cases h

theorem freeFile_unused {t : Task} {slot : Fin 4} (h : freeFile t = some slot) :
    (t.files slot).used = false := by simpa using List.find?_some h

/-- An offset moved on inside the largest file. -/
theorem advance_toNat {offset : Word} {n : ℕ} (h : offset.toNat + n ≤ vfsMaxFileSize) :
    (offset + BitVec.ofNat 64 n).toNat = offset.toNat + n := by
  have hmax : vfsMaxFileSize = 4096 := rfl
  rw [BitVec.toNat_add, BitVec.toNat_ofNat]
  omega

theorem advance_le {offset : Word} {n : ℕ} (h : offset.toNat + n ≤ vfsMaxFileSize) :
    (offset + BitVec.ofNat 64 n).toNat ≤ vfsMaxFileSize := (advance_toNat h).trans_le h

/-- A descriptor in use, moved on. -/
theorem Edits.advance {o' : OsState} (h : Edits o o') {slot : Fin 4} {n : ℕ}
    (hused : (o'.file slot).used = true)
    (hn : NamesOk o.vfs → (o'.file slot).offset.toNat + n ≤ vfsMaxFileSize) :
    Edits o (o'.modFile slot fun f => { f with offset := f.offset + BitVec.ofNat 64 n }) :=
  h.modFile fun hnames hk _ => ⟨(hk _ _ hused).path, advance_le (hn hnames)⟩

theorem syscallClose_outcome (fd : Word) : CallOutcome o (some (syscallClose o fd)) := by
  rw [syscallClose]
  split
  · exact .inval o
  · exact .done (fun _ => le_rfl) ((Edits.refl o).scribble rfl)

theorem syscallDup_outcome (fd : Word) : CallOutcome o (some (syscallDup o fd)) := by
  rw [syscallDup]
  split
  · rename_i t source ht hsource
    obtain ⟨-, ht⟩ := Option.ite_none_right_eq_some.mp ht
    obtain rfl := Option.some.inj ht
    split
    · exact .inval o
    · refine .done (fun _ => by omega) ((Edits.refl o).modFile fun _ hk hused => ?_)
      exact hk o.kernel.currentTask source hused
  · exact .inval o

theorem syscallSeek_outcome (fd offset : Word) :
    CallOutcome o (some (syscallSeek o fd offset)) := by
  rw [syscallSeek]
  split
  · exact .inval o
  rename_i slot hslot
  obtain ⟨-, -, hused⟩ := usedFile_spec hslot
  have hloads := vfsFileData_loads o.vfs (o.file slot).name
  split
  · rename_i v heq
    rw [heq] at hloads
    exact .unread o hloads
  · rename_i v bytes heq
    rw [heq] at hloads
    split
    · exact .unread o hloads
    · rename_i hle
      have hlen : NamesOk o.vfs → offset.toNat ≤ 4096 := fun hnames =>
        (Nat.le_of_not_lt hle).trans (vfsFileData_length hnames (congrArg Prod.snd heq))
      refine .done (fun hnames => ?_) ((Edits.loads o hloads).modFile fun hnames hk _ => ?_)
      · have := hlen hnames
        rw [BitVec.toInt_eq_toNat_of_lt (by omega)]
        omega
      · exact ⟨(hk _ _ hused).path, hlen hnames⟩

/-- The bytes stored are stored in the pages. -/
theorem userStoreBytes_pages {address : Word} {bytes : List Byte} {k k' : Kernel}
    (h : userStoreBytes L address bytes k = some k') : ∃ pages, k' = k.setPages pages := by
  induction bytes generalizing address k with
  | nil =>
    obtain rfl := Option.some.inj h
    exact ⟨_, rfl⟩
  | cons b bytes ih =>
    obtain ⟨k₁, hk₁, hrest⟩ := Option.bind_eq_some_iff.mp h
    obtain ⟨pages, rfl⟩ := ih hrest
    rw [userStore] at hk₁
    split at hk₁
    · cases hk₁
    · obtain ⟨-, hk₁⟩ := Option.ite_none_right_eq_some.mp hk₁
      obtain rfl := Option.some.inj hk₁
      exact ⟨pages, rfl⟩

theorem Edits.stores {o' : OsState} (h : Edits o o') {address : Word} {bytes : List Byte}
    {k : Kernel}
    (hstore : userStoreBytes L address bytes o'.kernel = some k) :
    Edits o { o' with kernel := k } := by
  obtain ⟨pages, rfl⟩ := userStoreBytes_pages hstore
  exact h.trans (Edits.pages o' pages)

theorem syscallRead_outcome (fd buffer length : Word) :
    CallOutcome o (syscallRead L o fd buffer length) := by
  rw [syscallRead]
  split
  · exact .inval o
  split
  · exact .done (fun _ => le_rfl) (Edits.refl o)
  split
  · exact .fault o
  split
  · exact .inval o
  rename_i slot hslot
  obtain ⟨-, -, hused⟩ := usedFile_spec hslot
  have hloads := vfsRead_loads o.vfs (o.file slot).name (o.file slot).offset.toNat true length.toNat
  split
  · rename_i v heq
    rw [heq] at hloads
    exact .unread o hloads
  · rename_i v bytes heq
    rw [heq] at hloads
    cases hstore : userStoreBytes L buffer bytes o.kernel with
    | none => exact .aborted
    | some k =>
      have hstored := ((Edits.loads o hloads).stores hstore)
      obtain ⟨pages, rfl⟩ := userStoreBytes_pages hstore
      exact .done (fun _ => Int.natCast_nonneg _) (hstored.advance (n := bytes.length) hused
        fun hnames => vfsRead_length hnames (congrArg Prod.snd heq))

theorem syscallWrite_outcome (fd buffer length : Word) :
    CallOutcome o (syscallWrite L o fd buffer length) := by
  rw [syscallWrite]
  split
  · exact .done (fun _ => le_rfl) (Edits.refl o)
  split
  · exact .inval o
  split
  · exact .fault o
  split
  · cases userLoadBytes L o.kernel buffer length.toNat with
    | none => exact .aborted
    | some bytes =>
      exact .done (fun _ => Int.natCast_nonneg _) ⟨SameTable.refl _, rfl, id, fun _ => id⟩
  split
  · exact .inval o
  rename_i slot hslot
  obtain ⟨-, -, hused⟩ := usedFile_spec hslot
  set bytes : Buffer := some fun i => (userLoad L o.kernel (buffer + BitVec.ofNat 64 i)).getD 0
  have hnames : NamesOk o.vfs → NamesOk (vfsWrite o.vfs (o.file slot).name
      (o.file slot).offset.toNat bytes length.toNat).1 := fun h => h.write _ _ _ _
  have hfails := fun hdisk => @vfsWrite_fails o.vfs (o.file slot).name hdisk
    (o.file slot).offset.toNat length.toNat bytes
  split
  · rename_i v heq
    rw [heq] at hnames hfails
    exact .failed (by decide) (Edits.vfs o hnames) fun _ hdisk => Kept.loads o (hfails hdisk rfl)
  · rename_i v written heq
    rw [heq] at hnames
    obtain ⟨rfl, hfits⟩ := vfsWrite_length (congrArg Prod.snd heq)
    cases userLoadBytes L o.kernel buffer length.toNat with
    | none => exact .aborted
    | some _ =>
      exact .done (fun _ => Int.natCast_nonneg _)
        ((Edits.vfs o hnames).advance hused fun _ => hfits)

/-! ### Opening -/

/-- A path that was copied is one. -/
theorem pathOk_putPath (old : Fin 48 → Byte) {path : CStr} (hpos : 1 ≤ path.length)
    (hlen : path.length < 48) : PathOk (putPath old (path.chars ++ [0])) := by
  refine ⟨path.length, hpos, hlen, ?_, fun i hi => ?_⟩
  · have hend : path.chars.length ≤ path.length := le_rfl
    rw [putPath, List.getD_append_right _ _ _ _ hend]
    simp [CStr.length]
  · rw [putPath, List.getD_append _ _ _ _ hi, List.getD_eq_getElem _ _ hi]
    intro h0
    exact path.noNul (h0 ▸ List.getElem_mem hi)

/-- What creating a file, or cutting it to nothing, comes to. -/
def openMade (v : Vfs) (path : CStr) (create : Bool) : Vfs × Bool :=
  if create then
    match vfsCreate v path none 0 with
    | (v, true) => (v, true)
    | (v, false) => vfsTruncate v path 0
  else (v, true)

theorem openMade_names {v : Vfs} (h : NamesOk v) (path : CStr) (create : Bool) :
    NamesOk (openMade v path create).1 := by
  have hcreate := h.create path none 0
  rw [openMade]
  split
  · split
    · rename_i heq
      rwa [heq] at hcreate
    · rename_i heq
      rw [heq] at hcreate
      exact hcreate.truncate path 0
  · exact h

/-- **It fails with nothing done**… -/
theorem openMade_fails {v : Vfs} (hdisk : DiskOk v.sfs) {path : CStr} {create : Bool}
    (h : (openMade v path create).2 = false) : Loads v (openMade v path create).1 := by
  rw [openMade] at h ⊢
  split
  · rename_i hcreate
    rw [if_pos hcreate] at h
    have hfails := @vfsCreate_fails v path hdisk none 0
    split
    · rename_i heq
      rw [heq] at h
      cases h
    · rename_i v' heq
      rw [heq] at h hfails
      obtain rfl := hfails rfl
      exact vfsTruncate_fails hdisk h
  · exact .inl rfl

/-- …and succeeds with the file there. -/
theorem openMade_contents {v : Vfs} (hnames : NamesOk v) (hdisk : DiskOk v.sfs) {path : CStr}
    (h : (openMade v path true).2 = true) :
    DiskOk (openMade v path true).1.sfs ∧ ∃ c, (openMade v path true).1.contents path = some c := by
  have hstep : ∀ (op : VfsOp) {v v' : Vfs}, vfsStep v op = some v' → DiskOk v.sfs → DiskOk v'.sfs :=
    fun _ _ _ hstep => vfsStep_sfs (fun _ h => h.tick)
      (fun _ path data size h => h.writeFile path data size)
      hstep
  rw [openMade, if_pos rfl] at h ⊢
  have hcreated := @vfsCreate_contents v path hnames hdisk none 0
  have hdisk' := hstep (.create path none 0) rfl hdisk
  have hfails := @vfsCreate_fails v path hdisk none 0
  split
  · rename_i v' heq
    rw [heq] at hcreated hdisk'
    exact ⟨hdisk', _, hcreated rfl⟩
  · rename_i v' heq
    rw [heq] at h hfails
    obtain rfl := hfails rfl
    obtain ⟨c, hc, -⟩ := vfsTruncate_contents hdisk h
    exact ⟨hstep (.truncate path 0) rfl hdisk, c, hc⟩

/-- The descriptor `open_file` hands out, by what the VFS read. -/
def openLoaded (o : OsState) (slot : Fin 4) : Vfs × Option (List Byte) → OsState × ℤ
  | (v, none) => ({ o with vfs := v }.modFile slot clearPath, syscallErrInval)
  | (v, some _) =>
    ({ o with vfs := v }.modFile slot fun f => { f with used := true, offset := 0 }, 3 + slot)

/-- `open_file` makes the file, then loads it. -/
theorem openFile_eq (o : OsState) (slot : Fin 4) (create : Bool) :
    openFile o slot create =
      if !(openMade o.vfs (o.file slot).name create).2
      then ({ o with vfs := (openMade o.vfs (o.file slot).name create).1 }.modFile slot clearPath,
        syscallErrInval)
      else openLoaded o slot
        (vfsFileData (openMade o.vfs (o.file slot).name create).1 (o.file slot).name) :=
  rfl

/-- **The end of an opening**, over a slot that is not in use and has the path. -/
theorem openFile_outcome {o' : OsState} (he : Edits o o') (hk : Kept o o') (hvfs : o'.vfs = o.vfs)
    {slot : Fin 4} (hunused : (o'.file slot).used = false) (hpath : PathOk (o'.file slot).path)
    (create : Bool) : CallOutcome o (some (openFile o' slot create)) := by
  -- nothing but the slot and the VFS is touched on the way to a failure
  have hfailed : ∀ v, (NamesOk o.vfs → NamesOk v) →
    (NamesOk o.vfs → DiskOk o.vfs.sfs → Loads o.vfs v) →
      CallOutcome o (some ({ o' with vfs := v }.modFile slot clearPath, syscallErrInval)) := by
    intro v hnames hloads
    refine .failed (by decide) (Edits.scribble (he.trans (Edits.vfs o' ?_)) hunused) fun hn hdisk =>
      ?_
    · rw [hvfs]
      exact hnames
    · have hkept : Kept o' { o' with vfs := v } :=
        Kept.loads o' (by rw [hvfs]; exact hloads hn hdisk)
      exact (hk.trans hkept).trans (Kept.modFile { o' with vfs := v } hunused hunused)
  set path := (o'.file slot).name with hname
  have hnames := fun h => @openMade_names o.vfs h path create
  have hfails := fun h => @openMade_fails o.vfs h path create
  have hcontents := fun hn hd => @openMade_contents o.vfs hn hd path
  rw [openFile_eq, hvfs, ← hname]
  split
  · rename_i hbad
    exact hfailed _ hnames fun _ hdisk => hfails hdisk (by simpa using hbad)
  · rename_i hok
    have hloads := vfsFileData_loads (openMade o.vfs path create).1 path
    rw [openLoaded.eq_def]
    split
    · rename_i v heq
      rw [heq] at hloads
      refine hfailed v (fun hn => (hnames hn).loads hloads) fun hn hdisk => ?_
      cases create with
      | false => exact hloads
      | true =>
        obtain ⟨hdisk', c, hc⟩ := hcontents hn hdisk (by simpa using hok)
        have hdata := vfsFileData_contents (hdisk'.serving 0) path
        rw [heq, hc] at hdata
        cases hdata
    · rename_i v bytes heq
      rw [heq] at hloads
      refine .done (fun _ => by omega) ((he.trans (Edits.vfs o' ?_)).modFile fun _ _ _ => ?_)
      · rw [hvfs]
        exact fun hn => (hnames hn).loads hloads
      · exact ⟨hpath, Nat.zero_le _⟩

theorem copyString_length {k : Kernel} {address : Word} {n : ℕ} {path : CStr} {full : Bool}
    (h : copyString L k address n = some (path, full)) :
    path.length ≤ n ∧ (full = true → path.length = n) := by
  induction n generalizing address path with
  | zero =>
    obtain ⟨rfl, rfl⟩ := Prod.mk.inj (Option.some.inj h)
    exact ⟨le_rfl, fun _ => rfl⟩
  | succ n ih =>
    rw [copyString] at h
    split at h
    · cases h
    · rename_i b _
      split at h
      · obtain ⟨rfl, rfl⟩ := Prod.mk.inj (Option.some.inj h)
        exact ⟨Nat.zero_le _, nofun⟩
      · rename_i hb
        obtain ⟨⟨rest, full'⟩, hrest, heq⟩ := Option.map_eq_some_iff.mp h
        obtain ⟨rfl, rfl⟩ := Prod.mk.inj heq
        obtain ⟨hle, heq⟩ := ih hrest
        exact ⟨Nat.succ_le_succ hle, fun hfull => congrArg Nat.succ (heq hfull)⟩

/-- The descriptor that is rewritten. -/
theorem modFile_file (o : OsState) (slot : Fin 4) (f : TaskFile → TaskFile) :
    (o.modFile slot f).file slot = f (o.file slot) := by
  rw [OsState.file, OsState.modFile, Kernel.current]
  dsimp only [Kernel.modTask_currentTask]
  rw [Kernel.modTask_self]
  exact Function.update_self ..

theorem syscallOpen_outcome (address length : Word) (create : Bool) :
    CallOutcome o (syscallOpen L o address length create) := by
  rw [syscallOpen]
  split
  · exact .fault o
  rename_i t ht
  obtain ⟨-, ht⟩ := Option.ite_none_right_eq_some.mp ht
  obtain rfl := Option.some.inj ht
  split
  · exact .fault o
  rename_i hok
  split
  · exact .inval o
  rename_i slot hfree
  have hunused : (o.file slot).used = false := freeFile_unused hfree
  split
  · exact .aborted
  · exact .failed (by decide) ((Edits.refl o).scribble hunused) fun _ _ =>
      Kept.modFile o hunused hunused
  · rename_i path hcopy
    set copied := o.modFile slot fun f => { f with path := putPath f.path (path.chars ++ [0]) }
      with hcopied
    have hfile : copied.file slot
        = { o.file slot with path := putPath (o.file slot).path (path.chars ++ [0]) } :=
      modFile_file o slot _
    have hlen := (copyString_length hcopy).2 rfl
    simp only [Bool.not_eq_true, Bool.or_eq_false_iff, beq_eq_false_iff_ne, decide_eq_false_iff_not,
      Nat.not_le] at hok
    have hpos : length.toNat ≠ 0 := fun h0 => hok.1.1.2 (BitVec.eq_of_toNat_eq h0)
    have hpath : PathOk (copied.file slot).path := by
      rw [hfile]
      exact pathOk_putPath _ (by omega) (hlen ▸ hok.1.2)
    exact openFile_outcome ((Edits.refl o).scribble hunused) (Kept.modFile o hunused hunused) rfl
      (by rw [hfile]; exact hunused) hpath create

/-! ## Paths -/

/-- A path that is copied is handed on. -/
theorem copyPath_outcome {address length : Word} {use : CStr → SyscallReturn}
    (h : ∀ path, CallOutcome o (use path)) : CallOutcome o (copyPath L o address length use) := by
  rw [copyPath]
  split
  · exact .aborted
  · exact .inval o
  · exact h _

/-- A call of the VFS that keeps the names, and fails with nothing done. -/
theorem vfsResult_outcome {r : Vfs × Bool} (hnames : NamesOk o.vfs → NamesOk r.1)
    (hfails : DiskOk o.vfs.sfs → r.2 = false → Loads o.vfs r.1) :
    CallOutcome o (some (vfsResult o r)) := by
  obtain ⟨v, ok⟩ := r
  cases ok with
  | false =>
    have hneg : syscallErrInval < 0 := by decide
    exact .failed hneg (Edits.vfs o hnames) fun _ hdisk => Kept.loads o (hfails hdisk rfl)
  | true => exact .done (fun _ => le_rfl) (Edits.vfs o hnames)

theorem pathCall_outcome {address length : Word} {call : CStr → Vfs × Bool}
    (hnames : ∀ path, NamesOk o.vfs → NamesOk (call path).1)
    (hfails : ∀ path, DiskOk o.vfs.sfs → (call path).2 = false → Loads o.vfs (call path).1) :
    CallOutcome o (pathCall L o address length call) := by
  rw [pathCall]
  split
  · exact .inval o
  split
  · exact .fault o
  · exact copyPath_outcome fun path => vfsResult_outcome (hnames path) (hfails path)

theorem syscallMkdir_outcome (address length : Word) :
    CallOutcome o (syscallMkdir L o address length) :=
  pathCall_outcome (fun path h => h.mkdir path) fun _ _ h => .inl (vfsMkdir_fails h)

theorem syscallRemove_outcome (address length : Word) :
    CallOutcome o (syscallRemove L o address length) :=
  pathCall_outcome (fun path h => h.remove path) fun _ _ h => .inl (vfsRemove_fails h)

theorem syscallTruncate_outcome (address length size : Word) :
    CallOutcome o (syscallTruncate L o address length size) := by
  rw [syscallTruncate]
  split
  · exact .inval o
  · exact pathCall_outcome (fun path h => h.truncate path _) fun _ hdisk h =>
      vfsTruncate_fails hdisk h

theorem syscallRename_outcome (oldAddress oldLength newAddress newLength : Word) :
    CallOutcome o (syscallRename L o oldAddress oldLength newAddress newLength) := by
  rw [syscallRename]
  split
  · exact .inval o
  split
  · exact .fault o
  · exact copyPath_outcome fun old => copyPath_outcome fun new =>
      vfsResult_outcome (fun h => h.rename old new) fun _ h => .inl (vfsRename_fails h)

/-- An entry, or a status, that is stored. -/
theorem stored_outcome {o' : OsState} (he : Edits o o') {address : Word} {bytes : List Byte}
    {result : ℤ}
    (hpos : 0 ≤ result) : CallOutcome o ((userStoreBytes L address bytes o'.kernel).map fun k =>
      ({ o' with kernel := k }, result)) := by
  cases hstore : userStoreBytes L address bytes o'.kernel with
  | none => exact .aborted
  | some k => exact .done (fun _ => hpos) (he.stores hstore)

theorem syscallPathStat_outcome (address length output : Word) :
    CallOutcome o (syscallPathStat L o address length output) := by
  rw [syscallPathStat]
  split
  · exact .inval o
  split
  · exact .fault o
  refine copyPath_outcome fun path => ?_
  have hloads := vfsStat_loads o.vfs path
  split
  · rename_i heq
    rw [heq] at hloads
    exact .unread o hloads
  · rename_i v e heq
    rw [heq] at hloads
    exact stored_outcome (Edits.loads o hloads) le_rfl

theorem syscallDirectoryList_outcome (index output : Word) :
    CallOutcome o (syscallDirectoryList L o index output) := by
  rw [syscallDirectoryList]
  split
  · exact .fault o
  split
  · exact .done (fun _ => le_rfl) (Edits.refl o)
  · exact stored_outcome (Edits.refl o) (by decide)

/-! ## What is told of tasks and the machine -/

theorem storeWords_outcome {address : Word} {words : List Word} :
    CallOutcome o ((o.storeWords L address words).map fun o => (o, 0)) := by
  rw [OsState.storeWords, Option.map_map]
  exact stored_outcome (Edits.refl o) le_rfl

theorem syscallProcessStatus_outcome (pid address : Word) :
    CallOutcome o (syscallProcessStatus L o pid address) := by
  rw [syscallProcessStatus]
  split
  · exact .fault o
  split
  · exact .inval o
  dsimp only
  split
  · exact .inval o
  split
  · exact .inval o
  · exact storeWords_outcome

theorem syscallSystemInfo_outcome (address : Word) :
    CallOutcome o (syscallSystemInfo L o address) := by
  rw [syscallSystemInfo]
  split
  · exact .fault o
  · exact storeWords_outcome

theorem syscallRandom_outcome : CallOutcome o (some (syscallRandom o)) := by
  refine .done (fun _ => ?_) ⟨SameTable.refl _, rfl, id, fun _ => id⟩
  rw [BitVec.toInt_eq_toNat_of_lt]
  · exact Int.natCast_nonneg _
  · rw [BitVec.toNat_and]
    exact Nat.lt_of_le_of_lt (Nat.mul_le_mul_left 2 Nat.and_le_right) (by decide)

end Calls

end SaturnOS
