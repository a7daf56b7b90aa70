import SaturnOS.Machinery.Cuts
import SaturnOS.User.Buffers
import SaturnOS.User.Os

/-!
# User/Streams — a file written, and read back

    create ──▸ write b₁ ──▸ ⋯ ──▸ write bₖ ──▸ seek 0 ──▸ read ──▸ read ──▸ ⋯ ──▸ 0
    c =  []        b₁                 b₁ ⋯ bₖ              └────── b₁ ⋯ bₖ ──────┘

A descriptor is a place in the contents of its path (`Stream`).  A write at the end appends, a seek
moves the place, and a read gives what comes after it; what is read until a read gives nothing is
what was written (`streams_read_back`), in RAMFS and on a SaturnFS that serves.
-/

open Machinery

namespace SaturnOS

/-! ## Opening -/

/-- **A path that was made has an empty file.** -/
theorem openMade_empty {v : Vfs} (hnames : NamesOk v) {path : CStr}
    (hdisk : (vfsDiskPath path).isSome = true → DiskOk v.sfs)
    (h : (openMade v path true).2 = true) :
    (openMade v path true).1.contents path = some [] ∧
      ((vfsDiskPath path).isSome = true → Formatted (openMade v path true).1.sfs) := by
  have hempty : bufferBytes none 0 = [] := rfl
  cases hd : vfsDiskPath path with
  | some diskPath =>
    have hdisk := hdisk (by rw [hd]; rfl)
    obtain ⟨hdisk', c, hc⟩ := openMade_contents hnames hdisk h
    have hformatted := hdisk'.of_contents ((contents_routed hd).symm.trans hc)
    refine ⟨?_, fun _ => hformatted⟩
    rw [openMade, if_pos rfl] at h ⊢
    have hcreated := @vfsCreate_contents v path hnames hdisk none 0
    have hfails := @vfsCreate_fails v path hdisk none 0
    split
    · rename_i v' heq
      rw [heq] at hcreated
      exact (hcreated rfl).trans (congrArg some hempty)
    · rename_i v' heq
      rw [heq] at h hfails
      obtain rfl := hfails rfl
      obtain ⟨c', hc', hlen⟩ := vfsTruncate_contents hdisk h
      rw [hc', List.eq_nil_of_length_eq_zero hlen]
  | none =>
    refine ⟨?_, fun hn => by cases hn⟩
    rw [openMade, if_pos rfl] at h ⊢
    have hcreated := @vfsCreate_ram_contents v path hnames hd none 0
    have hfails := @vfsCreate_ram_fails v path hd none 0
    split
    · rename_i v' heq
      rw [heq] at hcreated
      exact (hcreated rfl).trans (congrArg some hempty)
    · rename_i v' heq
      rw [heq] at h hfails
      obtain rfl := hfails rfl
      dsimp only at h ⊢
      have ht := vfsTruncate_ram (v := v') hd 0
      generalize vfsTruncate v' path 0 = r at ht h ⊢
      cases ht with
      | refused hbad => cases h
      | @edited i hi hok =>
        rw [contents_setFile hd hi]
        rfl

/-- The path copied into a slot is the slot's path. -/
theorem name_putPath (file : TaskFile) {path : CStr} (hlen : path.length < 48) :
    TaskFile.name { file with path := putPath file.path (path.chars ++ [0]) } = path := by
  refine CStr.ext (stringAt_eq (spells_iff.mpr ⟨path.noNul, fun i hi => ?_, ?_⟩)
    (Nat.le_of_lt hlen))
  · have hi48 : i < 48 := lt_trans hi hlen
    rw [Nat.zero_add, dif_pos hi48]
    show (path.chars ++ [0]).getD i _ = _
    rw [List.getD_append _ _ _ _ hi, List.getD_eq_getElem _ _ hi]
  · have hend : path.chars.length < 48 := hlen
    rw [Nat.zero_add, dif_pos hend]
    show (path.chars ++ [0]).getD path.chars.length _ = _
    rw [List.getD_append_right _ _ _ _ (Nat.le_refl _), Nat.sub_self]
    rfl

theorem name_congr {file file' : TaskFile} (h : file'.path = file.path) : file'.name = file.name :=
  CStr.ext (congrArg (fun path : Fin 48 → Byte =>
    stringAt (fun i => if h : i < 48 then path ⟨i, h⟩ else 0) 0 taskFilePathSize) h)

/-! ## A descriptor's place -/

/-- The descriptor that a slot number stands for. -/
def slotFd (slot : Fin 4) : Word := BitVec.ofInt 64 (3 + (slot.val : ℤ))

theorem fdSlot_slotFd (slot : Fin 4) : fdSlot (slotFd slot) = some slot := by
  revert slot
  decide

/-- It is no console. -/
theorem slotFd_ne (slot : Fin 4) : ¬ (slotFd slot = 1 ∨ slotFd slot = 2) := by
  revert slot
  decide

/-- **The descriptor is at `offset` in the file `c`**, and the file can be written. -/
structure Stream (o : OsState) (slot : Fin 4) (path : CStr) (c : List Byte) (offset : ℕ) :
    Prop where
  current : o.kernel.currentTask < o.kernel.taskCount
  used : (o.file slot).used = true
  name : (o.file slot).name = path
  offset : (o.file slot).offset.toNat = offset
  contents : o.vfs.contents path = some c
  formatted : (vfsDiskPath path).isSome = true → Formatted o.vfs.sfs

/-- A descriptor rewritten leaves what the caller sees. -/
theorem SameView.modFile (o : OsState) (slot : Fin 4) (f : TaskFile → TaskFile) :
    SameView o.kernel (o.modFile slot f).kernel := by
  have hspace : (o.modFile slot f).kernel.taskSpace = o.kernel.taskSpace := funext fun i => by
    obtain ⟨hmemory, hspace⟩ :
      ((o.modFile slot f).kernel.tasks i).memory = (o.kernel.tasks i).memory
        ∧ ((o.modFile slot f).kernel.tasks i).userAddressSpace
        = (o.kernel.tasks i).userAddressSpace :=
      o.kernel.modTask_ind o.kernel.currentTask
        (fun t => { t with files := Function.update t.files slot (f (t.files slot)) })
        (P := fun j t => t.memory = (o.kernel.tasks j).memory
          ∧ t.userAddressSpace = (o.kernel.tasks j).userAddressSpace) ⟨rfl, rfl⟩
          (fun _ _ => ⟨rfl, rfl⟩) i
    rw [Kernel.taskSpace, Kernel.taskSpace, hmemory, hspace]
    rfl
  have hsession : (o.modFile slot f).kernel.userSession = o.kernel.userSession :=
    o.kernel.modTask_userSession rfl
  refine ⟨rfl, rfl, ?_⟩
  rw [syscallAddressSpace, syscallAddressSpace, userModeActiveAddressSpace,
    userModeActiveAddressSpace,
    hsession, hspace]
  rfl

namespace Stream

variable {L : Layout} {S : Symbols} {o : OsState} {slot : Fin 4} {path : CStr} {c bytes : List Byte}
  {offset : ℕ} {buffer : Word}

theorem usedFile_eq (h : Stream o slot path c offset) :
    usedFile o.kernel (slotFd slot) = some slot := by
  rw [usedFile, currentTaskMutable, if_pos h.current, fdSlot_slotFd]
  exact if_pos h.used

/-- The program stores into its memory. -/
theorem setPages (h : Stream o slot path c offset) (pages : Fin 4 → Fin 3 → Page) :
    Stream { o with kernel := o.kernel.setPages pages } slot path c offset :=
  ⟨h.current, h.used, h.name, h.offset, h.contents, h.formatted⟩

/-- The descriptor moves, over a file system with the file `c'`. -/
theorem moved (h : Stream o slot path c offset) {v : Vfs} {c' : List Byte}
    (hcontents : v.contents path = some c')
    (hformatted : (vfsDiskPath path).isSome = true → Formatted v.sfs) {f : TaskFile → TaskFile}
    (hused : (f (o.file slot)).used = true) (hpath : (f (o.file slot)).path = (o.file slot).path)
    {offset' : ℕ} (hoffset : (f (o.file slot)).offset.toNat = offset') :
    Stream ({ o with vfs := v }.modFile slot f) slot path c' offset' := by
  have hfile : ({ o with vfs := v }.modFile slot f).file slot = f (o.file slot) :=
    modFile_file { o with vfs := v } slot f
  refine ⟨h.current, by rw [hfile, hused], ?_, by rw [hfile, hoffset], hcontents, hformatted⟩
  rw [hfile, ← h.name]
  exact name_congr hpath

/-- **A write at the end appends.** -/
theorem write (h : Stream o slot path c c.length) (hpos : 1 ≤ bytes.length)
    (hmax : bytes.length ≤ 128)
    (hread : o.readable buffer (BitVec.ofNat 64 bytes.length) = true)
    (hload : userLoadBytes L o.kernel buffer bytes.length = some bytes)
    (hfits : c.length + bytes.length ≤ 4096) :
    ∃ o', syscallWrite L o (slotFd slot) buffer (BitVec.ofNat 64 bytes.length)
        = some (o', (bytes.length : ℤ))
      ∧ Stream o' slot path (c ++ bytes) (c ++ bytes).length ∧ SameView o.kernel o'.kernel := by
  have hlength : (BitVec.ofNat 64 bytes.length).toNat = bytes.length := by
    rw [BitVec.toNat_ofNat]
    omega
  set f : ℕ → Byte := fun i => (userLoad L o.kernel (buffer + BitVec.ofNat 64 i)).getD 0 with hf
  obtain ⟨v, hwrite, hcontents, -⟩ := write_formatted h.formatted h.contents f hpos hfits
  have hformatted : (vfsDiskPath path).isSome = true → Formatted v.sfs := fun hd =>
    @Formatted.fsStep o.vfs v (h.formatted hd) (.vfs (.write path c.length (some f) bytes.length))
      (congrArg (fun r : Vfs × Option ℕ => some r.1) hwrite)
  have happend : v.contents path = some (c ++ bytes) := by
    rw [hcontents le_rfl, hf, cells_userLoad hload, splice_of_le le_rfl, List.take_length,
      List.drop_eq_nil_of_le (Nat.le_add_right _ _), List.append_nil]
  have hoffset : ((o.file slot).offset + BitVec.ofNat 64 bytes.length).toNat
      = (c ++ bytes).length := by
    rw [advance_toNat (by rw [h.offset]; exact hfits), h.offset, List.length_append]
  refine ⟨_, ?_, h.moved happend hformatted
    (f := fun file => { file with offset := file.offset + BitVec.ofNat 64 bytes.length }) h.used rfl
    hoffset,
    SameView.modFile { o with vfs := v } slot _⟩
  have hzero : BitVec.ofNat 64 bytes.length ≠ 0 := fun h0 => by
    have hzero : (0 : Word).toNat = 0 := rfl
    rw [h0, hzero] at hlength
    omega
  rw [syscallWrite, if_neg hzero, hlength, if_neg (by rw [syscallWriteMax]; omega), hread,
    if_neg (by decide), if_neg (slotFd_ne slot), h.usedFile_eq]
  dsimp only
  rw [h.name, h.offset, hwrite]
  dsimp only
  rw [hload]
  rfl

/-- The file is loaded to be looked at. -/
theorem loads (h : Stream o slot path c offset) {v : Vfs} (hv : Loads o.vfs v) :
    v.contents path = some c ∧ ((vfsDiskPath path).isSome = true → Formatted v.sfs) :=
  ⟨(hv.contents path).trans h.contents, fun hd => hv.sfs (fun _ hs => hs.tick) (h.formatted hd)⟩

/-- **A seek moves the place.** -/
theorem seek (h : Stream o slot path c offset) {place : Word} (hplace : place.toNat ≤ c.length) :
    ∃ o', syscallSeek o (slotFd slot) place = (o', place.toInt)
      ∧ Stream o' slot path c place.toNat ∧ SameView o.kernel o'.kernel := by
  have hdata := vfsFileData_routed (v := o.vfs) path fun hd => (h.formatted hd).serving 0
  have hv := vfsFileData_loads o.vfs path
  rw [syscallSeek, h.usedFile_eq]
  dsimp only
  rw [h.name]
  generalize vfsFileData o.vfs path = r at hdata hv ⊢
  obtain ⟨v, file⟩ := r
  obtain rfl : file = some c := hdata.trans h.contents
  obtain ⟨hcontents, hformatted⟩ := h.loads hv
  refine ⟨_, if_neg (Nat.not_lt.mpr hplace), h.moved hcontents hformatted h.used rfl rfl,
    SameView.modFile { o with vfs := v } slot _⟩

/-- **A read gives what comes next.** -/
theorem read (h : Stream o slot path c offset) (hplace : offset ≤ c.length) (hlen : c.length ≤ 4096)
    {length : Word} (hpos : 1 ≤ length.toNat) (hmax : length.toNat ≤ 128)
    (hwrite : o.writable buffer length = true)
    (hcells : WritableCells L o.kernel buffer length.toNat) :
    ∃ o', syscallRead L o (slotFd slot) buffer length
        = some (o', (((c.drop offset).take length.toNat).length : ℤ))
      ∧ userLoadBytes L o'.kernel buffer ((c.drop offset).take length.toNat).length
        = some ((c.drop offset).take length.toNat)
      ∧ Stream o' slot path c (offset + ((c.drop offset).take length.toNat).length)
      ∧ SameView o.kernel o'.kernel := by
  have hresult := read_formatted h.formatted h.contents offset true length.toNat
  have hv := vfsRead_loads o.vfs path offset true length.toNat
  rw [readPart, if_neg (by simp [hplace])] at hresult
  set part := (c.drop offset).take length.toNat with hpart
  have hle : part.length ≤ length.toNat := List.length_take_le ..
  have hfits : offset + part.length ≤ c.length := by
    rw [hpart, List.length_take, List.length_drop]
    omega
  obtain ⟨pages, hstore, hback, -⟩ := @userStoreBytes_load L o.kernel buffer part (by omega)
    fun i hi => hcells i (by omega)
  have hslot : (fdSlot (slotFd slot)).isNone = false := by rw [fdSlot_slotFd]; rfl
  have hcurrent : (currentTaskMutable o.kernel).isNone = false := by
    rw [currentTaskMutable, if_pos h.current]
    rfl
  have hlong : ¬ syscallReadMax < length.toNat := by
    rw [syscallReadMax]
    omega
  rw [syscallRead, hcurrent, hslot, decide_eq_false hlong, if_neg (by decide),
    if_neg (fun h0 => by rw [h0] at hpos; exact absurd hpos (by decide)), hwrite,
    if_neg (by decide),
    h.usedFile_eq]
  dsimp only
  rw [h.name, h.offset]
  generalize vfsRead o.vfs path offset true length.toNat = r at hresult hv ⊢
  obtain ⟨v, read⟩ := r
  obtain rfl : read = some part := hresult
  obtain ⟨hcontents, hformatted⟩ := h.loads hv
  have hoffset : ((o.file slot).offset + BitVec.ofNat 64 part.length).toNat
      = offset + part.length := by
    rw [advance_toNat (by rw [h.offset]; exact hfits.trans hlen), h.offset]
  have hview := (SameView.setPages o.kernel pages).trans
    (SameView.modFile { o with kernel := o.kernel.setPages pages, vfs := v } slot
      fun file => { file with offset := file.offset + BitVec.ofNat 64 part.length })
  dsimp only
  rw [hstore]
  refine ⟨_, rfl, ?_, (h.setPages pages).moved hcontents hformatted h.used rfl hoffset, hview⟩
  rw [← hback]
  exact SameView.userLoadBytes
    (SameView.modFile { o with kernel := o.kernel.setPages pages, vfs := v } slot _)
    rfl buffer _

end Stream

/-! ## Opening a stream -/

/-- No lower descriptor of the task is free. -/
def LowestFree (t : Task) (slot : Fin 4) : Prop :=
  (t.files slot).used = false ∧ ∀ j < slot, (t.files j).used = true

theorem freeFile_iff {t : Task} {slot : Fin 4} :
    freeFile t = some slot ↔ LowestFree t slot := by
  rw [freeFile, List.find?_eq_some_iff_getElem, LowestFree, Bool.not_eq_true']
  refine and_congr_right fun _ => ⟨?_, fun hbefore => ?_⟩
  · rintro ⟨i, hi, rfl, hbefore⟩ j hj
    rw [List.getElem_finRange] at hj
    simpa using hbefore j.val hj
  · refine ⟨slot.val, by simp, by simp, fun j hj => ?_⟩
    simpa using hbefore ⟨j, hj.trans slot.isLt⟩ hj

/-- A descriptor at the start of a path. -/
def startFile (path : CStr) (file : TaskFile) : TaskFile :=
  { used := true, path := putPath file.path (path.chars ++ [0]), offset := 0 }

/-- **A descriptor that was opened**: the lowest free one, at the start of its path. -/
structure Opened (o o' : OsState) (slot : Fin 4) (path : CStr) (create : Bool) : Prop where
  free : freeFile o.kernel.current = some slot
  current : o.kernel.currentTask < o.kernel.taskCount
  made : (openMade o.vfs path create).2 = true
  vfs : Loads (openMade o.vfs path create).1 o'.vfs
  kernel : o'.kernel = (o.modFile slot (startFile path)).kernel

/-- A descriptor rewritten twice is rewritten. -/
theorem modFile_modFile (o : OsState) (slot : Fin 4) (f g : TaskFile → TaskFile) :
    (o.modFile slot f).modFile slot g = o.modFile slot fun file => g (f file) := by
  rw [OsState.modFile, OsState.modFile, OsState.modFile]
  simp only [Kernel.modTask, Function.update_idem, Function.update_self]

section Open

variable {L : Layout} {o o' : OsState} {address length : Word} {create : Bool} {path : CStr}
    {fd : ℤ}

/-- `syscall_open`, over the path it copied. -/
def openResult (o : OsState) (path : CStr) (create : Bool) : OsState × ℤ :=
  match freeFile o.kernel.current with
  | none => o.inval
  | some file =>
    openFile (o.modFile file fun f => { f with path := putPath f.path (path.chars ++ [0]) }) file
      create

/-- **A path in readable memory is copied.** -/
theorem syscallOpen_eq (hcurrent : o.kernel.currentTask < o.kernel.taskCount) (hpos : length ≠ 0)
    (hshort : length.toNat < taskFilePathSize) (hread : o.readable address length = true)
    (hcopy : copyString L o.kernel address length.toNat = some (path, true)) (create : Bool) :
    syscallOpen L o address length create = some (openResult o path create) := by
  have hspace : (syscallAddressSpace o.kernel).isNone = false := by
    cases hnone : syscallAddressSpace o.kernel with
    | none =>
      rw [OsState.readable, hnone] at hread
      cases hread
    | some space => rfl
  rw [syscallOpen, currentTaskMutable, if_pos hcurrent]
  dsimp only
  rw [hspace, beq_false_of_ne hpos, decide_eq_false (Nat.not_le.mpr hshort), hread,
    if_neg (by decide), openResult, hcopy]
  cases freeFile o.kernel.current with
  | none => rfl
  | some file => rfl

/-- A file that is there, or was made, is opened. -/
theorem openResult_present {file : Fin 4} (hfree : freeFile o.kernel.current = some file)
    (hlen : path.length < 48) (hmade : (openMade o.vfs path create).2 = true) {bytes : List Byte}
    (hload : (vfsFileData (openMade o.vfs path create).1 path).2 = some bytes) :
    (openResult o path create).2 = 3 + (file.val : ℤ) := by
  rw [openResult, hfree]
  dsimp only
  rw [openFile_eq, modFile_file, name_putPath _ hlen]
  show (if !(openMade o.vfs path create).2 then _ else openLoaded _ file
    (vfsFileData (openMade o.vfs path create).1 path)).2 = _
  rw [hmade, if_neg (by decide)]
  generalize vfsFileData (openMade o.vfs path create).1 path = r at hload ⊢
  obtain ⟨v, read⟩ := r
  obtain rfl : read = some bytes := hload
  rfl

theorem syscallOpen_opened (h : syscallOpen L o address length create = some (o', fd))
    (hfd : 0 ≤ fd) :
    ∃ (path : CStr) (slot : Fin 4), copyString L o.kernel address length.toNat = some (path, true)
      ∧ path.length < 48 ∧ fd = 3 + (slot.val : ℤ) ∧ Opened o o' slot path create := by
  rw [syscallOpen] at h
  split at h
  · obtain ⟨-, rfl⟩ := Prod.mk.inj (Option.some.inj h)
    exact absurd hfd (by decide)
  rename_i t ht
  obtain ⟨hcurrent, ht⟩ := Option.ite_none_right_eq_some.mp ht
  obtain rfl := Option.some.inj ht
  split at h
  · obtain ⟨-, rfl⟩ := Prod.mk.inj (Option.some.inj h)
    exact absurd hfd (by decide)
  rename_i hok
  simp only [Bool.not_eq_true, Bool.or_eq_false_iff, decide_eq_false_iff_not, Nat.not_le] at hok
  split at h
  · obtain ⟨-, rfl⟩ := Prod.mk.inj (Option.some.inj h)
    exact absurd hfd (by decide)
  rename_i slot hfree
  split at h
  · cases h
  · obtain ⟨-, rfl⟩ := Prod.mk.inj (Option.some.inj h)
    exact absurd hfd (by decide)
  rename_i path hcopy
  have hlen : path.length < 48 := (copyString_length hcopy).2 rfl ▸ hok.1.2
  set copied := o.modFile slot fun f =>
    { f with path := putPath f.path (path.chars ++ [0]) } with hcopied
  have hfile : copied.file slot
      = { o.file slot with path := putPath (o.file slot).path (path.chars ++ [0]) } :=
    modFile_file o slot _
  have hname : (copied.file slot).name = path := by
    rw [hfile]
    exact name_putPath _ hlen
  have hvfs : copied.vfs = o.vfs := rfl
  have hloads := vfsFileData_loads (openMade o.vfs path create).1 path
  have hfinal := Option.some.inj h
  rw [openFile_eq, hname, hvfs] at hfinal
  split at hfinal
  · obtain ⟨-, rfl⟩ := Prod.mk.inj hfinal
    exact absurd hfd (by decide)
  rename_i hmade
  rw [openLoaded.eq_def] at hfinal
  split at hfinal
  · obtain ⟨-, rfl⟩ := Prod.mk.inj hfinal
    exact absurd hfd (by decide)
  · rename_i v bytes heq
    rw [heq] at hloads
    obtain ⟨rfl, rfl⟩ := Prod.mk.inj hfinal
    refine ⟨path, slot, hcopy, hlen, rfl, hfree, hcurrent, by simpa using hmade, hloads, ?_⟩
    have htwice : copied.modFile slot (fun f => { f with used := true, offset := 0 })
        = o.modFile slot (startFile path) := modFile_modFile o slot _ _
    show (copied.modFile slot fun f => { f with used := true, offset := 0 }).kernel = _
    rw [htwice]

theorem Opened.file {slot : Fin 4} (h : Opened o o' slot path create) :
    o'.file slot = startFile path (o.file slot) := by
  rw [OsState.file, h.kernel]
  exact modFile_file o slot _

/-- A file that was made is opened empty. -/
theorem Opened.stream {slot : Fin 4} (h : Opened o o' slot path true) (hnames : NamesOk o.vfs)
    (hlen : path.length < 48) (hdisk : (vfsDiskPath path).isSome = true → DiskOk o.vfs.sfs) :
    Stream o' slot path [] 0 ∧ SameView o.kernel o'.kernel := by
  obtain ⟨hcontents, hformatted⟩ := openMade_empty hnames hdisk h.made
  refine ⟨⟨?_, by rw [h.file]; rfl, ?_, by rw [h.file]; rfl, (h.vfs.contents path).trans hcontents,
    fun hd => h.vfs.sfs (fun _ hs => hs.tick) (hformatted hd)⟩, h.kernel ▸ SameView.modFile o slot
    _⟩
  · rw [h.kernel]
    exact h.current
  · rw [h.file]
    exact name_putPath { o.file slot with used := true, offset := 0 } hlen

end Open

/-! ## Calls, one after the other -/

section Runs

variable (L : Layout) (S : Symbols)

/-- A write of a program: its memory, and the bytes that stand there at `buffer`. -/
structure WriteCall where
  pages : Fin 4 → Fin 3 → Page
  buffer : Word
  bytes : List Byte

/-- The buffer is in mapped pages of the caller. -/
structure WriteCall.Ok (o : OsState) (w : WriteCall) : Prop where
  pos : 1 ≤ w.bytes.length
  max : w.bytes.length ≤ 128
  readable : o.readable w.buffer (BitVec.ofNat 64 w.bytes.length) = true
  load : userLoadBytes L (o.kernel.setPages w.pages) w.buffer w.bytes.length = some w.bytes

/-- A read: its memory, and where the bytes shall go. -/
structure ReadCall where
  pages : Fin 4 → Fin 3 → Page
  buffer : Word
  length : Word

structure ReadCall.Ok (o : OsState) (r : ReadCall) : Prop where
  pos : 1 ≤ r.length.toNat
  max : r.length.toNat ≤ 128
  writable : o.writable r.buffer r.length = true
  cells : WritableCells L o.kernel r.buffer r.length.toNat

/-- The program stores into its memory. -/
def OsState.setPages (o : OsState) (pages : Fin 4 → Fin 3 → Page) : OsState :=
  { o with kernel := o.kernel.setPages pages }

/-- `write`, again and again. -/
def writeAll (fd : Word) : List WriteCall → OsState → OsState × List SyscallEnd
  | [], o => (o, [])
  | w :: ws, o =>
    let r := syscallDispatch L S (o.setPages w.pages) 1 fd w.buffer (BitVec.ofNat 64 w.bytes.length)
      0
    let rest := writeAll fd ws r.1
    (rest.1, r.2 :: rest.2)

/-- What the program finds at `buffer` when a read returns. -/
def bytesFound (o : OsState) (buffer : Word) : SyscallEnd → Option (List Byte)
  | .returns n => userLoadBytes L o.kernel buffer n.toNat
  | _ => none

/-- `read`, again and again, with what each gives. -/
def readAll (fd : Word) : List ReadCall → OsState → List (SyscallEnd × Option (List Byte))
  | [], _ => []
  | r :: rs, o =>
    let e := syscallDispatch L S (o.setPages r.pages) 5 fd r.buffer r.length 0
    (e.2, bytesFound L e.1 r.buffer e.2) :: readAll fd rs e.1

/-- **The reads give `bytes` back**: piece after piece, to the end, and then nothing. -/
def GivesBack (bytes : List Byte) (lengths : List ℕ)
    (results : List (SyscallEnd × Option (List Byte))) :
    Prop :=
  ∃ parts : List (List Byte), results = parts.map (fun p => (.returns (p.length : ℤ), some p))
    ∧ (∀ n, (parts.take n).flatten <+: bytes)
    ∧ (∀ n : ℕ, parts[n]? = some [] → (parts.take n).flatten = bytes)
    ∧ ∀ n < lengths.length, bytes.length ≤ (lengths.take n).sum → parts[n]? = some []

end Runs

section Runs

variable {L : Layout} {S : Symbols} {o o' : OsState} {slot : Fin 4} {path : CStr} {c : List Byte}
  {offset : ℕ}

theorem WriteCall.Ok.congr {w : WriteCall} (h : w.Ok L o) (hview : SameView o.kernel o'.kernel) :
    w.Ok L o' where
  pos := h.pos
  max := h.max
  readable := (hview.readable _ _).trans h.readable
  load := by
    rw [← h.load]
    have hpages : SameView (o.kernel.setPages w.pages) (o'.kernel.setPages w.pages) :=
      ⟨hview.tables, hview.ttbr0, hview.space⟩
    exact hpages.userLoadBytes rfl _ _

theorem ReadCall.Ok.congr {r : ReadCall} (h : r.Ok L o) (hview : SameView o.kernel o'.kernel) :
    r.Ok L o' where
  pos := h.pos
  max := h.max
  writable := (hview.writable _ _).trans h.writable
  cells i hi := by
    rw [hview.userCell]
    exact h.cells i hi

/-- **The writes of a program** append, one after the other. -/
theorem Stream.writeAll (ws : List WriteCall) (h : Stream o slot path c c.length)
    (hok : ∀ w ∈ ws, w.Ok L o)
    (hfits : c.length + (ws.flatMap (·.bytes)).length ≤ 4096) :
    (writeAll L S (slotFd slot) ws o).2 = ws.map (fun w => .returns (w.bytes.length : ℤ))
      ∧ Stream (SaturnOS.writeAll L S (slotFd slot) ws o).1 slot path (c ++ ws.flatMap (·.bytes))
        (c ++ ws.flatMap (·.bytes)).length
      ∧ SameView o.kernel (SaturnOS.writeAll L S (slotFd slot) ws o).1.kernel := by
  induction ws generalizing o c with
  | nil =>
    rw [List.flatMap_nil, List.append_nil]
    exact ⟨rfl, h, SameView.refl _⟩
  | cons w ws ih =>
    have hw := hok w List.mem_cons_self
    rw [List.flatMap_cons, List.length_append] at hfits
    obtain ⟨o₁, hcall, hstream, hview⟩ := (h.setPages w.pages).write (L := L) hw.pos hw.max
      hw.readable
      hw.load (by omega)
    have hview : SameView o.kernel o₁.kernel := (SameView.setPages o.kernel w.pages).trans hview
    have hdispatch : syscallDispatch L S (o.setPages w.pages) 1 (slotFd slot) w.buffer
        (BitVec.ofNat 64 w.bytes.length) 0 = (o₁, .returns (w.bytes.length : ℤ)) :=
      congrArg (ended (o.setPages w.pages)) hcall
    obtain ⟨hresults, hstream', hview'⟩ :=
      ih hstream (fun w' hw' => (hok w' (List.mem_cons_of_mem _ hw')).congr hview)
      (by rw [List.length_append]; omega)
    rw [SaturnOS.writeAll, hdispatch, List.flatMap_cons, ← List.append_assoc]
    exact ⟨congrArg _ hresults, hstream', hview.trans hview'⟩

/-- **The reads of a program** give the rest of the file, piece after piece. -/
theorem Stream.readAll (rs : List ReadCall) (h : Stream o slot path c offset)
    (hplace : offset ≤ c.length)
    (hlen : c.length ≤ 4096) (hok : ∀ r ∈ rs, r.Ok L o) :
    readAll L S (slotFd slot) rs o = (cuts (rs.map (·.length.toNat)) (c.drop offset)).map
      fun p => (.returns (p.length : ℤ), some p) := by
  induction rs generalizing o offset with
  | nil => rfl
  | cons r rs ih =>
    have hr := hok r List.mem_cons_self
    obtain ⟨o₁, hcall, hback, hstream, hview⟩ := (h.setPages r.pages).read (L := L) hplace hlen
      hr.pos hr.max
      hr.writable fun i hi => by
        rw [(SameView.setPages o.kernel r.pages).userCell]
        exact hr.cells i hi
    have hview : SameView o.kernel o₁.kernel := (SameView.setPages o.kernel r.pages).trans hview
    have hdispatch : syscallDispatch L S (o.setPages r.pages) 5 (slotFd slot) r.buffer r.length 0
        = (o₁, .returns (((c.drop offset).take r.length.toNat).length : ℤ)) :=
      congrArg (ended (o.setPages r.pages)) hcall
    have hfound : bytesFound L o₁ r.buffer
      (.returns (((c.drop offset).take r.length.toNat).length : ℤ))
        = some ((c.drop offset).take r.length.toNat) := hback
    -- the next read starts where the piece ends
    have hnext : c.drop (offset + ((c.drop offset).take r.length.toNat).length)
        = (c.drop offset).drop r.length.toNat := by
      rw [List.drop_drop, List.length_take, List.length_drop]
      by_cases hshort : r.length.toNat ≤ c.length - offset
      · rw [Nat.min_eq_left hshort]
      · rw [List.drop_eq_nil_of_le (by omega), List.drop_eq_nil_of_le (by omega)]
    have hrest := ih hstream (by rw [List.length_take, List.length_drop]; omega)
      fun r' hr' => (hok r' (List.mem_cons_of_mem _ hr')).congr hview
    rw [SaturnOS.readAll, hdispatch, hrest, hnext, hfound, List.map_cons, cuts, List.map_cons]

/-- The pieces that were cut give the list back. -/
theorem givesBack_cuts {lengths : List ℕ} (hpos : ∀ n ∈ lengths, 0 < n) :
    GivesBack c lengths ((cuts lengths c).map fun p => (.returns (p.length : ℤ), some p)) :=
  ⟨cuts lengths c, rfl, fun _ => flatten_take_cuts ▸ List.take_prefix _ _,
    fun _ => flatten_of_cut_nil hpos, fun _ hn => cut_nil_of_le hn⟩

end Runs

end SaturnOS
