import SaturnOS.Fs.Namespace

/-!
# Fs/Residue — what a write past the end of a file exposes

    c ······ bytes          size ≤ k < offset : whatever node.data held there   (RAMFS)
    │        │              size ≤ k < offset : whatever disk_file_buffer held  (/disk)
    0  size  offset

The files of a run have intended contents, where a write past the end of a file puts zeros before
its bytes (`VfsRun`).  The code leaves out the zeros, so a run reads back as intended exactly when
the cells each such write exposes are zero already (`reads_back_iff`).
-/

open Machinery

namespace SaturnOS

/-! ## A store over any device -/

section Store

variable {s : Sfs} {path : CStr} {data : Buffer} {size : ℕ}

theorem blockWrite_true {dev dev' : Device} {sector count : ℕ} {buffer : ℕ → Byte}
    (h : blockWrite dev sector buffer count = (dev', true)) :
    dev.inRange sector count = true ∧ dev.serves 0 = true := by
  rw [blockWrite] at h
  split at h
  · cases h
  · rename_i hin
    split at h
    · cases h
    · rename_i hserves
      exact ⟨by simpa using hin, by simpa using hserves⟩

/-- The device takes the extent of a write that is not refused. -/
def Takes (s : Sfs) (path : CStr) (data : Buffer) (size : ℕ) : Prop :=
  canWrite s path data size = true ∧ s.device.serves 0 = true
    ∧ ∃ i, writeEntry s.directory path = some i ∧ s.Fits i

/-- An edit of a file that is there is taken. -/
theorem takes_of_contents {c : List Byte} {m : ℕ → Byte} (hc : s.contents path = some c)
    (hpath : pathValid sfsMaxPath path = true) (hserves : s.device.serves 0 = true)
    (hsize : size ≤ sfsMaxFileSize) : Takes s path (some m) size := by
  obtain ⟨hm, i, hfind, hs⟩ := contents_iff.mp hc
  refine ⟨canWrite_iff.mpr ⟨hm, hpath, .inr rfl, hsize⟩, hserves, i, ?_, hs.fits⟩
  rw [writeEntry, hfind]
  rfl

/-- **A write that is taken** is seen at its path, and at no other. -/
theorem writeFile_takes (htidy : Tidy s.directory s.device.sectorCount)
    (h : Takes s path data size) :
    (sfsWriteFile s path data size).1.contents path = some (bufferBytes data size)
      ∧ ∀ q, q ≠ path → (sfsWriteFile s path data size).1.contents q = s.contents q := by
  obtain ⟨hcan, hserves, i, hentry, hfits⟩ := h
  obtain ⟨hm, hpath, -, hsize⟩ := canWrite_iff.mp hcan
  have hlen := (pathValid_iff.mp hpath).2.1
  have hbytes : (bufferBytes data size).length ≤ sfsMaxFileSize := by
    rw [bufferBytes, length_cells]
    exact hsize
  have hin : s.device.inRange (entryStart s.directory i) sfsFileSectors = true :=
    Device.inRange_iff.mpr ⟨by decide, hfits⟩
  have hdone : ∀ s' : Sfs, s'.mounted = s.mounted →
      s'.directory = storeEntry s.directory i path (bufferBytes data size) →
      s'.device.sectorCount = s.device.sectorCount →
      (s'.device.data = storeExtent s i (bufferBytes data size)
        ∨ ∃ d, s'.device.data
          = blit (storeExtent s i (bufferBytes data size)) blockSectorSize d blockSectorSize) →
      s'.contents path = some (bufferBytes data size)
        ∧ ∀ q, q ≠ path → s'.contents q = s.contents q :=
    fun s' hm' hdir hcount hdata =>
      ⟨contents_written htidy hlen hbytes hfits hdir hcount hdata hentry (hm'.trans hm),
        fun q hq => contents_store htidy hlen hentry hfits hm' hdir hcount hdata hq⟩
  rw [sfsWriteFile, hcan, if_neg (by decide), hentry]
  dsimp only
  rw [blockWrite_served _ hin hserves]
  dsimp only [writeDirectory]
  obtain ⟨hcount, hwrite⟩ := blockWrite_spec { s.device.tick with
      data := blit s.device.data (blockSectorSize * entryStart s.directory i)
        (fun j => (bufferBytes data size).getD j 0) (blockSectorSize * sfsFileSectors) }
    sfsDirectorySector (storeEntry s.directory i path (bufferBytes data size)) 1
  refine hdone _ rfl rfl hcount ?_
  rcases hwrite with ⟨-, hdata⟩ | ⟨-, -, hdata⟩
  · exact .inl hdata
  · exact .inr ⟨_, hdata⟩

/-- **…and one that is not** fails and changes nothing. -/
theorem writeFile_idle (h : ¬ Takes s path data size) : (sfsWriteFile s path data size).2 = false
    ∧ ∀ q, (sfsWriteFile s path data size).1.contents q = s.contents q := by
  rw [sfsWriteFile]
  split
  · exact ⟨rfl, fun _ => rfl⟩
  · rename_i hcan
    rw [Bool.not_eq_true', Bool.not_eq_false] at hcan
    split
    · exact ⟨rfl, fun _ => rfl⟩
    · rename_i i hentry
      dsimp only
      have hspec := blockWrite_spec s.device (entryStart s.directory i)
        (fun j => (bufferBytes data size).getD j 0) sfsFileSectors
      split
      · rename_i dev heq
        rw [heq] at hspec
        obtain ⟨hcount, ⟨-, hdata⟩ | ⟨hok, -⟩⟩ := hspec
        · exact ⟨rfl, contents_device hcount hdata⟩
        · cases hok
      · rename_i dev heq
        obtain ⟨hin, hserves⟩ := blockWrite_true heq
        exact absurd ⟨hcan, hserves, i, hentry, (Device.inRange_iff.mp hin).2⟩ h

/-- A write leaves the directory tidy. -/
theorem writeFile_tidy (s : Sfs) (path : CStr) (data : Buffer) (size : ℕ)
    (htidy : Tidy s.directory s.device.sectorCount) :
    Tidy (sfsWriteFile s path data size).1.directory
      (sfsWriteFile s path data size).1.device.sectorCount := by
  have ho := writeFile_outcome s path data size
  generalize sfsWriteFile s path data size = r at ho ⊢
  cases ho with
  | refused => exact htidy
  | extentFailed hcount hdata => exact hcount.symm ▸ htidy
  | directoryFailed hpath hentry hfits hcount hdata =>
    exact hcount.symm ▸ htidy.congr fun j _ => storeEntry_start hpath j
  | stored hpath hentry hfits hcount hdata =>
    exact hcount.symm ▸ htidy.congr fun j _ => storeEntry_start hpath j

end Store

/-! ## Intended contents -/

/-- The VFS, and what its files should hold: those of RAMFS by node, which a rename keeps, those of
SaturnFS by path. -/
structure VfsRun where
  vfs : Vfs
  ram : Fin vfsMaxNodes → List Byte
  disk : CStr → Option (List Byte)

/-- What a path should read back. -/
def VfsRun.intended (g : VfsRun) (path : CStr) : Option (List Byte) :=
  match vfsDiskPath path with
  | some diskPath => g.disk diskPath
  | none => (ramFile g.vfs path).map g.ram

/-- What an operation is to make of a file; a write past its end puts zeros before its bytes. -/
def VfsOp.edit : VfsOp → Option (CStr × (List Byte → List Byte))
  | .create path data size => some (path, fun _ => bufferBytes data size)
  | .write path offset buffer size =>
    some (path, fun c => splice c offset (bufferBytes buffer size))
  | .truncate path size => some (path, fun c => resize c size)
  | _ => none

/-- Whether it says that it did. -/
def vfsDone (v : Vfs) : VfsOp → Bool
  | .create path data size => (vfsCreate v path data size).2
  | .write path offset buffer size => (vfsWrite v path offset buffer size).2.isSome
  | .truncate path size => (vfsTruncate v path size).2
  | _ => false

def runEdit (g : VfsRun) (v' : Vfs) (done : Bool) (path : CStr) (f : List Byte → List Byte) :
    VfsRun :=
  match vfsDiskPath path with
  | some diskPath =>
    -- a store can say that it failed with the directory in memory changed
    if done = true ∨ v'.sfs.contents diskPath ≠ g.vfs.sfs.contents diskPath then
      { g with
        vfs := v'
        disk := Function.update g.disk diskPath (some (f ((g.disk diskPath).getD []))) }
    else { g with vfs := v' }
  | none =>
    match ramFile v' path with
    | some i =>
      if done = true then { g with vfs := v', ram := Function.update g.ram i (f (g.ram i)) }
      else { g with vfs := v' }
    | none => { g with vfs := v' }

def runStep (g : VfsRun) (op : VfsOp) : Option VfsRun :=
  (vfsStep g.vfs op).map fun v' =>
    match op.edit with
    | some (path, f) => runEdit g v' (vfsDone g.vfs op) path f
    | none => { g with vfs := v' }

/-- The run starts with the files SaturnFS has. -/
def VfsRun.start (v : Vfs) : VfsRun := ⟨vfsInit v, fun _ => [], v.sfs.contents⟩

/-- Every file reads back as intended. -/
structure ReadsBack (g : VfsRun) : Prop where
  contents : ∀ path, g.vfs.contents path = g.intended path
  reads : ∀ path offset hasBuffer size bytes,
    (vfsRead g.vfs path offset hasBuffer size).2 = some bytes →
    ∃ c, g.intended path = some c ∧ offset ≤ c.length ∧ bytes = (c.drop offset).take size

/-! ## The condition -/

/-- The cells from `n` up to `a` are zero. -/
def Clear (m : ℕ → Byte) (n a : ℕ) : Prop := ∀ k, n ≤ k → k < a → m k = 0

/-- The device serves the load and the store of an edit, and SaturnFS takes the path. -/
def DiskTakes (v : Vfs) (diskPath : CStr) : Prop :=
  pathValid sfsMaxPath diskPath = true ∧ v.sfs.device.serves 0 = true
    ∧ v.sfs.device.serves 1 = true

/-- A write that is accepted exposes no residue: between the end of the file and the offset the
node's data, or `disk_file_buffer`, is zero. -/
def NoResidue (v : Vfs) : VfsOp → Prop
  | .write path offset buffer size =>
    (size = 0 ∨ buffer.isSome = true) → offset + size ≤ 4096 →
      match vfsDiskPath path with
      | some diskPath => size ≠ 0 → DiskTakes v diskPath →
        ∀ c, v.sfs.contents diskPath = some c → Clear v.diskFileBuffer c.length offset
      | none => ∀ i, ramFile v path = some i → Clear (v.nodes i).data (v.nodes i).size offset
  | _ => True

/-! ## The invariant -/

structure Faithful (g : VfsRun) : Prop where
  names : NamesOk g.vfs
  tidy : Tidy g.vfs.sfs.directory g.vfs.sfs.device.sectorCount
  ram : ∀ i, (g.vfs.nodes i).used = true → (g.vfs.nodes i).kind = .file →
    (g.vfs.nodes i).bytes = g.ram i
  disk : ∀ q, g.vfs.sfs.contents q = g.disk q

namespace Faithful

variable {g : VfsRun} (h : Faithful g)

include h

theorem readsBack : ReadsBack g := by
  have hcontents : ∀ path, g.vfs.contents path = g.intended path := by
    intro path
    rw [Vfs.contents, VfsRun.intended]
    cases vfsDiskPath path with
    | some diskPath => exact h.disk diskPath
    | none =>
      refine Option.map_congr fun i hi => ?_
      obtain ⟨hused, hkind, -⟩ := ramFile_spec hi
      exact h.ram i hused hkind
  refine ⟨hcontents, fun path offset hasBuffer size bytes hread => ?_⟩
  rcases vfsRead_result g.vfs path offset hasBuffer size with heq | ⟨hnone, -⟩
  · rw [heq, hcontents] at hread
    obtain ⟨c, hc, hpart⟩ := Option.bind_eq_some_iff.mp hread
    rw [readPart] at hpart
    split at hpart
    · cases hpart
    · rename_i hok
      rw [not_or, not_lt] at hok
      exact ⟨c, hc, hok.2, (Option.some.inj hpart).symm⟩
  · cases hnone.symm.trans hread

variable {v' : Vfs} (hnames : NamesOk v') (htidy : Tidy v'.sfs.directory v'.sfs.device.sectorCount)

include hnames htidy

/-- Files come from files, with the bytes they had. -/
theorem quiet (hnodes : ∀ i, (v'.nodes i).used = true → (v'.nodes i).kind = .file →
      (g.vfs.nodes i).used = true ∧ (g.vfs.nodes i).kind = .file
        ∧ (v'.nodes i).bytes = (g.vfs.nodes i).bytes)
    (hsfs : ∀ q, v'.sfs.contents q = g.vfs.sfs.contents q) : Faithful { g with vfs := v' } where
  names := hnames
  tidy := htidy
  ram i hused hkind := by
    obtain ⟨hused', hkind', hbytes⟩ := hnodes i hused hkind
    exact hbytes.trans (h.ram i hused' hkind')
  disk q := (hsfs q).trans (h.disk q)

variable {path : CStr} {f : List Byte → List Byte} {done : Bool}

/-- One node is edited as intended. -/
theorem editRam (hd : vfsDiskPath path = none) {i : Fin vfsMaxNodes} (hi : ramFile v' path = some i)
    (hbytes : (v'.nodes i).bytes = f (g.ram i))
    (hnodes : ∀ j, j ≠ i → v'.nodes j = g.vfs.nodes j)
    (hsfs : ∀ q, v'.sfs.contents q = g.vfs.sfs.contents q) :
    Faithful (runEdit g v' true path f) := by
  rw [runEdit, hd]
  dsimp only
  rw [hi]
  dsimp only
  rw [if_pos rfl]
  refine ⟨hnames, htidy, fun j hused hkind => ?_, fun q => (hsfs q).trans (h.disk q)⟩
  dsimp only
  by_cases hj : j = i
  · subst hj
    rw [Function.update_self]
    exact hbytes
  · rw [Function.update_of_ne hj]
    dsimp only at hused hkind
    rw [hnodes j hj] at hused hkind ⊢
    exact h.ram j hused hkind

/-- A file of SaturnFS is edited as intended, or left as it was. -/
theorem editDisk {diskPath : CStr} (hd : vfsDiskPath path = some diskPath)
    (hnodes : v'.nodes = g.vfs.nodes)
    (hothers : ∀ q, q ≠ diskPath → v'.sfs.contents q = g.vfs.sfs.contents q)
    (hpath : done = false ∧ v'.sfs.contents diskPath = g.vfs.sfs.contents diskPath
      ∨ v'.sfs.contents diskPath = some (f ((g.disk diskPath).getD []))) :
    Faithful (runEdit g v' done path f) := by
  have hram : ∀ i, (v'.nodes i).used = true → (v'.nodes i).kind = .file →
      (v'.nodes i).bytes = g.ram i := by
    rw [hnodes]
    exact h.ram
  rw [runEdit, hd]
  dsimp only
  split
  · rename_i hsettled
    have hedited : v'.sfs.contents diskPath = some (f ((g.disk diskPath).getD [])) := by
      refine hpath.resolve_left fun hsame => ?_
      rcases hsettled with hdone | hne
      · cases hsame.1.symm.trans hdone
      · exact hne hsame.2
    refine ⟨hnames, htidy, hram, fun q => ?_⟩
    dsimp only
    by_cases hq : q = diskPath
    · subst hq
      rw [Function.update_self]
      exact hedited
    · rw [Function.update_of_ne hq]
      exact (hothers q hq).trans (h.disk q)
  · rename_i hsettled
    rw [not_or, not_not] at hsettled
    refine ⟨hnames, htidy, hram, fun q => ?_⟩
    by_cases hq : q = diskPath
    · subst hq
      exact hsettled.2.trans (h.disk q)
    · exact (hothers q hq).trans (h.disk q)

end Faithful

/-! ## Operations that edit no file -/

theorem vfsMkdir_node {v : Vfs} {path : CStr} {i : Fin vfsMaxNodes}
    (hkind : ((vfsMkdir v path).1.nodes i).kind = .file) :
    (vfsMkdir v path).1.nodes i = v.nodes i := by
  rw [vfsMkdir] at hkind ⊢
  split
  · rfl
  · rename_i hok
    rw [if_neg hok] at hkind
    split
    · rfl
    · rename_i j halloc
      rw [halloc] at hkind
      refine Function.update_of_ne ?_ ..
      rintro rfl
      dsimp only at hkind
      rw [Function.update_self] at hkind
      cases hkind

theorem vfsRemove_node {v : Vfs} {path : CStr} {i : Fin vfsMaxNodes}
    (hused : ((vfsRemove v path).1.nodes i).used = true) :
    (vfsRemove v path).1.nodes i = v.nodes i := by
  have hcases : (vfsRemove v path).1.nodes = v.nodes ∨ ∃ n node, node.used = false
      ∧ (vfsRemove v path).1.nodes = Function.update v.nodes n node := by
    rw [vfsRemove]
    split
    · exact .inl rfl
    · dsimp only
      split
      · split
        · exact .inl rfl
        · exact .inr ⟨_, _, rfl, rfl⟩
      · exact .inr ⟨_, _, rfl, rfl⟩
  rcases hcases with heq | ⟨n, node, hfree, heq⟩
  · rw [heq]
  · rw [heq] at hused ⊢
    refine Function.update_of_ne ?_ ..
    rintro rfl
    rw [Function.update_self, hfree] at hused
    cases hused

theorem vfsRename_state (v : Vfs) (old new : CStr) :
    (vfsRename v old new).1 = v ∨ ∃ n, (vfsRename v old new).1 = renamed v n old new := by
  rw [vfsRename]
  split
  · exact .inl rfl
  · rename_i n hfind
    repeat' split
    all_goals first | exact .inl rfl | exact .inr ⟨n, rfl⟩

/-- Files come from files, with the bytes they had. -/
theorem quiet_node {v v' : Vfs} {op : VfsOp} (hedit : op.edit = none)
    (hstep : vfsStep v op = some v') {i : Fin vfsMaxNodes} (hused : (v'.nodes i).used = true)
    (hkind : (v'.nodes i).kind = .file) : (v.nodes i).used = true ∧ (v.nodes i).kind = .file
      ∧ (v'.nodes i).bytes = (v.nodes i).bytes := by
  have hsame : v'.nodes i = v.nodes i → (v.nodes i).used = true ∧ (v.nodes i).kind = .file
      ∧ (v'.nodes i).bytes = (v.nodes i).bytes := fun heq => ⟨heq ▸ hused, heq ▸ hkind, by rw [heq]⟩
  cases op with
  | mkdir path =>
    obtain rfl := Option.some.inj hstep
    exact hsame (vfsMkdir_node hkind)
  | remove path =>
    obtain rfl := Option.some.inj hstep
    exact hsame (vfsRemove_node hused)
  | rename old new =>
    obtain rfl := Option.some.inj hstep
    rcases vfsRename_state v old new with heq | ⟨n, heq⟩
    · exact hsame (by rw [heq])
    · obtain ⟨path, hnode⟩ := renamed_node v n i old new
      rw [heq, hnode] at hused hkind ⊢
      exact ⟨hused, hkind, rfl⟩
  | create path data size => cases hedit
  | write path offset buffer size => cases hedit
  | truncate path size => cases hedit
  | read path offset hasBuffer size =>
    obtain rfl := Option.some.inj hstep
    exact hsame (congrFun (vfsRead_loads v path offset hasBuffer size).nodes i)
  | fileData path =>
    obtain rfl := Option.some.inj hstep
    exact hsame (congrFun (vfsFileData_loads v path).nodes i)

theorem quiet_contents {v v' : Vfs} {op : VfsOp} (hedit : op.edit = none)
    (hstep : vfsStep v op = some v') (q : CStr) : v'.sfs.contents q = v.sfs.contents q := by
  cases op with
  | mkdir path => exact Option.some.inj hstep ▸ congrArg (Sfs.contents · q) (vfsMkdir_sfs path)
  | remove path => exact Option.some.inj hstep ▸ congrArg (Sfs.contents · q) (vfsRemove_sfs path)
  | rename old new =>
    exact Option.some.inj hstep ▸ congrArg (Sfs.contents · q) (vfsRename_sfs old new)
  | create path data size => cases hedit
  | write path offset buffer size => cases hedit
  | truncate path size => cases hedit
  | read path offset hasBuffer size =>
    obtain rfl := Option.some.inj hstep
    exact (vfsRead_loads v path offset hasBuffer size).sfs_contents q
  | fileData path =>
    obtain rfl := Option.some.inj hstep
    exact (vfsFileData_loads v path).sfs_contents q

/-! ## Operations that edit one -/

theorem runEdit_undone {g : VfsRun} {v' : Vfs} {path : CStr} {f : List Byte → List Byte}
    (hd : vfsDiskPath path = none) : runEdit g v' false path f = { g with vfs := v' } := by
  rw [runEdit, hd]
  dsimp only
  split <;> rfl

theorem runEdit_vfs (g : VfsRun) (v' : Vfs) (done : Bool) (path : CStr)
    (f : List Byte → List Byte) :
    (runEdit g v' done path f).vfs = v' := by
  rw [runEdit]
  split
  · split <;> rfl
  · split
    · split <;> rfl
    · rfl

/-- What the path of an edit should read back. -/
theorem runEdit_ram {g : VfsRun} {v' : Vfs} {path : CStr} {f : List Byte → List Byte}
    {i : Fin vfsMaxNodes} (hd : vfsDiskPath path = none) (hi : ramFile v' path = some i) :
    (runEdit g v' true path f).intended path = some (f (g.ram i)) := by
  have hrun : runEdit g v' true path f
      = { g with vfs := v', ram := Function.update g.ram i (f (g.ram i)) } := by
    rw [runEdit, hd]
    dsimp only
    rw [hi]
    exact if_pos rfl
  rw [hrun, VfsRun.intended, hd]
  dsimp only
  rw [hi, Option.map_some, Function.update_self]

theorem runEdit_disk {g : VfsRun} {v' : Vfs} {done : Bool} {path diskPath : CStr}
    {f : List Byte → List Byte} (hd : vfsDiskPath path = some diskPath)
    (hchanged : v'.sfs.contents diskPath ≠ g.vfs.sfs.contents diskPath) :
    (runEdit g v' done path f).intended path = some (f ((g.disk diskPath).getD [])) := by
  have hrun : runEdit g v' done path f = { g with
      vfs := v'
      disk := Function.update g.disk diskPath (some (f ((g.disk diskPath).getD []))) } := by
    rw [runEdit, hd]
    exact if_pos (.inr hchanged)
  rw [hrun, VfsRun.intended, hd]
  exact Function.update_self ..

/-- How a creation in RAMFS can end. -/
inductive RamCreate (v : Vfs) (path : CStr) (data : Buffer) (size : ℕ) : Vfs × Bool → Prop
  | refused : RamCreate v path data size (v, false)
  | created {i : Fin vfsMaxNodes} {node : RamfsNode} (hpath : vfsPathValid path = true)
      (hused : node.used = true) (hkind : node.kind = .file)
      (hspells : Spells node.path 0 path.chars) (hbytes : node.bytes = bufferBytes data size) :
      RamCreate v path data size ({ v with
        nodes := Function.update v.nodes i node, fileCount := v.fileCount + 1 }, true)

theorem vfsCreate_ram {v : Vfs} {path : CStr} (hd : vfsDiskPath path = none) (data : Buffer)
    (size : ℕ) : RamCreate v path data size (vfsCreate v path data size) := by
  rw [vfsCreate, hd]
  dsimp only
  split
  · exact .refused
  · rename_i hok
    simp only [Bool.not_eq_true, Bool.or_eq_false_iff, Bool.not_eq_false'] at hok
    split
    · exact .refused
    · rename_i i halloc
      refine .created hok.1.1.1.1.1 rfl rfl (spells_putString path.noNul)
        (cells_congr fun k hk => ?_)
      exact (blit_inside (n := size) hk).trans (congrArg _ (Nat.zero_add k).symm)

/-- A path names the node that has it. -/
theorem NamesOk.ramFile_eq {v : Vfs} (h : NamesOk v) {path : CStr} {i : Fin vfsMaxNodes}
    (hpath : vfsPathValid path = true) (hused : (v.nodes i).used = true)
    (hkind : (v.nodes i).kind = .file) (hspells : Spells (v.nodes i).path 0 path.chars) :
    ramFile v path = some i :=
  Option.filter_eq_some_iff.mpr
    ⟨h.find_iff.mpr (nodeName_eq hused hspells hpath), beq_iff_eq.mpr hkind⟩

namespace Faithful

variable {g : VfsRun} (h : Faithful g)

include h

theorem names_step {op : VfsOp} {v' : Vfs} (hstep : vfsStep g.vfs op = some v') : NamesOk v' :=
  h.names.step hstep

theorem tidy_step {op : VfsOp} {v' : Vfs} (hstep : vfsStep g.vfs op = some v') :
    Tidy v'.sfs.directory v'.sfs.device.sectorCount :=
  vfsStep_sfs (P := fun s => Tidy s.directory s.device.sectorCount) (fun _ h => h)
    (fun s path data size h => writeFile_tidy s path data size h) hstep h.tidy

/-- Nothing changes, and the operation says so. -/
theorem undone {path : CStr} {f : List Byte → List Byte} {v' : Vfs} (hv : Loads g.vfs v') :
    Faithful (runEdit g v' false path f) := by
  have hnames := h.names.loads hv
  have htidy : Tidy v'.sfs.directory v'.sfs.device.sectorCount :=
    hv.sfs (P := fun s => Tidy s.directory s.device.sectorCount) (fun _ h => h) h.tidy
  cases hd : vfsDiskPath path with
  | none =>
    rw [runEdit_undone hd]
    refine h.quiet hnames htidy (fun i hused hkind => ?_) hv.sfs_contents
    rw [hv.nodes] at hused hkind ⊢
    exact ⟨hused, hkind, rfl⟩
  | some diskPath =>
    exact h.editDisk hnames htidy hd hv.nodes (fun q _ => hv.sfs_contents q)
      (.inl ⟨rfl, hv.sfs_contents diskPath⟩)

/-- **A store that edits a file as intended**, taken or not. -/
theorem store {path diskPath : CStr} (hd : vfsDiskPath path = some diskPath)
    {f : List Byte → List Byte} {s : Sfs} {data : Buffer} {size : ℕ} {v' : Vfs} {done : Bool}
    (hs : s = g.vfs.sfs ∨ s = g.vfs.tick.sfs) (hnames : NamesOk v')
    (hnodes : v'.nodes = g.vfs.nodes)
    (hv : v'.sfs = (sfsWriteFile s diskPath data size).1)
    (hdone : (sfsWriteFile s diskPath data size).2 = false → done = false)
    (hedit : Takes s diskPath data size →
      bufferBytes data size = f ((g.disk diskPath).getD [])) :
    Faithful (runEdit g v' done path f) := by
  have htidy : Tidy s.directory s.device.sectorCount := by rcases hs with rfl | rfl <;> exact h.tidy
  have hcontents : ∀ q, s.contents q = g.vfs.sfs.contents q := by
    rcases hs with rfl | rfl
    · exact fun _ => rfl
    · exact contents_device rfl rfl
  have htidy' : Tidy v'.sfs.directory v'.sfs.device.sectorCount := by
    rw [hv]
    exact writeFile_tidy s diskPath data size htidy
  by_cases htakes : Takes s diskPath data size
  · obtain ⟨hpath, hothers⟩ := writeFile_takes htidy htakes
    refine h.editDisk hnames htidy' hd hnodes (fun q hq => ?_) (.inr ?_)
    · rw [hv]
      exact (hothers q hq).trans (hcontents q)
    · rw [hv, hpath, hedit htakes]
  · obtain ⟨hfailed, hsame⟩ := writeFile_idle htakes
    refine h.editDisk hnames htidy' hd hnodes (fun q _ => ?_) (.inl ⟨hdone hfailed, ?_⟩)
    · rw [hv]
      exact (hsame q).trans (hcontents q)
    · rw [hv]
      exact (hsame diskPath).trans (hcontents diskPath)

theorem create (path : CStr) (data : Buffer) (size : ℕ) :
    Faithful (runEdit g (vfsCreate g.vfs path data size).1 (vfsCreate g.vfs path data size).2 path
      fun _ => bufferBytes data size) := by
  have hnames := h.names.create path data size
  have htidy := h.tidy_step (show vfsStep g.vfs (.create path data size) = some _ from rfl)
  cases hd : vfsDiskPath path with
  | none =>
    have ho := vfsCreate_ram (v := g.vfs) hd data size
    generalize vfsCreate g.vfs path data size = r at ho hnames htidy ⊢
    cases ho with
    | refused => exact h.undone (.inl rfl)
    | @created i node hpath hused hkind hspells hbytes =>
      have hi : (Function.update g.vfs.nodes i node) i = node := Function.update_self ..
      refine h.editRam hnames htidy hd (i := i) (hnames.ramFile_eq hpath ?_ ?_ ?_) ?_
        (fun j hj => Function.update_of_ne hj ..) fun _ => rfl
      · exact (congrArg RamfsNode.used hi).trans hused
      · exact (congrArg RamfsNode.kind hi).trans hkind
      · dsimp only
        rw [hi]
        exact hspells
      · exact (congrArg RamfsNode.bytes hi).trans hbytes
  | some diskPath =>
    rw [vfsCreate, hd] at hnames ⊢
    exact h.store hd (.inl rfl) hnames rfl rfl (fun hfailed => hfailed) fun _ => rfl

theorem truncate (path : CStr) (size : ℕ) :
    Faithful (runEdit g (vfsTruncate g.vfs path size).1 (vfsTruncate g.vfs path size).2 path
      fun c => resize c size) := by
  have hnames := h.names.truncate path size
  have htidy := h.tidy_step (show vfsStep g.vfs (.truncate path size) = some _ from rfl)
  cases hd : vfsDiskPath path with
  | none =>
    have ho := vfsTruncate_ram (v := g.vfs) hd size
    generalize vfsTruncate g.vfs path size = r at ho hnames htidy ⊢
    cases ho with
    | refused hbad => exact h.undone (.inl rfl)
    | @edited i hi hok =>
      obtain ⟨hused, hkind, -⟩ := ramFile_spec hi
      refine h.editRam hnames htidy hd (i := i) ((ramFile_setFile ..).trans hi) ?_
        (fun j hj => setFile_other _ _ _ _ hj) fun _ => rfl
      dsimp only
      rw [setFile_self, ← h.ram i hused hkind]
      exact bytes_truncated (g.vfs.nodes i) size
  | some diskPath =>
    have ho := vfsTruncate_outcome (v := g.vfs) hd size
    generalize vfsTruncate g.vfs path size = r at ho hnames ⊢
    cases ho with
    | refused hbad => exact h.undone (.inl rfl)
    | unread hv hnone => exact h.undone hv
    | @edited c data r hserves hc hok hdata hr =>
      subst hr
      refine h.store hd (.inr rfl) hnames rfl rfl (fun hfailed => hfailed) fun _ => ?_
      rw [← h.disk, hc, hdata]
      exact cells_truncated g.vfs c size

section Write

variable (path : CStr) (offset : ℕ) (buffer : Buffer) (size : ℕ)

/-- **A write that exposes no residue** edits its file as intended. -/
theorem write (hres : NoResidue g.vfs (.write path offset buffer size)) :
    Faithful (runEdit g (vfsWrite g.vfs path offset buffer size).1
      (vfsWrite g.vfs path offset buffer size).2.isSome path
      fun c => splice c offset (bufferBytes buffer size)) := by
  have hnames := h.names.write path offset buffer size
  have htidy := h.tidy_step (show vfsStep g.vfs (.write path offset buffer size) = some _ from rfl)
  cases hd : vfsDiskPath path with
  | none =>
    simp only [NoResidue, hd] at hres
    have ho := vfsWrite_ram (v := g.vfs) hd offset buffer size
    generalize vfsWrite g.vfs path offset buffer size = r at ho hnames htidy ⊢
    cases ho with
    | refused hbad => exact h.undone (.inl rfl)
    | @edited i hi hok =>
      obtain ⟨hused, hkind, -⟩ := ramFile_spec hi
      refine h.editRam hnames htidy hd (i := i) ((ramFile_setFile ..).trans hi) ?_
        (fun j hj => setFile_other _ _ _ _ hj) fun _ => rfl
      dsimp only
      rw [setFile_self, ← h.ram i hused hkind]
      exact cells_splice_iff.mpr (hres hok.1 hok.2 i hi)
  | some diskPath =>
    simp only [NoResidue, hd] at hres
    have ho := vfsWrite_outcome (v := g.vfs) hd offset buffer size
    generalize vfsWrite g.vfs path offset buffer size = r at ho hnames ⊢
    cases ho with
    | refused hbad => exact h.undone (.inl rfl)
    | unread hv hnone => exact h.undone hv
    | @edited c data r hserves hc hok hdata hr =>
      subst hr
      refine h.store hd (.inr rfl) hnames rfl rfl (fun hfailed => ?_) fun htakes => ?_
      · refine congrArg Option.isSome (if_neg fun hok => ?_)
        cases hfailed.symm.trans hok
      · obtain ⟨-, hpath, -⟩ := canWrite_iff.mp htakes.1
        rw [← h.disk, hc, hdata]
        exact (cells_edited_iff g.vfs c offset _ size).mpr
          (hres (.inr hok.2.1) hok.2.2 hok.1 ⟨hpath, hserves, htakes.2.1⟩ c hc)

/-- What a write that reads back as intended exposes, in RAMFS. -/
theorem clear_ram (hd : vfsDiskPath path = none) {i : Fin vfsMaxNodes}
    (hi : ramFile g.vfs path = some i) (hbuffer : size = 0 ∨ buffer.isSome = true)
    (hfits : offset + size ≤ vfsMaxFileSize)
    (hback : (vfsWrite g.vfs path offset buffer size).1.contents path
      = (runEdit g (vfsWrite g.vfs path offset buffer size).1
        (vfsWrite g.vfs path offset buffer size).2.isSome path
        fun c => splice c offset (bufferBytes buffer size)).intended path) :
    Clear (g.vfs.nodes i).data (g.vfs.nodes i).size offset := by
  obtain ⟨hused, hkind, -⟩ := ramFile_spec hi
  rw [vfsWrite_setFile hd hi hbuffer hfits] at hback
  dsimp only [Option.isSome_some] at hback
  rw [contents_setFile hd hi, runEdit_ram hd ((ramFile_setFile ..).trans hi),
    ← h.ram i hused hkind] at hback
  exact cells_splice_iff.mp (Option.some.inj hback)

/-- …and in SaturnFS, where the file has grown, so that the run has the write. -/
theorem clear_disk {diskPath : CStr} (hd : vfsDiskPath path = some diskPath)
    (htakes : DiskTakes g.vfs diskPath) {c : List Byte}
    (hc : g.vfs.sfs.contents diskPath = some c) (hsize : size ≠ 0)
    (hbuffer : buffer.isSome = true) (hfits : offset + size ≤ sfsMaxFileSize)
    (hback : (vfsWrite g.vfs path offset buffer size).1.contents path
      = (runEdit g (vfsWrite g.vfs path offset buffer size).1
        (vfsWrite g.vfs path offset buffer size).2.isSome path
        fun c => splice c offset (bufferBytes buffer size)).intended path) :
    Clear g.vfs.diskFileBuffer c.length offset := by
  intro k hk hlt
  obtain ⟨hvalid, hserves, hserves'⟩ := htakes
  obtain ⟨f, rfl⟩ := Option.isSome_iff_exists.mp hbuffer
  obtain ⟨r, hr, heq⟩ := vfsWrite_edited hd hserves hc f hsize hfits
  rw [heq, contents_routed hd] at hback
  have htakes : Takes g.vfs.tick.sfs diskPath (some (blit (loadedBuffer g.vfs c) offset f size))
      (max (offset + size) c.length) :=
    takes_of_contents ((contents_device rfl rfl diskPath).trans hc) hvalid hserves'
      (Nat.max_le.mpr ⟨hfits, length_le_of_contents hc⟩)
  have hstored : r.1.sfs.contents diskPath
      = some (cells (blit (loadedBuffer g.vfs c) offset f size) 0
      (max (offset + size) c.length)) := by
    rw [hr]
    exact (writeFile_takes (s := g.vfs.tick.sfs) h.tidy htakes).1
  have hchanged : r.1.sfs.contents diskPath ≠ g.vfs.sfs.contents diskPath := by
    rw [hstored, hc]
    intro hsame
    have hlen := congrArg List.length (Option.some.inj hsame)
    rw [length_cells] at hlen
    omega
  rw [hstored, runEdit_disk hd hchanged, ← h.disk, hc] at hback
  exact (cells_edited_iff g.vfs c offset f size).mp (Option.some.inj hback) k hk hlt

/-- **…and only such a write does.** -/
theorem noResidue (hback : ReadsBack (runEdit g (vfsWrite g.vfs path offset buffer size).1
      (vfsWrite g.vfs path offset buffer size).2.isSome path
      fun c => splice c offset (bufferBytes buffer size))) :
    NoResidue g.vfs (.write path offset buffer size) := by
  have hpath := hback.contents path
  rw [runEdit_vfs] at hpath
  cases hd : vfsDiskPath path with
  | none =>
    simp only [NoResidue, hd]
    exact fun hbuffer hfits i hi => h.clear_ram path offset buffer size hd hi hbuffer hfits hpath
  | some diskPath =>
    simp only [NoResidue, hd]
    exact fun hbuffer hfits hsize htakes c hc => h.clear_disk path offset buffer size hd htakes hc
      hsize (hbuffer.resolve_left hsize) hfits hpath

end Write

/-- **One step**: it reads back as intended exactly when it exposes no residue. -/
theorem step {op : VfsOp} {g' : VfsRun} (hstep : runStep g op = some g') :
    (ReadsBack g' ↔ NoResidue g.vfs op) ∧ (NoResidue g.vfs op → Faithful g') := by
  obtain ⟨v', hv, rfl⟩ := Option.map_eq_some_iff.mp hstep
  have hquiet : op.edit = none → Faithful { g with vfs := v' } := fun hedit =>
    h.quiet (h.names_step hv) (h.tidy_step hv) (fun i => quiet_node hedit hv)
      (quiet_contents hedit hv)
  have hfaithful : ∀ {g' : VfsRun}, Faithful g' → (ReadsBack g' ↔ True) ∧ (True → Faithful g') :=
    fun hg => ⟨iff_of_true hg.readsBack trivial, fun _ => hg⟩
  cases op with
  | mkdir path => exact hfaithful (hquiet rfl)
  | remove path => exact hfaithful (hquiet rfl)
  | rename old new => exact hfaithful (hquiet rfl)
  | create path data size =>
    obtain rfl := Option.some.inj hv
    exact hfaithful (h.create path data size)
  | write path offset buffer size =>
    obtain rfl := Option.some.inj hv
    exact ⟨⟨h.noResidue path offset buffer size, fun hres =>
      (h.write path offset buffer size hres).readsBack⟩,
      h.write path offset buffer size⟩
  | truncate path size =>
    obtain rfl := Option.some.inj hv
    exact hfaithful (h.truncate path size)
  | read path offset hasBuffer size => exact hfaithful (hquiet rfl)
  | fileData path => exact hfaithful (hquiet rfl)

end Faithful

/-! ## Runs -/

theorem faithful_start {v : Vfs} (htidy : Tidy v.sfs.directory v.sfs.device.sectorCount) :
    Faithful (VfsRun.start v) where
  names := vfsInit_names v
  tidy := htidy
  ram i hused := by cases hused
  disk _ := rfl

/-- **What the missing zeros cost**: over any device, from a SaturnFS whose extents are apart, every
file reads back as intended in every state of a run exactly when no write of the run exposes
residue. -/
theorem reads_back_iff (v : Vfs) (htidy : Tidy v.sfs.directory v.sfs.device.sectorCount)
    (ops : List VfsOp) : Always runStep ReadsBack (VfsRun.start v) ops
      ↔ Along runStep (fun g op _ => NoResidue g.vfs op) (VfsRun.start v) ops := by
  have hstart := faithful_start htidy
  have hiff : Along runStep (fun _ _ g' => ReadsBack g') (VfsRun.start v) ops
      ↔ Along runStep (fun g op _ => NoResidue g.vfs op) (VfsRun.start v) ops :=
    Along.iff_of_inv (T := runStep) (J := Faithful) (C := fun _ _ g' => ReadsBack g')
      (D := fun g op _ => NoResidue g.vfs op) (fun g op g' h hstep => h.step hstep) hstart
  exact ⟨fun h => hiff.mp h.2, fun h => ⟨hstart.readsBack, hiff.mpr h⟩⟩

/-- Memory before `vfs_init`, over a fresh SaturnFS. -/
def freshVfs : Vfs where
  nodes _ := ⟨fun _ => 0, 0, fun _ => 0, .file, false⟩
  fileCount := 0
  dirCount := 0
  diskFileBuffer _ := 0
  sfs := (sfsFormat blankDevice).1

/-- `/disk/a`, and `/disk/b`. -/
def pathDiskA : CStr := ⟨diskMount ++ [slash, 0x61], by decide⟩
def pathDiskB : CStr := ⟨diskMount ++ [slash, 0x62], by decide⟩

theorem freshVfs_iff : Tidy freshVfs.sfs.directory freshVfs.sfs.device.sectorCount
    ∧ (Always runStep ReadsBack (VfsRun.start freshVfs)
        [.create pathA (some fun _ => 7) 1, .write pathA 4 (some fun _ => 8) 1]
      ↔ Along runStep (fun g op _ => NoResidue g.vfs op) (VfsRun.start freshVfs)
        [.create pathA (some fun _ => 7) 1, .write pathA 4 (some fun _ => 8) 1]) :=
  have htidy := (sound_format (s := blankDevice) rfl).tidy
  ⟨htidy, reads_back_iff freshVfs htidy _⟩

/-- In RAMFS the bytes a truncation cut off come back; under `/disk` those of another file. -/
theorem residue_shows : ¬ Always runStep ReadsBack (VfsRun.start freshVfs)
      [.create pathA (some fun _ => 7) 2, .truncate pathA 0, .write pathA 2 (some fun _ => 8) 1]
    ∧ ¬ Always runStep ReadsBack (VfsRun.start freshVfs)
      [.create pathDiskA (some fun _ => 7) 2, .read pathDiskA 0 true 2, .create pathDiskB none 0,
        .write pathDiskB 2 (some fun _ => 8) 1] := by
  constructor
  · refine not_always_of_run _ (fun g => decide (g.vfs.contents pathA ≠ g.intended pathA)) ?_
      fun g hbad hback => of_decide_eq_true hbad (hback.contents pathA)
    decide +kernel
  · refine not_always_of_run _ (fun g => decide (g.vfs.contents pathDiskB ≠ g.intended pathDiskB))
      ?_
      fun g hbad hback => of_decide_eq_true hbad (hback.contents pathDiskB)
    decide +kernel

end SaturnOS
