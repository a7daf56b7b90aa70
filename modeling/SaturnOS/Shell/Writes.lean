import SaturnOS.Fs.Exact
import SaturnOS.Shell.Commands

/-!
# Shell/Writes — which files the write commands change

    vfs_create ──▸ vfs_write ──▸ vfs_truncate          requests to the device, where it is /disk:
       []          text ++ c…       text                0, 1 │ 2 · 3, 4 │ 5 · 6, 7

A command leaves one file with other contents, and which they are is known from the state before
(`LeavesFile`): the text, unless a request in between is not served.  So a command touches the named
file only exactly where its path is copied whole and what is left is the text or what was there, or
where it is not and nothing changes (`write_touches_iff`).
-/

open Machinery

namespace SaturnOS

/-! ## Files -/

/-- A file of RAMFS or of SaturnFS, by its path there. -/
inductive FileName
  | ram (path : CStr)
  | sfs (path : CStr)
  deriving DecidableEq

/-- What a file reads back. -/
def Vfs.file (v : Vfs) : FileName → Option (List Byte)
  | .ram path => (ramFile v path).map fun i => (v.nodes i).bytes
  | .sfs path => v.sfs.contents path

/-- The file that a path names to the VFS… -/
def vfsName (path : CStr) : FileName := (vfsDiskPath path).elim (.ram path) .sfs

/-- …and to a command. -/
def WriteCommand.file : WriteCommand → CStr → FileName
  | .write => vfsName
  | .pwrite => .sfs

/-- One file is left with these contents, and the others with theirs. -/
structure LeavesFile (v v' : Vfs) (name : FileName) (c : Option (List Byte)) : Prop where
  file : v'.file name = c
  others : ∀ other, other ≠ name → v'.file other = v.file other

/-- **Only the named file is touched**: no file has changed, or that one did, and is the text. -/
def TouchesOnly (v v' : Vfs) (name : FileName) (text : List Byte) : Prop :=
  (∀ other, v'.file other = v.file other) ∨ LeavesFile v v' name (some text)

section Files

variable {v v' v'' : Vfs} {name name' : FileName} {c c' : Option (List Byte)} {text : List Byte}

theorem file_cases {P : FileName → Prop} (name : FileName) (hname : P name)
    (hothers : ∀ other, other ≠ name → P other) (other : FileName) : P other := by
  by_cases h : other = name
  · exact h ▸ hname
  · exact hothers other h

theorem LeavesFile.same (h : ∀ other, v'.file other = v.file other) (name : FileName) :
    LeavesFile v v' name (v.file name) :=
  ⟨h name, fun other _ => h other⟩

theorem LeavesFile.trans (h : LeavesFile v v' name c) (h' : LeavesFile v' v'' name c') :
    LeavesFile v v'' name c' :=
  ⟨h'.file, fun other hne => (h'.others other hne).trans (h.others other hne)⟩

/-- **What a call leaves decides what it touches.** -/
theorem LeavesFile.touchesOnly_iff (h : LeavesFile v v' name c) :
    TouchesOnly v v' name' text ↔ c = v.file name ∨ name = name' ∧ c = some text := by
  constructor
  · rintro (hsame | hleaves)
    · exact .inl (h.file.symm.trans (hsame name))
    · by_cases hname : name = name'
      · subst hname
        exact .inr ⟨rfl, h.file.symm.trans hleaves.file⟩
      · exact .inl (h.file.symm.trans (hleaves.others name hname))
  · rintro (hsame | ⟨rfl, rfl⟩)
    · exact .inl (file_cases name (h.file.trans hsame) h.others)
    · exact .inr h

theorem Loads.file (h : Loads v v') (name : FileName) : v'.file name = v.file name := by
  cases name with
  | ram path => rw [Vfs.file, Vfs.file, ramFile_congr h.nodes, h.nodes]
  | sfs path => exact h.sfs_contents path

theorem vfsName_ram {path : CStr} (hd : vfsDiskPath path = none) : vfsName path = .ram path := by
  rw [vfsName, hd]
  rfl

theorem vfsName_sfs {path diskPath : CStr} (hd : vfsDiskPath path = some diskPath) :
    vfsName path = .sfs diskPath := by
  rw [vfsName, hd]
  rfl

/-- Two paths do not name one file. -/
theorem WriteCommand.file_inj {cmd : WriteCommand} {p q : CStr} (h : cmd.file p = cmd.file q) :
    p = q := by
  cases cmd with
  | pwrite => exact FileName.sfs.inj h
  | write =>
    simp only [WriteCommand.file] at h
    cases hp : vfsDiskPath p with
    | none =>
      rw [vfsName_ram hp] at h
      cases hq : vfsDiskPath q with
      | none => exact FileName.ram.inj (h.trans (vfsName_ram hq))
      | some d => exact nomatch h.trans (vfsName_sfs hq)
    | some d =>
      rw [vfsName_sfs hp] at h
      cases hq : vfsDiskPath q with
      | none => exact nomatch h.trans (vfsName_ram hq)
      | some d' =>
        obtain rfl := FileName.sfs.inj (h.trans (vfsName_sfs hq))
        exact vfsDiskPath_inj hp hq

end Files

/-! ## RAMFS -/

/-- RAMFS has the file, or makes it. -/
def RamTakes (v : Vfs) (path : CStr) : Prop :=
  (ramFile v path).isSome = true ∨ CanAdd v path ∧ kindCount v .file < 8

section Ram

variable {v v' : Vfs} {path : CStr} {text : List Byte}

theorem cells_literal (text : List Byte) : cells (shellLiteral text) 0 text.length = text := by
  refine cells_eq rfl fun i hi => ?_
  rw [Nat.zero_add, shellLiteral, List.getD_eq_getElem _ _ hi, List.getElem?_eq_getElem hi]

theorem leaves_setFile {i : Fin vfsMaxNodes} (hi : ramFile v path = some i) (data : ℕ → Byte)
    (size : ℕ) : LeavesFile v (v.setFile i data size) (.ram path) (some (cells data 0 size)) := by
  refine ⟨?_, fun other hne => ?_⟩
  · rw [Vfs.file, ramFile_setFile, hi, Option.map_some, setFile_self]
    rfl
  · cases other with
    | sfs q => rfl
    | ram q =>
      rw [Vfs.file, Vfs.file, ramFile_setFile]
      refine Option.map_congr fun j hj => ?_
      rw [setFile_other]
      rintro rfl
      exact hne (congrArg FileName.ram (ramFile_inj hj hi))

/-- **A file of RAMFS is overwritten**… -/
theorem overwriteText_ram (hd : vfsDiskPath path = none) {i : Fin vfsMaxNodes}
    (hi : ramFile v path = some i) (hfits : text.length ≤ 4096) :
    LeavesFile v (overwriteText v path text) (.ram path) (some text) := by
  have hbuffer : text.length = 0 ∨ (some (shellLiteral text)).isSome = true := .inr rfl
  have hwrite := vfsWrite_setFile hd hi hbuffer ((Nat.zero_add _).trans_le hfits)
  rw [overwriteText, hwrite]
  dsimp only [Option.getD_some]
  generalize hv : v.setFile i (blit (v.nodes i).data 0 (shellLiteral text) text.length)
    (max (0 + text.length) (v.nodes i).size) = v'
  have hi' : ramFile v' path = some i := by
    rw [← hv, ramFile_setFile, hi]
  have hbytes : (v'.nodes i).bytes = text ++ (v.nodes i).bytes.drop text.length := by
    have hsplice : cells (blit (v.nodes i).data 0 (shellLiteral text) text.length) 0
        (max (0 + text.length) (v.nodes i).size) = splice (v.nodes i).bytes 0
          (cells (shellLiteral text) 0 text.length) :=
      cells_splice_iff.mpr fun k _ hk => absurd hk (Nat.not_lt_zero k)
    rw [cells_literal, splice_zero] at hsplice
    rw [← hv, setFile_self]
    exact hsplice
  have hwritten : LeavesFile v v' (.ram path) (v'.file (.ram path)) :=
    hv ▸ ⟨rfl, (leaves_setFile hi _ _).others⟩
  have hcut := vfsTruncate_ram (v := v') hd text.length
  generalize vfsTruncate v' path text.length = r at hcut ⊢
  cases hcut with
  | refused hbad =>
    rcases hbad with hnone | hlong
    · cases hi'.symm.trans hnone
    · exact absurd hfits (Nat.not_le.mpr hlong)
  | @edited j hj hok =>
    obtain rfl := Option.some.inj (hi'.symm.trans hj)
    have hleft := leaves_setFile hj (blit (v'.nodes i).data (v'.nodes i).size (fun _ => 0)
      (text.length - (v'.nodes i).size)) text.length
    rw [bytes_truncated, hbytes, resize_append] at hleft
    exact hwritten.trans hleft

/-- …but for one that is not there. -/
theorem overwriteText_none (hd : vfsDiskPath path = none) (hi : ramFile v path = none) :
    overwriteText v path text = v := by
  rw [overwriteText, vfsWrite, hd, hi]

/-- A file is named by a node in use. -/
theorem NamesOk.ramFile_iff (h : NamesOk v) {i : Fin vfsMaxNodes} :
    ramFile v path = some i ↔ Named v i path.chars ∧ (v.nodes i).kind = .file := by
  rw [ramFile, Option.filter_eq_some_iff, h.find_iff, h.named_iff, beq_iff_eq]

/-- **A file is made.** -/
theorem leaves_added (h : NamesOk v) (h' : NamesOk v') {i : Fin vfsMaxNodes} {bytes : List Byte}
    (hadd : NodeAdded path .file bytes v v' i) : LeavesFile v v' (.ram path) (some bytes) := by
  have hfile : ramFile v' path = some i := h'.ramFile_iff.mpr ⟨hadd.named, hadd.kind_eq⟩
  refine ⟨?_, fun other hne => ?_⟩
  · rw [Vfs.file, hfile, Option.map_some, hadd.bytes_eq]
  · cases other with
    | sfs q => exact congrArg (Sfs.contents · q) hadd.rest.2
    | ram q =>
      -- the node of another path is another one
      have hiff : ∀ j, ramFile v' q = some j ↔ j ≠ i ∧ ramFile v q = some j := by
        intro j
        rw [h'.ramFile_iff, h.ramFile_iff]
        by_cases hj : j = i
        · subst hj
          refine iff_of_false (fun hq => hne ?_) fun hq => hq.1 rfl
          exact congrArg FileName.ram (CStr.ext (hq.1.2.unique hadd.named.2))
        · rw [Named, Named, hadd.other j hj]
          exact (and_iff_right hj).symm
      have hsame : ramFile v' q = ramFile v q := by
        refine Option.ext fun j => (hiff j).trans (and_iff_right_of_imp fun hq hj => ?_)
        subst hj
        cases hadd.unused.symm.trans (h.ramFile_iff.mp hq).1.1
      rw [Vfs.file, Vfs.file, hsame]
      refine Option.map_congr fun j hj => ?_
      rw [hadd.other j ((hiff j).mp (hsame.trans hj)).1]

/-- **What `write` leaves in RAMFS.** -/
theorem putText_ram (h : NamesOk v) (hd : vfsDiskPath path = none) (hfits : text.length ≤ 4096) :
    RamTakes v path ∧ LeavesFile v (putText v path text) (.ram path) (some text)
      ∨ ¬ RamTakes v path ∧ putText v path text = v := by
  have hcreate := h.create_exact hd none 0
  have hnames := h.create path none 0
  rw [putText]
  cases hfile : ramFile v path with
  | some i =>
    have htaken : ¬ CanAdd v path := fun hcan => hcan.2.1 i (h.ramFile_iff.mp hfile).1
    have hkept : (vfsCreate v path none 0).1 = v :=
      hcreate.fails (Bool.eq_false_iff.mpr fun hok => htaken (hcreate.succeeds.mp hok).1)
    rw [hkept]
    exact .inl ⟨.inl (hfile ▸ rfl), overwriteText_ram hd hfile hfits⟩
  | none =>
    cases hok : (vfsCreate v path none 0).2 with
    | false =>
      rw [hcreate.fails hok, overwriteText_none hd hfile]
      refine .inr ⟨?_, rfl⟩
      rintro (hsome | ⟨hcan, hroom⟩)
      · exact nomatch hfile ▸ hsome
      · exact Bool.eq_false_iff.mp hok
          (hcreate.succeeds.mpr ⟨hcan, hroom, Nat.zero_le _, fun h0 => absurd h0 (by decide)⟩)
    | true =>
      obtain ⟨hcan, hroom, -⟩ := hcreate.succeeds.mp hok
      obtain ⟨i, hadd⟩ := hcreate.does hok
      have hmade := leaves_added h hnames hadd
      have hfile' := hnames.ramFile_iff.mpr ⟨hadd.named, hadd.kind_eq⟩
      exact .inl ⟨.inr ⟨hcan, hroom⟩, hmade.trans (overwriteText_ram hd hfile' hfits)⟩

end Ram

/-! ## SaturnFS -/

/-- SaturnFS has the file or a free entry for it, and the extent is on the device. -/
def Accepts (s : Sfs) (path : CStr) : Prop :=
  s.mounted = true ∧ pathValid sfsMaxPath path = true
    ∧ ∃ i, writeEntry s.directory path = some i ∧ s.Fits i

/-- **A store that is accepted** asks for the extent, and if this is served for the directory. -/
structure Asked (s : Sfs) (path : CStr) (bytes : List Byte) (r : Sfs × Bool) : Prop where
  file : r.1.contents path = if s.device.serves 0 then some bytes else s.contents path
  others : ∀ q, q ≠ path → r.1.contents q = s.contents q
  done : r.2 = (s.device.serves 0 && s.device.serves 1)
  serves : r.1.device.serves = fun n => s.device.serves (n + if s.device.serves 0 then 2 else 1)
  tidy : Tidy r.1.directory r.1.device.sectorCount

section Stores

variable {s : Sfs} {path : CStr} {data : Buffer} {size : ℕ} {bytes : List Byte} {r : Sfs × Bool}

theorem Asked.stored (h : Asked s path bytes r) (h0 : s.device.serves 0 = true) :
    r.1.contents path = some bytes ∧ r.2 = s.device.serves 1
      ∧ r.1.device.serves = fun n => s.device.serves (n + 2) := by
  obtain ⟨hfile, -, hdone, hserves, -⟩ := h
  rw [h0] at hfile hdone hserves
  exact ⟨hfile, hdone, hserves⟩

theorem Asked.failed (h : Asked s path bytes r) (h0 : ¬ s.device.serves 0 = true) :
    r.1.contents path = s.contents path ∧ r.2 = false
      ∧ r.1.device.serves = fun n => s.device.serves (n + 1) := by
  obtain ⟨hfile, -, hdone, hserves, -⟩ := h
  rw [Bool.eq_false_iff.mpr h0] at hfile hdone hserves
  exact ⟨hfile, hdone, hserves⟩

theorem takes_iff (hdata : size = 0 ∨ data.isSome = true) (hsize : size ≤ sfsMaxFileSize) :
    Takes s path data size ↔ Accepts s path ∧ s.device.serves 0 = true := by
  rw [Takes, canWrite_iff, Accepts]
  constructor
  · rintro ⟨⟨hm, hpath, -, -⟩, hserves, hentry⟩
    exact ⟨⟨hm, hpath, hentry⟩, hserves⟩
  · rintro ⟨⟨hm, hpath, hentry⟩, hserves⟩
    exact ⟨⟨hm, hpath, hdata, hsize⟩, hserves, hentry⟩

theorem accepts_of_contents {c : List Byte} (hc : s.contents path = some c)
    (hpath : pathValid sfsMaxPath path = true) : Accepts s path := by
  obtain ⟨hm, i, hfind, hs⟩ := contents_iff.mp hc
  refine ⟨hm, hpath, i, ?_, hs.fits⟩
  rw [writeEntry, hfind]
  rfl

/-- One that is not asks for nothing. -/
theorem writeFile_unaccepted (h : ¬ Accepts s path) :
    sfsWriteFile s path data size = (s, false) := by
  rw [sfsWriteFile]
  split
  · rfl
  · rename_i hcan
    rw [Bool.not_eq_true', Bool.not_eq_false] at hcan
    obtain ⟨hm, hpath, -⟩ := canWrite_iff.mp hcan
    split
    · rfl
    · rename_i i hentry
      have hout : s.device.inRange (entryStart s.directory i) sfsFileSectors = false :=
        Bool.eq_false_iff.mpr fun hin =>
          h ⟨hm, hpath, i, hentry, (Device.inRange_iff.mp hin).2⟩
      dsimp only
      rw [blockWrite, hout]
      rfl

/-- A request in range is gone, served or not. -/
theorem blockWrite_requests {dev : Device} {sector count : ℕ} (buffer : ℕ → Byte)
    (hin : dev.inRange sector count = true) :
    (blockWrite dev sector buffer count).2 = dev.serves 0
      ∧ (blockWrite dev sector buffer count).1.serves = fun n => dev.serves (n + 1) := by
  rw [blockWrite, hin, if_neg (by decide)]
  cases h0 : dev.serves 0 with
  | true => exact ⟨rfl, rfl⟩
  | false => exact ⟨rfl, rfl⟩

theorem writeFile_asked (htidy : Tidy s.directory s.device.sectorCount) (h : Accepts s path)
    (hdata : size = 0 ∨ data.isSome = true) (hsize : size ≤ sfsMaxFileSize) :
    Asked s path (bufferBytes data size) (sfsWriteFile s path data size) := by
  have htidy' := writeFile_tidy s path data size htidy
  have hcan : canWrite s path data size = true := canWrite_iff.mpr ⟨h.1, h.2.1, hdata, hsize⟩
  obtain ⟨i, hentry, hfits⟩ := h.2.2
  have hextent : s.device.inRange (entryStart s.directory i) sfsFileSectors = true :=
    Device.inRange_iff.mpr ⟨by decide, hfits⟩
  have hdirectory : s.device.inRange sfsDirectorySector 1 = true := by
    refine Device.inRange_iff.mpr ⟨by decide, ?_⟩
    have hstart := htidy.data_area i (writeEntry_spec hentry).1 hfits
    have hend : entryStart s.directory i + sfsFileSectors ≤ s.device.sectorCount := hfits
    simp only [sfsDataStart, sfsDirectorySector, sfsFileSectors] at *
    omega
  cases h0 : s.device.serves 0 with
  | true =>
    have htakes := (takes_iff hdata hsize).mpr ⟨h, h0⟩
    obtain ⟨hfile, hothers⟩ := writeFile_takes htidy htakes
    have hserved : (sfsWriteFile s path data size).2 = s.device.serves 1 ∧
        (sfsWriteFile s path data size).1.device.serves
          = fun n => s.device.serves (n + 2) := by
      rw [sfsWriteFile, hcan, if_neg (by decide), hentry]
      dsimp only
      rw [blockWrite_served _ hextent h0]
      exact blockWrite_requests _ hdirectory
    refine ⟨?_, hothers, ?_, ?_, htidy'⟩
    · rw [hfile, h0]
      rfl
    · rw [hserved.1, h0, Bool.true_and]
    · rw [hserved.2, h0]
      rfl
  | false =>
    have hidle : ¬ Takes s path data size := by
      rw [takes_iff hdata hsize, h0]
      exact fun h => Bool.false_ne_true h.2
    obtain ⟨hfailed, hsame⟩ := writeFile_idle hidle
    have hserves : (sfsWriteFile s path data size).1.device.serves
        = fun n => s.device.serves (n + 1) := by
      rw [sfsWriteFile, hcan, if_neg (by decide), hentry]
      dsimp only
      have hrequest := blockWrite_requests (fun j => (bufferBytes data size).getD j 0) hextent
      rw [h0] at hrequest
      split
      · rename_i dev heq
        rw [heq] at hrequest
        exact hrequest.2
      · rename_i dev heq
        rw [heq] at hrequest
        cases hrequest.1
    refine ⟨?_, fun q _ => hsame q, ?_, ?_, htidy'⟩
    · rw [hsame, h0]
      rfl
    · rw [hfailed, h0, Bool.false_and]
    · rw [hserves, h0]
      rfl

end Stores

/-! ## Files under `/disk` -/

/-- What overwriting a file leaves of it, by the requests that are served: the load and the store,
and the same of the cut. -/
def overwritten (serves : ℕ → Bool) (text old : List Byte) : List Byte :=
  if serves 0 ∧ serves 1 then
    if serves 2 ∧ serves 3 ∧ serves 4 then text else text ++ old.drop text.length
  else old

/-- What `write` leaves: `vfs_create` stores an empty file first. -/
def leftOn (serves : ℕ → Bool) (text : List Byte) (old : Option (List Byte)) :
    Option (List Byte) :=
  if serves 0 then some (overwritten (fun n => serves (n + 2)) text [])
  else old.map (overwritten (fun n => serves (n + 1)) text)

section Disk

variable {v v' : Vfs} {path diskPath : CStr} {text c : List Byte} {size : ℕ}

theorem leaves_sfs {c : Option (List Byte)} (hnodes : v'.nodes = v.nodes)
    (hfile : v'.sfs.contents diskPath = c)
    (hothers : ∀ q, q ≠ diskPath → v'.sfs.contents q = v.sfs.contents q) :
    LeavesFile v v' (.sfs diskPath) c := by
  refine ⟨hfile, fun other hne => ?_⟩
  cases other with
  | ram q => rw [Vfs.file, Vfs.file, ramFile_congr hnodes, hnodes]
  | sfs q => exact hothers q fun hq => hne (congrArg FileName.sfs hq)

/-- A path of the VFS that is not too long is one of SaturnFS. -/
theorem diskPath_valid (hd : vfsDiskPath path = some diskPath) (hlength : path.length ≤ 47) :
    pathValid sfsMaxPath diskPath = true := by
  have hchars := congrArg List.length (vfsDiskPath_chars hd)
  have hmount : diskMount.length = 5 := rfl
  rw [vfsDiskPath] at hd
  obtain ⟨⟨-, hslash, hlong⟩, hdrop⟩ := Option.ite_none_right_eq_some.mp hd
  have hlength' : path.chars.length = path.length := rfl
  have hdisk : diskPath.chars.length = diskPath.length := rfl
  rw [List.length_append] at hchars
  refine pathValid_iff.mpr ⟨?_, ?_, ?_⟩
  · rw [← Option.some.inj hdrop, CStr.drop, List.head?_drop]
    exact hslash
  · simp only [sfsMaxPath]
    omega
  · omega

/-- A file that is loaded and edited is stored. -/
theorem storeDiskFile_asked (htidy : Tidy v.sfs.directory v.sfs.device.sectorCount)
    (hvalid : pathValid sfsMaxPath diskPath = true) (hc : v.sfs.contents diskPath = some c)
    (hsize : size ≤ sfsMaxFileSize) (data : ℕ → Byte) {r : Vfs × Bool}
    (hr : r = storeDiskFile { v.tick with diskFileBuffer := data } diskPath size) :
    Asked v.tick.sfs diskPath (cells data 0 size) (r.1.sfs, r.2) ∧ r.1.nodes = v.nodes := by
  subst hr
  have hc' : v.tick.sfs.contents diskPath = some c := (contents_device rfl rfl _).trans hc
  have hdata : size = 0 ∨ (some data).isSome = true := .inr rfl
  have htidy' : Tidy v.tick.sfs.directory v.tick.sfs.device.sectorCount := htidy
  exact ⟨writeFile_asked htidy' (accepts_of_contents hc' hvalid) hdata hsize, rfl⟩

/-- **A file under `/disk` is cut.** -/
theorem vfsTruncate_disk (hd : vfsDiskPath path = some diskPath)
    (hvalid : pathValid sfsMaxPath diskPath = true)
    (htidy : Tidy v.sfs.directory v.sfs.device.sectorCount)
    (hc : v.sfs.contents diskPath = some c) (hsize : size ≤ sfsMaxFileSize) :
    LeavesFile v (vfsTruncate v path size).1 (.sfs diskPath) (some
      (if v.sfs.device.serves 0 ∧ v.sfs.device.serves 1 then resize c size else c)) := by
  have hout := vfsTruncate_outcome (v := v) hd size
  generalize vfsTruncate v path size = r at hout ⊢
  cases hout with
  | refused hbad => exact absurd hsize (Nat.not_le.mpr hbad)
  | unread hv hnone =>
    have h0 : ¬ v.sfs.device.serves 0 = true := fun h0 => nomatch (hnone h0).symm.trans hc
    rw [if_neg fun h => h0 h.1, ← hc]
    exact LeavesFile.same hv.file (.sfs diskPath)
  | @edited c' data r hserves hc' _ hdata hr =>
    obtain rfl := Option.some.inj (hc.symm.trans hc')
    obtain ⟨hasked, hnodes⟩ := storeDiskFile_asked htidy hvalid hc hsize data hr
    refine leaves_sfs hnodes ?_ fun q hq => (hasked.others q hq).trans (contents_device rfl rfl q)
    by_cases h1 : v.sfs.device.serves 1 = true
    · rw [if_pos ⟨hserves, h1⟩, ← cells_truncated v c size, ← hdata]
      exact (hasked.stored h1).1
    · rw [if_neg fun h => h1 h.2, ← hc]
      exact (hasked.failed h1).1.trans (contents_device rfl rfl _)

theorem overwriteText_eq {r : Vfs × Bool}
    (hwrite : vfsWrite v path 0 (some (shellLiteral text)) text.length
      = (r.1, if r.2 then some text.length else none)) :
    overwriteText v path text = if r.2 then (vfsTruncate r.1 path text.length).1 else r.1 := by
  rw [overwriteText, hwrite]
  cases r.2 with
  | true => rfl
  | false => rfl

/-- **…and overwritten.** -/
theorem overwriteText_disk (hd : vfsDiskPath path = some diskPath)
    (hvalid : pathValid sfsMaxPath diskPath = true)
    (htidy : Tidy v.sfs.directory v.sfs.device.sectorCount) (hne : text ≠ [])
    (hfits : text.length ≤ 4096) :
    LeavesFile v (overwriteText v path text) (.sfs diskPath)
      ((v.sfs.contents diskPath).map (overwritten v.sfs.device.serves text)) := by
  have hsize : text.length ≠ 0 := fun h0 => hne (List.eq_nil_of_length_eq_zero h0)
  by_cases hload : v.sfs.device.serves 0 = true ∧ ∃ c, v.sfs.contents diskPath = some c
  · obtain ⟨h0, c, hc⟩ := hload
    obtain ⟨r, hr, hwrite⟩ := vfsWrite_edited hd h0 hc (shellLiteral text) hsize
      ((Nat.zero_add _).trans_le hfits)
    have hlong : max (0 + text.length) c.length ≤ sfsMaxFileSize :=
      Nat.max_le.mpr ⟨(Nat.zero_add _).trans_le hfits, length_le_of_contents hc⟩
    obtain ⟨hasked, hnodes⟩ := storeDiskFile_asked htidy hvalid hc hlong _ hr
    have hedited : cells (blit (loadedBuffer v c) 0 (shellLiteral text) text.length) 0
        (max (0 + text.length) c.length) = text ++ c.drop text.length := by
      rw [(cells_edited_iff v c 0 _ _).mpr fun i _ hi => absurd hi (Nat.not_lt_zero i),
        cells_literal, splice_zero]
    rw [hedited] at hasked
    have hothers : ∀ q, q ≠ diskPath → r.1.sfs.contents q = v.sfs.contents q :=
      fun q hq => (hasked.others q hq).trans (contents_device rfl rfl q)
    rw [overwriteText_eq hwrite, hc, Option.map_some, overwritten]
    by_cases h1 : v.sfs.device.serves 1 = true
    · obtain ⟨hfile, hdone, hserves⟩ := hasked.stored h1
      have hstored := leaves_sfs hnodes hfile hothers
      rw [if_pos (c := _ ∧ _) ⟨h0, h1⟩]
      by_cases h2 : v.sfs.device.serves 2 = true
      · have hsome : r.2 = true := hdone.trans h2
        have hcut := vfsTruncate_disk hd hvalid hasked.tidy hfile hfits
        rw [show r.1.sfs.device.serves = fun n => v.sfs.device.serves (n + 3) from hserves,
          resize_append] at hcut
        simp only [h2, true_and]
        rw [if_pos hsome]
        exact hstored.trans hcut
      · have hnone : ¬ r.2 = true := fun hsome => h2 (hdone.symm.trans hsome)
        rw [if_neg hnone, if_neg fun h => h2 h.1]
        exact hstored
    · obtain ⟨hfile, hdone, -⟩ := hasked.failed h1
      have hnone : ¬ r.2 = true := Bool.eq_false_iff.mp hdone
      rw [if_neg hnone, if_neg fun h => h1 h.2]
      exact leaves_sfs hnodes (hfile.trans ((contents_device rfl rfl _).trans hc)) hothers
  · -- there is nothing to load, or it is not loaded
    have hsame : ∀ other, (overwriteText v path text).file other = v.file other := by
      have hout := vfsWrite_outcome (v := v) hd 0 (some (shellLiteral text)) text.length
      rw [overwriteText]
      generalize vfsWrite v path 0 (some (shellLiteral text)) text.length = w at hout ⊢
      cases hout with
      | refused => exact fun _ => rfl
      | unread hv => exact hv.file
      | edited h0 hc => exact absurd ⟨h0, _, hc⟩ hload
    have hkept : (v.sfs.contents diskPath).map (overwritten v.sfs.device.serves text)
        = v.sfs.contents diskPath := by
      cases hc : v.sfs.contents diskPath with
      | none => rfl
      | some c => exact congrArg some (if_neg fun h => hload ⟨h.1, c, hc⟩)
    rw [hkept]
    exact LeavesFile.same hsame (.sfs diskPath)

/-- **What `write` leaves under `/disk`.** -/
theorem putText_disk (hd : vfsDiskPath path = some diskPath)
    (hvalid : pathValid sfsMaxPath diskPath = true)
    (htidy : Tidy v.sfs.directory v.sfs.device.sectorCount) (hne : text ≠ [])
    (hfits : text.length ≤ 4096) :
    Accepts v.sfs diskPath ∧ LeavesFile v (putText v path text) (.sfs diskPath)
        (leftOn v.sfs.device.serves text (v.sfs.contents diskPath))
      ∨ ¬ Accepts v.sfs diskPath
        ∧ LeavesFile v (putText v path text) (.sfs diskPath) (v.sfs.contents diskPath) := by
  have hcreate : (vfsCreate v path none 0).1
      = { v with sfs := (sfsWriteFile v.sfs diskPath none 0).1 } := by
    rw [vfsCreate, hd]
  rw [putText, hcreate]
  by_cases haccepts : Accepts v.sfs diskPath
  · have hasked : Asked v.sfs diskPath (bufferBytes none 0) (sfsWriteFile v.sfs diskPath none 0) :=
      writeFile_asked htidy haccepts (.inl rfl) (Nat.zero_le _)
    have hwritten := overwriteText_disk
      (v := { v with sfs := (sfsWriteFile v.sfs diskPath none 0).1 }) hd hvalid hasked.tidy hne
      hfits
    have hmade : ∀ c, (sfsWriteFile v.sfs diskPath none 0).1.contents diskPath = c →
        LeavesFile v { v with sfs := (sfsWriteFile v.sfs diskPath none 0).1 } (.sfs diskPath) c :=
      fun c hc => leaves_sfs rfl hc hasked.others
    refine .inl ⟨haccepts, ?_⟩
    rw [leftOn]
    split
    · rename_i h0
      obtain ⟨hfile, -, hserves⟩ := hasked.stored h0
      rw [hserves, hfile] at hwritten
      exact (hmade _ hfile).trans hwritten
    · rename_i h0
      obtain ⟨hfile, -, hserves⟩ := hasked.failed h0
      rw [hserves, hfile] at hwritten
      exact (hmade _ hfile).trans hwritten
  · have hnone : v.sfs.contents diskPath = none :=
      Option.eq_none_iff_forall_ne_some.mpr fun c hc => haccepts (accepts_of_contents hc hvalid)
    have hwritten := overwriteText_disk hd hvalid htidy hne hfits
    rw [hnone] at hwritten ⊢
    rw [writeFile_unaccepted haccepts]
    exact .inr ⟨haccepts, hwritten⟩

end Disk

/-! ## The condition -/

/-- The requests that are served complete the store of the text, or leave the file as it was. -/
def Completes (serves : ℕ → Bool) (text : List Byte) (old : Option (List Byte)) : Prop :=
  if serves 0 then serves 2 ∧ serves 3 ∨ old = some []
  else ∀ c, old = some c → serves 1 → serves 2 →
    serves 3 ∧ serves 4 ∧ serves 5 ∨ c.length ≤ text.length ∨ text <+: c

/-- They leave the file as it was. -/
def Spares (serves : ℕ → Bool) (text : List Byte) (old : Option (List Byte)) : Prop :=
  if serves 0 then old = some (if serves 2 ∧ serves 3 then text else [])
  else ∀ c, old = some c → serves 1 → serves 2 →
    text <+: c ∧ (serves 3 → serves 4 → serves 5 → c = text)

section Condition

variable {serves : ℕ → Bool} {text c : List Byte} {old : Option (List Byte)}

theorem overwritten_nil :
    overwritten serves text [] = if serves 0 ∧ serves 1 then text else [] := by
  rw [overwritten, List.drop_nil, List.append_nil, ite_self]

/-- When an overwriting leaves the file as it was… -/
theorem overwritten_self_iff : overwritten serves text c = c ↔
    (serves 0 → serves 1 → text <+: c ∧ (serves 2 → serves 3 → serves 4 → c = text)) := by
  rw [overwritten]
  by_cases hload : serves 0 = true ∧ serves 1 = true
  · rw [if_pos hload]
    by_cases hcut : serves 2 = true ∧ serves 3 = true ∧ serves 4 = true
    · rw [if_pos hcut]
      constructor
      · rintro rfl _ _
        exact ⟨List.prefix_rfl, fun _ _ _ => rfl⟩
      · exact fun h => ((h hload.1 hload.2).2 hcut.1 hcut.2.1 hcut.2.2).symm
    · rw [if_neg hcut, ← List.prefix_iff_eq_append]
      exact ⟨fun h _ _ => ⟨h, fun h2 h3 h4 => absurd ⟨h2, h3, h4⟩ hcut⟩,
        fun h => (h hload.1 hload.2).1⟩
  · rw [if_neg hload]
    exact iff_of_true rfl fun h0 h1 => absurd ⟨h0, h1⟩ hload

/-- …and when it makes it the text. -/
theorem overwritten_text_iff : overwritten serves text c = c ∨ overwritten serves text c = text ↔
    (serves 0 → serves 1 →
      serves 2 ∧ serves 3 ∧ serves 4 ∨ c.length ≤ text.length ∨ text <+: c) := by
  rw [overwritten]
  by_cases hload : serves 0 = true ∧ serves 1 = true
  · rw [if_pos hload]
    by_cases hcut : serves 2 = true ∧ serves 3 = true ∧ serves 4 = true
    · rw [if_pos hcut]
      exact iff_of_true (.inr rfl) fun _ _ => .inl hcut
    · rw [if_neg hcut, ← List.prefix_iff_eq_append, List.append_right_eq_self,
        List.drop_eq_nil_iff, or_comm]
      exact ⟨fun h _ _ => .inr h, fun h => (h hload.1 hload.2).resolve_left hcut⟩
  · rw [if_neg hload]
    exact iff_of_true (.inl rfl) fun h0 h1 => absurd ⟨h0, h1⟩ hload

theorem spares_iff : Spares serves text old ↔ leftOn serves text old = old := by
  rw [Spares, leftOn]
  by_cases h0 : serves 0 = true
  · rw [if_pos h0, if_pos h0, overwritten_nil]
    exact eq_comm
  · rw [if_neg h0, if_neg h0]
    cases old with
    | none => exact iff_of_true (fun c hc => nomatch hc) rfl
    | some c =>
      rw [Option.map_some, Option.some.injEq, overwritten_self_iff]
      exact ⟨fun h => h c rfl, fun h c' hc => Option.some.inj hc ▸ h⟩

theorem completes_iff (hne : text ≠ []) : Completes serves text old
    ↔ leftOn serves text old = old ∨ leftOn serves text old = some text := by
  rw [Completes, leftOn]
  by_cases h0 : serves 0 = true
  · rw [if_pos h0, if_pos h0, overwritten_nil]
    by_cases hload : serves (0 + 2) = true ∧ serves (1 + 2) = true
    · rw [if_pos hload]
      exact iff_of_true (.inl hload) (.inr rfl)
    · rw [if_neg hload, Option.some.injEq, or_iff_right hload, or_iff_left hne.symm]
      exact eq_comm
  · rw [if_neg h0, if_neg h0]
    cases old with
    | none => exact iff_of_true (fun c hc => nomatch hc) (.inl rfl)
    | some c =>
      rw [Option.map_some, Option.some.injEq, Option.some.injEq, overwritten_text_iff]
      exact ⟨fun h => h c rfl, fun h c' hc => Option.some.inj hc ▸ h⟩

end Condition

/-- A command whose path is copied whole stores the text, or nothing… -/
def PutsWhole (v : Vfs) : WriteCommand → CStr → List Byte → Prop
  | .write, path, text => ∀ diskPath, vfsDiskPath path = some diskPath →
    Accepts v.sfs diskPath → Completes v.sfs.device.serves text (v.sfs.contents diskPath)
  | .pwrite, _, _ => True

/-- …and one whose path is cut stores nothing, or what is there already. -/
def PutsNothing (v : Vfs) : WriteCommand → CStr → List Byte → Prop
  | .write, path, text =>
    match vfsDiskPath path with
    | some diskPath =>
      Accepts v.sfs diskPath → Spares v.sfs.device.serves text (v.sfs.contents diskPath)
    | none => RamTakes v path → v.file (.ram path) = some text
  | .pwrite, path, text =>
    Accepts v.sfs path → v.sfs.device.serves 0 → v.file (.sfs path) = some text

/-- **When a command does no harm.** -/
def Harmless (v : Vfs) (cmd : WriteCommand) (path : CStr) (gap : ℕ) (text : List Byte) : Prop :=
  if path.length ≤ cmd.room then text = [] ∨ PutsWhole v cmd path text
  else PutsNothing v cmd (path.take cmd.room) (cmd.left path gap text)

section Commands

variable {v : Vfs} {path line : CStr} {text : List Byte} {cmd : WriteCommand} {gap : ℕ}

theorem write_leaves (h : NamesOk v) (htidy : Tidy v.sfs.directory v.sfs.device.sectorCount)
    (hlength : path.length ≤ 47) (hne : text ≠ []) (hfits : text.length ≤ 4096) :
    ∃ c, LeavesFile v (putText v path text) (vfsName path) c
      ∧ (PutsWhole v .write path text ↔ c = v.file (vfsName path) ∨ c = some text)
      ∧ (PutsNothing v .write path text ↔ c = v.file (vfsName path)) := by
  rw [PutsWhole, PutsNothing]
  cases hd : vfsDiskPath path with
  | none =>
    rw [vfsName_ram hd]
    have hwhole : ∀ diskPath, none = some diskPath → Accepts v.sfs diskPath →
        Completes v.sfs.device.serves text (v.sfs.contents diskPath) := fun _ hsome => nomatch hsome
    rcases putText_ram h hd hfits with ⟨htakes, hleaves⟩ | ⟨hno, hsame⟩
    · exact ⟨_, hleaves, iff_of_true hwhole (.inr rfl), (forall_prop_of_true htakes).trans eq_comm⟩
    · rw [hsame]
      exact ⟨_, LeavesFile.same (fun _ => rfl) _, iff_of_true hwhole (.inl rfl),
        iff_of_true (fun htakes => absurd htakes hno) rfl⟩
  | some diskPath =>
    have hvalid := diskPath_valid hd hlength
    have hone : ∀ {P : CStr → Prop}, (∀ q, some diskPath = some q → P q) ↔ P diskPath :=
      ⟨fun hall => hall diskPath rfl, fun hP q hq => Option.some.inj hq ▸ hP⟩
    rw [vfsName_sfs hd, hone]
    rcases putText_disk hd hvalid htidy hne hfits with ⟨haccepts, hleaves⟩ | ⟨hno, hleaves⟩
    · exact ⟨_, hleaves, (forall_prop_of_true haccepts).trans (completes_iff hne),
        (forall_prop_of_true haccepts).trans spares_iff⟩
    · exact ⟨_, hleaves, iff_of_true (fun haccepts => absurd haccepts hno) (.inl rfl),
        iff_of_true (fun haccepts => absurd haccepts hno) rfl⟩

theorem pwrite_leaves (htidy : Tidy v.sfs.directory v.sfs.device.sectorCount)
    (hfits : text.length ≤ 4096) :
    ∃ c, LeavesFile v (storeText v path text) (.sfs path) c
      ∧ (PutsWhole v .pwrite path text ↔ c = v.file (.sfs path) ∨ c = some text)
      ∧ (PutsNothing v .pwrite path text ↔ c = v.file (.sfs path)) := by
  have htakes : Takes v.sfs path (some (shellLiteral text)) text.length
      ↔ Accepts v.sfs path ∧ v.sfs.device.serves 0 = true := takes_iff (.inr rfl) hfits
  rw [PutsWhole, PutsNothing]
  by_cases hstored : Takes v.sfs path (some (shellLiteral text)) text.length
  · obtain ⟨hfile, hothers⟩ := writeFile_takes htidy hstored
    obtain ⟨haccepts, hserves⟩ := htakes.mp hstored
    have hbytes : bufferBytes (some (shellLiteral text)) text.length = text := cells_literal text
    rw [hbytes] at hfile
    exact ⟨_, leaves_sfs rfl hfile hothers, iff_of_true trivial (.inr rfl),
      (forall_prop_of_true haccepts).trans ((forall_prop_of_true hserves).trans eq_comm)⟩
  · obtain ⟨-, hsame⟩ := writeFile_idle hstored
    exact ⟨_, leaves_sfs rfl (hsame path) fun q _ => hsame q, iff_of_true trivial (.inl rfl),
      iff_of_true (fun haccepts hserves => absurd (htakes.mpr ⟨haccepts, hserves⟩) hstored) rfl⟩

theorem put_leaves (h : NamesOk v) (htidy : Tidy v.sfs.directory v.sfs.device.sectorCount)
    (hlength : path.length ≤ cmd.room) (hne : text ≠ []) (hfits : text.length ≤ 4096) :
    ∃ c, LeavesFile v (cmd.put v path text) (cmd.file path) c
      ∧ (PutsWhole v cmd path text ↔ c = v.file (cmd.file path) ∨ c = some text)
      ∧ (PutsNothing v cmd path text ↔ c = v.file (cmd.file path)) := by
  cases cmd with
  | write => exact write_leaves h htidy hlength hne hfits
  | pwrite => exact pwrite_leaves htidy hfits

/-- **The line, in one state.** -/
theorem execute_iff (h : NamesOk v) (htidy : Tidy v.sfs.directory v.sfs.device.sectorCount)
    (hline : WriteLine cmd path gap text line) :
    (∃ v', shellExecute v line = some v' ∧ TouchesOnly v v' (cmd.file path) text)
      ↔ Harmless v cmd path gap text := by
  have hfits : (cmd.left path gap text).length ≤ 4096 := hline.left_length.trans (by decide)
  rw [hline.execute, Harmless]
  simp only [Option.some.injEq, exists_eq_left']
  by_cases hwhole : path.length ≤ cmd.room
  · have hleft : cmd.left path gap text = text := if_pos hwhole
    have htake : path.take cmd.room = path := CStr.ext (List.take_of_length_le hwhole)
    rw [hleft] at hfits
    rw [if_pos hwhole, hleft, htake]
    by_cases hnil : text = []
    · rw [if_pos hnil]
      exact iff_of_true (.inl fun _ => rfl) (.inl hnil)
    · obtain ⟨c, hleaves, hiff, -⟩ := put_leaves h htidy hwhole hnil hfits
      rw [if_neg hnil, hleaves.touchesOnly_iff, or_iff_right hnil, hiff]
      exact or_congr_right (and_iff_right rfl)
  · have hne : cmd.left path gap text ≠ [] := by
      rw [WriteCommand.left, if_neg hwhole]
      refine List.append_ne_nil_of_left_ne_nil (fun hdrop => hwhole ?_) _
      exact List.drop_eq_nil_iff.mp hdrop
    have hcut : (path.take cmd.room).length ≤ cmd.room := List.length_take_le _ _
    have hother : cmd.file (path.take cmd.room) ≠ cmd.file path := by
      intro heq
      rw [WriteCommand.file_inj heq] at hcut
      exact hwhole hcut
    obtain ⟨c, hleaves, -, hiff⟩ := put_leaves h htidy hcut hne hfits
    rw [if_neg hwhole, if_neg hne, hleaves.touchesOnly_iff, hiff]
    exact or_iff_left fun heq => hother heq.1

end Commands

/-! ## Runs -/

/-- A call of the file systems, or whatever else happens to SaturnFS, as a format. -/
inductive StoreOp
  | fs (op : FsOp)
  | disk (sfs : Sfs)

def storeStep (v : Vfs) : StoreOp → Option Vfs
  | .fs op => fsStep v op
  | .disk sfs => some { v with sfs := sfs }

theorem NamesOk.storeStep {v v' : Vfs} (h : NamesOk v) {op : StoreOp}
    (hstep : SaturnOS.storeStep v op = some v') : NamesOk v' := by
  cases op with
  | fs op => exact h.fsStep hstep
  | disk sfs =>
    obtain rfl := Option.some.inj hstep
    exact h.frame rfl rfl rfl

/-- **A write command touches the named file only, exactly where it does no harm**: in every state
of every run after `vfs_init` in which the extents of SaturnFS are apart. -/
theorem write_touches_iff {v₀ v : Vfs} {ops : List StoreOp}
    (hrun : run storeStep (vfsInit v₀) ops = some v)
    (htidy : Tidy v.sfs.directory v.sfs.device.sectorCount) {cmd : WriteCommand}
    {path line : CStr} {gap : ℕ} {text : List Byte} (hline : WriteLine cmd path gap text line) :
    (∃ v', shellExecute v line = some v' ∧ TouchesOnly v v' (cmd.file path) text)
      ↔ Harmless v cmd path gap text := by
  have halways : Always storeStep NamesOk (vfsInit v₀) ops :=
    Always.of_inv (I := NamesOk) (fun _ _ _ h hstep => h.storeStep hstep) (fun _ h => h)
      (vfsInit_names v₀) ops
  exact execute_iff (halways.last hrun) htidy hline

/-- `/` and 47 letters, and the line that writes `x` there. -/
def longPath : CStr := ⟨slash :: List.replicate 47 0x61, by decide⟩
def longLine : CStr := ⟨ascii "write " ++ (longPath.chars ++ ascii " x"), by decide⟩

theorem longLine_reads : WriteLine .write longPath 1 (ascii "x") longLine where
  chars := ⟨0, by decide⟩
  path_ne := by decide
  token := by decide
  gap_pos _ := Nat.one_pos
  text_head := by decide
  short := by decide

theorem write_touches_fresh : (∃ v', shellExecute (vfsInit freshVfs) longLine = some v'
      ∧ TouchesOnly (vfsInit freshVfs) v' (WriteCommand.write.file longPath) (ascii "x"))
    ↔ Harmless (vfsInit freshVfs) .write longPath 1 (ascii "x") :=
  have htidy : Tidy (vfsInit freshVfs).sfs.directory (vfsInit freshVfs).sfs.device.sectorCount :=
    (sound_format (s := blankDevice) rfl).tidy
  have hrun : run storeStep (vfsInit freshVfs) [] = some (vfsInit freshVfs) := rfl
  write_touches_iff hrun htidy longLine_reads

/-- **The defect**: the 48th character and the text go to the file of the 47 before. -/
theorem long_token_cut : ¬ ∃ v', shellExecute (vfsInit freshVfs) longLine = some v'
    ∧ TouchesOnly (vfsInit freshVfs) v' (WriteCommand.write.file longPath) (ascii "x") := by
  rintro ⟨v', hv, htouches⟩
  have hcut : (shellExecute (vfsInit freshVfs) longLine).map
      (fun v => v.file (.ram (longPath.take 47))) = some (some (ascii "a x")) := by
    decide +kernel
  have hbefore : (vfsInit freshVfs).file (.ram (longPath.take 47)) = none := by
    decide +kernel
  rw [hv, Option.map_some, Option.some.injEq] at hcut
  have hother : FileName.ram (longPath.take 47) ≠ WriteCommand.write.file longPath := by
    decide
  have hsame : v'.file (.ram (longPath.take 47)) = none := by
    rcases htouches with hnone | hleaves
    · exact (hnone _).trans hbefore
    · exact (hleaves.others _ hother).trans hbefore
  cases hcut.symm.trans hsame

end SaturnOS
