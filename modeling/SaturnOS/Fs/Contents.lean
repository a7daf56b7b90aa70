import SaturnOS.Fs.Durable
import SaturnOS.Fs.Vfs

/-!
# Fs/Contents — the bytes at a path

    path ──vfs_disk_path──▸ SaturnFS : load, edit disk_file_buffer, store
     └────vfs_find────────▸ RAMFS    : edit node.data in place

A path names a node of RAMFS or a file of SaturnFS, and either way its contents are a string of
bytes (`Vfs.contents`).  Here is how each function of `vfs.c` can end, over any device, and which
bytes an edit makes of the file: a splice where the cells past its end are zero, or a resize.
-/

open Machinery

namespace SaturnOS

/-! ## Contents -/

/-- The bytes of a node. -/
def RamfsNode.bytes (node : RamfsNode) : List Byte := cells node.data 0 node.size

/-- What a path reads back: the file of SaturnFS it is routed to, else that of its node. -/
def Vfs.contents (v : Vfs) (path : CStr) : Option (List Byte) :=
  match vfsDiskPath path with
  | some diskPath => v.sfs.contents diskPath
  | none => (ramFile v path).map fun i => (v.nodes i).bytes

/-- A routed path is `/disk` and its path in SaturnFS. -/
theorem vfsDiskPath_chars {path diskPath : CStr} (h : vfsDiskPath path = some diskPath) :
    path.chars = diskMount ++ diskPath.chars := by
  rw [vfsDiskPath] at h
  obtain ⟨⟨hmount, -⟩, hdrop⟩ := Option.ite_none_right_eq_some.mp h
  rw [← Option.some.inj hdrop, CStr.drop]
  exact (List.prefix_iff_eq_append.mp hmount).symm

/-- Two paths are not routed to one. -/
theorem vfsDiskPath_inj {p q diskPath : CStr} (hp : vfsDiskPath p = some diskPath)
    (hq : vfsDiskPath q = some diskPath) : p = q :=
  CStr.ext ((vfsDiskPath_chars hp).trans (vfsDiskPath_chars hq).symm)

/-- **The contents of a path** are those in SaturnFS, if it is routed… -/
theorem contents_routed {v : Vfs} {path diskPath : CStr} (hd : vfsDiskPath path = some diskPath) :
    v.contents path = v.sfs.contents diskPath := by
  rw [Vfs.contents, hd]

/-- …and a node's otherwise. -/
theorem contents_ram {v : Vfs} {path : CStr} (hd : vfsDiskPath path = none) :
    v.contents path = (ramFile v path).map fun i => (v.nodes i).bytes := by
  rw [Vfs.contents, hd]

/-! ## SaturnFS, loaded and stored -/

/-- A device without its next request. -/
theorem contents_device {s : Sfs} {dev : Device} (hcount : dev.sectorCount = s.device.sectorCount)
    (hdata : dev.data = s.device.data) (q : CStr) :
    Sfs.contents { s with device := dev } q = s.contents q := (KeepsPath.of_disk hcount hdata q).now

/-- A read that gives something was served. -/
theorem readFile_some {s : Sfs} {path : CStr} {capacity : ℕ} {c : List Byte}
    (h : (sfsReadFile s path true capacity).2 = some c) : s.device.serves 0 = true
      ∧ (sfsReadFile s path true capacity).1 = { s with device := s.device.tick } := by
  rw [sfsReadFile] at h ⊢
  split at h
  · cases h
  · rename_i hmounted
    rw [if_neg hmounted]
    split at h
    · cases h
    · rename_i i hfind
      split at h
      · cases h
      · rename_i hsize
        have hread := (blockRead_spec s.device (entryStart s.directory i) sfsFileSectors).2.2
        rw [if_neg hsize]
        split at h
        · cases h
        · rename_i dev b heq
          rw [heq] at hread
          obtain ⟨hserves, hdev, -⟩ := hread b rfl
          dsimp only at h hdev ⊢
          split at h
          · cases h
          · rename_i hsum
            rw [if_neg hsum, hdev]
            exact ⟨hserves, rfl⟩

/-- No file of SaturnFS is larger than its extent. -/
theorem length_le_of_contents {s : Sfs} {path : CStr} {c : List Byte}
    (h : s.contents path = some c) :
    c.length ≤ sfsMaxFileSize := by
  obtain ⟨-, i, -, hs⟩ := contents_iff.mp h
  exact hs.size_le

/-- `disk_file_buffer` with a file loaded. -/
def loadedBuffer (v : Vfs) (c : List Byte) : ℕ → Byte :=
  blit v.diskFileBuffer 0 (fun i => c.getD i 0) c.length

/-- A load fills the front of the buffer with the file… -/
theorem cells_loadedBuffer (v : Vfs) (c : List Byte) : cells (loadedBuffer v c) 0 c.length = c := by
  refine cells_eq rfl fun i hi => ?_
  rw [loadedBuffer, blit_inside hi, List.getElem?_eq_getElem hi, List.getD_eq_getElem?_getD,
    List.getElem?_eq_getElem hi]
  rfl

/-- …and leaves what is behind it. -/
theorem loadedBuffer_of_le {v : Vfs} {c : List Byte} {i : ℕ} (hi : c.length ≤ i) :
    loadedBuffer v c i = v.diskFileBuffer i := blit_outside (.inr (by omega))

/-- A state without the device's next request. -/
def Vfs.tick (v : Vfs) : Vfs := { v with sfs := { v.sfs with device := v.sfs.device.tick } }

/-- What a load changes: nothing, or a request is gone, and the buffer may be filled. -/
def Loads (v v' : Vfs) : Prop := v' = v ∨ ∃ data, v' = { v.tick with diskFileBuffer := data }

namespace Loads

variable {v v' : Vfs} (h : Loads v v')

include h

/-- Neither nodes nor files are touched by it. -/
theorem nodes : v'.nodes = v.nodes := by
  rcases h with rfl | ⟨data, rfl⟩ <;> rfl

theorem sfs_contents (q : CStr) : v'.sfs.contents q = v.sfs.contents q := by
  rcases h with rfl | ⟨data, rfl⟩
  · rfl
  · exact contents_device rfl rfl q

/-- What is kept when a request is gone is kept. -/
theorem sfs {P : Sfs → Prop} (htick : ∀ s : Sfs, P s → P { s with device := s.device.tick })
    (hP : P v.sfs) : P v'.sfs := by
  rcases h with rfl | ⟨data, rfl⟩
  · exact hP
  · exact htick _ hP

end Loads

/-- How a load can end. -/
inductive LoadOutcome (v : Vfs) (path : CStr) : Vfs × Option ℕ → Prop
  | failed {v' : Vfs} (hv : Loads v v')
      (hnone : v.sfs.device.serves 0 = true → v.sfs.contents path = none) :
      LoadOutcome v path (v', none)
  | loaded {c : List Byte} (hserves : v.sfs.device.serves 0 = true)
      (hc : v.sfs.contents path = some c) :
      LoadOutcome v path ({ v.tick with diskFileBuffer := loadedBuffer v c }, some c.length)

/-- **A load** finds the file, or nothing. -/
theorem loadDiskFile_outcome (v : Vfs) (path : CStr) :
    LoadOutcome v path (loadDiskFile v path) := by
  obtain ⟨dev, hdev, hstate⟩ := readFile_state v.sfs path true sfsMaxFileSize
  have hread := readFile_contents v.sfs path sfsMaxFileSize
  have hsome := @readFile_some v.sfs path sfsMaxFileSize
  rw [loadDiskFile]
  generalize sfsReadFile v.sfs path true sfsMaxFileSize = r at hstate hread hsome ⊢
  obtain ⟨sfs, o⟩ := r
  cases o with
  | none =>
    obtain rfl := hstate
    refine .failed ?_ fun hserves => ?_
    · exact hdev.imp (fun h => by rw [h]) fun h => ⟨v.diskFileBuffer, by rw [h]; rfl⟩
    · refine Option.eq_none_iff_forall_ne_some.mpr fun c hc => ?_
      have hlen := length_le_of_contents hc
      have hfilter := (hread hserves).symm
      rw [hc, Option.filter_some, if_pos (decide_eq_true hlen)] at hfilter
      cases hfilter
  | some c =>
    obtain ⟨hserves, rfl⟩ := hsome rfl
    exact .loaded hserves (Option.filter_eq_some_iff.mp (hread hserves).symm).1

/-- How a write to a path routed to SaturnFS can end. -/
inductive DiskWrite (v : Vfs) (diskPath : CStr) (offset : ℕ) (buffer : Buffer) (size : ℕ) :
    Vfs × Option ℕ → Prop
  | refused (hbad : size = 0 ∨ buffer.isNone = true ∨ sfsMaxFileSize < offset + size) :
      DiskWrite v diskPath offset buffer size (v, none)
  | unread {v' : Vfs} (hv : Loads v v')
      (hnone : v.sfs.device.serves 0 = true → v.sfs.contents diskPath = none) :
      DiskWrite v diskPath offset buffer size (v', none)
  | edited {c : List Byte} {data : ℕ → Byte} {r : Vfs × Bool}
    (hserves : v.sfs.device.serves 0 = true)
      (hc : v.sfs.contents diskPath = some c)
      (hok : size ≠ 0 ∧ buffer.isSome = true ∧ offset + size ≤ sfsMaxFileSize)
      (hdata : data = blit (loadedBuffer v c) offset (buffer.getD fun _ => 0) size)
      (hr : r = storeDiskFile { v.tick with diskFileBuffer := data } diskPath
        (max (offset + size) c.length)) :
      DiskWrite v diskPath offset buffer size (r.1, if r.2 then some size else none)

/-- **A write to a routed path** is refused, or finds no file to load, or stores the edited file. -/
theorem vfsWrite_outcome {v : Vfs} {path diskPath : CStr} (hd : vfsDiskPath path = some diskPath)
    (offset : ℕ) (buffer : Buffer) (size : ℕ) :
    DiskWrite v diskPath offset buffer size (vfsWrite v path offset buffer size) := by
  have hload := loadDiskFile_outcome v diskPath
  rw [vfsWrite, hd]
  dsimp only
  split
  · rename_i hbad
    refine .refused (hbad.imp_right (Or.imp_right fun hlong => ?_))
    omega
  · rename_i hok
    simp only [not_or, not_lt, Option.isNone_iff_eq_none, ← Option.isSome_iff_ne_none] at hok
    generalize loadDiskFile v diskPath = r at hload ⊢
    cases hload with
    | failed hv hnone => exact .unread hv hnone
    | @loaded c hserves hc =>
      dsimp only
      have hfits : offset + size ≤ sfsMaxFileSize := by omega
      have hedit := @DiskWrite.edited v diskPath offset buffer size c _ _ hserves hc
        ⟨hok.1, hok.2.1, hfits⟩ rfl rfl
      split
      · rename_i v' heq
        rw [heq] at hedit
        exact hedit
      · rename_i v' heq
        rw [heq] at hedit
        exact hedit

/-- A write that is not refused, of a file that is loaded, is stored. -/
theorem vfsWrite_edited {v : Vfs} {path diskPath : CStr} {c : List Byte} {offset size : ℕ}
    (hd : vfsDiskPath path = some diskPath) (hserves : v.sfs.device.serves 0 = true)
    (hc : v.sfs.contents diskPath = some c) (f : ℕ → Byte) (hsize : size ≠ 0)
    (hfits : offset + size ≤ sfsMaxFileSize) :
    ∃ r, r = storeDiskFile
        { v.tick with diskFileBuffer := blit (loadedBuffer v c) offset f size } diskPath
        (max (offset + size) c.length)
      ∧ vfsWrite v path offset (some f) size = (r.1, if r.2 then some size else none) := by
  have ho := vfsWrite_outcome (v := v) hd offset (some f) size
  generalize vfsWrite v path offset (some f) size = w at ho ⊢
  cases ho with
  | refused hbad =>
    rcases hbad with h0 | hnull | hlong
    · exact absurd h0 hsize
    · cases hnull
    · exact absurd hfits (Nat.not_le.mpr hlong)
  | unread hv hnone => cases (hnone hserves).symm.trans hc
  | @edited c' data r hserves' hc' hok hdata hr =>
    obtain rfl := Option.some.inj (hc'.symm.trans hc)
    exact ⟨r, hdata ▸ hr, rfl⟩

/-- How a truncation of such a path can end. -/
inductive DiskTruncate (v : Vfs) (diskPath : CStr) (size : ℕ) : Vfs × Bool → Prop
  | refused (hbad : sfsMaxFileSize < size) : DiskTruncate v diskPath size (v, false)
  | unread {v' : Vfs} (hv : Loads v v')
      (hnone : v.sfs.device.serves 0 = true → v.sfs.contents diskPath = none) :
      DiskTruncate v diskPath size (v', false)
  | edited {c : List Byte} {data : ℕ → Byte} {r : Vfs × Bool}
    (hserves : v.sfs.device.serves 0 = true)
      (hc : v.sfs.contents diskPath = some c) (hok : size ≤ sfsMaxFileSize)
      (hdata : data = blit (loadedBuffer v c) c.length (fun _ => 0) (size - c.length))
      (hr : r = storeDiskFile { v.tick with diskFileBuffer := data } diskPath size) :
      DiskTruncate v diskPath size r

/-- **A truncation of a routed path**, in the same three ways. -/
theorem vfsTruncate_outcome {v : Vfs} {path diskPath : CStr} (hd : vfsDiskPath path = some diskPath)
    (size : ℕ) : DiskTruncate v diskPath size (vfsTruncate v path size) := by
  have hload := loadDiskFile_outcome v diskPath
  rw [vfsTruncate, hd]
  dsimp only
  split
  · rename_i hbad
    exact .refused hbad
  · rename_i hok
    generalize loadDiskFile v diskPath = r at hload ⊢
    cases hload with
    | failed hv hnone => exact .unread hv hnone
    | loaded hserves hc => exact .edited hserves hc (Nat.le_of_not_lt hok) rfl rfl

/-! ## The edited bytes -/

section Edited

variable (v : Vfs) (c : List Byte)

/-- **A file loaded and written into**: past its end it is the buffer that shows. -/
theorem cells_edited_iff (offset : ℕ) (f : ℕ → Byte) (size : ℕ) :
    cells (blit (loadedBuffer v c) offset f size) 0 (max (offset + size) c.length)
        = splice c offset (cells f 0 size)
      ↔ ∀ i, c.length ≤ i → i < offset → v.diskFileBuffer i = 0 := by
  have hiff := cells_splice_iff (m := loadedBuffer v c) (a := offset) (f := f) (k := size)
    (n := c.length)
  rw [cells_loadedBuffer] at hiff
  rw [hiff]
  refine forall_congr' fun i => forall_congr' fun hi => ?_
  rw [loadedBuffer_of_le hi]

/-- …and truncated. -/
theorem cells_truncated (size : ℕ) :
    cells (blit (loadedBuffer v c) c.length (fun _ => 0) (size - c.length)) 0 size
      = resize c size := by
  have hresize : cells (blit (loadedBuffer v c) c.length (fun _ => 0) (size - c.length)) 0 size
      = resize (cells (loadedBuffer v c) 0 c.length) size := by
    refine cells_resize (fun i hi => blit_outside (.inl hi)) fun i hi hlt => ?_
    obtain ⟨k, rfl⟩ := Nat.exists_eq_add_of_le hi
    exact blit_inside (by omega)
  rw [hresize, cells_loadedBuffer]

end Edited

/-! ## Files of RAMFS -/

/-- Other bytes in a node. -/
def Vfs.setFile (v : Vfs) (i : Fin vfsMaxNodes) (data : ℕ → Byte) (size : ℕ) : Vfs :=
  { v with nodes := Function.update v.nodes i { v.nodes i with data := data, size := size } }

section SetFile

variable (v : Vfs) (i : Fin vfsMaxNodes) (data : ℕ → Byte) (size : ℕ)

/-- One node gets new data and a new size; it stays at its path, and every other as it is. -/
theorem setFile_self : (v.setFile i data size).nodes i
    = { v.nodes i with data := data, size := size } := Function.update_self ..

theorem setFile_other {j : Fin vfsMaxNodes} (hj : j ≠ i) :
    (v.setFile i data size).nodes j = v.nodes j := Function.update_of_ne hj ..

theorem setFile_same (j : Fin vfsMaxNodes) :
    ((v.setFile i data size).nodes j).used = (v.nodes j).used
      ∧ ((v.setFile i data size).nodes j).kind = (v.nodes j).kind
      ∧ ((v.setFile i data size).nodes j).path = (v.nodes j).path := by
  by_cases hj : j = i
  · subst hj
    rw [setFile_self]
    exact ⟨rfl, rfl, rfl⟩
  · rw [setFile_other v i data size hj]
    exact ⟨rfl, rfl, rfl⟩

theorem ramFile_setFile (path : CStr) : ramFile (v.setFile i data size) path = ramFile v path := by
  rw [ramFile, ramFile, vfsFind, vfsFind]
  simp only [setFile_same v i data size]

end SetFile

/-- The node of a file: used, a file, with this path. -/
theorem ramFile_spec {v : Vfs} {path : CStr} {i : Fin vfsMaxNodes} (h : ramFile v path = some i) :
    (v.nodes i).used = true ∧ (v.nodes i).kind = .file ∧ Spells (v.nodes i).path 0 path.chars := by
  obtain ⟨hfind, hkind⟩ := Option.filter_eq_some_iff.mp h
  have hi := List.find?_some hfind
  rw [Bool.and_eq_true, pathEquals_cstr] at hi
  exact ⟨hi.1, beq_iff_eq.mp hkind, hi.2⟩

/-- Two paths do not name one node. -/
theorem ramFile_inj {v : Vfs} {p q : CStr} {i : Fin vfsMaxNodes} (hp : ramFile v p = some i)
    (hq : ramFile v q = some i) : p = q :=
  CStr.ext ((ramFile_spec hp).2.2.unique (ramFile_spec hq).2.2)

/-- Nothing but the file at `path` changes, seen by paths or by nodes. -/
structure OnlyFile (v v' : Vfs) (path : CStr) : Prop where
  others : ∀ q, q ≠ path → v'.contents q = v.contents q
  nodes : ∀ i, (vfsDiskPath path).isSome = true ∨ ramFile v path ≠ some i → v'.nodes i = v.nodes i

theorem ramFile_congr {v v' : Vfs} (hnodes : v'.nodes = v.nodes) (path : CStr) :
    ramFile v' path = ramFile v path := by
  rw [ramFile, ramFile, vfsFind, vfsFind, hnodes]

/-- **One file changes**: of SaturnFS, by its path there… -/
theorem onlyFile_disk {v v' : Vfs} {path diskPath : CStr} (hd : vfsDiskPath path = some diskPath)
    (hnodes : v'.nodes = v.nodes)
    (hsfs : ∀ q, q ≠ diskPath → v'.sfs.contents q = v.sfs.contents q) : OnlyFile v v' path where
  others q hq := by
    rw [Vfs.contents, Vfs.contents]
    cases hdq : vfsDiskPath q with
    | none =>
      dsimp only
      rw [ramFile_congr hnodes, hnodes]
    | some d =>
      refine hsfs d ?_
      rintro rfl
      exact hq (vfsDiskPath_inj hdq hd)
  nodes i _ := congrFun hnodes i

/-- A node cut, or extended with zeros. -/
theorem bytes_truncated (node : RamfsNode) (size : ℕ) :
    cells (blit node.data node.size (fun _ => 0) (size - node.size)) 0 size
      = resize node.bytes size := by
  refine cells_resize (fun i hi => blit_outside (.inl hi)) fun i hi hlt => ?_
  obtain ⟨k, rfl⟩ := Nat.exists_eq_add_of_le hi
  exact blit_inside (by omega)

section OnRam

variable {v : Vfs} {path : CStr} (hd : vfsDiskPath path = none)

include hd

/-- …or of the nodes. -/
theorem onlyFile_setFile {i : Fin vfsMaxNodes} (hi : ramFile v path = some i) (data : ℕ → Byte)
    (size : ℕ) : OnlyFile v (v.setFile i data size) path where
  others q hq := by
    rw [Vfs.contents, Vfs.contents]
    cases vfsDiskPath q with
    | some diskPath => rfl
    | none =>
      dsimp only
      rw [ramFile_setFile]
      refine Option.map_congr fun j hj => ?_
      rw [setFile_other]
      rintro rfl
      exact hq (ramFile_inj hj hi)
  nodes j hj := by
    refine setFile_other v i data size ?_
    rintro rfl
    rcases hj with hsome | hne
    · rw [hd] at hsome
      cases hsome
    · exact hne hi

/-- The new contents are what was put there. -/
theorem contents_setFile {i : Fin vfsMaxNodes} (hi : ramFile v path = some i) (data : ℕ → Byte)
    (size : ℕ) : (v.setFile i data size).contents path = some (cells data 0 size) := by
  rw [contents_ram hd, ramFile_setFile, hi, Option.map_some, setFile_self]
  rfl

/-- How a write to a path of RAMFS can end. -/
inductive RamWrite (v : Vfs) (path : CStr) (offset : ℕ) (buffer : Buffer) (size : ℕ) :
    Vfs × Option ℕ → Prop
  | refused (hbad : ramFile v path = none ∨ (size ≠ 0 ∧ buffer.isNone = true)
      ∨ vfsMaxFileSize < offset + size) : RamWrite v path offset buffer size (v, none)
  | edited {i : Fin vfsMaxNodes} (hi : ramFile v path = some i)
      (hok : (size = 0 ∨ buffer.isSome = true) ∧ offset + size ≤ vfsMaxFileSize) :
      RamWrite v path offset buffer size
        (v.setFile i (blit (v.nodes i).data offset (buffer.getD fun _ => 0) size)
          (max (offset + size) (v.nodes i).size), some size)

/-- **A write to a node** is refused or is one edit… -/
theorem vfsWrite_ram (offset : ℕ) (buffer : Buffer) (size : ℕ) :
    RamWrite v path offset buffer size (vfsWrite v path offset buffer size) := by
  rw [vfsWrite, hd]
  dsimp only
  split
  · exact .refused (.inl ‹_›)
  · rename_i i hi
    split
    · rename_i hbad
      refine .refused (.inr (hbad.imp_right fun hlong => ?_))
      omega
    · rename_i hok
      simp only [not_or, not_and, not_lt] at hok
      refine .edited hi ⟨?_, by omega⟩
      by_cases hsize : size = 0
      · exact .inl hsize
      · refine .inr ?_
        have hsome := hok.1 hsize
        rw [Bool.not_eq_true, Option.isNone_eq_false_iff] at hsome
        exact hsome

theorem vfsWrite_setFile {i : Fin vfsMaxNodes} (hi : ramFile v path = some i) {offset size : ℕ}
    {buffer : Buffer} (hbuffer : size = 0 ∨ buffer.isSome = true)
    (hfits : offset + size ≤ vfsMaxFileSize) : vfsWrite v path offset buffer size
      = (v.setFile i (blit (v.nodes i).data offset (buffer.getD fun _ => 0) size)
        (max (offset + size) (v.nodes i).size), some size) := by
  rw [vfsWrite, hd, hi]
  refine if_neg ?_
  rintro (⟨hsize, hnull⟩ | hlong)
  · rw [Option.isNone_iff_eq_none] at hnull
    rw [hnull] at hbuffer
    exact hsize (hbuffer.resolve_right (by decide))
  · omega

/-- …and a truncation. -/
inductive RamTruncate (v : Vfs) (path : CStr) (size : ℕ) : Vfs × Bool → Prop
  | refused (hbad : ramFile v path = none ∨ vfsMaxFileSize < size) :
  RamTruncate v path size (v, false)
  | edited {i : Fin vfsMaxNodes} (hi : ramFile v path = some i) (hok : size ≤ vfsMaxFileSize) :
      RamTruncate v path size
        (v.setFile i (blit (v.nodes i).data (v.nodes i).size (fun _ => 0) (size - (v.nodes i).size))
          size, true)

/-- …and so is a truncation. -/
theorem vfsTruncate_ram (size : ℕ) : RamTruncate v path size (vfsTruncate v path size) := by
  rw [vfsTruncate, hd]
  dsimp only
  split
  · exact .refused (.inl ‹_›)
  · rename_i i hi
    split
    · exact .refused (.inr ‹_›)
    · exact .edited hi (Nat.le_of_not_lt ‹_›)

end OnRam

/-! ## Reads -/

/-- What a read gives of a file. -/
def readPart (offset : ℕ) (hasBuffer : Bool) (size : ℕ) (c : List Byte) : Option (List Byte) :=
  if (size ≠ 0 ∧ hasBuffer = false) ∨ c.length < offset then none
  else some ((c.drop offset).take size)

/-- To load is to change no contents. -/
theorem Loads.contents {v v' : Vfs} (h : Loads v v') (q : CStr) : v'.contents q = v.contents q := by
  rw [Vfs.contents, Vfs.contents, ramFile_congr h.nodes, h.nodes]
  cases vfsDiskPath q with
  | none => rfl
  | some diskPath => exact h.sfs_contents diskPath

theorem loadDiskFile_loads (v : Vfs) (path : CStr) : Loads v (loadDiskFile v path).1 := by
  have hload := loadDiskFile_outcome v path
  generalize loadDiskFile v path = r at hload ⊢
  cases hload with
  | failed hv hnone => exact hv
  | loaded hserves hc => exact .inr ⟨_, rfl⟩

section Read

variable (v : Vfs) (path : CStr) (offset : ℕ) (hasBuffer : Bool) (size : ℕ)

/-- **To read is no more than to load.** -/
theorem vfsRead_loads : Loads v (vfsRead v path offset hasBuffer size).1 := by
  rw [vfsRead]
  split
  · rename_i diskPath hd
    have hload := loadDiskFile_loads v diskPath
    split <;> rename_i heq <;> rw [heq] at hload
    · exact hload
    · split <;> exact hload
  · split
    · exact .inl rfl
    · split <;> exact .inl rfl

theorem vfsFileData_loads : Loads v (vfsFileData v path).1 := by
  rw [vfsFileData]
  split
  · rename_i diskPath hd
    have hload := loadDiskFile_loads v diskPath
    split <;> rename_i heq <;> rw [heq] at hload <;> exact hload
  · exact .inl rfl

/-- **A read gives part of the contents**, unless the device fails it. -/
theorem vfsRead_result : (vfsRead v path offset hasBuffer size).2
      = (v.contents path).bind (readPart offset hasBuffer size)
    ∨ (vfsRead v path offset hasBuffer size).2 = none
      ∧ (vfsDiskPath path).isSome = true ∧ v.sfs.device.serves 0 = false := by
  cases hd : vfsDiskPath path with
  | none =>
    refine .inl ?_
    rw [vfsRead, hd, contents_ram hd]
    dsimp only
    cases ramFile v path with
    | none => rfl
    | some i =>
      rw [Option.map_some, Option.bind_some, readPart, RamfsNode.bytes, length_cells, cells_read]
      dsimp only
      split <;> rfl
  | some diskPath =>
    have hload := loadDiskFile_outcome v diskPath
    rw [vfsRead, hd, contents_routed hd]
    dsimp only
    generalize loadDiskFile v diskPath = r at hload ⊢
    cases hload with
    | failed hv hnone =>
      cases hserves : v.sfs.device.serves 0 with
      | false => exact .inr ⟨rfl, rfl, rfl⟩
      | true =>
        rw [hnone hserves]
        exact .inl rfl
    | @loaded c hserves hc =>
      refine .inl ?_
      rw [hc, Option.bind_some, readPart]
      dsimp only
      split
      · rfl
      · rw [← cells_read (n := c.length), cells_loadedBuffer]

end Read

/-! ## SaturnFS under the operations -/

section Operations

variable {v : Vfs}

/-- The calls on nodes leave SaturnFS alone. -/
theorem vfsMkdir_sfs (path : CStr) : (vfsMkdir v path).1.sfs = v.sfs := by
  rw [vfsMkdir]
  split
  · rfl
  · split <;> rfl

theorem vfsRemove_sfs (path : CStr) : (vfsRemove v path).1.sfs = v.sfs := by
  rw [vfsRemove]
  split
  · rfl
  · dsimp only
    split
    · split <;> rfl
    · rfl

theorem vfsRename_sfs (old new : CStr) : (vfsRename v old new).1.sfs = v.sfs := by
  rw [vfsRename]
  split
  · rfl
  · repeat' split
    all_goals rfl

theorem vfsCreate_ram_sfs {path : CStr} (hd : vfsDiskPath path = none) (data : Buffer) (size : ℕ) :
    (vfsCreate v path data size).1.sfs = v.sfs := by
  rw [vfsCreate, hd]
  dsimp only
  split
  · rfl
  · split <;> rfl

-- what stays when a request is gone and when a file is stored
variable {P : Sfs → Prop} (htick : ∀ s : Sfs, P s → P { s with device := s.device.tick })
  (hwrite : ∀ s path data size, P s → P (sfsWriteFile s path data size).1)

include htick hwrite

/-- The calls on files keep what its writes keep. -/
theorem vfsWrite_sfs (path : CStr) (offset : ℕ) (buffer : Buffer) (size : ℕ) (h : P v.sfs) :
    P (vfsWrite v path offset buffer size).1.sfs := by
  cases hd : vfsDiskPath path with
  | some diskPath =>
    have ho := vfsWrite_outcome (v := v) hd offset buffer size
    generalize vfsWrite v path offset buffer size = r at ho ⊢
    cases ho with
    | refused hbad => exact h
    | unread hv hnone => exact hv.sfs htick h
    | edited hserves hc hok hdata hr =>
      subst hr
      exact hwrite _ _ _ _ (htick _ h)
  | none =>
    have ho := vfsWrite_ram (v := v) hd offset buffer size
    generalize vfsWrite v path offset buffer size = r at ho ⊢
    cases ho with
    | refused hbad => exact h
    | edited hi hok => exact h

theorem vfsTruncate_sfs (path : CStr) (size : ℕ) (h : P v.sfs) :
    P (vfsTruncate v path size).1.sfs := by
  cases hd : vfsDiskPath path with
  | some diskPath =>
    have ho := vfsTruncate_outcome (v := v) hd size
    generalize vfsTruncate v path size = r at ho ⊢
    cases ho with
    | refused hbad => exact h
    | unread hv hnone => exact hv.sfs htick h
    | edited hserves hc hok hdata hr =>
      subst hr
      exact hwrite _ _ _ _ (htick _ h)
  | none =>
    have ho := vfsTruncate_ram (v := v) hd size
    generalize vfsTruncate v path size = r at ho ⊢
    cases ho with
    | refused hbad => exact h
    | edited hi hok => exact h

/-- **SaturnFS changes through its two functions only.** -/
theorem vfsStep_sfs {v' : Vfs} {op : VfsOp} (hstep : vfsStep v op = some v') (h : P v.sfs) :
    P v'.sfs := by
  cases op with
  | mkdir path => exact Option.some.inj hstep ▸ (vfsMkdir_sfs path).symm ▸ h
  | remove path => exact Option.some.inj hstep ▸ (vfsRemove_sfs path).symm ▸ h
  | rename old new => exact Option.some.inj hstep ▸ (vfsRename_sfs old new).symm ▸ h
  | create path data size =>
    obtain rfl := Option.some.inj hstep
    cases hd : vfsDiskPath path with
    | some diskPath =>
      rw [vfsCreate, hd]
      exact hwrite _ diskPath data size h
    | none =>
      rw [vfsCreate_ram_sfs hd]
      exact h
  | write path offset buffer size =>
    exact Option.some.inj hstep ▸ vfsWrite_sfs htick hwrite path offset buffer size h
  | truncate path size => exact Option.some.inj hstep ▸ vfsTruncate_sfs htick hwrite path size h
  | read path offset hasBuffer size =>
    exact Option.some.inj hstep ▸ (vfsRead_loads v path offset hasBuffer size).sfs htick h
  | fileData path => exact Option.some.inj hstep ▸ (vfsFileData_loads v path).sfs htick h

end Operations

end SaturnOS
