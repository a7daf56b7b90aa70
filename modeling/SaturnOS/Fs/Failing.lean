import SaturnOS.Fs.Backends
import SaturnOS.Fs.Listing

/-!
# Fs/Failing — what a call of the VFS that fails leaves

    mkdir, remove, rename ──fail──▸ the same state
    create, write, truncate ──fail──▸ a request gone, disk_file_buffer filled      (DiskOk)

The calls check before they change, but for SaturnFS: it has the extent of a file before it has the
directory.  Over a device that serves, and a SaturnFS that was formatted or is not mounted, neither
of the two writes is refused, so what fails has changed nothing that is read back (`Loads`).
-/

open Machinery

namespace SaturnOS

/-! ## The disk -/

/-- Requests are served, and a SaturnFS that is mounted was formatted. -/
structure DiskOk (s : Sfs) : Prop where
  serving : s.device.Serving
  formatted : s.mounted = true → Formatted s

namespace DiskOk

variable {s : Sfs} (h : DiskOk s)

include h

/-- A request, a load and a write keep the disk as it should be. -/
theorem tick : DiskOk { s with device := s.device.tick } :=
  ⟨h.serving.tick, fun hm => (h.formatted hm).tick⟩

theorem loads {v v' : Vfs} (hv : Loads v v') (hs : s = v.sfs) : DiskOk v'.sfs := by
  subst hs
  exact hv.sfs (fun _ h => h.tick) h

/-- A write to SaturnFS that fails does nothing. -/
theorem writeFile_fails {path : CStr} {data : Buffer} {size : ℕ}
    (hfail : (sfsWriteFile s path data size).2 = false) :
    sfsWriteFile s path data size = (s, false) := by
  by_cases hm : s.mounted = true
  · rcases (h.formatted hm).filesOk.write path data size with heq | ⟨s', heq, -⟩
    · exact heq
    · rw [heq] at hfail
      cases hfail
  · exact writeFile_refused fun hn => hm (canWrite_iff.mp hn.1).1

/-- A file that is there is on a formatted disk. -/
theorem of_contents {path : CStr} {c : List Byte} (hc : s.contents path = some c) : Formatted s :=
  h.formatted (contents_iff.mp hc).1

theorem writeFile (path : CStr) (data : Buffer) (size : ℕ) :
    DiskOk (sfsWriteFile s path data size).1 := by
  cases hok : (sfsWriteFile s path data size).2 with
  | false =>
    rw [h.writeFile_fails hok]
    exact h
  | true =>
    have hm : s.mounted = true := by
      by_contra hm
      rw [writeFile_refused fun hn => hm (canWrite_iff.mp hn.1).1] at hok
      cases hok
    have hformatted := (h.formatted hm).writeFile path data size
    exact ⟨hformatted.serving, fun _ => hformatted⟩

end DiskOk

/-! ## Lengths -/

section Lengths

variable {v : Vfs} {path : CStr}

/-- **The bytes of `vfs_file_data`** are the contents. -/
theorem vfsFileData_routed (path : CStr)
    (hserves : (vfsDiskPath path).isSome = true → v.sfs.device.serves 0 = true) :
    (vfsFileData v path).2 = v.contents path := by
  cases hd : vfsDiskPath path with
  | none => rw [vfsFileData, hd, contents_ram hd]; rfl
  | some diskPath =>
    have hload := loadDiskFile_outcome v diskPath
    rw [hd] at hserves
    rw [vfsFileData, hd, contents_routed hd]
    dsimp only
    generalize loadDiskFile v diskPath = r at hload ⊢
    cases hload with
    | failed hv hnone => exact (hnone (hserves rfl)).symm
    | loaded hserves' hc =>
      rw [hc]
      exact congrArg some (cells_loadedBuffer v _)

/-- Where the device serves, `vfs_file_data` gives the contents. -/
theorem vfsFileData_contents (hserves : v.sfs.device.serves 0 = true) (path : CStr) :
    (vfsFileData v path).2 = v.contents path := vfsFileData_routed path fun _ => hserves

/-- **What is read or written is within the bounds of a file**: the data of one… -/
theorem vfsFileData_length (hnames : NamesOk v) {bytes : List Byte}
    (h : (vfsFileData v path).2 = some bytes) : bytes.length ≤ vfsMaxFileSize := by
  cases hd : vfsDiskPath path with
  | none =>
    rw [vfsFileData, hd] at h
    obtain ⟨i, -, rfl⟩ := Option.map_eq_some_iff.mp h
    rw [length_cells]
    exact (hnames.sizes i).1
  | some diskPath =>
    have hload := loadDiskFile_outcome v diskPath
    rw [vfsFileData, hd] at h
    dsimp only at h
    generalize loadDiskFile v diskPath = r at hload h
    cases hload with
    | failed hv hnone => cases h
    | @loaded c hserves hc =>
      obtain rfl := Option.some.inj h
      rw [length_cells]
      exact length_le_of_contents hc

/-- …a part that is read… -/
theorem vfsRead_length (hnames : NamesOk v) {offset size : ℕ} {hasBuffer : Bool} {bytes : List Byte}
    (h : (vfsRead v path offset hasBuffer size).2 = some bytes) :
    offset + bytes.length ≤ vfsMaxFileSize := by
  have hpart : ∀ c : List Byte, c.length ≤ vfsMaxFileSize →
      readPart offset hasBuffer size c = some bytes → offset + bytes.length ≤ vfsMaxFileSize := by
    intro c hc hread
    rw [readPart] at hread
    split_ifs at hread with hbad
    obtain rfl := Option.some.inj hread
    rw [List.length_take, List.length_drop]
    omega
  rcases vfsRead_result v path offset hasBuffer size with heq | ⟨hnone, -⟩
  · rw [heq] at h
    obtain ⟨c, hc, hread⟩ := Option.bind_eq_some_iff.mp h
    refine hpart c ?_ hread
    cases hd : vfsDiskPath path with
    | none =>
      rw [contents_ram hd] at hc
      obtain ⟨i, -, rfl⟩ := Option.map_eq_some_iff.mp hc
      rw [RamfsNode.bytes, length_cells]
      exact (hnames.sizes i).1
    | some diskPath =>
      rw [contents_routed hd] at hc
      exact length_le_of_contents hc
  · cases hnone.symm.trans h

/-- …and one that is written. -/
theorem vfsWrite_length {offset size written : ℕ} {buffer : Buffer}
    (h : (vfsWrite v path offset buffer size).2 = some written) :
    written = size ∧ offset + size ≤ vfsMaxFileSize := by
  cases hd : vfsDiskPath path with
  | none =>
    have ho := vfsWrite_ram (v := v) hd offset buffer size
    generalize vfsWrite v path offset buffer size = r at ho h
    cases ho with
    | refused hbad => cases h
    | edited hi hok => exact ⟨(Option.some.inj h).symm, hok.2⟩
  | some diskPath =>
    have ho := vfsWrite_outcome (v := v) hd offset buffer size
    generalize vfsWrite v path offset buffer size = r at ho h
    cases ho with
    | refused hbad => cases h
    | unread hv hnone => cases h
    | edited hserves hc hok hdata hr =>
      dsimp only at h
      split_ifs at h
      exact ⟨(Option.some.inj h).symm, hok.2.2⟩

end Lengths

/-! ## Failures -/

section Failures

variable {v : Vfs} {path : CStr}

/-- **A call that fails changes no file**: the calls on nodes change nothing… -/
theorem vfsMkdir_fails (h : (vfsMkdir v path).2 = false) : (vfsMkdir v path).1 = v := by
  rw [vfsMkdir] at h ⊢
  split
  · rfl
  · rename_i hok
    rw [if_neg hok] at h
    split
    · rfl
    · rename_i i hi
      rw [hi] at h
      cases h

theorem vfsRemove_fails (h : (vfsRemove v path).2 = false) : (vfsRemove v path).1 = v := by
  rw [vfsRemove] at h ⊢
  split
  · rfl
  · rename_i n hn
    rw [hn] at h
    dsimp only at h ⊢
    split
    · rename_i hkind
      rw [hkind] at h
      dsimp only at h
      split
      · rfl
      · rename_i hno
        rw [if_neg hno] at h
        cases h
    · rename_i hkind
      rw [hkind] at h
      cases h

theorem vfsRename_fails {old new : CStr} (h : (vfsRename v old new).2 = false) :
    (vfsRename v old new).1 = v := by
  rcases vfsRename_outcome v old new with heq | ⟨n, -, -, heq⟩ <;> rw [heq] at h ⊢
  cases h

theorem vfsCreate_ram_fails (hd : vfsDiskPath path = none) {data : Buffer} {size : ℕ}
    (h : (vfsCreate v path data size).2 = false) : (vfsCreate v path data size).1 = v := by
  have ho := vfsCreate_ram (v := v) hd data size
  generalize vfsCreate v path data size = r at ho h ⊢
  cases ho with
  | refused => rfl
  | created hpath hused hkind hspells hbytes => cases h

variable (hdisk : DiskOk v.sfs)

include hdisk

/-- An edited file of SaturnFS is stored. -/
theorem storeDiskFile_ok {diskPath : CStr} {c : List Byte} (hd : vfsDiskPath path = some diskPath)
    (hc : v.sfs.contents diskPath = some c) (data : ℕ → Byte) {size : ℕ}
    (hsize : size ≤ sfsMaxFileSize) :
    (storeDiskFile { v.tick with diskFileBuffer := data } diskPath size).2 = true := by
  obtain ⟨v', heq, -⟩ := store_formatted (fun _ => hdisk.of_contents hc)
    ((contents_routed hd).trans hc) hd data hsize
  rw [heq]

/-- …and those on files may have filled the buffer. -/
theorem vfsTruncate_fails {size : ℕ} (h : (vfsTruncate v path size).2 = false) :
    Loads v (vfsTruncate v path size).1 := by
  cases hd : vfsDiskPath path with
  | none =>
    have ho := vfsTruncate_ram (v := v) hd size
    generalize vfsTruncate v path size = r at ho h ⊢
    cases ho with
    | refused hbad => exact .inl rfl
    | edited hi hok => cases h
  | some diskPath =>
    have ho := vfsTruncate_outcome (v := v) hd size
    generalize vfsTruncate v path size = r at ho h ⊢
    cases ho with
    | refused hbad => exact .inl rfl
    | unread hv hnone => exact hv
    | edited hserves hc hok hdata hr =>
      rw [hr, storeDiskFile_ok hdisk hd hc _ hok] at h
      cases h

theorem vfsWrite_fails {offset size : ℕ} {buffer : Buffer}
    (h : (vfsWrite v path offset buffer size).2 = none) :
    Loads v (vfsWrite v path offset buffer size).1 := by
  cases hd : vfsDiskPath path with
  | none =>
    have ho := vfsWrite_ram (v := v) hd offset buffer size
    generalize vfsWrite v path offset buffer size = r at ho h ⊢
    cases ho with
    | refused hbad => exact .inl rfl
    | edited hi hok => cases h
  | some diskPath =>
    have ho := vfsWrite_outcome (v := v) hd offset buffer size
    generalize vfsWrite v path offset buffer size = r at ho h ⊢
    cases ho with
    | refused hbad => exact .inl rfl
    | unread hv hnone => exact hv
    | @edited c data r hserves hc hok hdata hr =>
      have hstored : r.2 = true := by
        rw [hr]
        exact storeDiskFile_ok hdisk hd hc _ (Nat.max_le.mpr ⟨hok.2.2, length_le_of_contents hc⟩)
      rw [hstored] at h
      cases h

/-- A creation writes nothing before it can fail, on a disk that serves. -/
theorem vfsCreate_fails {data : Buffer} {size : ℕ} (h : (vfsCreate v path data size).2 = false) :
    (vfsCreate v path data size).1 = v := by
  cases hd : vfsDiskPath path with
  | none => exact vfsCreate_ram_fails hd h
  | some diskPath =>
    rw [vfsCreate, hd] at h ⊢
    dsimp only at h ⊢
    rw [hdisk.writeFile_fails h]

end Failures

/-! ## Files that were made -/

section Made

variable {v : Vfs} {path : CStr} (hnames : NamesOk v)

include hnames

/-- **A created file is there**: in RAMFS… -/
theorem vfsCreate_ram_contents (hd : vfsDiskPath path = none) {data : Buffer} {size : ℕ}
    (h : (vfsCreate v path data size).2 = true) :
    (vfsCreate v path data size).1.contents path = some (bufferBytes data size) := by
  have ho := vfsCreate_ram (v := v) hd data size
  have hnames' := hnames.create path data size
  generalize vfsCreate v path data size = r at ho h hnames' ⊢
  cases ho with
  | refused => cases h
  | @created i node hpath hused hkind hspells hbytes =>
    have hnode : Function.update v.nodes i node i = node := Function.update_self ..
    have hfile := hnames'.ramFile_eq (i := i) hpath ((congrArg _ hnode).trans hused)
      ((congrArg _ hnode).trans hkind) ((congrArg RamfsNode.path hnode) ▸ hspells)
    rw [contents_ram hd, hfile, Option.map_some]
    exact congrArg some ((congrArg RamfsNode.bytes hnode).trans hbytes)

/-- …and anywhere. -/
theorem vfsCreate_contents (hdisk : DiskOk v.sfs) {data : Buffer} {size : ℕ}
    (h : (vfsCreate v path data size).2 = true) :
    (vfsCreate v path data size).1.contents path = some (bufferBytes data size) := by
  cases hd : vfsDiskPath path with
  | none => exact vfsCreate_ram_contents hnames hd h
  | some diskPath =>
    rw [vfsCreate, hd] at h ⊢
    dsimp only at h ⊢
    have hm : v.sfs.mounted = true := by
      by_contra hm
      rw [writeFile_refused fun hn => hm (canWrite_iff.mp hn.1).1] at h
      cases h
    rcases (hdisk.formatted hm).filesOk.write diskPath data size with heq | ⟨s', heq, hfiles⟩
    · rw [heq] at h
      cases h
    · rw [contents_routed hd]
      dsimp only
      rw [heq, hfiles.contents]
      exact Function.update_self ..

omit hnames in
/-- …and so is one that was cut to nothing. -/
theorem vfsTruncate_contents (hdisk : DiskOk v.sfs) {size : ℕ}
    (h : (vfsTruncate v path size).2 = true) :
    ∃ c, (vfsTruncate v path size).1.contents path = some c ∧ c.length = size := by
  have hc : ∃ c, v.contents path = some c ∧ size ≤ sfsMaxFileSize := by
    cases hd : vfsDiskPath path with
    | none =>
      have ho := vfsTruncate_ram (v := v) hd size
      generalize vfsTruncate v path size = r at ho h
      cases ho with
      | refused hbad => cases h
      | edited hi hok => exact ⟨_, by rw [contents_ram hd, hi, Option.map_some], hok⟩
    | some diskPath =>
      have ho := vfsTruncate_outcome (v := v) hd size
      generalize vfsTruncate v path size = r at ho h
      cases ho with
      | refused hbad => cases h
      | unread hv hnone => cases h
      | edited hserves hc hok hdata hr => exact ⟨_, (contents_routed hd).trans hc, hok⟩
  obtain ⟨c, hc, hsize⟩ := hc
  have hformatted : (vfsDiskPath path).isSome = true → Formatted v.sfs := by
    intro hsome
    obtain ⟨diskPath, hd⟩ := Option.isSome_iff_exists.mp hsome
    exact hdisk.of_contents ((contents_routed hd).symm.trans hc)
  obtain ⟨v', heq, hpath, -⟩ := truncate_formatted hformatted hc hsize
  rw [heq]
  exact ⟨_, hpath, length_resize c size⟩

end Made

/-! ## SaturnFS as it was formatted -/

/-- A SaturnFS that was formatted once, by `sfs_format`, over a device that serves. -/
def OnceFormatted (s : Sfs) : Prop :=
  ∃ s₀ ops, FreshlyFormatted s₀ ∧ run sfsStep s₀ ops = some s

theorem OnceFormatted.formatted {s : Sfs} (h : OnceFormatted s) : Formatted s := by
  obtain ⟨s₀, ops, ⟨s₁, hserving, hlarge, rfl⟩, hrun⟩ := h
  have halways : Always sfsStep Formatted (sfsFormat s₁).1 ops := by
    exact Always.of_inv (I := Formatted) (fun _ _ _ hs hstep => hs.sfsStep hstep) (fun _ h => h)
      (formatted_format hserving hlarge) ops
  exact halways.last hrun

/-- Block requests in range do not fail, and SaturnFS is not mounted or was formatted. -/
def DiskAssumed (s : Sfs) : Prop := s.device.Serving ∧ (s.mounted = true → OnceFormatted s)

theorem DiskAssumed.ok {s : Sfs} (h : DiskAssumed s) : DiskOk s :=
  ⟨h.1, fun hm => (h.2 hm).formatted⟩

end SaturnOS
