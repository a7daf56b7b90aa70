import SaturnOS.Fs.FileMap
import SaturnOS.Fs.Contents

/-!
# Fs/Backends — one file, two backends

    c ──write──▸ splice c ──truncate──▸ resize c ──read──▸ part of c
    ‖              ‖                      ‖                  ‖
    node.data      ⋯      in place        ⋯                  ⋯        (RAMFS)
    extent         ⋯      load and store  ⋯                  ⋯        (/disk)

A SaturnFS that is formatted and serves refuses no edit of a file it has, so a file under `/disk` is
the same string of bytes that a file of RAMFS is (`backends_agree`).
-/

open Machinery

namespace SaturnOS

/-! ## A SaturnFS that serves -/

namespace Formatted

variable {s : Sfs} (h : Formatted s)

include h

theorem filesOk : FilesOk ⟨s, s.contents⟩ := ⟨h, fun _ => rfl⟩

theorem tick : Formatted { s with device := s.device.tick } := h.congr h.serving.tick rfl rfl

theorem writeFile (path : CStr) (data : Buffer) (size : ℕ) :
    Formatted (sfsWriteFile s path data size).1 := by
  rcases h.filesOk.write path data size with heq | ⟨s', heq, hok⟩
  · rw [heq]
    exact h
  · rw [heq]
    exact hok.formatted

/-- **A file that is there can be replaced.** -/
theorem overwrite {path : CStr} {c : List Byte} (hc : s.contents path = some c) (data : ℕ → Byte)
    {size : ℕ} (hsize : size ≤ sfsMaxFileSize) :
    ∃ s', sfsWriteFile s path (some data) size = (s', true)
      ∧ s'.contents path = some (cells data 0 size) ∧ ∀ q, q ≠ path → s'.contents q
      = s.contents q := by
  obtain ⟨-, i, hfind, -⟩ := contents_iff.mp hc
  have hvalid : pathValid sfsMaxPath path = true := by
    obtain ⟨hi, hused, hspells⟩ := findEntry_lt hfind
    obtain ⟨p, -, hp, hspells', -⟩ := h.files i hi hused
    rw [CStr.ext (hspells.unique hspells')]
    exact hp
  have hok : (sfsWriteFile s path (some data) size).2 = true := by
    refine (h.writeFile_ok_iff path (some data) size).mpr ⟨canWrite_iff.mpr
      ⟨h.mounted, hvalid, .inr rfl, hsize⟩, ?_⟩
    rw [writeEntry, hfind]
    rfl
  rcases h.filesOk.write path (some data) size with heq | ⟨s', heq, hfiles⟩
  · rw [heq] at hok
    cases hok
  · refine ⟨s', heq, ?_, fun q hq => ?_⟩
    · rw [hfiles.contents]
      exact Function.update_self ..
    · rw [hfiles.contents]
      exact Function.update_of_ne hq ..

end Formatted

/-! ## The two backends -/

section Agree

variable {v : Vfs} {path : CStr} {c : List Byte}
  (h : (vfsDiskPath path).isSome = true → Formatted v.sfs) (hc : v.contents path = some c)

include h hc

theorem read_formatted (offset : ℕ) (hasBuffer : Bool) (size : ℕ) :
    (vfsRead v path offset hasBuffer size).2 = readPart offset hasBuffer size c := by
  rcases vfsRead_result v path offset hasBuffer size with heq | ⟨-, hd, hserves⟩
  · rw [heq, hc]
    rfl
  · cases hserves.symm.trans ((h hd).serving 0)

/-- An edited file is stored. -/
theorem store_formatted {diskPath : CStr} (hd : vfsDiskPath path = some diskPath)
    (data : ℕ → Byte) {size : ℕ} (hsize : size ≤ sfsMaxFileSize) :
    ∃ v', storeDiskFile { v.tick with diskFileBuffer := data } diskPath size = (v', true)
      ∧ v'.contents path = some (cells data 0 size) ∧ OnlyFile v v' path := by
  rw [contents_routed hd] at hc
  rw [hd] at h
  obtain ⟨s', heq, hpath, hothers⟩ := (h rfl).tick.overwrite
    ((contents_device rfl rfl diskPath).trans hc) data hsize
  refine ⟨{ v with diskFileBuffer := data, sfs := s' }, ?_, ?_, onlyFile_disk hd rfl fun q hq => ?_⟩
  · rw [storeDiskFile]
    dsimp only [Vfs.tick]
    rw [heq]
  · rw [contents_routed hd]
    exact hpath
  · exact (hothers q hq).trans (contents_device rfl rfl q)

/-- **A write** that fits, to a file: what it leaves is spliced, if it starts inside. -/
theorem write_formatted {offset size : ℕ} (f : ℕ → Byte) (hsize : 0 < size)
    (hfits : offset + size ≤ 4096) : ∃ v', vfsWrite v path offset (some f) size = (v', some size)
      ∧ (offset ≤ c.length → v'.contents path = some (splice c offset (cells f 0 size)))
      ∧ OnlyFile v v' path := by
  cases hd : vfsDiskPath path with
  | some diskPath =>
    have hformatted := h (by rw [hd]; rfl)
    have hc' := (contents_routed hd).symm.trans hc
    obtain ⟨r, hr, heq⟩ := vfsWrite_edited hd (hformatted.serving 0) hc' f (Nat.ne_of_gt hsize)
      hfits
    obtain ⟨v', hv', hpath, honly⟩ :=
      store_formatted h hc hd (blit (loadedBuffer v c) offset f size)
      (Nat.max_le.mpr ⟨hfits, length_le_of_contents hc'⟩)
    rw [hr.trans hv'] at heq
    refine ⟨v', heq, fun hle => ?_, honly⟩
    rw [hpath]
    exact congrArg some ((cells_edited_iff v c offset f size).mpr fun i hi hlt => by omega)
  | none =>
    rw [contents_ram hd] at hc
    obtain ⟨i, hi, rfl⟩ := Option.map_eq_some_iff.mp hc
    refine ⟨_, vfsWrite_setFile hd hi (.inr rfl) hfits, fun hle => ?_, onlyFile_setFile hd hi _ _⟩
    rw [contents_setFile hd hi]
    rw [RamfsNode.bytes, length_cells] at hle
    exact congrArg some (cells_splice_iff.mpr fun k hk hlt => by omega)

/-- **A truncation** to a size that fits. -/
theorem truncate_formatted {size : ℕ} (hsize : size ≤ 4096) :
    ∃ v', vfsTruncate v path size = (v', true) ∧ v'.contents path = some (resize c size)
      ∧ OnlyFile v v' path := by
  cases hd : vfsDiskPath path with
  | some diskPath =>
    have hc' := (contents_routed hd).symm.trans hc
    have ho := vfsTruncate_outcome (v := v) hd size
    generalize vfsTruncate v path size = r at ho ⊢
    cases ho with
    | refused hbad => exact absurd hsize (Nat.not_le.mpr hbad)
    | unread hv hnone =>
      rw [hd] at h
      cases (hnone ((h rfl).serving 0)).symm.trans hc'
    | @edited c' data r hserves hcc hok hdata hr =>
      obtain rfl := Option.some.inj (hcc.symm.trans hc')
      obtain ⟨v', heq, hpath, honly⟩ := store_formatted h hc hd data hsize
      rw [heq] at hr
      subst hr
      refine ⟨v', rfl, ?_, honly⟩
      rw [hpath, hdata, cells_truncated]
  | none =>
    rw [contents_ram hd] at hc
    obtain ⟨i, hi, rfl⟩ := Option.map_eq_some_iff.mp hc
    have ho := vfsTruncate_ram (v := v) hd size
    generalize vfsTruncate v path size = r at ho ⊢
    cases ho with
    | refused hbad =>
      rcases hbad with hnone | hlong
      · cases hnone.symm.trans hi
      · exact absurd hsize (Nat.not_le.mpr hlong)
    | @edited j hj hok =>
      obtain rfl := Option.some.inj (hj.symm.trans hi)
      refine ⟨_, rfl, ?_, onlyFile_setFile hd hj _ _⟩
      rw [contents_setFile hd hj, bytes_truncated]

end Agree

/-- A write that reaches past 4096 bytes does nothing. -/
theorem write_long {v : Vfs} {path : CStr} {offset size : ℕ} (buffer : Buffer)
    (hlong : 4096 < offset + size) : vfsWrite v path offset buffer size = (v, none) := by
  rw [vfsWrite]
  cases vfsDiskPath path with
  | some diskPath =>
    dsimp only
    rw [if_pos]
    simp only [sfsMaxFileSize]
    exact .inr (.inr (by omega))
  | none =>
    dsimp only
    cases ramFile v path with
    | none => rfl
    | some i =>
      dsimp only
      rw [if_pos]
      simp only [vfsMaxFileSize]
      exact .inr (by omega)

theorem truncate_long {v : Vfs} {path : CStr} {size : ℕ} (hlong : 4096 < size) :
    vfsTruncate v path size = (v, false) := by
  rw [vfsTruncate]
  cases vfsDiskPath path with
  | some diskPath => exact if_pos hlong
  | none =>
    dsimp only
    cases ramFile v path with
    | none => rfl
    | some i => exact if_pos hlong

/-- Nor does one of bytes that are not there. -/
theorem write_null {v : Vfs} {path : CStr} {offset size : ℕ} (hsize : 0 < size) :
    vfsWrite v path offset none size = (v, none) := by
  rw [vfsWrite]
  cases vfsDiskPath path with
  | some diskPath => exact if_pos (.inr (.inl rfl))
  | none =>
    dsimp only
    cases ramFile v path with
    | none => rfl
    | some i => exact if_pos (.inl ⟨Nat.ne_of_gt hsize, rfl⟩)

/-- What the functions do with the file `c` at `path`. -/
structure FileAt (v : Vfs) (path : CStr) (c : List Byte) : Prop where
  read : ∀ offset hasBuffer size, (size = 0 ∨ hasBuffer = true) →
    (vfsRead v path offset hasBuffer size).2 = if c.length < offset then none
      else some ((c.drop offset).take (min size (c.length - offset)))
  read_keeps : ∀ offset hasBuffer size q,
    (vfsRead v path offset hasBuffer size).1.contents q = v.contents q
  /-- A write that starts inside the file puts its bytes over it. -/
  write : ∀ offset size f, 0 < size → offset ≤ c.length → offset + size ≤ 4096 →
    ∃ v', vfsWrite v path offset (some f) size = (v', some size)
      ∧ v'.contents path = some (c.take offset ++ cells f 0 size ++ c.drop (offset + size))
      ∧ OnlyFile v v' path
  truncate : ∀ size, size ≤ 4096 → ∃ v', vfsTruncate v path size = (v', true)
      ∧ v'.contents path = some (c.take size ++ List.replicate (size - c.length) 0)
      ∧ OnlyFile v v' path
  write_long : ∀ offset buffer size, 4096 < offset + size →
    vfsWrite v path offset buffer size = (v, none)
  truncate_long : ∀ size, 4096 < size → vfsTruncate v path size = (v, false)

/-- The file `c` at both paths is handled the same. -/
structure SameFile (v : Vfs) (p q : CStr) (c : List Byte) : Prop where
  read : ∀ offset hasBuffer size,
    (vfsRead v p offset hasBuffer size).2 = (vfsRead v q offset hasBuffer size).2
  write : ∀ offset buffer size, 0 < size →
    (vfsWrite v p offset buffer size).2 = (vfsWrite v q offset buffer size).2
      ∧ (offset ≤ c.length → (vfsWrite v p offset buffer size).1.contents p
        = (vfsWrite v q offset buffer size).1.contents q)
  truncate : ∀ size, (vfsTruncate v p size).2 = (vfsTruncate v q size).2
    ∧ (vfsTruncate v p size).1.contents p = (vfsTruncate v q size).1.contents q

/-- The files of RAMFS are right, and where SaturnFS is, those under `/disk` and the two
together. -/
structure BackendsOk (disk : Prop) (v : Vfs) : Prop where
  ram : ∀ path c, vfsDiskPath path = none → v.contents path = some c → FileAt v path c
  routed : disk → ∀ path c, (vfsDiskPath path).isSome = true → v.contents path = some c →
    FileAt v path c
  both : disk → ∀ p q c, vfsDiskPath p = none → (vfsDiskPath q).isSome = true →
    v.contents p = some c → v.contents q = some c → SameFile v p q c

section Specs

variable {v : Vfs} {c : List Byte}

theorem fileAt_formatted {path : CStr} (h : (vfsDiskPath path).isSome = true → Formatted v.sfs)
    (hc : v.contents path = some c) : FileAt v path c where
  read offset hasBuffer size hbuffer := by
    rw [read_formatted h hc, readPart]
    by_cases hlt : c.length < offset
    · rw [if_pos (.inr hlt), if_pos hlt]
    · rw [if_neg, if_neg hlt]
      · rw [← List.length_drop, Nat.min_comm, ← List.take_take]
        exact congrArg some (List.take_of_length_le (List.length_take_le' size _)).symm
      · rintro (⟨hsize, hnone⟩ | hlt')
        · rcases hbuffer with h0 | h1
          · exact hsize h0
          · cases hnone.symm.trans h1
        · exact hlt hlt'
  read_keeps offset hasBuffer size q := (vfsRead_loads v path offset hasBuffer size).contents q
  write offset size f hsize hoff hfits := by
    obtain ⟨v', heq, hpath, honly⟩ := write_formatted h hc f hsize hfits
    refine ⟨v', heq, ?_, honly⟩
    rw [hpath hoff, splice_of_le hoff, length_cells]
  truncate size hsize := truncate_formatted h hc hsize
  write_long offset buffer size hlong := SaturnOS.write_long buffer hlong
  truncate_long size hlong := SaturnOS.truncate_long hlong

theorem sameFile_formatted (h : Formatted v.sfs) {p q : CStr} (hp : v.contents p = some c)
    (hq : v.contents q = some c) : SameFile v p q c where
  read offset hasBuffer size := by
    rw [read_formatted (fun _ => h) hp, read_formatted (fun _ => h) hq]
  write offset buffer size hsize := by
    cases buffer with
    | none =>
      rw [write_null hsize, write_null hsize]
      exact ⟨rfl, fun _ => hp.trans hq.symm⟩
    | some f =>
      by_cases hfits : offset + size ≤ 4096
      · obtain ⟨v₁, heq₁, hpath₁, -⟩ := write_formatted (fun _ => h) hp f hsize hfits
        obtain ⟨v₂, heq₂, hpath₂, -⟩ := write_formatted (fun _ => h) hq f hsize hfits
        rw [heq₁, heq₂]
        exact ⟨rfl, fun hoff => (hpath₁ hoff).trans (hpath₂ hoff).symm⟩
      · rw [write_long _ (Nat.lt_of_not_le hfits), write_long _ (Nat.lt_of_not_le hfits)]
        exact ⟨rfl, fun _ => hp.trans hq.symm⟩
  truncate size := by
    by_cases hsize : size ≤ 4096
    · obtain ⟨v₁, heq₁, hpath₁, -⟩ := truncate_formatted (fun _ => h) hp hsize
      obtain ⟨v₂, heq₂, hpath₂, -⟩ := truncate_formatted (fun _ => h) hq hsize
      rw [heq₁, heq₂]
      exact ⟨rfl, hpath₁.trans hpath₂.symm⟩
    · rw [truncate_long (Nat.lt_of_not_le hsize), truncate_long (Nat.lt_of_not_le hsize)]
      exact ⟨rfl, hp.trans hq.symm⟩

end Specs

/-! ## Runs -/

/-- An operation of the VFS, or of SaturnFS by itself. -/
inductive FsOp
  | vfs (op : VfsOp)
  | sfs (op : SfsOp)

def fsStep (v : Vfs) : FsOp → Option Vfs
  | .vfs op => vfsStep v op
  | .sfs op => (sfsStep v.sfs op).map fun sfs => { v with sfs := sfs }

theorem Formatted.sfsStep {s s' : Sfs} (h : Formatted s) {op : SfsOp}
    (hstep : SaturnOS.sfsStep s op = some s') : Formatted s' := by
  cases op with
  | write path data size =>
    obtain rfl := Option.some.inj hstep
    exact h.writeFile path data size
  | read path capacity =>
    obtain rfl := Option.some.inj hstep
    have hok := h.filesOk.step (show fileStep _ (.read path capacity) = some _ from rfl)
    exact hok.formatted
  | remount =>
    obtain rfl := Option.some.inj hstep
    have hok := h.filesOk.step (show fileStep _ .remount = some _ from rfl)
    exact hok.formatted

theorem Formatted.fsStep {v v' : Vfs} (h : Formatted v.sfs) {op : FsOp}
    (hstep : SaturnOS.fsStep v op = some v') : Formatted v'.sfs := by
  cases op with
  | vfs op =>
    exact vfsStep_sfs (fun _ h => h.tick) (fun _ path data size h => h.writeFile path data size)
      hstep h
  | sfs op =>
    obtain ⟨s', hs, rfl⟩ := Option.map_eq_some_iff.mp hstep
    exact h.sfsStep hs

/-- A SaturnFS that `sfs_format` made and mounted, over a device that serves. -/
def FreshlyFormatted (s' : Sfs) : Prop :=
  ∃ s : Sfs, s.device.Serving ∧ sfsDataStart + sfsMaxFiles * sfsFileSectors ≤ s.device.sectorCount
    ∧ s' = (sfsFormat s).1

example : FreshlyFormatted (sfsFormat blankDevice).1 := ⟨blankDevice, fun _ => rfl, by decide, rfl⟩

/-- **One file, two backends**: in every state of every run after `vfs_init` each file of RAMFS is
read, written and truncated as the string of bytes it is; so is each file under `/disk` of a
SaturnFS that was formatted over a device that serves, and equal files of the two are handled the
same. -/
theorem backends_agree (v : Vfs) (ops : List FsOp) :
    Always fsStep (BackendsOk (FreshlyFormatted v.sfs)) (vfsInit v) ops := by
  refine Always.of_inv (I := fun v' => FreshlyFormatted v.sfs → Formatted v'.sfs)
    (fun _ _ _ h hstep hs => (h hs).fsStep hstep) (fun v' h => ⟨fun path c hd hc => ?_,
      fun hs path c _ hc => fileAt_formatted (fun _ => h hs) hc,
      fun hs p q c _ _ hp hq => sameFile_formatted (h hs) hp hq⟩) ?_ ops
  · rintro ⟨s, hserving, hlarge, heq⟩
    show Formatted v.sfs
    rw [heq]
    exact formatted_format hserving hlarge
  · refine fileAt_formatted (fun hsome => ?_) hc
    rw [hd] at hsome
    cases hsome

end SaturnOS
