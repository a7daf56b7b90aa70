import Mathlib.Data.List.Find
import SaturnOS.Fs.Sfs

/-!
# Fs/Files — what SaturnFS holds, and what a write leaves of it

    path ──findEntry──▸ entry i ──start, size──▸ extent ──checksum──▸ contents

`Sfs.contents` is what `sfs_read_file` gives while the device serves; it depends on the entry of the
path and on its extent alone (`contents_iff`).  A write has four outcomes (`WriteOutcome`).  While
every extent lies in the data area, apart from the others (`Tidy`), none of them changes the
contents of another path (`contents_store`).
-/

open Machinery

namespace SaturnOS

/-! ## The device -/

namespace Device

variable {dev : Device} {sector count : ℕ}

theorem inRange_iff : dev.inRange sector count = true ↔
    0 < count ∧ sector + count ≤ dev.sectorCount := by
  simp only [inRange, Bool.and_eq_true, bne_iff_ne, decide_eq_true_eq]
  omega

end Device

theorem blockRead_spec (dev : Device) (sector count : ℕ) :
    (blockRead dev sector count).1.sectorCount = dev.sectorCount
      ∧ (blockRead dev sector count).1.data = dev.data
      ∧ ∀ b, (blockRead dev sector count).2 = some b →
        dev.serves 0 = true ∧ (blockRead dev sector count).1 = dev.tick
          ∧ b = fun i => dev.data (blockSectorSize * sector + i) := by
  rw [blockRead]
  split
  · exact ⟨rfl, rfl, fun b hb => by cases hb⟩
  · split
    · exact ⟨rfl, rfl, fun b hb => by cases hb⟩
    · rename_i hserves
      exact ⟨rfl, rfl, fun b hb => ⟨by simpa using hserves, rfl, (Option.some.inj hb).symm⟩⟩

theorem blockRead_device (dev : Device) (sector count : ℕ) :
    (blockRead dev sector count).1 = dev ∨ (blockRead dev sector count).1 = dev.tick := by
  rw [blockRead]
  split
  · exact .inl rfl
  · split <;> exact .inr rfl

theorem blockRead_served {dev : Device} {sector count : ℕ} (hin : dev.inRange sector count = true)
    (hserves : dev.serves 0 = true) : blockRead dev sector count
      = (dev.tick, some fun i => dev.data (blockSectorSize * sector + i)) := by
  rw [blockRead, hin, hserves]
  rfl

theorem blockWrite_served {dev : Device} {sector count : ℕ} (buffer : ℕ → Byte)
    (hin : dev.inRange sector count = true) (hserves : dev.serves 0 = true) :
    blockWrite dev sector buffer count = ({ dev.tick with
      data := blit dev.data (blockSectorSize * sector) buffer (blockSectorSize * count) },
      true) := by
  rw [blockWrite, hin, hserves]
  rfl

/-- **A write** stores its sectors, or nothing. -/
theorem blockWrite_spec (dev : Device) (sector : ℕ) (buffer : ℕ → Byte) (count : ℕ) :
    (blockWrite dev sector buffer count).1.sectorCount = dev.sectorCount
      ∧ ((blockWrite dev sector buffer count).2 = false
          ∧ (blockWrite dev sector buffer count).1.data = dev.data
        ∨ (blockWrite dev sector buffer count).2 = true ∧ dev.inRange sector count = true
          ∧ (blockWrite dev sector buffer count).1.data
            = blit dev.data (blockSectorSize * sector) buffer (blockSectorSize * count)) := by
  rw [blockWrite]
  split
  · exact ⟨rfl, .inl ⟨rfl, rfl⟩⟩
  · rename_i hin
    rw [Bool.not_eq_true', Bool.not_eq_false] at hin
    split
    · exact ⟨rfl, .inl ⟨rfl, rfl⟩⟩
    · exact ⟨rfl, .inr ⟨rfl, hin, rfl⟩⟩

/-! ## Contents -/

namespace Sfs

/-- SaturnFS over the same device, serving. -/
def served (s : Sfs) : Sfs := { s with device := { s.device with serves := fun _ => true } }

/-- What a path reads back. -/
def contents (s : Sfs) (path : CStr) : Option (List Byte) :=
  (sfsReadFile s.served path true sfsMaxFileSize).2

/-- The extent of entry `i` is on the device. -/
def Fits (s : Sfs) (i : ℕ) : Prop :=
  entryStart s.directory i + sfsFileSectors ≤ s.device.sectorCount

/-- Entry `i` is good for the file `c`. -/
structure Stores (s : Sfs) (i : ℕ) (c : List Byte) : Prop where
  fits : s.Fits i
  size_eq : entrySize s.directory i = c.length
  size_le : c.length ≤ sfsMaxFileSize
  data_eq : cells s.device.data (blockSectorSize * entryStart s.directory i) c.length = c
  checksum_eq : entryChecksum s.directory i = (sfsChecksum c).toNat

theorem Stores.unique {s : Sfs} {i : ℕ} {c c' : List Byte} (h : s.Stores i c) (h' : s.Stores i c') :
    c = c' := by
  rw [← h.data_eq, ← h'.data_eq, ← h.size_eq, h'.size_eq]

end Sfs

theorem findEntry_lt {d : ℕ → Byte} {path : CStr} {i : ℕ} (h : findEntry d path = some i) :
    i < sfsMaxFiles ∧ entryUsed d i = true ∧ Spells d (entryPath i) path.chars := by
  have hmem := List.mem_range.mp (List.mem_of_find?_eq_some h)
  have hp := List.find?_some h
  rw [Bool.and_eq_true, pathEquals_cstr] at hp
  exact ⟨hmem, hp⟩

/-- An extent off the device is not read. -/
theorem blockRead_out {dev : Device} {sector count : ℕ}
    (hout : ¬ sector + count ≤ dev.sectorCount) :
    blockRead dev sector count = (dev, none) := by
  rw [blockRead, if_pos]
  rw [Bool.not_eq_true', Bool.eq_false_iff]
  exact fun hin => hout (Device.inRange_iff.mp hin).2

section Read

variable (s : Sfs) (path : CStr) (capacity : ℕ) (hserves : s.device.serves 0 = true) (c : List Byte)

include hserves

/-- The entry of a path, read: its size, its extent and its checksum are to agree. -/
theorem readFile_entry {i : ℕ} (hm : s.mounted = true)
    (hfind : findEntry s.directory path = some i) :
    (sfsReadFile s path true capacity).2 = some c ↔ c.length ≤ capacity ∧ s.Stores i c := by
  have hcells : cells (fun j => s.device.data (blockSectorSize * entryStart s.directory i + j)) 0
        (entrySize s.directory i)
      = cells s.device.data (blockSectorSize * entryStart s.directory i)
        (entrySize s.directory i) := cells_congr fun j _ => by rw [Nat.zero_add]
  simp only [sfsReadFile, hm, hfind, Bool.not_true, Bool.or_false, Bool.false_eq_true, if_false]
  split
  · rename_i hbig
    refine iff_of_false (by simp) fun ⟨hcap, hs⟩ => ?_
    rw [hs.size_eq] at hbig
    have := hs.size_le
    omega
  · rename_i hsmall
    rw [not_or, not_lt, not_lt] at hsmall
    by_cases hfits : s.Fits i
    · have hin : s.device.inRange (entryStart s.directory i) sfsFileSectors = true :=
        Device.inRange_iff.mpr ⟨by decide, hfits⟩
      rw [blockRead_served hin hserves]
      dsimp only
      rw [hcells]
      split
      · rename_i hsum
        refine iff_of_false (by simp) fun ⟨_, hs⟩ => hsum ?_
        rw [hs.size_eq, hs.data_eq, hs.checksum_eq]
      · rename_i hsum
        rw [not_not] at hsum
        constructor
        · intro hc
          obtain rfl := Option.some.inj hc
          rw [length_cells]
          exact ⟨hsmall.1, hfits, (length_cells _ _ _).symm, by rw [length_cells]; exact hsmall.2,
            by rw [length_cells], hsum.symm⟩
        · rintro ⟨-, hs⟩
          rw [hs.size_eq, hs.data_eq]
    · rw [blockRead_out hfits]
      exact iff_of_false (by simp) fun ⟨_, hs⟩ => hfits hs.fits

/-- **What `sfs_read_file` does**, of a device that serves the next request. -/
theorem readFile_spec : (sfsReadFile s path true capacity).2 = some c ↔
    s.mounted = true ∧ c.length ≤ capacity
      ∧ ∃ i, findEntry s.directory path = some i ∧ s.Stores i c := by
  cases hm : s.mounted with
  | false => simp [sfsReadFile, hm]
  | true =>
    cases hfind : findEntry s.directory path with
    | none => simp [sfsReadFile, hm, hfind]
    | some i =>
      rw [readFile_entry s path capacity hserves c hm hfind]
      simp

end Read

theorem contents_iff {s : Sfs} {path : CStr} {c : List Byte} : s.contents path = some c ↔
    s.mounted = true ∧ ∃ i, findEntry s.directory path = some i ∧ s.Stores i c := by
  rw [Sfs.contents, readFile_spec s.served path sfsMaxFileSize rfl c]
  refine and_congr_right fun _ => ⟨?_, ?_⟩
  · rintro ⟨-, i, hfind, hs⟩
    exact ⟨i, hfind, ⟨hs.fits, hs.size_eq, hs.size_le, hs.data_eq, hs.checksum_eq⟩⟩
  · rintro ⟨i, hfind, hs⟩
    exact ⟨hs.size_le, i, hfind, ⟨hs.fits, hs.size_eq, hs.size_le, hs.data_eq, hs.checksum_eq⟩⟩

/-- **A read that is served** gives the contents, if they fit into the buffer. -/
theorem readFile_contents (s : Sfs) (path : CStr) (capacity : ℕ)
    (hserves : s.device.serves 0 = true) :
    (sfsReadFile s path true capacity).2
      = (s.contents path).filter fun c => decide (c.length ≤ capacity) := by
  refine Option.ext fun c => ?_
  rw [readFile_spec s path capacity hserves c, Option.filter_eq_some_iff, contents_iff,
    decide_eq_true_eq]
  exact ⟨fun ⟨hm, hle, hi⟩ => ⟨⟨hm, hi⟩, hle⟩, fun ⟨⟨hm, hi⟩, hle⟩ => ⟨hm, hle, hi⟩⟩

/-- The path of a readable file ends inside its entry, since its size has a zero byte. -/
theorem length_lt_of_contents {s : Sfs} {path : CStr} {c : List Byte}
    (h : s.contents path = some c) : path.length < sfsEntrySize := by
  obtain ⟨-, i, hfind, hs⟩ := contents_iff.mp h
  obtain ⟨-, -, hspells⟩ := findEntry_lt hfind
  have hsize : getLe32 s.directory (entryPath i + 48) < 65536 := by
    have := hs.size_le
    rw [show getLe32 s.directory (entryPath i + 48) = c.length from hs.size_eq]
    simp only [sfsMaxFileSize] at this
    omega
  have hzero := (high_of_getLe32_lt hsize).1
  obtain ⟨hno, hchars, -⟩ := spells_iff.mp hspells
  by_contra hlong
  rw [not_lt] at hlong
  have hlt : 50 < path.chars.length := by
    simp only [CStr.length, sfsEntrySize] at hlong
    omega
  refine hno ?_
  have h50 := hchars 50 hlt
  rw [show entryPath i + 50 = entryPath i + 48 + 2 by omega, hzero] at h50
  rw [h50]
  exact List.getElem_mem hlt

/-! ## Entries -/

/-- The 60 bytes of entry `j` agree. -/
def SameEntry (d d' : ℕ → Byte) (j : ℕ) : Prop :=
  ∀ k < sfsEntrySize, d' (entryPath j + k) = d (entryPath j + k)

namespace SameEntry

variable {d d' : ℕ → Byte} {j : ℕ} (h : SameEntry d d' j)

include h

theorem word_eq {k : ℕ} (hk : k + 4 ≤ sfsEntrySize) :
    getLe32 d' (entryPath j + k) = getLe32 d (entryPath j + k) :=
  getLe32_congr fun t ht => by
    rw [Nat.add_assoc]
    exact h (k + t) (by omega)

theorem start_eq : entryStart d' j = entryStart d j := h.word_eq (by decide)

theorem size_eq : entrySize d' j = entrySize d j := h.word_eq (by decide)

theorem checksum_eq : entryChecksum d' j = entryChecksum d j := h.word_eq (by decide)

theorem used_eq : entryUsed d' j = entryUsed d j := by
  rw [entryUsed, entryUsed, h.word_eq (k := 56) (by decide)]

/-- A path that is not longer than an entry is compared inside it. -/
theorem pathEquals_eq {path : CStr} (hpath : path.length < sfsEntrySize) :
    pathEquals d' (entryPath j) path.chars = pathEquals d (entryPath j) path.chars :=
  pathEquals_congr fun k hk => h k (Nat.lt_of_le_of_lt hk hpath)

end SameEntry

/-- Entry and extent are all a file depends on. -/
theorem stores_congr {s s' : Sfs} {j : ℕ} {c : List Byte}
    (hentry : SameEntry s.directory s'.directory j)
    (hcount : s'.device.sectorCount = s.device.sectorCount)
    (hdata : s.Fits j → ∀ k < sfsMaxFileSize,
      s'.device.data (blockSectorSize * entryStart s.directory j + k)
        = s.device.data (blockSectorSize * entryStart s.directory j + k)) :
    s'.Stores j c ↔ s.Stores j c := by
  have hfits : s'.Fits j ↔ s.Fits j := by
    rw [Sfs.Fits, Sfs.Fits, hentry.start_eq, hcount]
  constructor
  · intro h
    have hf := hfits.mp h.fits
    refine ⟨hf, hentry.size_eq.symm.trans h.size_eq, h.size_le, ?_,
      hentry.checksum_eq.symm.trans h.checksum_eq⟩
    have hread := h.data_eq
    rw [hentry.start_eq, cells_congr fun k hk => hdata hf k (lt_of_lt_of_le hk h.size_le)] at hread
    exact hread
  · intro h
    refine ⟨hfits.mpr h.fits, hentry.size_eq.trans h.size_eq, h.size_le, ?_,
      hentry.checksum_eq.trans h.checksum_eq⟩
    rw [hentry.start_eq, cells_congr fun k hk => hdata h.fits k (lt_of_lt_of_le hk h.size_le)]
    exact h.data_eq

/-- The entries decide where a path is found. -/
theorem findEntry_congr {d d' : ℕ → Byte} {q : CStr} (hlen : q.length < sfsEntrySize)
    (hentries : ∀ j < sfsMaxFiles, SameEntry d d' j) : findEntry d' q = findEntry d q := by
  refine List.find?_congr fun j hj => ?_
  have hentry := hentries j (List.mem_range.mp hj)
  rw [hentry.used_eq, hentry.pathEquals_eq hlen]

/-- **Contents depend on the entries, and on the extent of the path.** -/
theorem contents_congr {s s' : Sfs} {q : CStr} (hm : s'.mounted = s.mounted)
    (hcount : s'.device.sectorCount = s.device.sectorCount)
    (hentries : ∀ j < sfsMaxFiles, SameEntry s.directory s'.directory j)
    (hdata : ∀ j, q.length < sfsEntrySize → findEntry s.directory q = some j → s.Fits j →
      ∀ k < sfsMaxFileSize, s'.device.data (blockSectorSize * entryStart s.directory j + k)
        = s.device.data (blockSectorSize * entryStart s.directory j + k)) :
    s'.contents q = s.contents q := by
  have hiff : ∀ c, q.length < sfsEntrySize → (s'.contents q = some c ↔ s.contents q = some c) := by
    intro c hlen
    rw [contents_iff, contents_iff, hm, findEntry_congr hlen hentries]
    refine and_congr_right fun _ => exists_congr fun j => and_congr_right fun hfind => ?_
    exact stores_congr (hentries j (findEntry_lt hfind).1) hcount (hdata j hlen hfind)
  -- what is readable on either side is short
  refine Option.ext fun c => ⟨fun hc => ?_, fun hc => ?_⟩
  · exact (hiff c (length_lt_of_contents hc)).mp hc
  · exact (hiff c (length_lt_of_contents hc)).mpr hc

section Store

variable {d : ℕ → Byte} {i : ℕ} {path : CStr} {bytes : List Byte} (hpath : path.length < sfsMaxPath)

include hpath

theorem storeEntry_outside {k : ℕ}
    (hk : k < entryPath i ∨ entryPath i + sfsEntrySize ≤ k) :
    storeEntry d i path bytes k = d k := by
  simp only [CStr.length, sfsMaxPath, sfsEntrySize] at hpath hk
  rw [storeEntry, putLe32_outside (by omega), putLe32_outside (by omega),
    putLe32_outside (by omega), putString_outside (by omega)]

theorem storeEntry_other {j : ℕ} (hj : j ≠ i) : SameEntry d (storeEntry d i path bytes) j := by
  intro k hk
  refine storeEntry_outside hpath ?_
  simp only [entryPath, sfsEntrySize] at hk ⊢
  omega

theorem storeEntry_start (j : ℕ) : entryStart (storeEntry d i path bytes) j = entryStart d j := by
  by_cases hj : j = i
  · subst hj
    simp only [CStr.length, sfsMaxPath] at hpath
    rw [entryStart, storeEntry, getLe32_put_of_ne (by omega), getLe32_put_of_ne (by omega),
      getLe32_put_of_ne (by omega)]
    exact getLe32_congr fun t ht => putString_outside (by omega)
  · exact (storeEntry_other hpath hj).start_eq

omit hpath in
theorem storeEntry_used : entryUsed (storeEntry d i path bytes) i = true := by
  rw [entryUsed, storeEntry, getLe32_put (by decide)]
  rfl

omit hpath in
theorem storeEntry_size (hsize : bytes.length ≤ sfsMaxFileSize) :
    entrySize (storeEntry d i path bytes) i = bytes.length := by
  simp only [sfsMaxFileSize] at hsize
  rw [entrySize, storeEntry, getLe32_put_of_ne (by omega), getLe32_put_of_ne (by omega),
    getLe32_put (by omega)]

omit hpath in
theorem storeEntry_checksum :
    entryChecksum (storeEntry d i path bytes) i = (sfsChecksum bytes).toNat := by
  rw [entryChecksum, storeEntry, getLe32_put_of_ne (by omega), getLe32_put (sfsChecksum bytes).isLt]

theorem storeEntry_spells : Spells (storeEntry d i path bytes) (entryPath i) path.chars := by
  refine (spells_putString (m := d) path.noNul).congr fun k hk => ?_
  simp only [CStr.length, sfsMaxPath] at hpath
  rw [storeEntry, putLe32_outside (by omega), putLe32_outside (by omega),
    putLe32_outside (by omega)]

/-- Every other path is found where it was. -/
theorem findEntry_store {q : CStr} (hq : q ≠ path) (hlen : q.length < sfsEntrySize)
    (hi : entryUsed d i = false ∨ Spells d (entryPath i) path.chars) :
    findEntry (storeEntry d i path bytes) q = findEntry d q := by
  have hne : ∀ m : ℕ → Byte, Spells m (entryPath i) path.chars →
      pathEquals m (entryPath i) q.chars = false := by
    intro m hm
    rw [Bool.eq_false_iff]
    intro heq
    exact hq (CStr.ext (((pathEquals_cstr q).mp heq).unique hm))
  refine List.find?_congr fun j _ => ?_
  by_cases hj : j = i
  · subst hj
    rw [hne _ (storeEntry_spells hpath), Bool.and_false]
    rcases hi with hi | hi
    · rw [hi, Bool.false_and]
    · rw [hne _ hi, Bool.and_false]
  · have hother : SameEntry d (storeEntry d i path bytes) j := storeEntry_other hpath hj
    rw [hother.used_eq, hother.pathEquals_eq hlen]

end Store

/-- The entry a write goes to is free or the path's own. -/
theorem writeEntry_spec {d : ℕ → Byte} {path : CStr} {i : ℕ} (h : writeEntry d path = some i) :
    i < sfsMaxFiles ∧ (entryUsed d i = false ∨ Spells d (entryPath i) path.chars)
      ∧ (findEntry d path = some i ∨ findEntry d path = none ∧ freeEntry d = some i) := by
  rw [writeEntry] at h
  cases hfind : findEntry d path with
  | none =>
    rw [hfind, Option.none_or] at h
    have hmem := List.mem_range.mp (List.mem_of_find?_eq_some h)
    have hfree := List.find?_some h
    rw [Bool.not_eq_true'] at hfree
    exact ⟨hmem, .inl hfree, .inr ⟨rfl, h⟩⟩
  | some j =>
    rw [hfind, Option.some_or] at h
    obtain rfl := Option.some.inj h
    obtain ⟨hlt, -, hspells⟩ := findEntry_lt hfind
    exact ⟨hlt, .inr hspells, .inl rfl⟩

/-! ## Writes -/

/-- The extent of entry `i`, with the bytes of a write. -/
def storeExtent (s : Sfs) (i : ℕ) (bytes : List Byte) : ℕ → Byte :=
  blit s.device.data (blockSectorSize * entryStart s.directory i) (fun j => bytes.getD j 0)
    (blockSectorSize * sfsFileSectors)

/-- How a write can end; the directory reaches the device only at the last. -/
inductive WriteOutcome (s : Sfs) (path : CStr) (bytes : List Byte) : Sfs × Bool → Prop
  | refused : WriteOutcome s path bytes (s, false)
  | extentFailed {dev : Device} (hcount : dev.sectorCount = s.device.sectorCount)
      (hdata : dev.data = s.device.data) :
      WriteOutcome s path bytes ({ s with device := dev }, false)
  | directoryFailed {dev : Device} {i : ℕ} (hpath : path.length < sfsMaxPath)
      (hentry : writeEntry s.directory path = some i) (hfits : s.Fits i)
      (hcount : dev.sectorCount = s.device.sectorCount)
      (hdata : dev.data = storeExtent s i bytes) :
      WriteOutcome s path bytes
        ({ s with device := dev, directory := storeEntry s.directory i path bytes }, false)
  | stored {dev : Device} {i : ℕ} (hpath : path.length < sfsMaxPath)
      (hentry : writeEntry s.directory path = some i) (hfits : s.Fits i)
      (hcount : dev.sectorCount = s.device.sectorCount)
      (hdata : dev.data = blit (storeExtent s i bytes) blockSectorSize
        (storeEntry s.directory i path bytes) blockSectorSize) :
      WriteOutcome s path bytes
        ({ s with device := dev, directory := storeEntry s.directory i path bytes }, true)

theorem canWrite_iff {s : Sfs} {path : CStr} {data : Buffer} {size : ℕ} :
    canWrite s path data size = true ↔ s.mounted = true ∧ pathValid sfsMaxPath path = true
      ∧ (size = 0 ∨ data.isSome = true) ∧ size ≤ sfsMaxFileSize := by
  simp only [canWrite, Bool.and_eq_true, Bool.or_eq_true, beq_iff_eq, decide_eq_true_eq, and_assoc]

/-- **The outcome of a write.** -/
theorem writeFile_outcome (s : Sfs) (path : CStr) (data : Buffer) (size : ℕ) :
    WriteOutcome s path (bufferBytes data size) (sfsWriteFile s path data size) := by
  rw [sfsWriteFile]
  split
  · exact .refused
  · rename_i hcan
    rw [Bool.not_eq_true', Bool.not_eq_false] at hcan
    have hpath := (pathValid_iff.mp (canWrite_iff.mp hcan).2.1).2.1
    split
    · exact .refused
    · rename_i i hentry
      dsimp only
      obtain ⟨hcount, hwrite⟩ := blockWrite_spec s.device (entryStart s.directory i)
        (fun j => (bufferBytes data size).getD j 0) sfsFileSectors
      split
      · rename_i dev heq
        rw [heq] at hcount hwrite
        rcases hwrite with ⟨-, hdata⟩ | ⟨hok, -⟩
        · exact .extentFailed hcount hdata
        · cases hok
      · rename_i dev heq
        rw [heq] at hcount hwrite
        rcases hwrite with ⟨hok, -⟩ | ⟨-, hin, hdata⟩
        · cases hok
        · have hfits : s.Fits i := (Device.inRange_iff.mp hin).2
          obtain ⟨hcount', hwrite'⟩ := blockWrite_spec dev sfsDirectorySector
            (storeEntry s.directory i path (bufferBytes data size)) 1
          rw [writeDirectory]
          rcases hwrite' with ⟨hok, hdata'⟩ | ⟨hok, -, hdata'⟩
          · rw [hok]
            exact .directoryFailed hpath hentry hfits (hcount'.trans hcount) (hdata'.trans hdata)
          · rw [hok]
            refine .stored hpath hentry hfits (hcount'.trans hcount) (hdata'.trans ?_)
            rw [show dev.data = storeExtent s i _ from hdata]
            rfl

/-! ## Tidy directories -/

/-- Every extent on the device lies in the data area, apart from the others. -/
structure Tidy (d : ℕ → Byte) (sectors : ℕ) : Prop where
  data_area : ∀ i < sfsMaxFiles, entryStart d i + sfsFileSectors ≤ sectors →
    sfsDataStart ≤ entryStart d i
  apart : ∀ i < sfsMaxFiles, ∀ j < sfsMaxFiles, i ≠ j →
    entryStart d i + sfsFileSectors ≤ sectors → entryStart d j + sfsFileSectors ≤ sectors →
    entryStart d i + sfsFileSectors ≤ entryStart d j
      ∨ entryStart d j + sfsFileSectors ≤ entryStart d i

/-- Writes leave the starts alone. -/
theorem Tidy.congr {d d' : ℕ → Byte} {sectors : ℕ} (h : Tidy d sectors)
    (hstart : ∀ i < sfsMaxFiles, entryStart d' i = entryStart d i) : Tidy d' sectors where
  data_area i hi := by
    rw [hstart i hi]
    exact h.data_area i hi
  apart i hi j hj := by
    rw [hstart i hi, hstart j hj]
    exact h.apart i hi j hj

/-- Neither the extent of another entry nor the directory sector is in an extent. -/
theorem Tidy.extent_outside {s : Sfs} (h : Tidy s.directory s.device.sectorCount) {i j : ℕ}
    (hi : i < sfsMaxFiles) (hj : j < sfsMaxFiles) (hij : j ≠ i) (hfi : s.Fits i) (hfj : s.Fits j)
    (bytes : List Byte) {k : ℕ} (hk : k < sfsMaxFileSize) (d : ℕ → Byte) :
    storeExtent s i bytes (blockSectorSize * entryStart s.directory j + k)
        = s.device.data (blockSectorSize * entryStart s.directory j + k)
      ∧ blit (storeExtent s i bytes) blockSectorSize d blockSectorSize
          (blockSectorSize * entryStart s.directory j + k)
        = s.device.data (blockSectorSize * entryStart s.directory j + k) := by
  have hapart := h.apart i hi j hj (Ne.symm hij) hfi hfj
  have hdata := h.data_area j hj hfj
  simp only [sfsFileSectors, sfsDataStart, sfsMaxFileSize] at hapart hdata hk
  have hextent : storeExtent s i bytes (blockSectorSize * entryStart s.directory j + k)
      = s.device.data (blockSectorSize * entryStart s.directory j + k) := by
    refine blit_outside ?_
    simp only [blockSectorSize, sfsFileSectors]
    omega
  refine ⟨hextent, ?_⟩
  rw [blit_outside]
  · exact hextent
  · simp only [blockSectorSize]
    omega

/-- **A write does not touch other files**: over a tidy directory no other path reads differently,
however the write ended. -/
theorem contents_store {s s' : Sfs} {path q : CStr} {i : ℕ} {bytes : List Byte}
    (htidy : Tidy s.directory s.device.sectorCount) (hpath : path.length < sfsMaxPath)
    (hentry : writeEntry s.directory path = some i) (hfits : s.Fits i)
    (hm : s'.mounted = s.mounted) (hdir : s'.directory = storeEntry s.directory i path bytes)
    (hcount : s'.device.sectorCount = s.device.sectorCount)
    (hdata : s'.device.data = storeExtent s i bytes
      ∨ ∃ d, s'.device.data = blit (storeExtent s i bytes) blockSectorSize d blockSectorSize)
    (hq : q ≠ path) : s'.contents q = s.contents q := by
  obtain ⟨hi, hown, -⟩ := writeEntry_spec hentry
  have hiff : ∀ c, q.length < sfsEntrySize → (s'.contents q = some c ↔ s.contents q = some c) := by
    intro c hlen
    rw [contents_iff, contents_iff, hm, hdir, findEntry_store hpath hq hlen hown]
    refine and_congr_right fun _ => exists_congr fun j => and_congr_right fun hfind => ?_
    obtain ⟨hj, hused, hspells⟩ := findEntry_lt hfind
    have hji : j ≠ i := by
      rintro rfl
      rcases hown with hfree | hpathj
      · cases hfree.symm.trans hused
      · exact hq (CStr.ext (hspells.unique hpathj))
    refine stores_congr ?_ hcount fun hfj k hk => ?_
    · rw [hdir]
      exact storeEntry_other hpath hji
    · rcases hdata with hdata | ⟨d, hdata⟩
      · rw [hdata]
        exact (htidy.extent_outside hi hj hji hfits hfj bytes hk s.directory).1
      · rw [hdata]
        exact (htidy.extent_outside hi hj hji hfits hfj bytes hk d).2
  -- what is readable on either side is short
  refine Option.ext fun c => ⟨fun hc => ?_, fun hc => ?_⟩
  · exact (hiff c (length_lt_of_contents hc)).mp hc
  · exact (hiff c (length_lt_of_contents hc)).mpr hc

/-- The path of a write is found at the entry it went to. -/
theorem findEntry_written {d : ℕ → Byte} {path : CStr} {i : ℕ} (bytes : List Byte)
    (hpath : path.length < sfsMaxPath) (hentry : writeEntry d path = some i) :
    findEntry (storeEntry d i path bytes) path = some i := by
  obtain ⟨hi, -, hfind⟩ := writeEntry_spec hentry
  have hlen : path.length < sfsEntrySize := by
    simp only [sfsMaxPath, sfsEntrySize] at *
    omega
  have hbefore : ∀ j < i, (entryUsed d j && pathEquals d (entryPath j) path.chars) = false := by
    intro j hj
    rcases hfind with hfind | ⟨hnone, -⟩
    · exact Bool.not_eq_true' _ |>.mp ((List.find?_range_eq_some.mp hfind).2.2 j hj)
    · have hj := List.find?_eq_none.mp hnone j (List.mem_range.mpr (hj.trans hi))
      exact Bool.not_eq_true _ |>.mp hj
  refine List.find?_range_eq_some.mpr ⟨?_, List.mem_range.mpr hi, fun j hj => ?_⟩
  · rw [storeEntry_used, Bool.true_and, pathEquals_cstr]
    exact storeEntry_spells hpath
  · have hother : SameEntry d (storeEntry d i path bytes) j :=
      storeEntry_other hpath (Nat.ne_of_lt hj)
    rw [hother.used_eq, hother.pathEquals_eq hlen, hbefore j hj]
    rfl

section Written

variable {s s' : Sfs} {path : CStr} {i : ℕ} {bytes : List Byte}
  (htidy : Tidy s.directory s.device.sectorCount) (hpath : path.length < sfsMaxPath)
  (hsize : bytes.length ≤ sfsMaxFileSize) (hfits : s.Fits i)
  (hdir : s'.directory = storeEntry s.directory i path bytes)
  (hcount : s'.device.sectorCount = s.device.sectorCount)
  (hdata : s'.device.data = storeExtent s i bytes
    ∨ ∃ d, s'.device.data = blit (storeExtent s i bytes) blockSectorSize d blockSectorSize)

include htidy hpath hsize hfits hdir hcount hdata

/-- The extent of a write holds its bytes. -/
theorem stores_written (hi : i < sfsMaxFiles) : s'.Stores i bytes := by
  have hstart := htidy.data_area i hi hfits
  refine ⟨?_, ?_, hsize, cells_eq rfl fun k hk => ?_, ?_⟩
  · rw [Sfs.Fits, hdir, storeEntry_start hpath, hcount]
    exact hfits
  · rw [hdir]
    exact storeEntry_size hsize
  · have hextent : s'.device.data (blockSectorSize * entryStart s.directory i + k)
        = storeExtent s i bytes (blockSectorSize * entryStart s.directory i + k) := by
      rcases hdata with hdata | ⟨d, hdata⟩
      · rw [hdata]
      · rw [hdata]
        refine blit_outside (.inr ?_)
        simp only [sfsDataStart, blockSectorSize] at *
        omega
    rw [hdir, storeEntry_start hpath, hextent, storeExtent, blit_inside]
    · rw [List.getElem?_eq_getElem hk, List.getD_eq_getElem?_getD, List.getElem?_eq_getElem hk]
      rfl
    · simp only [sfsMaxFileSize, blockSectorSize, sfsFileSectors] at *
      omega
  · rw [hdir]
    exact storeEntry_checksum

/-- **A write is read back**, once its extent is stored. -/
theorem contents_written (hentry : writeEntry s.directory path = some i) (hm : s'.mounted = true) :
    s'.contents path = some bytes := by
  refine contents_iff.mpr ⟨hm, i, ?_, stores_written htidy hpath hsize hfits hdir hcount hdata
    (writeEntry_spec hentry).1⟩
  rw [hdir]
  exact findEntry_written bytes hpath hentry

end Written

end SaturnOS
