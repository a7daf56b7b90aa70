import Mathlib.Data.Set.Card
import SaturnOS.Fs.Durable

/-!
# Fs/FileMap — SaturnFS is a finite map that persists

    files : CStr → Option (List Byte)        ──write path bytes──▸  files[path ↦ bytes]
      ‖ contents                                                      ‖ contents
    directory, extents, checksums            ──sfs_write_file──▸    ⋯ and on the device

On a formatted device that serves, each entry in use holds a valid path, its own, and a file that
passes its checksum (`Formatted`), and the directory sector is the directory.  So writes and reads
are updates and lookups of the map of the successful writes, and a remount is nothing at all
(`saturnfs_refines`).
-/

open Machinery

namespace SaturnOS

/-- Every request is served. -/
def Device.Serving (dev : Device) : Prop := ∀ n, dev.serves n = true

theorem Device.Serving.tick {dev : Device} (h : dev.Serving) :
    dev.tick.Serving := fun n => h (n + 1)

/-! ## The invariant -/

structure Formatted (s : Sfs) : Prop where
  serving : s.device.Serving
  large : sfsDataStart + sfsMaxFiles * sfsFileSectors ≤ s.device.sectorCount
  mounted : s.mounted = true
  super : superblockValid s.device.sectorCount s.device.data = true
  same : ∀ k < blockSectorSize, diskDirectory s.device k = s.directory k
  starts : ∀ i < sfsMaxFiles, entryStart s.directory i = sfsDataStart + i * sfsFileSectors
  files : ∀ i < sfsMaxFiles, entryUsed s.directory i = true →
    ∃ path c, pathValid sfsMaxPath path = true ∧ Spells s.directory (entryPath i) path.chars
      ∧ s.Stores i c
  distinct : ∀ i < sfsMaxFiles, ∀ j < sfsMaxFiles, entryUsed s.directory i = true →
    entryUsed s.directory j = true → ∀ path : CStr, Spells s.directory (entryPath i) path.chars →
    Spells s.directory (entryPath j) path.chars → i = j

theorem findEntry_none {d : ℕ → Byte} {path : CStr} (h : findEntry d path = none) {j : ℕ}
    (hj : j < sfsMaxFiles) (hused : entryUsed d j = true) :
    ¬ Spells d (entryPath j) path.chars := by
  intro hspells
  have := List.find?_eq_none.mp h j (List.mem_range.mpr hj)
  rw [hused, (pathEquals_cstr path).mpr hspells] at this
  exact this rfl

/-- A write with bad arguments, or no entry to go to, does nothing. -/
theorem writeFile_refused {s : Sfs} {path : CStr} {data : Buffer} {size : ℕ}
    (hno : ¬ (canWrite s path data size = true ∧ (writeEntry s.directory path).isSome = true)) :
    sfsWriteFile s path data size = (s, false) := by
  rw [sfsWriteFile]
  split
  · rfl
  · rename_i hcan
    rw [Bool.not_eq_true', Bool.not_eq_false] at hcan
    split
    · rfl
    · rename_i i hentry
      exact absurd ⟨hcan, by rw [hentry]; rfl⟩ hno

namespace Formatted

variable {s s' : Sfs} (h : Formatted s)

include h

theorem tidy : Tidy s.directory s.device.sectorCount := by
  constructor
  · intro i hi _
    rw [h.starts i hi]
    exact Nat.le_add_right _ _
  · intro i hi j hj hij _ _
    rw [h.starts i hi, h.starts j hj]
    simp only [sfsDataStart, sfsFileSectors]
    omega

theorem sound : Sound s := sound_of_same h.tidy h.super h.same

/-- Every extent is on the device. -/
theorem fits {i : ℕ} (hi : i < sfsMaxFiles) : s.Fits i := by
  have := h.large
  rw [Sfs.Fits, h.starts i hi]
  simp only [sfsMaxFiles, sfsDataStart, sfsFileSectors] at *
  omega

/-- A path in the directory is found there, and its file is good. -/
theorem contents_entry {path : CStr} {i : ℕ} {c : List Byte} (hi : i < sfsMaxFiles)
    (hused : entryUsed s.directory i = true) (hspells : Spells s.directory (entryPath i) path.chars)
    (hs : s.Stores i c) : s.contents path = some c := by
  refine contents_iff.mpr ⟨h.mounted, i, ?_, hs⟩
  cases hfind : findEntry s.directory path with
  | none => exact absurd hspells (findEntry_none hfind hi hused)
  | some j =>
    obtain ⟨hj, hused', hspells'⟩ := findEntry_lt hfind
    rw [h.distinct i hi j hj hused hused' path hspells hspells']

/-- What is found can be read. -/
theorem isSome_contents {path : CStr} :
    (s.contents path).isSome = true ↔ (findEntry s.directory path).isSome = true := by
  constructor
  · intro hc
    obtain ⟨c, hc⟩ := Option.isSome_iff_exists.mp hc
    obtain ⟨-, i, hfind, -⟩ := contents_iff.mp hc
    rw [hfind]
    rfl
  · intro hf
    obtain ⟨i, hfind⟩ := Option.isSome_iff_exists.mp hf
    obtain ⟨hi, hused, hspells⟩ := findEntry_lt hfind
    obtain ⟨-, c, -, -, hs⟩ := h.files i hi hused
    rw [h.contents_entry hi hused hspells hs]
    rfl

/-- **As many files as entries in use.** -/
theorem ncard_files : {q | (s.contents q).isSome = true}.ncard
    = ((Finset.range sfsMaxFiles).filter fun i => entryUsed s.directory i = true).card := by
  have hpath : ∀ i, ∃ path : CStr, i < sfsMaxFiles → entryUsed s.directory i = true →
      Spells s.directory (entryPath i) path.chars := by
    intro i
    by_cases hi : i < sfsMaxFiles ∧ entryUsed s.directory i = true
    · obtain ⟨path, -, -, hspells, -⟩ := h.files i hi.1 hi.2
      exact ⟨path, fun _ _ => hspells⟩
    · exact ⟨⟨[], by simp⟩, fun h1 h2 => absurd ⟨h1, h2⟩ hi⟩
  choose pathOf hpathOf using hpath
  have hset : {q | (s.contents q).isSome = true}
      = ↑(((Finset.range sfsMaxFiles).filter fun i => entryUsed s.directory i = true).image
      pathOf) := by
    ext q
    simp only [Set.mem_ofPred_eq, Finset.coe_image, Set.mem_image, Finset.mem_coe,
      Finset.mem_filter,
      Finset.mem_range]
    rw [h.isSome_contents]
    constructor
    · intro hf
      obtain ⟨i, hfind⟩ := Option.isSome_iff_exists.mp hf
      obtain ⟨hi, hused, hspells⟩ := findEntry_lt hfind
      exact ⟨i, ⟨hi, hused⟩, CStr.ext ((hpathOf i hi hused).unique hspells)⟩
    · rintro ⟨i, ⟨hi, hused⟩, rfl⟩
      rw [Option.isSome_iff_ne_none]
      exact fun hnone => findEntry_none hnone hi hused (hpathOf i hi hused)
  rw [hset, Set.ncard_coe_finset, Finset.card_image_of_injOn]
  intro i hi j hj hij
  simp only [Finset.coe_filter, Finset.mem_range, Set.mem_ofPred_eq] at hi hj
  refine h.distinct i hi.1 j hj.1 hi.2 hj.2 (pathOf i) (hpathOf i hi.1 hi.2) ?_
  rw [show pathOf i = pathOf j from hij]
  exact hpathOf j hj.1 hj.2

/-- There is an entry for one more file exactly when there are fewer than eight. -/
theorem freeEntry_iff : (freeEntry s.directory).isSome = true
    ↔ {q | (s.contents q).isSome = true}.ncard < sfsMaxFiles := by
  rw [h.ncard_files]
  have hle := Finset.card_filter_le (Finset.range sfsMaxFiles) fun i => entryUsed s.directory i
    = true
  rw [Finset.card_range] at hle
  have hfull := Finset.card_filter_eq_iff (s := Finset.range sfsMaxFiles)
    (p := fun i => entryUsed s.directory i = true)
  rw [Finset.card_range] at hfull
  constructor
  · intro hfree
    obtain ⟨i, hi⟩ := Option.isSome_iff_exists.mp hfree
    have hmem := List.mem_range.mp (List.mem_of_find?_eq_some hi)
    have hunused := List.find?_some hi
    refine lt_of_le_of_ne hle fun heq => ?_
    have hused := hfull.mp heq i (Finset.mem_range.mpr hmem)
    rw [hused] at hunused
    cases hunused
  · intro hlt
    rw [Option.isSome_iff_ne_none]
    intro hnone
    refine Nat.ne_of_lt hlt (hfull.mpr fun i hi => ?_)
    have := List.find?_eq_none.mp hnone i (List.mem_range.mpr (Finset.mem_range.mp hi))
    simpa using this

/-- A write that is not refused is stored. -/
theorem writeFile_served {path : CStr} {data : Buffer} {size i : ℕ} {bytes : List Byte}
    (hbytes : bufferBytes data size = bytes) (hcan : canWrite s path data size = true)
    (hentry : writeEntry s.directory path = some i) :
    ∃ dev : Device, dev.Serving ∧ dev.sectorCount = s.device.sectorCount
      ∧ dev.data = blit (storeExtent s i bytes) blockSectorSize
        (storeEntry s.directory i path bytes) blockSectorSize
      ∧ sfsWriteFile s path data size
        = ({ s with device := dev, directory := storeEntry s.directory i path bytes }, true) := by
  subst hbytes
  obtain ⟨hi, -⟩ := writeEntry_spec hentry
  have hin : s.device.inRange (entryStart s.directory i) sfsFileSectors = true :=
    Device.inRange_iff.mpr ⟨by decide, h.fits hi⟩
  have hdirectory : ({ s.device.tick with
      data := storeExtent s i (bufferBytes data size) } : Device).inRange sfsDirectorySector 1
      = true := by
    refine Device.inRange_iff.mpr ⟨by decide, ?_⟩
    have := h.large
    simp only [sfsDataStart, sfsMaxFiles, sfsFileSectors, sfsDirectorySector, Device.tick] at *
    omega
  rw [sfsWriteFile, hcan, if_neg (by decide), hentry]
  dsimp only
  rw [blockWrite_served _ hin (h.serving 0)]
  dsimp only [writeDirectory]
  rw [show blit s.device.data (blockSectorSize * entryStart s.directory i)
      (fun j => (bufferBytes data size).getD j 0) (blockSectorSize * sfsFileSectors)
    = storeExtent s i (bufferBytes data size) from rfl,
    blockWrite_served _ hdirectory (h.serving 1)]
  exact ⟨{ s.device.tick.tick with
      data := blit (storeExtent s i (bufferBytes data size)) blockSectorSize
        (storeEntry s.directory i path (bufferBytes data size)) blockSectorSize },
    h.serving.tick.tick, rfl, rfl, rfl⟩

/-- **A write succeeds** exactly when its arguments are good and there is an entry for it. -/
theorem writeFile_ok_iff (path : CStr) (data : Buffer) (size : ℕ) :
    (sfsWriteFile s path data size).2 = true
      ↔ canWrite s path data size = true ∧ (writeEntry s.directory path).isSome = true := by
  constructor
  · intro hok
    by_contra hno
    rw [writeFile_refused hno] at hok
    cases hok
  · rintro ⟨hcan, hentry⟩
    obtain ⟨i, hentry⟩ := Option.isSome_iff_exists.mp hentry
    obtain ⟨dev, -, -, -, heq⟩ := h.writeFile_served rfl hcan hentry
    rw [heq]

/-- The extent of a write holds its bytes. -/
theorem stores_written {path : CStr} {i : ℕ} {bytes : List Byte} {dev : Device}
    (hpath : path.length < sfsMaxPath) (hsize : bytes.length ≤ sfsMaxFileSize)
    (hi : i < sfsMaxFiles) (hcount : dev.sectorCount = s.device.sectorCount)
    (hdata : dev.data = blit (storeExtent s i bytes) blockSectorSize
      (storeEntry s.directory i path bytes) blockSectorSize) :
    Sfs.Stores { s with device := dev, directory := storeEntry s.directory i path bytes } i bytes :=
  SaturnOS.stores_written h.tidy hpath hsize (h.fits hi) rfl hcount (.inr ⟨_, hdata⟩) hi

/-- A string in an entry that is in use is a valid path. -/
theorem length_lt {i : ℕ} (hi : i < sfsMaxFiles) (hused : entryUsed s.directory i = true) {q : CStr}
    (hspells : Spells s.directory (entryPath i) q.chars) : q.length < sfsEntrySize := by
  obtain ⟨path, -, hpath, hspells', -⟩ := h.files i hi hused
  have hlen := (pathValid_iff.mp hpath).2.1
  rw [CStr.ext (hspells.unique hspells')]
  simp only [sfsMaxPath, sfsEntrySize] at *
  omega

/-- No other entry has the path of a write. -/
theorem write_alone {path : CStr} {i j : ℕ} (hentry : writeEntry s.directory path = some i)
    (hj : j < sfsMaxFiles) (hji : j ≠ i) (hused : entryUsed s.directory j = true) :
    ¬ Spells s.directory (entryPath j) path.chars := by
  intro hspells
  obtain ⟨hi, -, hfind | ⟨hnone, -⟩⟩ := writeEntry_spec hentry
  · obtain ⟨-, hused', hspells'⟩ := findEntry_lt hfind
    exact hji (h.distinct j hj i hi hused hused' path hspells hspells')
  · exact findEntry_none hnone hj hused hspells

/-- Another entry in use spells what it did, and that is not the path of the write. -/
theorem spells_other {path : CStr} {i j : ℕ} (bytes : List Byte) (hlen : path.length < sfsMaxPath)
    (hentry : writeEntry s.directory path = some i) (hj : j < sfsMaxFiles) (hji : j ≠ i)
    (hused : entryUsed (storeEntry s.directory i path bytes) j = true) {q : CStr}
    (hq : Spells (storeEntry s.directory i path bytes) (entryPath j) q.chars) :
    entryUsed s.directory j = true ∧ Spells s.directory (entryPath j) q.chars ∧ q ≠ path := by
  have hother : SameEntry s.directory (storeEntry s.directory i path bytes) j :=
    storeEntry_other hlen hji
  rw [hother.used_eq] at hused
  obtain ⟨q', -, -, hspells', -⟩ := h.files j hj hused
  have hkept : Spells (storeEntry s.directory i path bytes) (entryPath j) q'.chars := by
    rw [← pathEquals_cstr, hother.pathEquals_eq (h.length_lt hj hused hspells'), pathEquals_cstr]
    exact hspells'
  obtain rfl : q = q' := CStr.ext (hq.unique hkept)
  refine ⟨hused, hspells', ?_⟩
  rintro rfl
  exact h.write_alone hentry hj hji hused hspells'

/-- The entries of a written directory have different paths. -/
theorem distinct_written {path : CStr} {i : ℕ} (bytes : List Byte) (hlen : path.length < sfsMaxPath)
    (hentry : writeEntry s.directory path = some i) {j k : ℕ} (hj : j < sfsMaxFiles)
    (hk : k < sfsMaxFiles) (hjused : entryUsed (storeEntry s.directory i path bytes) j = true)
    (hkused : entryUsed (storeEntry s.directory i path bytes) k = true) {q : CStr}
    (hjq : Spells (storeEntry s.directory i path bytes) (entryPath j) q.chars)
    (hkq : Spells (storeEntry s.directory i path bytes) (entryPath k) q.chars) : j = k := by
  have hself : Spells (storeEntry s.directory i path bytes) (entryPath i) q.chars → q = path :=
    fun hq => CStr.ext (hq.unique (storeEntry_spells hlen))
  by_cases hji : j = i <;> by_cases hki : k = i
  · rw [hji, hki]
  · subst hji
    exact absurd (hself hjq) (h.spells_other bytes hlen hentry hk hki hkused hkq).2.2
  · subst hki
    exact absurd (hself hkq) (h.spells_other bytes hlen hentry hj hji hjused hjq).2.2
  · obtain ⟨hjused', hjq', -⟩ := h.spells_other bytes hlen hentry hj hji hjused hjq
    obtain ⟨hkused', hkq', -⟩ := h.spells_other bytes hlen hentry hk hki hkused hkq
    exact h.distinct j hj k hk hjused' hkused' q hjq' hkq'

/-- Another file is where it was. -/
theorem file_other {path : CStr} {i j : ℕ} {bytes : List Byte} {dev : Device}
    (hlen : path.length < sfsMaxPath) (hi : i < sfsMaxFiles) (hj : j < sfsMaxFiles) (hji : j ≠ i)
    (hcount : dev.sectorCount = s.device.sectorCount)
    (hdata : dev.data = blit (storeExtent s i bytes) blockSectorSize
      (storeEntry s.directory i path bytes) blockSectorSize)
    (hused : entryUsed s.directory j = true) :
    ∃ q c, pathValid sfsMaxPath q = true
      ∧ Spells (storeEntry s.directory i path bytes) (entryPath j) q.chars
      ∧ Sfs.Stores { s with device := dev, directory := storeEntry s.directory i path bytes } j
      c := by
  have hother : SameEntry s.directory (storeEntry s.directory i path bytes) j :=
    storeEntry_other hlen hji
  obtain ⟨q, c, hq, hspells, hs⟩ := h.files j hj hused
  refine ⟨q, c, hq, ?_, ?_⟩
  · rw [← pathEquals_cstr, hother.pathEquals_eq (h.length_lt hj hused hspells), pathEquals_cstr]
    exact hspells
  · refine (stores_congr hother hcount fun hfj k hk => ?_).mpr hs
    dsimp only
    rw [hdata]
    exact (h.tidy.extent_outside hi hj hji (h.fits hi) hfj bytes hk _).2

/-- **A write keeps the format.** -/
theorem storeFile {path : CStr} {i : ℕ} {bytes : List Byte} {dev : Device}
    (hpath : pathValid sfsMaxPath path = true) (hsize : bytes.length ≤ sfsMaxFileSize)
    (hentry : writeEntry s.directory path = some i) (hserving : dev.Serving)
    (hcount : dev.sectorCount = s.device.sectorCount)
    (hdata : dev.data = blit (storeExtent s i bytes) blockSectorSize
      (storeEntry s.directory i path bytes) blockSectorSize) :
    Formatted { s with device := dev, directory := storeEntry s.directory i path bytes } := by
  obtain ⟨hi, -⟩ := writeEntry_spec hentry
  have hlen := (pathValid_iff.mp hpath).2.1
  have hsound : Sound { s with device := dev, directory := storeEntry s.directory i path bytes } :=
    h.sound.storeDevice hlen hentry (h.fits hi) rfl hcount hdata
  refine ⟨hserving, by rw [hcount]; exact h.large, h.mounted, hsound.super, fun k hk => ?_,
    fun j hj => ?_, fun j hj hused => ?_, fun j hj k hk hjused hkused q hjq hkq =>
      h.distinct_written bytes hlen hentry hj hk hjused hkused hjq hkq⟩
  · dsimp only
    rw [diskDirectory, hdata, show blockSectorSize * sfsDirectorySector = blockSectorSize from rfl,
      blit_inside hk]
  · rw [← h.starts j hj]
    exact storeEntry_start hlen j
  · by_cases hji : j = i
    · subst hji
      exact ⟨path, bytes, hpath, storeEntry_spells hlen,
        h.stores_written hlen hsize hj hcount hdata⟩
    · rw [(storeEntry_other hlen hji).used_eq] at hused
      exact h.file_other hlen hi hj hji hcount hdata hused

/-- A remount loads the directory it has. -/
theorem init_eq : sfsInit s = { s with device := s.device.tick.tick } := by
  have hload : loadDirectory s = s.directory := by
    funext k
    by_cases hk : k < blockSectorSize
    · rw [loadDirectory_eq s hk, h.same k hk]
    · exact blit_outside (.inr (by omega))
  have hlarge : 2 ≤ s.device.sectorCount := by
    have := h.large
    simp only [sfsDataStart, sfsMaxFiles, sfsFileSectors] at *
    omega
  rw [h.sound.init_served hlarge (h.serving 0) (h.serving 1), hload, h.mounted]

/-- Requests served are all that changes. -/
theorem congr {dev : Device} (hserving : dev.Serving)
    (hcount : dev.sectorCount = s.device.sectorCount) (hdata : dev.data = s.device.data) :
    Formatted { s with device := dev } := by
  have hdisk := diskDirectory_congr hdata
  refine ⟨hserving, ?_, h.mounted, ?_, ?_, h.starts, fun i hi hused => ?_, h.distinct⟩
  · rw [hcount]
    exact h.large
  · rw [hcount, hdata]
    exact h.super
  · rw [hdisk]
    exact h.same
  · obtain ⟨path, c, hpath, hspells, hs⟩ := h.files i hi hused
    refine ⟨path, c, hpath, hspells, (stores_congr (s := s) ?_ hcount ?_).mpr hs⟩
    · exact fun _ _ => rfl
    · exact fun _ k _ => congrFun hdata _

end Formatted

/-! ## A fresh SaturnFS -/

section Fresh

variable {s : Sfs} (hserving : s.device.Serving)
  (hlarge : sfsDataStart + sfsMaxFiles * sfsFileSectors ≤ s.device.sectorCount)

include hserving hlarge

theorem sfsFormat_served : ∃ dev : Device, dev.Serving ∧ dev.sectorCount = s.device.sectorCount
    ∧ dev.data
      = blit (formatData s.device) blockSectorSize (formatDirectory s.directory) blockSectorSize
    ∧ sfsFormat s = (⟨dev, formatDirectory s.directory, true⟩, true) := by
  have hlarge' := hlarge
  simp only [sfsDataStart, sfsMaxFiles, sfsFileSectors] at hlarge'
  have hsuper : s.device.inRange sfsSuperSector 1 = true :=
    Device.inRange_iff.mpr ⟨by decide, by simp only [sfsSuperSector]; omega⟩
  have hdirectory : ({ s.device.tick with data := formatData s.device } : Device).inRange
      sfsDirectorySector 1 = true :=
    Device.inRange_iff.mpr ⟨by decide, by simp only [sfsDirectorySector, Device.tick]; omega⟩
  rw [sfsFormat, if_neg (Nat.not_lt.mpr hlarge)]
  dsimp only
  rw [blockWrite_served _ hsuper (hserving 0)]
  dsimp only [writeDirectory]
  rw [show blit s.device.data (blockSectorSize * sfsSuperSector)
      (formatSuperblock s.device.sectorCount) (blockSectorSize * 1) = formatData s.device from rfl,
    blockWrite_served _ hdirectory (hserving 1)]
  exact ⟨{ s.device.tick.tick with
      data := blit (formatData s.device) blockSectorSize (formatDirectory s.directory)
        blockSectorSize }, hserving.tick.tick, rfl, rfl, rfl⟩

theorem formatted_format : Formatted (sfsFormat s).1 := by
  obtain ⟨dev, hdev, hcount, hdata, heq⟩ := sfsFormat_served hserving hlarge
  have hsound : Sound (sfsFormat s).1 := sound_format (by rw [heq])
  rw [heq] at hsound ⊢
  refine ⟨hdev, by rw [hcount]; exact hlarge, rfl, hsound.super, fun k hk => ?_,
    fun i hi => (formatDirectory_entry s.directory hi).2, fun i hi hused => ?_,
    fun i hi _ _ hused => ?_⟩
  · dsimp only
    rw [diskDirectory, hdata, show blockSectorSize * sfsDirectorySector = blockSectorSize from rfl,
      blit_inside hk]
  · cases (formatDirectory_entry s.directory hi).1.symm.trans hused
  · cases (formatDirectory_entry s.directory hi).1.symm.trans hused

/-- A fresh SaturnFS has no files. -/
theorem contents_format (q : CStr) : (sfsFormat s).1.contents q = none := by
  obtain ⟨dev, -, -, -, heq⟩ := sfsFormat_served hserving hlarge
  rw [Option.eq_none_iff_forall_ne_some]
  intro c hc
  obtain ⟨-, i, hfind, -⟩ := contents_iff.mp hc
  obtain ⟨hi, hused, -⟩ := findEntry_lt hfind
  rw [heq] at hused
  cases (formatDirectory_entry s.directory hi).1.symm.trans hused

end Fresh

/-- SaturnFS as it starts: formatted, or mounted from a blank device. -/
inductive Starts (s : Sfs) : Sfs → Prop
  | format : Starts s (sfsFormat s).1
  | blank (h : s.device.Blank) : Starts s (sfsInit s)

theorem Starts.formatted {s s' : Sfs} (h : Starts s s') (hserving : s.device.Serving)
    (hlarge : sfsDataStart + sfsMaxFiles * sfsFileSectors ≤ s.device.sectorCount) :
    Formatted s' ∧ ∀ q, s'.contents q = none := by
  cases h with
  | format => exact ⟨formatted_format hserving hlarge, contents_format hserving hlarge⟩
  | blank hblank =>
    have hlarge' := hlarge
    simp only [sfsDataStart, sfsMaxFiles, sfsFileSectors] at hlarge'
    rw [sfsInit_formats (by omega) (hserving 0) fun i hi => hblank i ?_]
    · exact ⟨formatted_format hserving.tick hlarge, contents_format hserving.tick hlarge⟩
    · simp only [blockSectorSize]
      omega

/-! ## The map of files -/

/-- SaturnFS, and the last successful write to each path. -/
structure FileRun where
  sfs : Sfs
  files : CStr → Option (List Byte) := fun _ => none

def fileStep (f : FileRun) : SfsOp → Option FileRun
  | .write path data size =>
    match sfsWriteFile f.sfs path data size with
    | (s, true) => some ⟨s, Function.update f.files path (some (bufferBytes data size))⟩
    | (s, false) => some ⟨s, f.files⟩
  | .read path capacity => some { f with sfs := (sfsReadFile f.sfs path true capacity).1 }
  | .remount => some { f with sfs := sfsInit f.sfs }

/-- What SaturnFS promises of the map. -/
structure Refines (f : FileRun) : Prop where
  /-- A read is a lookup. -/
  reads : ∀ path capacity, (sfsReadFile f.sfs path true capacity).2
    = (f.files path).filter fun c => decide (c.length ≤ capacity)
  /-- A write is refused for its arguments, or for want of an entry. -/
  writes_iff : ∀ path data size, (sfsWriteFile f.sfs path data size).2 = true
    ↔ (path.chars.head? = some slash ∧ 2 ≤ path.length ∧ path.length ≤ 43) ∧ size ≤ 4096
      ∧ (0 < size → data.isSome = true)
      ∧ ((f.files path).isSome = true ∨ {q | (f.files q).isSome = true}.ncard < 8)
  /-- A write is seen at its path alone. -/
  others : ∀ path data size q, q ≠ path → ∀ capacity,
    (sfsReadFile (sfsWriteFile f.sfs path data size).1 q true capacity).2
      = (sfsReadFile f.sfs q true capacity).2

/-- The map is the contents. -/
structure FilesOk (f : FileRun) : Prop where
  formatted : Formatted f.sfs
  contents : ∀ q, f.sfs.contents q = f.files q

namespace FilesOk

variable {f f' : FileRun} (h : FilesOk f)

include h

theorem writeEntry_iff (path : CStr) : (writeEntry f.sfs.directory path).isSome = true
    ↔ (f.files path).isSome = true ∨ {q | (f.files q).isSome = true}.ncard < 8 := by
  have hfiles : (fun q => f.sfs.contents q) = f.files := funext h.contents
  rw [writeEntry, Option.isSome_or, Bool.or_eq_true, ← h.formatted.isSome_contents, h.contents,
    h.formatted.freeEntry_iff, ← hfiles]
  rfl

/-- **A write**, on the map: nothing, or an update. -/
theorem write (path : CStr) (data : Buffer) (size : ℕ) :
    (sfsWriteFile f.sfs path data size = (f.sfs, false)
      ∨ ∃ s', sfsWriteFile f.sfs path data size = (s', true)
        ∧ FilesOk ⟨s', Function.update f.files path (some (bufferBytes data size))⟩) := by
  by_cases hok : canWrite f.sfs path data size = true
      ∧ (writeEntry f.sfs.directory path).isSome = true
  · refine .inr ?_
    obtain ⟨hcan, hsome⟩ := hok
    obtain ⟨i, hentry⟩ := Option.isSome_iff_exists.mp hsome
    obtain ⟨dev, hserving, hcount, hdata, heq⟩ := h.formatted.writeFile_served rfl hcan hentry
    obtain ⟨-, hpath, -, hsize⟩ := canWrite_iff.mp hcan
    obtain ⟨hi, -⟩ := writeEntry_spec hentry
    have hlen := (pathValid_iff.mp hpath).2.1
    have hbytes : (bufferBytes data size).length ≤ sfsMaxFileSize := by
      rw [bufferBytes, length_cells]
      exact hsize
    have hformatted := h.formatted.storeFile hpath hbytes hentry hserving hcount hdata
    refine ⟨_, heq, hformatted, fun q => ?_⟩
    dsimp only
    by_cases hq : q = path
    · subst hq
      rw [Function.update_self]
      exact hformatted.contents_entry hi storeEntry_used (storeEntry_spells hlen)
        (h.formatted.stores_written hlen hbytes hi hcount hdata)
    · rw [Function.update_of_ne hq, ← h.contents q]
      exact contents_store h.formatted.tidy hlen hentry (h.formatted.fits hi) rfl rfl hcount
        (.inr ⟨_, hdata⟩) hq
  · exact .inl (writeFile_refused hok)

theorem congr {dev : Device} (hserving : dev.Serving)
    (hcount : dev.sectorCount = f.sfs.device.sectorCount) (hdata : dev.data = f.sfs.device.data) :
    FilesOk { f with sfs := { f.sfs with device := dev } } := by
  refine ⟨h.formatted.congr hserving hcount hdata, fun q => ?_⟩
  rw [← h.contents q]
  exact (KeepsPath.of_disk hcount hdata q).now

theorem step {op : SfsOp} (hstep : fileStep f op = some f') : FilesOk f' := by
  cases op with
  | write path data size =>
    rw [fileStep] at hstep
    rcases h.write path data size with heq | ⟨s', heq, hok⟩
    · rw [heq] at hstep
      obtain rfl := Option.some.inj hstep
      exact h
    · rw [heq] at hstep
      obtain rfl := Option.some.inj hstep
      exact hok
  | read path capacity =>
    obtain rfl := Option.some.inj hstep
    obtain ⟨dev, rfl | rfl, heq⟩ := readFile_state f.sfs path true capacity
    · rw [heq]
      exact h
    · rw [heq]
      exact h.congr h.formatted.serving.tick rfl rfl
  | remount =>
    obtain rfl := Option.some.inj hstep
    rw [h.formatted.init_eq]
    exact h.congr h.formatted.serving.tick.tick rfl rfl

theorem refines : Refines f where
  reads path capacity := by
    rw [readFile_contents f.sfs path capacity (h.formatted.serving 0), h.contents]
  writes_iff path data size := by
    rw [h.formatted.writeFile_ok_iff, canWrite_iff, h.writeEntry_iff, pathValid_iff,
      h.formatted.mounted]
    simp only [sfsMaxPath, sfsMaxFileSize, Nat.pos_iff_ne_zero]
    constructor
    · rintro ⟨⟨-, ⟨hhead, hmax, hmin⟩, hdata, hsize⟩, hentry⟩
      exact ⟨⟨hhead, hmin, by omega⟩, hsize, fun hn => hdata.resolve_left hn, hentry⟩
    · rintro ⟨⟨hhead, hmin, hmax⟩, hsize, hdata, hentry⟩
      exact ⟨⟨trivial, ⟨hhead, by omega, hmin⟩, or_iff_not_imp_left.mpr hdata, hsize⟩, hentry⟩
  others path data size q hq capacity := by
    rcases h.write path data size with heq | ⟨s', heq, hok⟩
    · rw [heq]
    · rw [heq, readFile_contents _ q capacity (h.formatted.serving 0),
        readFile_contents _ q capacity (hok.formatted.serving 0), h.contents, hok.contents]
      dsimp only
      rw [Function.update_of_ne hq]

end FilesOk

/-- **SaturnFS is a finite map that persists**: over a device of 66 sectors or more that serves, in
every run of writes, reads and remounts from a fresh SaturnFS, reads look up the last successful
write, and a write succeeds exactly when its arguments are good and there is room for its path. -/
theorem saturnfs_refines (s s' : Sfs) (hserving : s.device.Serving)
    (hlarge : sfsDataStart + sfsMaxFiles * sfsFileSectors ≤ s.device.sectorCount)
    (hstart : Starts s s') (ops : List SfsOp) : Always fileStep Refines { sfs := s' } ops := by
  obtain ⟨hformatted, hempty⟩ := hstart.formatted hserving hlarge
  exact Always.of_inv (I := FilesOk) (fun _ _ _ h hstep => h.step hstep) (fun _ h => h.refines)
    ⟨hformatted, hempty⟩ ops

theorem blankDevice_refines : blankDevice.device.Serving ∧ Starts blankDevice (sfsInit blankDevice)
    ∧ Always fileStep Refines { sfs := sfsInit blankDevice }
      [.write pathA (some fun _ => 7) 1, .remount, .read pathA 1] :=
  have hstart : Starts blankDevice (sfsInit blankDevice) := .blank fun _ _ => rfl
  ⟨fun _ => rfl, hstart,
    saturnfs_refines blankDevice _ (fun _ => rfl) (by decide) hstart _⟩

end SaturnOS
