import SaturnOS.Fs.Mount

/-!
# Fs/Durable — what a write leaves on the device

    memory    directory ──────── write ────────▸ directory'
                  │ sfs_init                        │ sfs_init
    device    directory, extents ── write ──▸ extent i, then directory

SaturnFS keeps its directory twice, and a write reaches the device in two requests, each of which
may fail.  `Sound` ties the two together over any run of writes, reads and remounts: the extents are
tidy, and a file the device knows is in the directory in memory too.  Under it a write stays in the
directory sector and in one extent (`writes_safe`), and one that fails changes nothing of any other
file, now or after a remount (`failed_writes_keep`).
-/

open Machinery

namespace SaturnOS

inductive SfsOp
  | write (path : CStr) (data : Buffer) (size : ℕ)
  | read (path : CStr) (capacity : ℕ)
  | remount

def sfsStep (s : Sfs) : SfsOp → Option Sfs
  | .write path data size => some (sfsWriteFile s path data size).1
  | .read path capacity => some (sfsReadFile s path true capacity).1
  | .remount => some (sfsInit s)

/-- A read costs a request, nothing else. -/
theorem readFile_state (s : Sfs) (path : CStr) (hasData : Bool) (capacity : ℕ) :
    ∃ dev : Device, (dev = s.device ∨ dev = s.device.tick)
      ∧ (sfsReadFile s path hasData capacity).1 = { s with device := dev } := by
  rw [sfsReadFile]
  split
  · exact ⟨s.device, .inl rfl, rfl⟩
  · split
    · exact ⟨s.device, .inl rfl, rfl⟩
    · rename_i i hfind
      split
      · exact ⟨s.device, .inl rfl, rfl⟩
      · have hdev := blockRead_device s.device (entryStart s.directory i) sfsFileSectors
        split
        · rename_i dev heq
          rw [heq] at hdev
          exact ⟨dev, hdev, rfl⟩
        · rename_i dev b heq
          rw [heq] at hdev
          dsimp only
          split <;> exact ⟨dev, hdev, rfl⟩

/-! ## Two directories -/

/-- The directory `sfs_init` loads, over the one in memory. -/
def loadDirectory (s : Sfs) : ℕ → Byte :=
  blit s.directory 0 (diskDirectory s.device) blockSectorSize

theorem loadDirectory_eq (s : Sfs) {k : ℕ} (hk : k < blockSectorSize) :
    loadDirectory s k = diskDirectory s.device k := by
  have := blit_inside (m := s.directory) (a := 0) (s := diskDirectory s.device) hk
  rwa [Nat.zero_add] at this

/-- Directories that agree on the sector agree on the entries. -/
theorem sameEntry_of_sector {d d' : ℕ → Byte} (h : ∀ k < blockSectorSize, d' k = d k) {j : ℕ}
    (hj : j < sfsMaxFiles) : SameEntry d d' j := by
  intro k hk
  refine h _ ?_
  simp only [sfsMaxFiles, sfsEntrySize, entryPath, blockSectorSize] at *
  omega

/-- The directory in memory and the one on the device belong together. -/
structure Sound (s : Sfs) : Prop where
  tidy : Tidy s.directory s.device.sectorCount
  super : superblockValid s.device.sectorCount s.device.data = true
  starts : ∀ i < sfsMaxFiles, entryStart (diskDirectory s.device) i = entryStart s.directory i
  /-- A file on the device is in memory, at the same entry. -/
  covered : ∀ i < sfsMaxFiles, ∀ q : CStr, q.length < sfsEntrySize →
    entryUsed (diskDirectory s.device) i = true →
    Spells (diskDirectory s.device) (entryPath i) q.chars →
    entryUsed s.directory i = true ∧ Spells s.directory (entryPath i) q.chars

/-- Where the directory is what is on the device, the entries are. -/
theorem sound_of_same {s : Sfs} (htidy : Tidy s.directory s.device.sectorCount)
    (hsuper : superblockValid s.device.sectorCount s.device.data = true)
    (hsame : ∀ k < blockSectorSize, diskDirectory s.device k = s.directory k) : Sound s := by
  have hentry : ∀ i < sfsMaxFiles, SameEntry s.directory (diskDirectory s.device) i :=
    fun i hi => sameEntry_of_sector hsame hi
  refine ⟨htidy, hsuper, fun i hi => (hentry i hi).start_eq, fun i hi q hlen hused hspells => ?_⟩
  rw [(hentry i hi).used_eq] at hused
  rw [← pathEquals_cstr, (hentry i hi).pathEquals_eq hlen, pathEquals_cstr] at hspells
  exact ⟨hused, hspells⟩

namespace Sound

variable {s s' : Sfs} (h : Sound s)

include h

/-- The parts of a device that a sound state rests on. -/
theorem congr (hdir : s'.directory = s.directory)
    (hcount : s'.device.sectorCount = s.device.sectorCount)
    (hdata : s'.device.data = s.device.data) : Sound s' := by
  have hdisk := diskDirectory_congr hdata
  refine ⟨?_, ?_, ?_, ?_⟩
  · rw [hdir, hcount]
    exact h.tidy
  · rw [hcount, hdata]
    exact h.super
  · rw [hdisk, hdir]
    exact h.starts
  · rw [hdisk, hdir]
    exact h.covered

/-- An extent is neither in the superblock nor in the directory. -/
theorem extent_outside {i k : ℕ} (hi : i < sfsMaxFiles) (hfits : s.Fits i) (bytes : List Byte)
    (hk : k < 2 * blockSectorSize) : storeExtent s i bytes k = s.device.data k := by
  have hdata := h.tidy.data_area i hi hfits
  refine blit_outside (.inl ?_)
  simp only [sfsDataStart, blockSectorSize] at *
  omega

/-- …so the directory on the device stays. -/
theorem diskDirectory_extent {i k : ℕ} (hi : i < sfsMaxFiles) (hfits : s.Fits i)
    {bytes : List Byte} (hdata : s'.device.data = storeExtent s i bytes)
    (hk : k < blockSectorSize) :
    diskDirectory s'.device k = diskDirectory s.device k := by
  rw [diskDirectory, diskDirectory, hdata]
  refine h.extent_outside hi hfits bytes ?_
  simp only [sfsDirectorySector, blockSectorSize] at *
  omega

/-- A write that stops short of the directory. -/
theorem storeMemory {i : ℕ} {path : CStr} {bytes : List Byte}
    (hpath : path.length < sfsMaxPath) (hentry : writeEntry s.directory path = some i)
    (hfits : s.Fits i) (hdir : s'.directory = storeEntry s.directory i path bytes)
    (hcount : s'.device.sectorCount = s.device.sectorCount)
    (hdata : s'.device.data = storeExtent s i bytes) : Sound s' := by
  obtain ⟨hi, hown, -⟩ := writeEntry_spec hentry
  have hstart : ∀ j, entryStart s'.directory j = entryStart s.directory j := by
    intro j
    rw [hdir]
    exact storeEntry_start hpath j
  have hentries : ∀ j < sfsMaxFiles,
      SameEntry (diskDirectory s.device) (diskDirectory s'.device) j := fun j hj =>
    sameEntry_of_sector (fun k hk => h.diskDirectory_extent hi hfits hdata hk) hj
  refine ⟨?_, ?_, fun j hj => ?_, fun j hj q hlen hused hspells => ?_⟩
  · rw [hcount]
    exact h.tidy.congr fun j _ => hstart j
  · rw [hcount, hdata, superblockValid_congr fun k hk => h.extent_outside hi hfits bytes ?_]
    · exact h.super
    · simp only [blockSectorSize]
      omega
  · rw [(hentries j hj).start_eq, hstart j]
    exact h.starts j hj
  · rw [(hentries j hj).used_eq] at hused
    rw [← pathEquals_cstr, (hentries j hj).pathEquals_eq hlen, pathEquals_cstr] at hspells
    obtain ⟨hused', hspells'⟩ := h.covered j hj q hlen hused hspells
    rw [hdir]
    by_cases hji : j = i
    · -- the entry had this path already
      subst hji
      have hq : q.chars = path.chars := by
        rcases hown with hfree | hpathj
        · cases hfree.symm.trans hused'
        · exact hspells'.unique hpathj
      rw [hq]
      exact ⟨storeEntry_used, storeEntry_spells hpath⟩
    · have hother : SameEntry s.directory (storeEntry s.directory i path bytes) j :=
        storeEntry_other hpath hji
      rw [hother.used_eq, ← pathEquals_cstr, hother.pathEquals_eq hlen, pathEquals_cstr]
      exact ⟨hused', hspells'⟩

/-- A write that gets through. -/
theorem storeDevice {i : ℕ} {path : CStr} {bytes : List Byte}
    (hpath : path.length < sfsMaxPath) (hentry : writeEntry s.directory path = some i)
    (hfits : s.Fits i) (hdir : s'.directory = storeEntry s.directory i path bytes)
    (hcount : s'.device.sectorCount = s.device.sectorCount)
    (hdata : s'.device.data = blit (storeExtent s i bytes) blockSectorSize
      (storeEntry s.directory i path bytes) blockSectorSize) : Sound s' := by
  obtain ⟨hi, -⟩ := writeEntry_spec hentry
  refine sound_of_same ?_ ?_ fun k hk => ?_
  · rw [hcount, hdir]
    exact h.tidy.congr fun j _ => storeEntry_start hpath j
  · rw [hcount, hdata, superblockValid_congr (b := s.device.data) fun k hk => ?_]
    · exact h.super
    · rw [blit_outside (.inl (by simp only [blockSectorSize]; omega))]
      refine h.extent_outside hi hfits bytes ?_
      simp only [blockSectorSize]
      omega
  · rw [diskDirectory, hdata, hdir, show blockSectorSize * sfsDirectorySector
      = blockSectorSize from rfl,
      blit_inside hk]

/-- A sound device is not formatted. -/
theorem not_blank : ¬ ∀ i < 8, s.device.data i = 0 := by
  intro hzero
  have hsuper := h.super
  rw [superblockValid, (zero_words_iff.mpr hzero).1] at hsuper
  cases hsuper

/-- What a remount finds. -/
theorem remount_cases : ∃ dev : Device, dev.sectorCount = s.device.sectorCount
    ∧ dev.data = s.device.data ∧ (sfsInit s = ⟨dev, s.directory, false⟩
      ∨ sfsInit s = ⟨dev, loadDirectory s, true⟩) := by
  have ho := sfsInit_outcome s
  generalize sfsInit s = s' at ho ⊢
  cases ho with
  | unmounted hcount hdata => exact ⟨_, hcount, hdata, .inl rfl⟩
  | formatted _ hzero => exact absurd hzero h.not_blank
  | mounted hcount hdata _ => exact ⟨_, hcount, hdata, .inr rfl⟩

/-- A device that serves mounts, with the directory on it. -/
theorem init_served (hcount : 2 ≤ s.device.sectorCount) (h0 : s.device.serves 0 = true)
    (h1 : s.device.serves 1 = true) : sfsInit s = ⟨s.device.tick.tick, loadDirectory s, true⟩ := by
  have hsuper : s.device.inRange sfsSuperSector 1 = true :=
    Device.inRange_iff.mpr ⟨by decide, by simp only [sfsSuperSector]; omega⟩
  have hdirectory : s.device.tick.inRange sfsDirectorySector 1 = true :=
    Device.inRange_iff.mpr ⟨by decide, by simp only [sfsDirectorySector, Device.tick]; omega⟩
  have hbytes : (fun i => s.device.data (blockSectorSize * sfsSuperSector + i))
      = s.device.data := by
    funext i
    rw [show blockSectorSize * sfsSuperSector + i = i from Nat.zero_add i]
  have hvalid : superblockValid s.device.tick.sectorCount s.device.data = true := h.super
  rw [sfsInit, blockRead_served hsuper h0, hbytes]
  dsimp only
  rw [if_neg fun hz => h.not_blank (zero_words_iff.mp hz), hvalid, if_neg (by decide),
    blockRead_served hdirectory h1]
  rfl

theorem remount : Sound (sfsInit s) := by
  obtain ⟨dev, hcount, hdata, hs | hs⟩ := h.remount_cases
  · rw [hs]
    exact h.congr rfl hcount hdata
  · have hdisk := diskDirectory_congr hdata
    rw [hs]
    refine sound_of_same ?_ ?_ fun k hk => ?_
    · dsimp only
      rw [hcount]
      refine h.tidy.congr fun i hi => ?_
      rw [← h.starts i hi]
      exact (sameEntry_of_sector (fun k hk => loadDirectory_eq s hk) hi).start_eq
    · dsimp only
      rw [hcount, hdata]
      exact h.super
    · dsimp only
      rw [hdisk, loadDirectory_eq s hk]

/-- **Every step keeps a sound state sound.** -/
theorem step {op : SfsOp} (hstep : sfsStep s op = some s') : Sound s' := by
  cases op with
  | write path data size =>
    obtain rfl := Option.some.inj hstep
    have ho := writeFile_outcome s path data size
    generalize sfsWriteFile s path data size = r at ho ⊢
    cases ho with
    | refused => exact h
    | extentFailed hcount hdata => exact h.congr rfl hcount hdata
    | directoryFailed hpath hentry hfits hcount hdata =>
      exact h.storeMemory hpath hentry hfits rfl hcount hdata
    | stored hpath hentry hfits hcount hdata =>
      exact h.storeDevice hpath hentry hfits rfl hcount hdata
  | read path capacity =>
    obtain rfl := Option.some.inj hstep
    obtain ⟨dev, rfl | rfl, heq⟩ := readFile_state s path true capacity
    · rw [heq]
      exact h
    · rw [heq]
      exact h.congr rfl rfl rfl
  | remount =>
    obtain rfl := Option.some.inj hstep
    exact h.remount

end Sound

theorem sound_format {s : Sfs} (hm : (sfsFormat s).1.mounted = true) : Sound (sfsFormat s).1 := by
  have ho := sfsFormat_outcome s
  generalize sfsFormat s = r at ho hm ⊢
  cases ho with
  | small _ => cases hm
  | superFailed _ => cases hm
  | directoryFailed _ _ _ => cases hm
  | done _ _ hcount hdata =>
    refine sound_of_same (tidy_format _ _) ?_ fun k hk => ?_
    · dsimp only
      rw [hcount, hdata, superblockValid_congr (b := formatSuperblock s.device.sectorCount)]
      · exact superblockValid_format _
      · intro k hk
        have hk' : k < blockSectorSize := by
          simp only [blockSectorSize]
          omega
        rw [blit_outside (.inl hk')]
        exact formatData_super hk'
    · dsimp only
      rw [diskDirectory, hdata,
        show blockSectorSize * sfsDirectorySector = blockSectorSize from rfl, blit_inside hk]

/-- **A mounted device with tidy extents is sound**, whoever wrote its directory. -/
theorem sound_init {s : Sfs} (hm : (sfsInit s).mounted = true)
    (htidy : Tidy (sfsInit s).directory s.device.sectorCount) : Sound (sfsInit s) := by
  have ho := sfsInit_outcome s
  generalize sfsInit s = s' at ho hm htidy ⊢
  cases ho with
  | unmounted _ _ => cases hm
  | formatted _ _ => exact sound_format hm
  | mounted hcount hdata hsuper =>
    refine sound_of_same ?_ ?_ fun k hk => ?_
    · dsimp only
      rw [hcount]
      exact htidy
    · dsimp only
      rw [hcount, hdata]
      exact hsuper
    · dsimp only
      rw [diskDirectory_congr hdata]
      exact (loadDirectory_eq s hk).symm

/-! ## Where a write goes -/

/-- A write of `path` stays in the directory sector and in one extent of the data area, and every
other path that could be read reads the same. -/
structure WriteSafe (path : CStr) (s s' : Sfs) : Prop where
  touches : ∃ start, sfsDataStart ≤ start ∧ ∀ k, s'.device.data k ≠ s.device.data k →
    blockSectorSize * sfsDirectorySector ≤ k ∧ k < blockSectorSize * (sfsDirectorySector + 1)
      ∨ blockSectorSize * start ≤ k ∧ k < blockSectorSize * (start + sfsFileSectors)
  others : ∀ q, q ≠ path → ∀ c, s.contents q = some c → s'.contents q = some c

/-- Every write of a run is safe. -/
def WritesSafe (s : Sfs) (op : SfsOp) (s' : Sfs) : Prop :=
  ∀ path data size, op = .write path data size → WriteSafe path s s'

theorem Sound.writeSafe {s : Sfs} (h : Sound s) (path : CStr) (data : Buffer) (size : ℕ) :
    WriteSafe path s (sfsWriteFile s path data size).1 := by
  have ho := writeFile_outcome s path data size
  generalize sfsWriteFile s path data size = r at ho ⊢
  cases ho with
  | refused => exact ⟨⟨sfsDataStart, le_refl _, fun k hk => absurd rfl hk⟩, fun q _ c hc => hc⟩
  | extentFailed hcount hdata =>
    refine ⟨⟨sfsDataStart, le_refl _, fun k hk => absurd (congrFun hdata k) hk⟩, fun q _ c hc => ?_⟩
    rw [← hc]
    refine contents_congr rfl hcount (fun _ _ _ _ => rfl) fun j _ _ _ k _ => ?_
    exact congrFun hdata _
  | directoryFailed hpath hentry hfits hcount hdata =>
    obtain ⟨hi, -⟩ := writeEntry_spec hentry
    refine ⟨⟨_, h.tidy.data_area _ hi hfits, fun k hk => .inr ?_⟩, fun q hq c hc => ?_⟩
    · by_contra hout
      refine hk ?_
      rw [hdata, storeExtent, blit_outside]
      simp only [blockSectorSize, sfsFileSectors] at *
      omega
    · rw [← hc]
      exact contents_store h.tidy hpath hentry hfits rfl rfl hcount (.inl hdata) hq
  | stored hpath hentry hfits hcount hdata =>
    obtain ⟨hi, -⟩ := writeEntry_spec hentry
    refine ⟨⟨_, h.tidy.data_area _ hi hfits, fun k hk => ?_⟩, fun q hq c hc => ?_⟩
    · by_contra hout
      refine hk ?_
      rw [hdata, blit_outside, storeExtent, blit_outside]
      all_goals simp only [blockSectorSize, sfsFileSectors, sfsDirectorySector] at *
      all_goals omega
    · rw [← hc]
      exact contents_store h.tidy hpath hentry hfits rfl rfl hcount (.inr ⟨_, hdata⟩) hq

/-- **Over a tidy directory every write is safe**, in any run of writes, reads and remounts. -/
theorem writes_safe (s : Sfs) (hm : (sfsInit s).mounted = true)
    (htidy : Tidy (sfsInit s).directory s.device.sectorCount) (ops : List SfsOp) :
    Along sfsStep WritesSafe (sfsInit s) ops := by
  refine Along.imp_of_inv (I := Sound) (C := fun _ _ _ => True) (fun s₁ op s₂ h hstep _ => ?_)
    (sound_init hm htidy) (Along.of_forall (fun _ _ _ _ => trivial) _ _)
  refine ⟨h.step hstep, ?_⟩
  rintro path data size rfl
  obtain rfl := Option.some.inj hstep
  exact h.writeSafe path data size

/-- A blank device of 66 sectors. -/
def blankDevice : Sfs := ⟨⟨66, fun _ => 0, fun _ => true⟩, fun _ => 0, false⟩

/-- The path `/a`. -/
def pathA : CStr := ⟨[slash, 0x61], by decide⟩

/-- A device with a superblock and a zero directory: every entry is free, and starts at sector 0. -/
def zeroDirectory : Sfs := ⟨⟨66, formatData ⟨66, fun _ => 0, fun _ => true⟩, fun _ => true⟩,
  fun _ => 0, false⟩

theorem blankDevice_safe : (sfsInit (sfsInit blankDevice)).mounted = true
    ∧ Along sfsStep WritesSafe (sfsInit (sfsInit blankDevice))
      [.write pathA (some fun _ => 7) 1, .remount, .write pathA (some fun _ => 8) 2] :=
  ⟨by decide, writes_safe (sfsInit blankDevice) (by decide)
    (Sound.remount (sound_format (by decide))).tidy _⟩

theorem zeroDirectory_unsafe : ¬ Along sfsStep WritesSafe (sfsInit zeroDirectory)
    [.write pathA (some fun _ => 7) 1] := by
  intro h
  obtain ⟨hsafe, -⟩ := h _ rfl
  obtain ⟨start, hstart, htouches⟩ := (hsafe pathA _ 1 rfl).touches
  have hfirst := htouches 0 (by decide)
  simp only [sfsDataStart, blockSectorSize, sfsDirectorySector] at *
  omega

/-! ## Writes that fail -/

/-- SaturnFS mounted again, over a device that serves. -/
def Sfs.remounted (s : Sfs) : Sfs := sfsInit s.served

/-- A path reads the same, now and after a remount. -/
structure KeepsPath (s s' : Sfs) (q : CStr) : Prop where
  now : s'.contents q = s.contents q
  remounted : s'.remounted.contents q = s.remounted.contents q

theorem KeepsPath.of_disk {s : Sfs} {dev : Device} (hcount : dev.sectorCount = s.device.sectorCount)
    (hdata : dev.data = s.device.data) (q : CStr) : KeepsPath s { s with device := dev } q := by
  have hserved : Sfs.served { s with device := dev } = s.served := by
    simp only [Sfs.served, hcount, hdata]
  constructor
  · rw [Sfs.contents, Sfs.contents, hserved]
  · rw [Sfs.remounted, Sfs.remounted, hserved]

/-- What a failed write does to the files: nothing to any other path, nothing at all if the extent
was not stored, and no new file on the device. -/
structure FailureKeeps (s : Sfs) : Prop where
  others : ∀ path data size, (sfsWriteFile s path data size).2 = false → ∀ q, q ≠ path →
    KeepsPath s (sfsWriteFile s path data size).1 q
  extent : ∀ path data size i, writeEntry s.directory path = some i →
    (blockWrite s.device (entryStart s.directory i) (fun j => (bufferBytes data size).getD j 0)
      sfsFileSectors).2 = false → ∀ q, KeepsPath s (sfsWriteFile s path data size).1 q
  absent : ∀ path data size, (sfsWriteFile s path data size).2 = false →
    findEntry (diskDirectory s.device) path = none →
    (sfsWriteFile s path data size).1.remounted.contents path = none

namespace Sound

variable {s s' : Sfs} (h : Sound s)

include h

theorem remounted_eq (hcount : 2 ≤ s.device.sectorCount) :
    ∃ dev : Device, dev.sectorCount = s.device.sectorCount ∧ dev.data = s.device.data
      ∧ s.remounted = ⟨dev, loadDirectory s, true⟩ := by
  have hserved : Sound s.served := h.congr rfl rfl rfl
  exact ⟨s.served.device.tick.tick, rfl, rfl, hserved.init_served hcount rfl rfl⟩

/-- A file on the device that a remount finds has an extent of its own. -/
theorem entry_ne {path q : CStr} {i j : ℕ} (hentry : writeEntry s.directory path = some i)
    (hq : q ≠ path) (hlen : q.length < sfsEntrySize)
    (hfind : findEntry (diskDirectory s.device) q = some j) : j ≠ i := by
  rintro rfl
  obtain ⟨hj, hused, hspells⟩ := findEntry_lt hfind
  obtain ⟨hused', hspells'⟩ := h.covered j hj q hlen hused hspells
  obtain ⟨-, hfree | hpath, -⟩ := writeEntry_spec hentry
  · cases hfree.symm.trans hused'
  · exact hq (CStr.ext (hspells'.unique hpath))

/-- **After a remount**, a write that stopped at the directory is seen in no other file. -/
theorem remounted_contents {path q : CStr} {i : ℕ} {bytes : List Byte}
    (hpath : path.length < sfsMaxPath) (hentry : writeEntry s.directory path = some i)
    (hfits : s.Fits i) (hdir : s'.directory = storeEntry s.directory i path bytes)
    (hcount : s'.device.sectorCount = s.device.sectorCount)
    (hdata : s'.device.data = storeExtent s i bytes) (hq : q ≠ path) :
    s'.remounted.contents q = s.remounted.contents q := by
  obtain ⟨hi, -⟩ := writeEntry_spec hentry
  have hlarge : 2 ≤ s.device.sectorCount := by
    have := h.tidy.data_area i hi hfits
    simp only [Sfs.Fits, sfsFileSectors, sfsDataStart] at *
    omega
  obtain ⟨dev, hc, hd, heq⟩ := h.remounted_eq hlarge
  obtain ⟨dev', hc', hd', heq'⟩ := (h.storeMemory hpath hentry hfits hdir hcount hdata).remounted_eq
    (hcount ▸ hlarge)
  have hload : ∀ j < sfsMaxFiles, SameEntry (diskDirectory s.device) (loadDirectory s) j :=
    fun j hj => sameEntry_of_sector (fun k hk => loadDirectory_eq s hk) hj
  rw [heq, heq']
  refine contents_congr rfl ((hc'.trans hcount).trans hc.symm) (fun j hj => ?_)
    fun j hlen hfind hfj k hk => ?_
  · refine sameEntry_of_sector (fun k hk => ?_) hj
    dsimp only
    rw [loadDirectory_eq s' hk, loadDirectory_eq s hk]
    exact h.diskDirectory_extent hi hfits hdata hk
  · dsimp only [Sfs.Fits] at hfind hfj ⊢
    have hj := (findEntry_lt hfind).1
    rw [findEntry_congr hlen hload] at hfind
    have hji := h.entry_ne hentry hq hlen hfind
    rw [(hload j hj).start_eq, h.starts j hj] at hfj ⊢
    rw [hc] at hfj
    rw [hd', hdata, hd]
    exact (h.tidy.extent_outside hi hj hji hfits hfj bytes hk s.directory).1

/-- **After a remount**, a path that is in no entry on the device is no file. -/
theorem remounted_absent {q : CStr} (hnone : findEntry (diskDirectory s.device) q = none) :
    s.remounted.contents q = none := by
  have hserved : Sound s.served := h.congr rfl rfl rfl
  obtain ⟨dev, -, -, heq | heq⟩ := hserved.remount_cases
  · refine Option.eq_none_iff_forall_ne_some.mpr fun c hc => ?_
    rw [Sfs.remounted, heq] at hc
    cases (contents_iff.mp hc).1
  · refine Option.eq_none_iff_forall_ne_some.mpr fun c hc => ?_
    rw [Sfs.remounted, heq] at hc
    obtain ⟨-, j, hfind, -⟩ := contents_iff.mp hc
    have hload : ∀ j < sfsMaxFiles, SameEntry (diskDirectory s.device) (loadDirectory s.served) j :=
      fun j hj => sameEntry_of_sector (fun k hk => loadDirectory_eq s.served hk) hj
    have hfind' : findEntry (loadDirectory s.served) q = some j := hfind
    rw [findEntry_congr (length_lt_of_contents hc) hload, hnone] at hfind'
    cases hfind'

theorem failureKeeps : FailureKeeps s where
  others path data size hfailed q hq := by
    have ho := writeFile_outcome s path data size
    generalize sfsWriteFile s path data size = r at ho hfailed ⊢
    cases ho with
    | refused => exact ⟨rfl, rfl⟩
    | extentFailed hcount hdata => exact .of_disk hcount hdata q
    | directoryFailed hpath hentry hfits hcount hdata =>
      exact ⟨contents_store h.tidy hpath hentry hfits rfl rfl hcount (.inl hdata) hq,
        h.remounted_contents hpath hentry hfits rfl hcount hdata hq⟩
    | stored _ _ _ _ _ => cases hfailed
  extent path data size i hentry hfailed q := by
    obtain ⟨hcount, hwrite⟩ := blockWrite_spec s.device (entryStart s.directory i)
      (fun j => (bufferBytes data size).getD j 0) sfsFileSectors
    rw [sfsWriteFile]
    split
    · exact ⟨rfl, rfl⟩
    · rw [hentry]
      dsimp only
      split
      · rename_i dev heq
        rw [heq] at hcount hwrite
        rcases hwrite with ⟨-, hdata⟩ | ⟨hok, -⟩
        · exact .of_disk hcount hdata q
        · cases hok
      · rename_i dev heq
        rw [heq] at hfailed
        cases hfailed
  absent path data size hfailed hnone := by
    have hbefore := h.remounted_absent hnone
    have ho := writeFile_outcome s path data size
    generalize sfsWriteFile s path data size = r at ho hfailed ⊢
    cases ho with
    | refused => exact hbefore
    | extentFailed hcount hdata =>
      exact (KeepsPath.of_disk hcount hdata path).remounted.trans hbefore
    | directoryFailed hpath hentry hfits hcount hdata =>
      -- the directory sector is the one of before
      obtain ⟨hi, -⟩ := writeEntry_spec hentry
      refine (h.storeMemory hpath hentry hfits rfl hcount hdata).remounted_absent ?_
      have hshort : path.length < sfsEntrySize := Nat.lt_trans hpath (by decide)
      rw [findEntry_congr hshort fun j hj =>
        sameEntry_of_sector (fun k hk => h.diskDirectory_extent hi hfits hdata hk) hj]
      exact hnone
    | stored _ _ _ _ _ => cases hfailed

end Sound

/-- **A failed write loses no other file** and makes none on the device: in every state a run of
writes, reads and remounts leads to from a tidy directory, whichever of its requests fail. -/
theorem failed_writes_keep (s : Sfs) (hm : (sfsInit s).mounted = true)
    (htidy : Tidy (sfsInit s).directory s.device.sectorCount) (ops : List SfsOp) :
    Always sfsStep FailureKeeps (sfsInit s) ops :=
  Always.of_inv (I := Sound) (fun _ _ _ h hstep => h.step hstep) (fun _ h => h.failureKeeps)
    (sound_init hm htidy) ops

/-- A blank device that fails its sixth request. -/
def flakyDevice : Sfs := ⟨⟨66, fun _ => 0, fun n => n != 5⟩, fun _ => 0, false⟩

theorem flakyDevice_keeps : (sfsInit flakyDevice).mounted = true
    ∧ Always sfsStep FailureKeeps (sfsInit flakyDevice)
      [.write pathA (some fun _ => 7) 1, .write pathA (some fun _ => 8) 1, .remount] :=
  ⟨by decide, failed_writes_keep flakyDevice (by decide) (tidy_format _ _) _⟩

/-- Formatted, and one file written: the sixth request is the directory of the next write. -/
def flakyFile : Sfs := (sfsWriteFile (sfsFormat flakyDevice).1 pathA (some fun _ => 7) 1).1

theorem flakyFile_loses : flakyFile.mounted = true
    ∧ flakyFile.contents pathA = some [7] ∧ flakyFile.remounted.contents pathA = some [7]
    ∧ (sfsWriteFile flakyFile pathA (some fun _ => 8) 1).2 = false
    ∧ (sfsWriteFile flakyFile pathA (some fun _ => 8) 1).1.contents pathA = some [8]
    ∧ (sfsWriteFile flakyFile pathA (some fun _ => 8) 1).1.remounted.contents pathA = none := by
  decide +kernel

end SaturnOS
