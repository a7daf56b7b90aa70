import SaturnOS.Fs.Files
import SaturnOS.Machinery.Runs

/-!
# Fs/Mount — mounting, and what survives it

    device ──sfs_init──▸ formatted │ mounted │ left alone

`sfs_init` formats a device whose first eight bytes are zero, and takes the directory of one with a
valid superblock as it finds it.  So it also formats over data that starts with zeros
(`leavesUnknown_iff`), and the files of a directory it did not write are only as safe as the extents
that directory names (`writes_safe`).  A write that fails at the directory has its extent on the
device already and its entry in memory; over a tidy directory that is all it changes
(`failed_writes_keep`).
-/

open Machinery

namespace SaturnOS

/-- The directory sector. -/
def diskDirectory (dev : Device) : ℕ → Byte :=
  fun i => dev.data (blockSectorSize * sfsDirectorySector + i)

theorem diskDirectory_congr {dev dev' : Device} (h : dev'.data = dev.data) :
    diskDirectory dev' = diskDirectory dev := by
  funext i
  rw [diskDirectory, diskDirectory, h]

/-! ## Formatting -/

theorem superblockValid_congr {sectors : ℕ} {b b' : ℕ → Byte} (h : ∀ i < 24, b' i = b i) :
    superblockValid sectors b' = superblockValid sectors b := by
  have hword : ∀ a, a + 4 ≤ 24 → getLe32 b' a = getLe32 b a := fun a ha =>
    getLe32_congr fun i hi => h (a + i) (by omega)
  rw [superblockValid, superblockValid, hword 0 (by omega), hword 4 (by omega), hword 8 (by omega),
    hword 12 (by omega), hword 16 (by omega), hword 20 (by omega)]

/-- The superblock `sfs_format` writes is one `sfs_init` mounts. -/
theorem superblockValid_format (sectors : ℕ) :
    superblockValid sectors (formatSuperblock sectors) = true := by
  have h0 : getLe32 (formatSuperblock sectors) 0 = sfsMagic := by
    rw [formatSuperblock, getLe32_put_of_ne (by omega), getLe32_put_of_ne (by omega),
      getLe32_put_of_ne (by omega), getLe32_put_of_ne (by omega), getLe32_put_of_ne (by omega),
      getLe32_put (by decide)]
  have h4 : getLe32 (formatSuperblock sectors) 4 = sfsVersion := by
    rw [formatSuperblock, getLe32_put_of_ne (by omega), getLe32_put_of_ne (by omega),
      getLe32_put_of_ne (by omega), getLe32_put_of_ne (by omega), getLe32_put (by decide)]
  have h8 : getLe32 (formatSuperblock sectors) 8 = blockSectorSize := by
    rw [formatSuperblock, getLe32_put_of_ne (by omega), getLe32_put_of_ne (by omega),
      getLe32_put_of_ne (by omega), getLe32_put (by decide)]
  have h12 : getLe32 (formatSuperblock sectors) 12 = sectors % 2 ^ 32 := by
    rw [formatSuperblock, getLe32_put_of_ne (by omega), getLe32_put_of_ne (by omega),
      getLe32_put (Nat.mod_lt _ (by decide))]
  have h16 : getLe32 (formatSuperblock sectors) 16 = sfsMaxFiles := by
    rw [formatSuperblock, getLe32_put_of_ne (by omega), getLe32_put (by decide)]
  have h20 : getLe32 (formatSuperblock sectors) 20 = sfsDataStart := by
    rw [formatSuperblock, getLe32_put (by decide)]
  rw [superblockValid, h0, h4, h8, h12, h16, h20]
  simp [Nat.mod_le]

/-- The device with the superblock of `sfs_format`. -/
def formatData (dev : Device) : ℕ → Byte :=
  blit dev.data 0 (formatSuperblock dev.sectorCount) blockSectorSize

/-- How `sfs_format` can end. -/
inductive FormatOutcome (s : Sfs) : Sfs × Bool → Prop
  | small (hsmall : s.device.sectorCount < sfsDataStart + sfsMaxFiles * sfsFileSectors) :
      FormatOutcome s ({ s with mounted := false }, false)
  | superFailed (hserves : s.device.serves 0 = false) :
      FormatOutcome s (⟨s.device.tick, formatDirectory s.directory, false⟩, false)
  | directoryFailed {dev : Device}
      (hlarge : sfsDataStart + sfsMaxFiles * sfsFileSectors ≤ s.device.sectorCount)
      (hserves : s.device.serves 0 = true) (hdata : dev.data = formatData s.device) :
      FormatOutcome s (⟨dev, formatDirectory s.directory, false⟩, false)
  | done {dev : Device}
      (hlarge : sfsDataStart + sfsMaxFiles * sfsFileSectors ≤ s.device.sectorCount)
      (hserves : s.device.serves 0 = true) (hcount : dev.sectorCount = s.device.sectorCount)
      (hdata : dev.data
        = blit (formatData s.device) blockSectorSize (formatDirectory s.directory)
        blockSectorSize) :
      FormatOutcome s (⟨dev, formatDirectory s.directory, true⟩, true)

theorem sfsFormat_outcome (s : Sfs) : FormatOutcome s (sfsFormat s) := by
  rw [sfsFormat]
  split
  · rename_i hsmall
    exact .small hsmall
  · rename_i hlarge
    rw [not_lt] at hlarge
    have hin : s.device.inRange sfsSuperSector 1 = true := by
      refine Device.inRange_iff.mpr ⟨by decide, ?_⟩
      simp only [sfsDataStart, sfsMaxFiles, sfsFileSectors, sfsSuperSector] at *
      omega
    cases hserves : s.device.serves 0 with
    | false =>
      have hfailed : blockWrite s.device sfsSuperSector (formatSuperblock s.device.sectorCount) 1
          = (s.device.tick, false) := by
        rw [blockWrite, hin, hserves]
        rfl
      rw [hfailed]
      exact .superFailed hserves
    | true =>
      rw [blockWrite_served _ hin hserves]
      dsimp only [writeDirectory]
      obtain ⟨hcount, ⟨hok, hdata⟩ | ⟨hok, -, hdata⟩⟩ := blockWrite_spec
        { s.device.tick with data := formatData s.device } sfsDirectorySector
        (formatDirectory s.directory) 1
      · exact hok ▸ .directoryFailed hlarge hserves hdata
      · exact hok ▸ .done hlarge hserves hcount hdata

theorem formatData_super {dev : Device} {k : ℕ} (hk : k < blockSectorSize) :
    formatData dev k = formatSuperblock dev.sectorCount k := by
  have := blit_inside (m := dev.data) (a := 0) (s := formatSuperblock dev.sectorCount) hk
  rwa [Nat.zero_add] at this

/-! ## The formatted directory -/

/-- One turn of the loop rewrites its entry. -/
theorem formatEntry_other {d : ℕ → Byte} {i j : ℕ} (hj : j ≠ i) :
    SameEntry d (formatEntry d i) j := by
  intro k hk
  simp only [entryPath, sfsEntrySize] at hk ⊢
  rw [formatEntry, putLe32_outside, putLe32_outside, putLe32_outside, putLe32_outside,
    putString_outside]
  all_goals simp only [entryPath, sfsEntrySize, List.length_nil]
  all_goals omega

theorem formatEntries_entry (d : ℕ → Byte) (n i : ℕ) (hi : i < n) :
    ∃ d₀, SameEntry (formatEntry d₀ i) ((List.range n).foldl formatEntry d) i := by
  induction n with
  | zero => exact absurd hi (Nat.not_lt_zero _)
  | succ n ih =>
    rw [List.range_succ, List.foldl_append]
    by_cases hin : i = n
    · subst hin
      exact ⟨_, fun _ _ => rfl⟩
    · obtain ⟨d₀, hd₀⟩ := ih (by omega)
      refine ⟨d₀, fun k hk => ?_⟩
      rw [← hd₀ k hk]
      exact formatEntry_other hin k hk

/-- Every entry is free, with the extent of its number. -/
theorem formatDirectory_entry (d : ℕ → Byte) {i : ℕ} (hi : i < sfsMaxFiles) :
    entryUsed (formatDirectory d) i = false
      ∧ entryStart (formatDirectory d) i = sfsDataStart + i * sfsFileSectors := by
  obtain ⟨d₀, hd₀⟩ := formatEntries_entry d sfsMaxFiles i hi
  have hsame : SameEntry (formatEntry d₀ i) (formatDirectory d) i := by
    intro k hk
    rw [← hd₀ k hk]
    refine blit_outside (.inl ?_)
    simp only [entryPath, sfsEntrySize, sfsMaxFiles] at *
    omega
  simp only [sfsMaxFiles] at hi
  rw [hsame.used_eq, hsame.start_eq, entryUsed, entryStart, formatEntry]
  constructor
  · rw [getLe32_put (by decide)]
    rfl
  · rw [getLe32_put_of_ne (by omega), getLe32_put_of_ne (by omega), getLe32_put_of_ne (by omega),
      getLe32_put]
    simp only [sfsDataStart, sfsFileSectors]
    omega

/-- …so its extents are tidy. -/
theorem tidy_format (d : ℕ → Byte) (sectors : ℕ) : Tidy (formatDirectory d) sectors := by
  have hstart := fun i hi => (formatDirectory_entry d (i := i) hi).2
  constructor
  · intro i hi _
    rw [hstart i hi]
    exact Nat.le_add_right _ _
  · intro i hi j hj hij _ _
    rw [hstart i hi, hstart j hj]
    simp only [sfsDataStart, sfsFileSectors]
    omega

/-! ## Mounting -/

/-- How `sfs_init` can end. -/
inductive InitOutcome (s : Sfs) : Sfs → Prop
  | unmounted {dev : Device} (hcount : dev.sectorCount = s.device.sectorCount)
      (hdata : dev.data = s.device.data) : InitOutcome s ⟨dev, s.directory, false⟩
  | formatted (hserves : s.device.serves 0 = true) (hzero : ∀ i < 8, s.device.data i = 0) :
      InitOutcome s (sfsFormat ⟨s.device.tick, s.directory, false⟩).1
  | mounted {dev : Device} (hcount : dev.sectorCount = s.device.sectorCount)
      (hdata : dev.data = s.device.data)
      (hsuper : superblockValid s.device.sectorCount s.device.data = true) :
      InitOutcome s ⟨dev, blit s.directory 0 (diskDirectory s.device) blockSectorSize, true⟩

theorem zero_words_iff {b : ℕ → Byte} :
    getLe32 b 0 = 0 ∧ getLe32 b 4 = 0 ↔ ∀ i < 8, b i = 0 := by
  rw [getLe32_eq_zero, getLe32_eq_zero]
  constructor
  · rintro ⟨hlow, hhigh⟩ i hi
    by_cases h : i < 4
    · have := hlow i h
      rwa [Nat.zero_add] at this
    · have := hhigh (i - 4) (by omega)
      rwa [show 4 + (i - 4) = i by omega] at this
  · intro h
    exact ⟨fun i hi => h (0 + i) (by omega), fun i hi => h (4 + i) (by omega)⟩

theorem sfsInit_outcome (s : Sfs) : InitOutcome s (sfsInit s) := by
  rw [sfsInit]
  have hread := blockRead_spec s.device sfsSuperSector 1
  split
  · rename_i dev heq
    rw [heq] at hread
    exact .unmounted hread.1 hread.2.1
  · rename_i dev b heq
    rw [heq] at hread
    obtain ⟨-, -, hread⟩ := hread
    obtain ⟨hserves, hdev, hb⟩ := hread b rfl
    obtain rfl : dev = s.device.tick := hdev
    have hbytes : b = s.device.data := by
      rw [hb]
      funext i
      rw [show blockSectorSize * sfsSuperSector + i = i from Nat.zero_add i]
    subst hbytes
    dsimp only
    split
    · rename_i hzero
      exact .formatted hserves (zero_words_iff.mp hzero)
    · split
      · exact .unmounted rfl rfl
      · rename_i hvalid
        rw [Bool.not_eq_true', Bool.not_eq_false] at hvalid
        have hread' := blockRead_spec s.device.tick sfsDirectorySector 1
        split
        · rename_i dev' heq'
          rw [heq'] at hread'
          exact .unmounted hread'.1 hread'.2.1
        · rename_i dev' d heq'
          rw [heq'] at hread'
          obtain ⟨hcount, hdata, hread'⟩ := hread'
          obtain ⟨-, -, rfl⟩ := hread' d rfl
          exact .mounted hcount hdata hvalid

/-! ## Devices of other formats -/

/-- Every byte is zero. -/
def Device.Blank (dev : Device) : Prop := ∀ i < blockSectorSize * dev.sectorCount, dev.data i = 0

/-- `sfs_init` leaves a device that is not its own alone: it changes only a blank one, and does not
mount what has neither nothing nor a superblock on it. -/
structure LeavesUnknown (s : Sfs) : Prop where
  changes : (sfsInit s).device.data ≠ s.device.data → s.device.Blank
  unknown : ¬ s.device.Blank → superblockValid s.device.sectorCount s.device.data ≠ true →
    (sfsInit s).device.data = s.device.data ∧ (sfsInit s).mounted = false

/-- Eight zero bytes are enough to be formatted. -/
theorem sfsInit_formats {s : Sfs} (hcount : 1 ≤ s.device.sectorCount)
    (hserves : s.device.serves 0 = true) (hzero : ∀ i < 8, s.device.data i = 0) :
    sfsInit s = (sfsFormat ⟨s.device.tick, s.directory, false⟩).1 := by
  have hin : s.device.inRange sfsSuperSector 1 = true :=
    Device.inRange_iff.mpr ⟨by decide, by simpa [sfsSuperSector] using hcount⟩
  have hbytes : (fun i => s.device.data (blockSectorSize * sfsSuperSector + i))
      = s.device.data := by
    funext i
    rw [show blockSectorSize * sfsSuperSector + i = i from Nat.zero_add i]
  rw [sfsInit, blockRead_served hin hserves, hbytes]
  dsimp only
  rw [if_pos (zero_words_iff.mpr hzero)]

/-- A format that succeeds, or fails at the directory, starts the device with its magic. -/
theorem sfsInit_magic {s : Sfs} (hzero : ∀ i < 8, s.device.data i = 0)
    (hlarge : sfsDataStart + sfsMaxFiles * sfsFileSectors ≤ s.device.sectorCount)
    (hserves : s.device.serves 0 = true) (hserves' : s.device.serves 1 = true) :
    (sfsInit s).device.data 0 = 0x31 := by
  have hmagic : formatSuperblock s.device.sectorCount 0 = 0x31 := by
    rw [formatSuperblock, putLe32_outside (by omega), putLe32_outside (by omega),
      putLe32_outside (by omega), putLe32_outside (by omega), putLe32_outside (by omega)]
    rfl
  have hcount : 1 ≤ s.device.sectorCount := by
    simp only [sfsDataStart] at hlarge
    omega
  have ho := sfsFormat_outcome ⟨s.device.tick, s.directory, false⟩
  rw [sfsInit_formats hcount hserves hzero, ← hmagic]
  generalize sfsFormat ⟨s.device.tick, s.directory, false⟩ = r at ho ⊢
  cases ho with
  | small hsmall => exact absurd hlarge (Nat.not_le.mpr hsmall)
  | superFailed hfails => cases hfails.symm.trans hserves'
  | directoryFailed _ _ hdata =>
    rw [hdata]
    exact formatData_super (by decide)
  | done _ _ _ hdata =>
    rw [hdata, blit_outside (.inl (by decide))]
    exact formatData_super (by decide)

/-- A mount changes nothing, unless eight zero bytes let it format. -/
theorem sfsInit_alone (s : Sfs) :
    ((∀ i < 8, s.device.data i = 0)
        ∧ sfsDataStart + sfsMaxFiles * sfsFileSectors ≤ s.device.sectorCount
        ∧ s.device.serves 0 = true ∧ s.device.serves 1 = true)
      ∨ (sfsInit s).device.data = s.device.data
        ∧ ((sfsInit s).mounted = false
          ∨ superblockValid s.device.sectorCount s.device.data = true) := by
  have ho := sfsInit_outcome s
  generalize sfsInit s = s' at ho ⊢
  cases ho with
  | unmounted _ hsame => exact .inr ⟨hsame, .inl rfl⟩
  | mounted _ hsame hvalid => exact .inr ⟨hsame, .inr hvalid⟩
  | formatted hserves hzero =>
    have hformat := sfsFormat_outcome ⟨s.device.tick, s.directory, false⟩
    generalize sfsFormat ⟨s.device.tick, s.directory, false⟩ = r at hformat ⊢
    cases hformat with
    | small _ => exact .inr ⟨rfl, .inl rfl⟩
    | superFailed _ => exact .inr ⟨rfl, .inl rfl⟩
    | directoryFailed hlarge hserves' _ => exact .inl ⟨hzero, hlarge, hserves, hserves'⟩
    | done hlarge hserves' _ _ => exact .inl ⟨hzero, hlarge, hserves, hserves'⟩

/-- **Exactly when an unknown device is left alone**: unless it starts with eight zero bytes, has
data behind them and room for SaturnFS, and serves. -/
theorem leavesUnknown_iff (s : Sfs) :
    LeavesUnknown s ↔ s.device.Blank ∨ (∃ i < 8, s.device.data i ≠ 0)
      ∨ s.device.sectorCount < sfsDataStart + sfsMaxFiles * sfsFileSectors
      ∨ s.device.serves 0 = false ∨ s.device.serves 1 = false := by
  constructor
  · intro h
    by_contra hcond
    simp only [not_or, not_exists, not_and, not_not, not_lt, Bool.not_eq_false] at hcond
    obtain ⟨hblank, hzero, hlarge, hserves, hserves'⟩ := hcond
    have hfirst := sfsInit_magic hzero hlarge hserves hserves'
    refine hblank (h.changes fun hdata => ?_)
    rw [hdata, hzero 0 (by decide)] at hfirst
    exact absurd hfirst (by decide)
  · intro hcond
    have hkey : s.device.Blank ∨ (sfsInit s).device.data = s.device.data
        ∧ ((sfsInit s).mounted = false
          ∨ superblockValid s.device.sectorCount s.device.data = true) := by
      refine (sfsInit_alone s).imp_left ?_
      rintro ⟨hzero, hlarge, hserves, hserves'⟩
      rcases hcond with hblank | ⟨i, hi, hne⟩ | hsmall | hfails | hfails
      · exact hblank
      · exact absurd (hzero i hi) hne
      · exact absurd hlarge (Nat.not_le.mpr hsmall)
      · cases hfails.symm.trans hserves
      · cases hfails.symm.trans hserves'
    rcases hkey with hblank | ⟨hsame, hm⟩
    · exact ⟨fun _ => hblank, fun hn => absurd hblank hn⟩
    · exact ⟨fun hn => absurd hsame hn, fun _ hs => ⟨hsame, hm.resolve_right hs⟩⟩

/-- A device of 66 sectors, nothing on it but one byte behind the first eight. -/
def lateDevice : Sfs :=
  ⟨⟨66, fun i => if i = 8 then 1 else 0, fun _ => true⟩, fun _ => 0, false⟩

theorem lateDevice_formatted : ¬ LeavesUnknown lateDevice := by
  intro h
  have hblank : lateDevice.device.Blank := by
    refine h.changes fun hdata => ?_
    have hfirst : (sfsInit lateDevice).device.data 0 = 0 := congrFun hdata 0
    exact absurd hfirst (by decide)
  have hbyte := hblank 8 (by decide)
  exact absurd hbyte (by decide)

end SaturnOS
