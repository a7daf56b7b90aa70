import SaturnOS.Fs.FileMap

/-!
# Fs/PowerLoss — a write that loses power

    extent      o o o o o o o o │ n o n o o n n o │ n n n n n n n n │ n n n n n n n n
    directory   old             │ old             │ old             │ new
                                  cut here…         …here…            …or here

A request goes to the disk a sector at a time and in any order, and power may be lost in the middle
of it; what was in memory is lost too, and the disk is mounted again.  The directory is one sector,
so a write takes place when that is written, or not at all.  Until then the file that is being
overwritten is in pieces, and only its checksum tells; no other file is touched
(`saturnfs_survives`).
-/

open Machinery

namespace SaturnOS

/-! ## Power -/

/-- The disk in the middle of a request: the sectors in `kept` are written. -/
def tear (kept : ℕ → Bool) (old new : ℕ → Byte) : ℕ → Byte :=
  fun k => if kept (k / blockSectorSize) then new k else old k

/-- The disk where power is lost in the first request of `sfs_write_file` or, if `committing`, in
the second. -/
def cutWrite (s : Sfs) (path : CStr) (data : Buffer) (size : ℕ) (committing : Bool)
    (kept : ℕ → Bool) : ℕ → Byte :=
  if !canWrite s path data size then s.device.data
  else
    match writeEntry s.directory path with
    | none => s.device.data
    | some i =>
      let bytes := bufferBytes data size
      match blockWrite s.device (entryStart s.directory i) (fun j => bytes.getD j 0)
          sfsFileSectors with
      | (dev, false) => dev.data
      | (dev, true) =>
        if !committing then tear kept s.device.data dev.data
        else tear kept dev.data (writeDirectory dev (storeEntry s.directory i path bytes)).1.data

/-- SaturnFS started on a disk, its statics zero. -/
def reboot (s : Sfs) (data : ℕ → Byte) : Sfs :=
  sfsInit ⟨{ s.device with data }, fun _ => 0, false⟩

/-- A write that comes to its requests. -/
def Requests (s : Sfs) (path : CStr) (data : Buffer) (size : ℕ) : Prop :=
  canWrite s path data size = true ∧ (writeEntry s.directory path).isSome = true

instance (s : Sfs) (path : CStr) (data : Buffer) (size : ℕ) :
    Decidable (Requests s path data size) := inferInstanceAs (Decidable (_ ∧ _))

/-- SaturnFS, the file last written to each path, and the paths of which an overwriting was cut
since then. -/
structure PowerRun where
  sfs : Sfs
  files : CStr → Option (List Byte)
  torn : List CStr

inductive PowerOp
  | write (path : CStr) (data : Buffer) (size : ℕ)
  | read (path : CStr) (capacity : ℕ)
  | remount
  | cut (path : CStr) (data : Buffer) (size : ℕ) (committing : Bool) (kept : ℕ → Bool)

/-- A file is written. -/
def PowerRun.commit (r : PowerRun) (s : Sfs) (path : CStr) (bytes : List Byte) : PowerRun :=
  ⟨s, Function.update r.files path (some bytes), r.torn.filter fun q => q ≠ path⟩

def powerStep (r : PowerRun) : PowerOp → Option PowerRun
  | .write path data size =>
    match sfsWriteFile r.sfs path data size with
    | (s, true) => some (r.commit s path (bufferBytes data size))
    | (s, false) => some { r with sfs := s }
  | .read path capacity => some { r with sfs := (sfsReadFile r.sfs path true capacity).1 }
  | .remount => some { r with sfs := sfsInit r.sfs }
  | .cut path data size committing kept =>
    let s := reboot r.sfs (cutWrite r.sfs path data size committing kept)
    if ¬ Requests r.sfs path data size then some { r with sfs := s }
    else if committing && kept sfsDirectorySector then
      some (r.commit s path (bufferBytes data size))
    else some { r with sfs := s, torn := path :: r.torn }

/-- **What SaturnFS promises** where power may be lost. -/
structure Survives (r : PowerRun) : Prop where
  mounted : r.sfs.mounted = true
  /-- A file that was not cut reads as it was last written. -/
  whole : ∀ q, q ∉ r.torn → ∀ capacity, (sfsReadFile r.sfs q true capacity).2
    = (r.files q).filter fun c => decide (c.length ≤ capacity)
  /-- What is read of any file has the size and the checksum of what was last written. -/
  checked : ∀ q capacity c', (sfsReadFile r.sfs q true capacity).2 = some c' →
    ∃ c, r.files q = some c ∧ c'.length = c.length ∧ sfsChecksum c' = sfsChecksum c
  /-- A write is refused for its arguments, or for want of an entry. -/
  writes_iff : ∀ path data size, (sfsWriteFile r.sfs path data size).2 = true
    ↔ (path.chars.head? = some slash ∧ 2 ≤ path.length ∧ path.length ≤ 43) ∧ size ≤ 4096
      ∧ (0 < size → data.isSome = true)
      ∧ ((r.files path).isSome = true ∨ {q | (r.files q).isSome = true}.ncard < 8)

/-! ## Requests and mounts -/

section Serving

variable {s : Sfs} {path : CStr} {data : Buffer} {size i : ℕ}

/-- Both requests of a write reach a device that serves. -/
theorem requests_served (hserving : s.device.Serving) (hlarge : 2 ≤ s.device.sectorCount)
    (hfits : s.Fits i) (bytes : List Byte) (d : ℕ → Byte) :
    ∃ dev dev' : Device,
      blockWrite s.device (entryStart s.directory i) (fun j => bytes.getD j 0) sfsFileSectors
        = (dev, true) ∧ writeDirectory dev d = (dev', true)
      ∧ dev.data = storeExtent s i bytes
      ∧ dev'.data = blit (storeExtent s i bytes) blockSectorSize d blockSectorSize
      ∧ dev'.sectorCount = s.device.sectorCount ∧ dev'.Serving := by
  have hin : s.device.inRange (entryStart s.directory i) sfsFileSectors = true :=
    Device.inRange_iff.mpr ⟨by decide, hfits⟩
  have hin' : ({ s.device.tick with data := storeExtent s i bytes } : Device).inRange
      sfsDirectorySector 1 = true :=
    Device.inRange_iff.mpr ⟨by decide, hlarge⟩
  exact ⟨_, _, blockWrite_served _ hin (hserving 0), blockWrite_served _ hin' (hserving 1), rfl,
    rfl, rfl, hserving.tick.tick⟩

/-- **A device with a superblock that is valid is mounted.** -/
theorem sfsInit_valid (hserving : s.device.Serving) (hlarge : 2 ≤ s.device.sectorCount)
    (hsuper : superblockValid s.device.sectorCount s.device.data = true) :
    sfsInit s = ⟨s.device.tick.tick, loadDirectory s, true⟩ := by
  have hin : s.device.inRange sfsSuperSector 1 = true :=
    Device.inRange_iff.mpr ⟨by decide, Nat.le_of_succ_le hlarge⟩
  have hin' : s.device.tick.inRange sfsDirectorySector 1 = true :=
    Device.inRange_iff.mpr ⟨by decide, hlarge⟩
  have hbytes : (fun i => s.device.data (blockSectorSize * sfsSuperSector + i))
      = s.device.data := by
    funext i
    rw [show blockSectorSize * sfsSuperSector + i = i from Nat.zero_add i]
  have hzero : ¬ (getLe32 s.device.data 0 = 0 ∧ getLe32 s.device.data 4 = 0) := by
    intro hz
    rw [superblockValid, hz.1] at hsuper
    cases hsuper
  have hvalid : superblockValid s.device.tick.sectorCount s.device.data = true := hsuper
  rw [sfsInit, blockRead_served hin (hserving 0), hbytes]
  dsimp only
  rw [if_neg hzero, hvalid, if_neg (by decide), blockRead_served hin' (hserving 1)]
  rfl

end Serving

/-! ## The directory loaded again -/

namespace Formatted

variable {s : Sfs} {d : ℕ → Byte} (h : Formatted s)

include h

/-- The same string is spelled. -/
theorem reload_spells (hd : ∀ k < blockSectorSize, d k = s.directory k) {i : ℕ}
    (hi : i < sfsMaxFiles) (hused : entryUsed d i = true) {q : CStr} :
    Spells d (entryPath i) q.chars ↔ Spells s.directory (entryPath i) q.chars := by
  have hentry : SameEntry s.directory d i := sameEntry_of_sector hd hi
  rw [hentry.used_eq] at hused
  obtain ⟨path, -, -, hspells, -⟩ := h.files i hi hused
  have hspells' : Spells d (entryPath i) path.chars := by
    rw [← pathEquals_cstr, hentry.pathEquals_eq (h.length_lt hi hused hspells), pathEquals_cstr]
    exact hspells
  constructor
  · intro hq
    rw [hq.unique hspells']
    exact hspells
  · intro hq
    rw [hq.unique hspells]
    exact hspells'

/-- A directory with the same sector is as good. -/
theorem reload (hd : ∀ k < blockSectorSize, d k = s.directory k) :
    Formatted { s with directory := d } := by
  have hentry : ∀ i < sfsMaxFiles, SameEntry s.directory d i := fun i hi =>
    sameEntry_of_sector hd hi
  have hcast : ∀ i < sfsMaxFiles, entryUsed d i = true → entryUsed s.directory i = true :=
    fun i hi hused => (hentry i hi).used_eq.symm.trans hused
  refine ⟨h.serving, h.large, h.mounted, h.super, fun k hk => (h.same k hk).trans (hd k hk).symm,
    fun i hi => (hentry i hi).start_eq.trans (h.starts i hi), fun i hi hused => ?_,
    fun i hi j hj hiused hjused path hip hjp => ?_⟩
  · obtain ⟨path, c, hpath, hspells, hs⟩ := h.files i hi (hcast i hi hused)
    exact ⟨path, c, hpath, (h.reload_spells hd hi hused).mpr hspells,
      (@stores_congr s { s with directory := d } i c (hentry i hi) rfl fun _ _ _ => rfl).mpr hs⟩
  · exact h.distinct i hi j hj (hcast i hi hiused) (hcast j hj hjused) path
      ((h.reload_spells hd hi hiused).mp hip) ((h.reload_spells hd hj hjused).mp hjp)

end Formatted

/-! ## What is torn -/

/-- The byte is in the extent of entry `i`. -/
def InExtent (d : ℕ → Byte) (i k : ℕ) : Prop :=
  blockSectorSize * entryStart d i ≤ k ∧ k < blockSectorSize * (entryStart d i + sfsFileSectors)

/-- **Behind the disk there is one on which nothing is torn**: `t`, with the same directory, and the
same bytes but in the extents of files that are torn and of no file. -/
structure Shadows (torn : List CStr) (s t : Sfs) : Prop where
  directory : s.directory = t.directory
  mounted : s.mounted = t.mounted
  serving : s.device.Serving
  count : s.device.sectorCount = t.device.sectorCount
  data : ∀ k, s.device.data k ≠ t.device.data k → ∃ i < sfsMaxFiles, InExtent t.directory i k ∧
    ∀ q : CStr, entryUsed t.directory i = true → Spells t.directory (entryPath i) q.chars → q ∈ torn

namespace Shadows

variable {torn torn' : List CStr} {s t : Sfs} {path : CStr} {data : Buffer} {size i k : ℕ}
  (h : Shadows torn s t) (ht : Formatted t)

include h ht

theorem fits (hi : i < sfsMaxFiles) : s.Fits i := by
  have hfits := ht.fits hi
  rw [Sfs.Fits] at hfits ⊢
  rwa [h.directory, h.count]

theorem large : 2 ≤ s.device.sectorCount := by
  have := ht.large
  rw [h.count]
  simp only [sfsDataStart, sfsMaxFiles, sfsFileSectors] at this
  omega

/-- The first two sectors are the same. -/
theorem head_eq (hk : k < 2 * blockSectorSize) : s.device.data k = t.device.data k := by
  by_contra hne
  obtain ⟨i, hi, ⟨hlow, -⟩, -⟩ := h.data k hne
  rw [ht.starts i hi] at hlow
  simp only [blockSectorSize, sfsDataStart, sfsFileSectors] at *
  omega

theorem super : superblockValid s.device.sectorCount s.device.data = true := by
  rw [h.count, superblockValid_congr fun k hk => h.head_eq ht ?_]
  · exact ht.super
  · simp only [blockSectorSize]
    omega

theorem disk_eq (hk : k < blockSectorSize) : diskDirectory s.device k = s.directory k := by
  rw [h.directory, ← ht.same k hk]
  refine h.head_eq ht ?_
  simp only [sfsDirectorySector, blockSectorSize] at *
  omega

omit ht in
theorem canWrite_eq : canWrite s path data size = canWrite t path data size := by
  rw [canWrite, canWrite, h.mounted]

omit ht in
theorem requests_iff : Requests s path data size ↔ Requests t path data size := by
  rw [Requests, Requests, h.canWrite_eq, h.directory]

/-- **A file that is not torn** is the same on both. -/
theorem contents_eq {q : CStr} (hq : q ∉ torn) : s.contents q = t.contents q := by
  refine contents_congr h.mounted h.count (fun j _ => ?_) fun j _ hfind hfits k hk => ?_
  · rw [h.directory]
    exact fun _ _ => rfl
  · obtain ⟨hj, hused, hspells⟩ := findEntry_lt hfind
    by_contra hne
    obtain ⟨i, hi, ⟨hlow, hhigh⟩, htorn⟩ := h.data _ hne
    obtain rfl : i = j := by
      by_contra hij
      have hapart := ht.tidy.apart i hi j hj hij (ht.fits hi) hfits
      simp only [blockSectorSize, sfsFileSectors, sfsMaxFileSize] at *
      omega
    exact hq (htorn q hused hspells)

/-- **What is read of any file** has the size and the checksum it should. -/
theorem contents_checked {q : CStr} {c' : List Byte} (hc : s.contents q = some c') :
    ∃ c, t.contents q = some c ∧ c'.length = c.length ∧ sfsChecksum c' = sfsChecksum c := by
  obtain ⟨-, i, hfind, hs⟩ := contents_iff.mp hc
  rw [h.directory] at hfind
  obtain ⟨c, hc⟩ := Option.isSome_iff_exists.mp
    (ht.isSome_contents.mpr (Option.isSome_iff_exists.mpr ⟨i, hfind⟩))
  obtain ⟨-, j, hfind', ht'⟩ := contents_iff.mp hc
  obtain rfl : i = j := Option.some.inj (hfind.symm.trans hfind')
  refine ⟨c, hc, ?_, BitVec.eq_of_toNat_eq ?_⟩
  · rw [← hs.size_eq, ← ht'.size_eq, h.directory]
  · rw [← hs.checksum_eq, ← ht'.checksum_eq, h.directory]

omit ht in
/-- Requests served are no difference. -/
theorem congr {s' : Sfs} (hdir : s'.directory = s.directory) (hm : s'.mounted = s.mounted)
    (hserving : s'.device.Serving) (hcount : s'.device.sectorCount = s.device.sectorCount)
    (hdata : s'.device.data = s.device.data) : Shadows torn s' t :=
  ⟨hdir.trans h.directory, hm.trans h.mounted, hserving, hcount.trans h.count, hdata ▸ h.data⟩

/-- A remount loads the directory it has. -/
theorem init_eq : sfsInit s = { s with device := s.device.tick.tick } := by
  have hload : loadDirectory s = s.directory := by
    funext k
    by_cases hk : k < blockSectorSize
    · rw [loadDirectory_eq s hk, h.disk_eq ht hk]
    · exact blit_outside (.inr (by omega))
  rw [sfsInit_valid h.serving (h.large ht) (h.super ht), hload, h.mounted, ht.mounted]

/-- **A write that takes place**, on both. -/
theorem commit {bytes : List Byte} {s' t' : Sfs} {d : ℕ → Byte} (ht' : Formatted t')
    (hlen : path.length < sfsMaxPath) (hentry : writeEntry t.directory path = some i)
    (hdir : s'.directory = t'.directory)
    (hd : ∀ k < blockSectorSize, storeEntry t.directory i path bytes k = t'.directory k)
    (hm : s'.mounted = t'.mounted) (hserving : s'.device.Serving)
    (hcount : s'.device.sectorCount = t'.device.sectorCount)
    (hsdata : s'.device.data = blit (storeExtent s i bytes) blockSectorSize d blockSectorSize)
    (htdata : t'.device.data = blit (storeExtent t i bytes) blockSectorSize d blockSectorSize) :
    Shadows (torn.filter fun q => q ≠ path) s' t' := by
  refine ⟨hdir, hm, hserving, hcount, fun k hk => ?_⟩
  rw [hsdata, htdata] at hk
  -- the byte is neither in the directory nor in the extent that is written
  have hout : k < blockSectorSize ∨ blockSectorSize + blockSectorSize ≤ k := by
    by_contra hin
    obtain ⟨j, rfl⟩ : ∃ j, k = blockSectorSize + j := ⟨k - blockSectorSize, by omega⟩
    have hj : j < blockSectorSize := by omega
    rw [blit_inside hj, blit_inside hj] at hk
    exact hk rfl
  rw [blit_outside hout, blit_outside hout] at hk
  have hextent : k < blockSectorSize * entryStart t.directory i ∨
      blockSectorSize * entryStart t.directory i + blockSectorSize * sfsFileSectors ≤ k := by
    by_contra hin
    obtain ⟨j, rfl⟩ : ∃ j, k = blockSectorSize * entryStart t.directory i + j :=
      ⟨k - blockSectorSize * entryStart t.directory i, by omega⟩
    have hj : j < blockSectorSize * sfsFileSectors := by omega
    rw [storeExtent, storeExtent, h.directory, blit_inside hj, blit_inside hj] at hk
    exact hk rfl
  rw [storeExtent, storeExtent, h.directory, blit_outside hextent, blit_outside hextent] at hk
  obtain ⟨j, hj, hin, htorn⟩ := h.data k hk
  have hji : j ≠ i := by
    rintro rfl
    rw [InExtent] at hin
    simp only [blockSectorSize, sfsFileSectors] at *
    omega
  have hsame : SameEntry t'.directory (storeEntry t.directory i path bytes) j :=
    sameEntry_of_sector hd hj
  have hstart : entryStart t'.directory j = entryStart t.directory j :=
    hsame.start_eq.symm.trans (storeEntry_start hlen j)
  refine ⟨j, hj, ?_, fun q hused hspells => ?_⟩
  · rwa [InExtent, hstart]
  · rw [← hsame.used_eq] at hused
    rw [← ht'.reload_spells hd hj hused] at hspells
    obtain ⟨hused', hspells', hq⟩ := ht.spells_other bytes hlen hentry hj hji hused hspells
    exact List.mem_filter.mpr ⟨htorn q hused' hspells', decide_eq_true hq⟩

end Shadows

/-! ## Power lost in a write -/

section Cut

variable {s : Sfs} {path : CStr} {data : Buffer} {size i k : ℕ} {m : ℕ → Byte}

/-- A disk with a valid superblock comes up with the directory on it. -/
theorem reboot_eq (hserving : s.device.Serving) (hlarge : 2 ≤ s.device.sectorCount)
    (hsuper : superblockValid s.device.sectorCount m = true) :
    ∃ d, reboot s m = ⟨{ s.device.tick.tick with data := m }, d, true⟩ ∧
      ∀ k < blockSectorSize, d k = m (blockSectorSize + k) :=
  ⟨_, @sfsInit_valid ⟨{ s.device with data := m }, fun _ => 0, false⟩ hserving hlarge hsuper,
    fun _ hk => loadDirectory_eq _ hk⟩

/-- The sectors of a torn request are old or new. -/
theorem tear_cases (kept : ℕ → Bool) (old new : ℕ → Byte) (k : ℕ) :
    kept (k / blockSectorSize) = true ∧ tear kept old new k = new k ∨
      kept (k / blockSectorSize) = false ∧ tear kept old new k = old k := by
  rw [tear]
  cases kept (k / blockSectorSize) with
  | true => exact .inl ⟨rfl, rfl⟩
  | false => exact .inr ⟨rfl, rfl⟩

/-- A write that does not come to its requests leaves the disk as it is. -/
theorem cutWrite_refused (h : ¬ Requests s path data size) (committing : Bool) (kept : ℕ → Bool) :
    cutWrite s path data size committing kept = s.device.data := by
  rw [cutWrite]
  split
  · rfl
  · rename_i hcan
    rw [Bool.not_eq_true', Bool.not_eq_false] at hcan
    split
    · rfl
    · rename_i i hentry
      exact absurd ⟨hcan, by rw [hentry]; rfl⟩ h

section Requested

variable (hserving : s.device.Serving) (hlarge : 2 ≤ s.device.sectorCount) (hfits : s.Fits i)
  (hcan : canWrite s path data size = true) (hentry : writeEntry s.directory path = some i)

include hserving hlarge hfits hcan hentry

theorem cutWrite_requests (committing : Bool) (kept : ℕ → Bool) :
    cutWrite s path data size committing kept =
      if !committing then tear kept s.device.data (storeExtent s i (bufferBytes data size))
      else tear kept (storeExtent s i (bufferBytes data size))
        (blit (storeExtent s i (bufferBytes data size)) blockSectorSize
          (storeEntry s.directory i path (bufferBytes data size)) blockSectorSize) := by
  obtain ⟨dev, dev', hfirst, hsecond, hdata, hdata', -, -⟩ := requests_served hserving hlarge hfits
    (bufferBytes data size) (storeEntry s.directory i path (bufferBytes data size))
  rw [cutWrite, hcan, if_neg (by decide), hentry]
  dsimp only
  rw [hfirst]
  dsimp only
  rw [hsecond, hdata, hdata']

/-- **Before the directory is written** there is the extent that is not what it was, and no other
byte. -/
theorem cutWrite_torn {committing : Bool} {kept : ℕ → Bool}
    (hkept : (committing && kept sfsDirectorySector) = false)
    (hk : cutWrite s path data size committing kept k ≠ s.device.data k) :
    InExtent s.directory i k := by
  rw [cutWrite_requests hserving hlarge hfits hcan hentry] at hk
  have hextent : storeExtent s i (bufferBytes data size) k ≠ s.device.data k := by
    cases committing with
    | false =>
      rcases tear_cases kept s.device.data (storeExtent s i (bufferBytes data size)) k with
        ⟨-, heq⟩ | ⟨-, heq⟩
      · rwa [← heq]
      · exact absurd heq hk
    | true =>
      have hsector : kept sfsDirectorySector = false := hkept
      rw [if_neg (by decide)] at hk
      rcases tear_cases kept (storeExtent s i (bufferBytes data size))
        (blit (storeExtent s i (bufferBytes data size)) blockSectorSize
          (storeEntry s.directory i path (bufferBytes data size)) blockSectorSize) k with
        ⟨hk', heq⟩ | ⟨-, heq⟩
      · rw [heq, blit_outside] at hk
        · exact hk
        · -- the one sector of the directory is not among those that are written
          by_contra hin
          have hplace : k / blockSectorSize = sfsDirectorySector := by
            simp only [blockSectorSize, sfsDirectorySector] at *
            omega
          rw [hplace, hsector] at hk'
          cases hk'
      · rwa [heq] at hk
  by_contra hout
  refine hextent (blit_outside ?_)
  rw [InExtent] at hout
  simp only [blockSectorSize, sfsFileSectors] at *
  omega

/-- **Where it is**, the write has taken place. -/
theorem cutWrite_commits {kept : ℕ → Bool} (hkept : kept sfsDirectorySector = true) :
    cutWrite s path data size true kept =
      blit (storeExtent s i (bufferBytes data size)) blockSectorSize
        (storeEntry s.directory i path (bufferBytes data size)) blockSectorSize := by
  rw [cutWrite_requests hserving hlarge hfits hcan hentry, if_neg (by decide)]
  funext k
  rcases tear_cases kept (storeExtent s i (bufferBytes data size))
    (blit (storeExtent s i (bufferBytes data size)) blockSectorSize
      (storeEntry s.directory i path (bufferBytes data size)) blockSectorSize) k with
    ⟨-, heq⟩ | ⟨hk', heq⟩
  · exact heq
  · rw [heq, blit_outside]
    by_contra hin
    have hplace : k / blockSectorSize = sfsDirectorySector := by
      simp only [blockSectorSize, sfsDirectorySector] at *
      omega
    rw [hplace, hkept] at hk'
    cases hk'

/-- …as it does where power stays on. -/
theorem writeFile_requests : ∃ dev : Device,
    sfsWriteFile s path data size = ({ s with
      device := dev
      directory := storeEntry s.directory i path (bufferBytes data size) }, true) ∧
    dev.data = blit (storeExtent s i (bufferBytes data size)) blockSectorSize
      (storeEntry s.directory i path (bufferBytes data size)) blockSectorSize ∧
    dev.sectorCount = s.device.sectorCount ∧ dev.Serving := by
  obtain ⟨dev, dev', hfirst, hsecond, -, hrest⟩ := requests_served hserving hlarge hfits
    (bufferBytes data size) (storeEntry s.directory i path (bufferBytes data size))
  refine ⟨dev', ?_, hrest⟩
  rw [sfsWriteFile, hcan, if_neg (by decide), hentry]
  dsimp only
  rw [hfirst]
  dsimp only
  rw [hsecond]

end Requested

end Cut

/-! ## Runs -/

theorem FilesOk.reload {t : Sfs} {files : CStr → Option (List Byte)} (h : FilesOk ⟨t, files⟩)
    {d : ℕ → Byte} (hd : ∀ k < blockSectorSize, d k = t.directory k) :
    FilesOk ⟨{ t with directory := d }, files⟩ := by
  refine ⟨h.formatted.reload hd, fun q => ?_⟩
  rw [← h.contents q]
  exact @contents_congr t { t with directory := d } q rfl rfl
    (fun j hj => sameEntry_of_sector hd hj) fun _ _ _ _ _ _ => rfl

/-- The invariant: there is a disk behind the disk, and it holds the files. -/
structure PowerInv (r : PowerRun) (t : Sfs) : Prop where
  files : FilesOk ⟨t, r.files⟩
  shadows : Shadows r.torn r.sfs t

namespace PowerInv

variable {r r' : PowerRun} {t : Sfs} {path : CStr} {data : Buffer} {size : ℕ}
  (h : PowerInv r t)

include h

/-- A write that takes place behind the disk. -/
theorem behind {i : ℕ} (hcan : canWrite t path data size = true)
    (hentry : writeEntry t.directory path = some i) : ∃ dev : Device,
    dev.sectorCount = t.device.sectorCount ∧
    dev.data = blit (storeExtent t i (bufferBytes data size)) blockSectorSize
      (storeEntry t.directory i path (bufferBytes data size)) blockSectorSize ∧
    FilesOk ⟨{ t with
        device := dev
        directory := storeEntry t.directory i path (bufferBytes data size) },
      Function.update r.files path (some (bufferBytes data size))⟩ := by
  obtain ⟨dev, -, hcount, hdata, heq⟩ := h.files.formatted.writeFile_served rfl hcan hentry
  rcases h.files.write path data size with hno | ⟨t', ht', hok⟩
  · exact absurd (congrArg Prod.snd (heq.symm.trans hno)) (by simp)
  · obtain ⟨rfl, -⟩ := Prod.mk.inj (ht'.symm.trans heq)
    exact ⟨dev, hcount, hdata, hok⟩

theorem write {s' : Sfs} (hs : sfsWriteFile r.sfs path data size = (s', true)) :
    ∃ t', PowerInv (r.commit s' path (bufferBytes data size)) t' := by
  have hf := h.files.formatted
  by_cases hreq : Requests r.sfs path data size
  · obtain ⟨hcan, hentry⟩ := (h.shadows.requests_iff).mp hreq
    obtain ⟨i, hentry⟩ := Option.isSome_iff_exists.mp hentry
    have hi := (writeEntry_spec hentry).1
    obtain ⟨dev, hcount, hdata, hok⟩ := h.behind hcan hentry
    obtain ⟨dev', heq, hdata', hcount', hserving⟩ := writeFile_requests h.shadows.serving
      (h.shadows.large hf) (h.shadows.fits hf hi) hreq.1 (by rwa [h.shadows.directory])
    obtain ⟨rfl, -⟩ := Prod.mk.inj (hs.symm.trans heq)
    have hlen := (pathValid_iff.mp (canWrite_iff.mp hcan).2.1).2.1
    rw [h.shadows.directory] at hdata' ⊢
    exact ⟨_, hok, h.shadows.commit hf hok.formatted hlen hentry rfl (fun _ _ => rfl)
      h.shadows.mounted hserving (hcount'.trans (h.shadows.count.trans hcount.symm)) hdata' hdata⟩
  · rw [writeFile_refused hreq] at hs
    cases hs

/-- Only extents of torn files are lost. -/
theorem lost {m : ℕ → Byte} {torn : List CStr} (hsub : r.torn ⊆ torn)
    (hm : ∀ k, m k ≠ r.sfs.device.data k → ∃ i < sfsMaxFiles, InExtent t.directory i k ∧
      ∀ q : CStr, entryUsed t.directory i = true → Spells t.directory (entryPath i) q.chars →
        q ∈ torn) :
    ∃ t', PowerInv { r with sfs := reboot r.sfs m, torn := torn } t' := by
  have hf := h.files.formatted
  have hhead : ∀ k < 2 * blockSectorSize, m k = r.sfs.device.data k := by
    intro k hk
    by_contra hne
    obtain ⟨i, hi, ⟨hlow, -⟩, -⟩ := hm k hne
    rw [hf.starts i hi] at hlow
    simp only [blockSectorSize, sfsDataStart, sfsFileSectors] at *
    omega
  have hsuper : superblockValid r.sfs.device.sectorCount m = true := by
    rw [superblockValid_congr fun k hk => hhead k ?_]
    · exact h.shadows.super hf
    · simp only [blockSectorSize]
      omega
  obtain ⟨d, heq, hd⟩ := reboot_eq h.shadows.serving (h.shadows.large hf) hsuper
  have hsame : ∀ k < blockSectorSize, d k = t.directory k := by
    intro k hk
    rw [hd k hk, hhead _ (by omega), ← h.shadows.directory, ← h.shadows.disk_eq hf hk]
    rfl
  have hentry : ∀ i < sfsMaxFiles, SameEntry t.directory d i := fun i hi =>
    sameEntry_of_sector hsame hi
  refine ⟨{ t with directory := d }, h.files.reload hsame, ?_⟩
  rw [heq]
  refine ⟨rfl, hf.mounted.symm, fun n => h.shadows.serving (n + 2), h.shadows.count, ?_⟩
  intro k hk
  obtain ⟨i, hi, hin, htorn⟩ : ∃ i < sfsMaxFiles, InExtent t.directory i k ∧
      ∀ q : CStr, entryUsed t.directory i = true → Spells t.directory (entryPath i) q.chars →
        q ∈ torn := by
    by_cases hmk : m k = r.sfs.device.data k
    · obtain ⟨i, hi, hin, htorn⟩ := h.shadows.data k fun heq => hk (hmk.trans heq)
      exact ⟨i, hi, hin, fun q hused hspells => hsub (htorn q hused hspells)⟩
    · exact hm k hmk
  refine ⟨i, hi, ?_, fun q hused hspells => htorn q ((hentry i hi).used_eq.symm.trans hused)
    ((hf.reload_spells hsame hi hused).mp hspells)⟩
  show InExtent d i k
  rwa [InExtent, (hentry i hi).start_eq]

/-- The directory is written, and comes up again. -/
theorem committed {i : ℕ} (hcan : canWrite t path data size = true)
    (hentry : writeEntry t.directory path = some i) : ∃ t', PowerInv (r.commit
      (reboot r.sfs (blit (storeExtent r.sfs i (bufferBytes data size)) blockSectorSize
        (storeEntry r.sfs.directory i path (bufferBytes data size)) blockSectorSize))
      path (bufferBytes data size)) t' := by
  have hf := h.files.formatted
  have hi := (writeEntry_spec hentry).1
  have hlen := (pathValid_iff.mp (canWrite_iff.mp hcan).2.1).2.1
  obtain ⟨dev, hcount, hdata, hok⟩ := h.behind hcan hentry
  have hsuper : superblockValid r.sfs.device.sectorCount
      (blit (storeExtent r.sfs i (bufferBytes data size)) blockSectorSize
        (storeEntry r.sfs.directory i path (bufferBytes data size)) blockSectorSize) = true := by
    rw [superblockValid_congr (b := r.sfs.device.data) fun k hk => ?_]
    · exact h.shadows.super hf
    · have hstart := hf.starts i hi
      rw [blit_outside (.inl (by simp only [blockSectorSize]; omega)), storeExtent,
        h.shadows.directory, hstart, blit_outside]
      simp only [blockSectorSize, sfsDataStart]
      omega
  obtain ⟨d, heq, hd⟩ := reboot_eq h.shadows.serving (h.shadows.large hf) hsuper
  have hsame : ∀ k < blockSectorSize, d k
      = storeEntry t.directory i path (bufferBytes data size) k := by
    intro k hk
    rw [hd k hk, blit_inside hk, h.shadows.directory]
  have hload := hok.reload hsame
  refine ⟨_, hload, ?_⟩
  rw [heq]
  refine h.shadows.commit hf hload.formatted hlen hentry rfl (fun k hk => (hsame k hk).symm)
    hf.mounted.symm (fun n => h.shadows.serving (n + 2)) (h.shadows.count.trans hcount.symm) ?_
    hdata
  exact congrArg (fun d => blit (storeExtent r.sfs i (bufferBytes data size)) blockSectorSize
    (storeEntry d i path (bufferBytes data size)) blockSectorSize) h.shadows.directory

/-- **Power is lost in a write.** -/
theorem cut (committing : Bool) (kept : ℕ → Bool)
    (hstep : powerStep r (.cut path data size committing kept) = some r') :
    ∃ t', PowerInv r' t' := by
  have hf := h.files.formatted
  rw [powerStep] at hstep
  by_cases hreq : Requests r.sfs path data size
  · obtain ⟨hcan, hentry⟩ := (h.shadows.requests_iff).mp hreq
    obtain ⟨i, hentry⟩ := Option.isSome_iff_exists.mp hentry
    obtain ⟨hi, hown, -⟩ := writeEntry_spec hentry
    have hentry' : writeEntry r.sfs.directory path = some i := by rwa [h.shadows.directory]
    have hserving := h.shadows.serving
    have hlarge := h.shadows.large hf
    have hfits := h.shadows.fits hf hi
    rw [if_neg (fun hn => hn hreq)] at hstep
    by_cases hkept : (committing && kept sfsDirectorySector) = true
    · rw [if_pos hkept] at hstep
      obtain rfl := Option.some.inj hstep
      rw [Bool.and_eq_true] at hkept
      obtain ⟨rfl, hkept⟩ := hkept
      rw [cutWrite_commits hserving hlarge hfits hreq.1 hentry' hkept]
      exact h.committed hcan hentry
    · rw [if_neg hkept] at hstep
      obtain rfl := Option.some.inj hstep
      rw [Bool.not_eq_true] at hkept
      refine h.lost (List.subset_cons_self _ _) fun k hk => ⟨i, hi, ?_, fun q hused hspells => ?_⟩
      · rw [← h.shadows.directory]
        exact cutWrite_torn hserving hlarge hfits hreq.1 hentry' hkept hk
      · -- the entry is that of the path, if it is in use
        have hpath := hown.resolve_left fun hfree => by cases hfree.symm.trans hused
        rw [CStr.ext (hspells.unique hpath)]
        exact List.mem_cons_self
  · rw [if_pos hreq] at hstep
    obtain rfl := Option.some.inj hstep
    rw [cutWrite_refused hreq]
    exact h.lost (List.Subset.refl _) fun k hk => absurd rfl hk

/-- A write fails only where it does not come to its requests. -/
theorem writeFile_iff (path : CStr) (data : Buffer) (size : ℕ) :
    (sfsWriteFile r.sfs path data size).2 = true ↔ Requests r.sfs path data size := by
  have hf := h.files.formatted
  constructor
  · intro hok
    by_contra hno
    rw [writeFile_refused hno] at hok
    cases hok
  · intro hreq
    obtain ⟨i, hentry⟩ := Option.isSome_iff_exists.mp hreq.2
    have hi := (writeEntry_spec hentry).1
    obtain ⟨dev, heq, -⟩ := writeFile_requests h.shadows.serving (h.shadows.large hf)
      (h.shadows.fits hf hi) hreq.1 hentry
    rw [heq]

/-- **The step lemma.** -/
theorem step {op : PowerOp} (hstep : powerStep r op = some r') : ∃ t', PowerInv r' t' := by
  have hf := h.files.formatted
  cases op with
  | write path data size =>
    rw [powerStep] at hstep
    rcases hs : sfsWriteFile r.sfs path data size with ⟨s', ok⟩
    rw [hs] at hstep
    cases ok with
    | true =>
      obtain rfl := Option.some.inj hstep
      exact h.write hs
    | false =>
      obtain rfl := Option.some.inj hstep
      have hno : ¬ Requests r.sfs path data size := fun hreq => by
        cases ((h.writeFile_iff path data size).mpr hreq).symm.trans (congrArg Prod.snd hs)
      rw [writeFile_refused hno] at hs
      obtain ⟨rfl, -⟩ := Prod.mk.inj hs
      exact ⟨t, h⟩
  | read path capacity =>
    obtain rfl := Option.some.inj hstep
    obtain ⟨dev, rfl | rfl, heq⟩ := readFile_state r.sfs path true capacity
    · rw [heq]
      exact ⟨t, h.files, h.shadows⟩
    · rw [heq]
      exact ⟨t, h.files, h.shadows.congr rfl rfl h.shadows.serving.tick rfl rfl⟩
  | remount =>
    obtain rfl := Option.some.inj hstep
    rw [h.shadows.init_eq hf]
    exact ⟨t, h.files, h.shadows.congr rfl rfl h.shadows.serving.tick.tick rfl rfl⟩
  | cut path data size committing kept => exact h.cut committing kept hstep

theorem survives : Survives r where
  mounted := h.shadows.mounted.trans h.files.formatted.mounted
  whole q hq capacity := by
    rw [readFile_contents _ q capacity (h.shadows.serving 0),
      h.shadows.contents_eq h.files.formatted hq, h.files.contents]
  checked q capacity c' hc := by
    rw [readFile_contents _ q capacity (h.shadows.serving 0), Option.filter_eq_some_iff] at hc
    obtain ⟨c, hc, hlen⟩ := h.shadows.contents_checked h.files.formatted hc.1
    exact ⟨c, (h.files.contents q).symm.trans hc, hlen⟩
  writes_iff path data size := by
    rw [h.writeFile_iff, h.shadows.requests_iff, ← h.files.refines.writes_iff,
      h.files.formatted.writeFile_ok_iff]
    rfl

end PowerInv

/-- **A file survives the loss of power**: over a device of 66 sectors or more that serves, in every
run of writes, reads and remounts from a fresh SaturnFS, with power lost in any of the writes and
any sectors of its request written, SaturnFS is mounted again; a file reads as it was last written,
or it is one of which an overwriting was cut, and then what is read has the size and the checksum of
what was last written; and writes are taken as before. -/
theorem saturnfs_survives (s s' : Sfs) (hserving : s.device.Serving)
    (hlarge : sfsDataStart + sfsMaxFiles * sfsFileSectors ≤ s.device.sectorCount)
    (hstart : Starts s s') (ops : List PowerOp) :
    Always powerStep Survives ⟨s', fun _ => none, []⟩ ops := by
  obtain ⟨hformatted, hempty⟩ := hstart.formatted hserving hlarge
  refine Always.of_inv (I := fun r => ∃ t, PowerInv r t) (fun _ _ _ ⟨_, h⟩ hstep => h.step hstep)
    (fun _ ⟨_, h⟩ => h.survives) ⟨s', ⟨hformatted, hempty⟩, ?_⟩ ops
  exact ⟨rfl, rfl, hformatted.serving, rfl, fun k hk => absurd rfl hk⟩

/-- Two files, one of them cut in its second sector. -/
theorem blankDevice_survives : blankDevice.device.Serving ∧
    Starts blankDevice (sfsInit blankDevice) ∧
    Always powerStep Survives ⟨sfsInit blankDevice, fun _ => none, []⟩
      [.write pathA (some fun _ => 7) 600, .cut pathA (some fun _ => 8) 600 false fun i => i == 3,
        .read pathA 600] :=
  have hstart : Starts blankDevice (sfsInit blankDevice) := .blank fun _ _ => rfl
  ⟨fun _ => rfl, hstart,
    saturnfs_survives blankDevice _ (fun _ => rfl) (by decide) hstart _⟩

end SaturnOS
