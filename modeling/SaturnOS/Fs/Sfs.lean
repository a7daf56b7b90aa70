import SaturnOS.Fs.Path

/-!
# Fs/Sfs — SaturnFS over a block device

    sector 0     │ 1         │ 2 ⋯ 9    │ 10 ⋯ 17  │ ⋯
    superblock   │ directory │ extent 0 │ extent 1 │ ⋯

`block.c` and `sfs.c`.  The device is flat bytes; a request inside it reaches the driver, which
serves it whole or not at all (`serves`).  The superblock and the directory are their 512 bytes, the
fields read and written in place: an entry is 60 bytes, and a stored path without a NUL runs on into
the fields behind it.
-/

open Machinery

namespace SaturnOS

/-! ## The block layer -/

/-- Addresses on the device are bytes; those of the driver are sectors. -/
def blockSectorSize : ℕ := 512

/-- A block device; `serves n` says whether the `n`-th request from now on is served. -/
structure Device where
  sectorCount : ℕ
  data : ℕ → Byte
  serves : ℕ → Bool

namespace Device

/-- The bound checks of `block_read` and `block_write`. -/
def inRange (dev : Device) (sector count : ℕ) : Bool :=
  count != 0 && decide (sector < dev.sectorCount) && decide (count ≤ dev.sectorCount - sector)

/-- A request is gone, served or not. -/
def tick (dev : Device) : Device := { dev with serves := fun n => dev.serves (n + 1) }

end Device

/-- `block_read`, with the bytes it puts into the buffer. -/
def blockRead (dev : Device) (sector count : ℕ) : Device × Option (ℕ → Byte) :=
  if !dev.inRange sector count then (dev, none)
  else if !dev.serves 0 then (dev.tick, none)
  else (dev.tick, some fun i => dev.data (blockSectorSize * sector + i))

/-- `block_write`: the sectors of a request that is served are all stored, those of one that is not
stay as they were. -/
def blockWrite (dev : Device) (sector : ℕ) (buffer : ℕ → Byte) (count : ℕ) : Device × Bool :=
  if !dev.inRange sector count then (dev, false)
  else if !dev.serves 0 then (dev.tick, false)
  else
    ({ dev.tick with
      data := blit dev.data (blockSectorSize * sector) buffer (blockSectorSize * count) }, true)

/-! ## Superblock and directory -/

def sfsMagic : ℕ := 0x53465331
def sfsVersion : ℕ := 1
def sfsSuperSector : ℕ := 0
def sfsDirectorySector : ℕ := 1
def sfsDataStart : ℕ := 2
def sfsMaxFiles : ℕ := 8
def sfsMaxPath : ℕ := 44
def sfsFileSectors : ℕ := 8
def sfsMaxFileSize : ℕ := 4096

/-- `sizeof(struct sfs_entry)`. -/
def sfsEntrySize : ℕ := 60

section Entry

variable (d : ℕ → Byte) (i : ℕ)

/-- Where the path of entry `i` starts. -/
def entryPath : ℕ := sfsEntrySize * i

/-- The first sector of the extent of entry `i`, as the directory gives it: `sfs_format` writes
`sfsDataStart + 8 * i`, and nothing tests it afterwards. -/
def entryStart : ℕ := getLe32 d (entryPath i + 44)
/-- The size of the file… -/
def entrySize : ℕ := getLe32 d (entryPath i + 48)
/-- …and the checksum of its bytes. -/
def entryChecksum : ℕ := getLe32 d (entryPath i + 52)

/-- The flag `SFS_ENTRY_USED`. -/
def entryUsed : Bool := getLe32 d (entryPath i + 56) % 2 == 1

end Entry

/-- `checksum`, a fold of shifts and exclusive ors: it is linear in the bytes. -/
def sfsChecksum (data : List Byte) : BitVec 32 :=
  data.foldl (fun value b => (value <<< 5) ^^^ (value >>> 2) ^^^ b.setWidth 32) 0

/-- `find_entry`: the first used entry with this path. -/
def findEntry (d : ℕ → Byte) (path : CStr) : Option ℕ :=
  (List.range sfsMaxFiles).find? fun i => entryUsed d i && pathEquals d (entryPath i) path.chars

/-- The first entry not in use. -/
def freeEntry (d : ℕ → Byte) : Option ℕ :=
  (List.range sfsMaxFiles).find? fun i => !entryUsed d i

/-! ## SaturnFS -/

/-- The statics of `sfs.c` that are read back, and the device under it. -/
structure Sfs where
  device : Device
  directory : ℕ → Byte
  mounted : Bool

/-- The superblock `sfs_format` writes. -/
def formatSuperblock (sectors : ℕ) : ℕ → Byte :=
  let b := putLe32 (fun _ => 0) 0 sfsMagic
  let b := putLe32 b 4 sfsVersion
  let b := putLe32 b 8 blockSectorSize
  let b := putLe32 b 12 (sectors % 2 ^ 32)
  let b := putLe32 b 16 sfsMaxFiles
  putLe32 b 20 sfsDataStart

/-- One turn of the entry loop of `sfs_format`; the path but its first character stays. -/
def formatEntry (d : ℕ → Byte) (i : ℕ) : ℕ → Byte :=
  let d := putString d (entryPath i) []
  let d := putLe32 d (entryPath i + 44) (sfsDataStart + i * sfsFileSectors)
  let d := putLe32 d (entryPath i + 48) 0
  let d := putLe32 d (entryPath i + 52) 0
  putLe32 d (entryPath i + 56) 0

/-- The directory that `sfs_format` writes: the eight entries, and the padding behind them. -/
def formatDirectory (d : ℕ → Byte) : ℕ → Byte :=
  blit ((List.range sfsMaxFiles).foldl formatEntry d) (entryPath sfsMaxFiles) (fun _ => 0) 32

/-- `write_directory`. -/
def writeDirectory (dev : Device) (d : ℕ → Byte) : Device × Bool :=
  blockWrite dev sfsDirectorySector d 1

/-- `sfs_format`: the superblock goes first.  The directory in memory is the new one whichever of
the two writes fails. -/
def sfsFormat (s : Sfs) : Sfs × Bool :=
  if s.device.sectorCount < sfsDataStart + sfsMaxFiles * sfsFileSectors then
    ({ s with mounted := false }, false)
  else
    let d := formatDirectory s.directory
    match blockWrite s.device sfsSuperSector (formatSuperblock s.device.sectorCount) 1 with
    | (dev, false) => (⟨dev, d, false⟩, false)
    | (dev, true) =>
      match writeDirectory dev d with
      | (dev, ok) => (⟨dev, d, ok⟩, ok)

/-- A superblock `sfs_init` mounts. -/
def superblockValid (sectors : ℕ) (b : ℕ → Byte) : Bool :=
  getLe32 b 0 == sfsMagic && getLe32 b 4 == sfsVersion && getLe32 b 8 == blockSectorSize
    && getLe32 b 16 == sfsMaxFiles && getLe32 b 20 == sfsDataStart
    && decide (getLe32 b 12 ≤ sectors)

/-- `sfs_init`: a device whose first eight bytes are zero is formatted, one with a valid superblock
is mounted, and any other is left alone. -/
def sfsInit (s : Sfs) : Sfs :=
  match blockRead s.device sfsSuperSector 1 with
  | (dev, none) => { s with device := dev, mounted := false }
  | (dev, some b) =>
    let s := { s with device := dev, mounted := false }
    if getLe32 b 0 = 0 ∧ getLe32 b 4 = 0 then (sfsFormat s).1
    else if !superblockValid dev.sectorCount b then s
    else
      match blockRead dev sfsDirectorySector 1 with
      | (dev, none) => { s with device := dev }
      | (dev, some d) => ⟨dev, blit s.directory 0 d blockSectorSize, true⟩

/-- The caller's bytes. -/
def bufferBytes (data : Buffer) (size : ℕ) : List Byte := cells (data.getD fun _ => 0) 0 size

/-- The file a write puts into entry `i` of the directory. -/
def storeEntry (d : ℕ → Byte) (i : ℕ) (path : CStr) (bytes : List Byte) : ℕ → Byte :=
  let d := putString d (entryPath i) path.chars
  let d := putLe32 d (entryPath i + 48) bytes.length
  let d := putLe32 d (entryPath i + 52) (sfsChecksum bytes).toNat
  putLe32 d (entryPath i + 56) 1

/-- The guards of `sfs_write_file`. -/
def canWrite (s : Sfs) (path : CStr) (data : Buffer) (size : ℕ) : Bool :=
  s.mounted && pathValid sfsMaxPath path && (size == 0 || data.isSome)
    && decide (size ≤ sfsMaxFileSize)

/-- The entry a write goes to: that of the path, else a free one. -/
def writeEntry (d : ℕ → Byte) (path : CStr) : Option ℕ := (findEntry d path).or (freeEntry d)

/-- `sfs_write_file`: the extent first, eight sectors whatever the size, then the directory.  Where
the second write fails, nothing is rolled back. -/
def sfsWriteFile (s : Sfs) (path : CStr) (data : Buffer) (size : ℕ) : Sfs × Bool :=
  if !canWrite s path data size then (s, false)
  else
    match writeEntry s.directory path with
    | none => (s, false)
    | some i =>
      let bytes := bufferBytes data size
      match blockWrite s.device (entryStart s.directory i) (fun j => bytes.getD j 0)
          sfsFileSectors with
      | (dev, false) => ({ s with device := dev }, false)
      | (dev, true) =>
        let d := storeEntry s.directory i path bytes
        match writeDirectory dev d with
        | (dev, ok) => ({ s with device := dev, directory := d }, ok)

/-- `sfs_read_file`, with the bytes it copies; `hasData` is whether there is a buffer for them. -/
def sfsReadFile (s : Sfs) (path : CStr) (hasData : Bool) (capacity : ℕ) :
    Sfs × Option (List Byte) :=
  if !s.mounted || !hasData then (s, none)
  else
    match findEntry s.directory path with
    | none => (s, none)
    | some i =>
      if capacity < entrySize s.directory i ∨ sfsMaxFileSize < entrySize s.directory
        i then (s, none)
      else
        match blockRead s.device (entryStart s.directory i) sfsFileSectors with
        | (dev, none) => ({ s with device := dev }, none)
        | (dev, some buffer) =>
          let bytes := cells buffer 0 (entrySize s.directory i)
          if (sfsChecksum bytes).toNat ≠ entryChecksum s.directory i then
            ({ s with device := dev }, none)
          else ({ s with device := dev }, some bytes)

end SaturnOS
