import SaturnOS.Memory.AddressSpace

/-!
# User/Executable — the Saturn executable format

    ┌ 24-byte header ┬ code ┬ data ┐

`kernel/user/executable.c` over the bytes of a file.  The header is read as the little-endian
`struct saturn_exec_header` it is.
-/

namespace SaturnOS

/-- The little-endian number at `offset`, `width` bytes wide. -/
def readLe (file : List Byte) (offset width : ℕ) : ℕ :=
  ((file.drop offset).take width).foldr (fun b n => b.toNat + 256 * n) 0

def saturnExecMagic : ℕ := 0x53415458
def saturnExecVersion : ℕ := 1

/-- `sizeof(struct saturn_exec_header)`. -/
def saturnExecHeaderSize : ℕ := 24

/-- `struct saturn_exec_header`. -/
structure SaturnExecHeader where
  magic : ℕ
  version : ℕ
  headerSize : ℕ
  codeSize : ℕ
  dataSize : ℕ
  entryOffset : ℕ
  payloadChecksum : BitVec 32

def readHeader (file : List Byte) : SaturnExecHeader :=
  { magic := readLe file 0 4
    version := readLe file 4 2
    headerSize := readLe file 6 2
    codeSize := readLe file 8 4
    dataSize := readLe file 12 4
    entryOffset := readLe file 16 4
    payloadChecksum := BitVec.ofNat 32 (readLe file 20 4) }

/-- `struct saturn_exec_image`: the two parts of the payload and the entry point. -/
structure SaturnExecImage where
  code : List Byte
  data : List Byte
  entryOffset : ℕ

def saturnExecChecksum (bytes : List Byte) : BitVec 32 :=
  bytes.foldl (fun checksum b => (checksum <<< 5) ^^^ (checksum >>> 2) ^^^ b.setWidth 32) 0

/-- `saturn_exec_parse`; a null file is `none`. -/
def saturnExecParse (file : Option (List Byte)) : Option SaturnExecImage :=
  match file with
  | none => none
  | some file =>
    if file.length < saturnExecHeaderSize then none
    else
      let header := readHeader file
      if header.magic ≠ saturnExecMagic ∨ header.version ≠ saturnExecVersion
          ∨ header.headerSize ≠ saturnExecHeaderSize ∨ header.codeSize = 0
          ∨ 4096 < header.codeSize ∨ 4096 < header.dataSize
          ∨ header.codeSize ≤ header.entryOffset ∨ header.entryOffset % 4 ≠ 0 then none
      else
        let payloadSize := header.codeSize + header.dataSize
        if file.length - header.headerSize < payloadSize
            ∨ header.headerSize + payloadSize ≠ file.length then none
        else
          let payload := file.drop header.headerSize
          if saturnExecChecksum (payload.take payloadSize) ≠ header.payloadChecksum then none
          else some
            { code := payload.take header.codeSize
              data := (payload.drop header.codeSize).take header.dataSize
              entryOffset := header.entryOffset }

/-- The bytes of a list as a buffer. -/
def listBuffer (bytes : List Byte) : Buffer := some fun i => bytes.getD i 0

end SaturnOS
