import SaturnOS.Machinery.Bytes
import SaturnOS.User.Executable

/-!
# User/Format — parsing is the inverse of encoding

    image ──user_programs_init──▸ file ──saturn_exec_parse──▸ image

`saturn_exec_parse` accepts the files that `user_programs_init` could have made, and no others: the
header is its seven fields, the payload is what follows, and every check is one of the bounds of
`ImageOk` or the size or the checksum of the payload.
-/

open Machinery

namespace SaturnOS

/-! ## Encoding -/

/-- The bytes of `struct saturn_exec_header`. -/
def SaturnExecHeader.bytes (header : SaturnExecHeader) : List Byte :=
  toLe 4 header.magic ++ (toLe 2 header.version ++ (toLe 2 header.headerSize
    ++ (toLe 4 header.codeSize ++ (toLe 4 header.dataSize ++ (toLe 4 header.entryOffset
    ++ toLe 4 header.payloadChecksum.toNat)))))

/-- The header that `user_programs_init` writes. -/
def saturnExecHeader (image : SaturnExecImage) : SaturnExecHeader where
  magic := saturnExecMagic
  version := saturnExecVersion
  headerSize := saturnExecHeaderSize
  codeSize := image.code.length
  dataSize := image.data.length
  entryOffset := image.entryOffset
  payloadChecksum := saturnExecChecksum (image.code ++ image.data)

/-- The file that `user_programs_init` makes. -/
def saturnExecFile (image : SaturnExecImage) : List Byte :=
  (saturnExecHeader image).bytes ++ (image.code ++ image.data)

/-- The bounds on an image. -/
structure ImageOk (image : SaturnExecImage) : Prop where
  codeSome : 1 ≤ image.code.length
  codeFits : image.code.length ≤ 4096
  dataFits : image.data.length ≤ 4096
  entry : image.entryOffset < image.code.length
  aligned : image.entryOffset % 4 = 0

/-! ## Fields -/

theorem length_bytes (header : SaturnExecHeader) : header.bytes.length = saturnExecHeaderSize := by
  simp [SaturnExecHeader.bytes, saturnExecHeaderSize]

/-- A field in front is stepped over. -/
theorem readLe_skip {width n offset w : ℕ} {rest : List Byte} (h : width ≤ offset) :
    readLe (toLe width n ++ rest) offset w = readLe rest (offset - width) w := by
  rw [readLe, readLe, List.drop_append, length_toLe, List.drop_of_length_le (by rwa [length_toLe]),
    List.nil_append]

theorem readLe_toLe {width n : ℕ} {rest : List Byte} (hn : n < 256 ^ width) :
    readLe (toLe width n ++ rest) 0 width = n := by
  have htake : (toLe width n ++ rest).take width = toLe width n := by
    rw [List.take_append_of_le_length (length_toLe width n).ge,
      List.take_of_length_le (length_toLe width n).le]
  rw [readLe, List.drop_zero, htake]
  exact (ofLe_toLe width n).trans (Nat.mod_eq_of_lt hn)

/-- A field of a file is that many of its bytes. -/
theorem toLe_readLe {file : List Byte} {offset width : ℕ} (h : offset + width ≤ file.length) :
    toLe width (readLe file offset width) = (file.drop offset).take width := by
  have hlen : ((file.drop offset).take width).length = width := by
    rw [List.length_take, List.length_drop]
    omega
  have hback := toLe_ofLe ((file.drop offset).take width)
  rw [hlen] at hback
  exact hback

theorem readLe_lt (file : List Byte) (offset width : ℕ) : readLe file offset width < 256 ^ width :=
  (ofLe_lt ((file.drop offset).take width)).trans_le
    (Nat.pow_le_pow_right (by omega) (List.length_take_le width _))

/-- **The header of a file is its first 24 bytes.** -/
theorem bytes_readHeader {file : List Byte} (h : saturnExecHeaderSize ≤ file.length) :
    (readHeader file).bytes = file.take saturnExecHeaderSize := by
  have hsplit : ∀ a i j, (file.drop a).take (i + j)
      = (file.drop a).take i ++ (file.drop (a + i)).take j := fun a i j => by
    rw [List.take_add, List.drop_drop]
  have hsum : (readHeader file).payloadChecksum.toNat = readLe file 20 4 := by
    rw [readHeader, BitVec.toNat_ofNat]
    exact Nat.mod_eq_of_lt (readLe_lt file 20 4)
  rw [saturnExecHeaderSize] at h
  rw [SaturnExecHeader.bytes, hsum]
  simp only [readHeader]
  rw [toLe_readLe (by omega), toLe_readLe (by omega), toLe_readLe (by omega),
    toLe_readLe (by omega),
    toLe_readLe (by omega), toLe_readLe (by omega), toLe_readLe (by omega), ← hsplit 16 4 4,
    ← hsplit 12 4 8, ← hsplit 8 4 12, ← hsplit 6 2 16, ← hsplit 4 2 18, ← hsplit 0 4 20,
      List.drop_zero]
  rfl

/-- **…and a header is read back from its bytes.** -/
theorem readHeader_bytes {header : SaturnExecHeader} (rest : List Byte)
    (hmagic : header.magic < 256 ^ 4) (hversion : header.version < 256 ^ 2)
    (hsize : header.headerSize < 256 ^ 2) (hcode : header.codeSize < 256 ^ 4)
    (hdata : header.dataSize < 256 ^ 4) (hentry : header.entryOffset < 256 ^ 4) :
    readHeader (header.bytes ++ rest) = header := by
  have hsum : header.payloadChecksum.toNat < 256 ^ 4 := header.payloadChecksum.isLt
  rw [readHeader, SaturnExecHeader.bytes]
  simp only [List.append_assoc, readLe_skip, Nat.reduceLeDiff, Nat.reduceSub, readLe_toLe, hmagic,
    hversion, hsize, hcode, hdata, hentry, hsum, BitVec.ofNat_toNat, BitVec.setWidth_eq, le_refl]

/-! ## The parser -/

theorem readHeader_file {image : SaturnExecImage} (h : ImageOk image) :
    readHeader (saturnExecFile image) = saturnExecHeader image := by
  refine readHeader_bytes _ (show saturnExecMagic < 256 ^ 4 by decide)
    (show saturnExecVersion < 256 ^ 2 by decide) (show saturnExecHeaderSize < 256 ^ 2 by decide) ?_
    ?_ ?_
  · exact lt_of_le_of_lt h.codeFits (by decide)
  · exact lt_of_le_of_lt h.dataFits (by decide)
  · exact (h.entry.trans_le h.codeFits).trans (by decide)

/-- An accepted file is the encoding of the image it gives. -/
theorem accepted_file {file : List Byte} {image : SaturnExecImage}
    (h : saturnExecParse (some file) = some image) :
    ImageOk image ∧ saturnExecFile image = file := by
  rw [saturnExecParse] at h
  dsimp only at h
  split_ifs at h with hshort hheader hsize hsum
  simp only [not_or, not_lt, ne_eq, not_not] at hheader hsize hshort hsum
  obtain ⟨hmagic, hversion, hhsize, hcode0, hcode, hdata, hentry, haligned⟩ := hheader
  obtain rfl := Option.some.inj h
  have hlen := hsize.2
  rw [hhsize] at hlen
  have hpayload : (file.drop saturnExecHeaderSize).length
      = (readHeader file).codeSize + (readHeader file).dataSize := by
    rw [List.length_drop]
    omega
  have hcodelen : ((file.drop saturnExecHeaderSize).take (readHeader file).codeSize).length
      = (readHeader file).codeSize := by
    rw [List.length_take]
    omega
  have hrest : ((file.drop saturnExecHeaderSize).drop (readHeader file).codeSize).length
      = (readHeader file).dataSize := by
    rw [List.length_drop]
    omega
  rw [hhsize, List.take_of_length_le hpayload.le] at hsum
  rw [hhsize, List.take_of_length_le hrest.le]
  refine ⟨⟨?_, ?_, ?_, ?_, haligned⟩, ?_⟩
  · rw [hcodelen]
    omega
  · rw [hcodelen]
    exact hcode
  · rw [hrest]
    exact hdata
  · rw [hcodelen]
    exact lt_of_not_ge hentry
  · have hhead : saturnExecHeader
        ⟨(file.drop saturnExecHeaderSize).take (readHeader file).codeSize,
          (file.drop saturnExecHeaderSize).drop (readHeader file).codeSize,
          (readHeader file).entryOffset⟩ = readHeader file := by
      rw [saturnExecHeader, hcodelen, hrest, List.take_append_drop, hsum, ← hmagic, ← hversion,
        ← hhsize]
    rw [saturnExecFile, hhead, List.take_append_drop, bytes_readHeader hshort,
      List.take_append_drop]

/-- **The parser reads every encoding back.** -/
theorem parse_file {image : SaturnExecImage} (h : ImageOk image) :
    saturnExecParse (some (saturnExecFile image)) = some image := by
  have hlen : (saturnExecFile image).length
      = saturnExecHeaderSize + (image.code.length + image.data.length) := by
    rw [saturnExecFile, List.length_append, length_bytes, List.length_append]
  have hdrop : (saturnExecFile image).drop saturnExecHeaderSize = image.code ++ image.data := by
    rw [saturnExecFile, List.drop_append, length_bytes, Nat.sub_self, List.drop_zero,
      List.drop_of_length_le (length_bytes _).le, List.nil_append]
  have hsome := h.codeSome
  have hcode := h.codeFits
  have hdata := h.dataFits
  have hentry := h.entry
  rw [saturnExecParse]
  dsimp only
  rw [readHeader_file h, if_neg (by omega), if_neg, if_neg, if_neg]
  · dsimp only [saturnExecHeader]
    rw [hdrop, List.take_append_of_le_length le_rfl, List.take_length, List.drop_append,
      Nat.sub_self,
      List.drop_length, List.nil_append, List.drop_zero, List.take_length]
  · dsimp only [saturnExecHeader]
    rw [hdrop, ← List.length_append, List.take_length]
    exact fun hne => hne rfl
  · dsimp only [saturnExecHeader]
    omega
  · simp only [saturnExecHeader, not_or, ne_eq, not_not, not_lt, true_and, h.aligned, and_true]
    omega

/-! ## The loader -/

theorem toNat_small {n : ℕ} (h : n ≤ 4096) : (BitVec.ofNat 64 n).toNat = n := by
  rw [BitVec.toNat_ofNat]
  omega

/-- **The size and entry checks of the loader pass** on an image within the bounds. -/
theorem loader_checks {image : SaturnExecImage} (h : ImageOk image) :
    ((listBuffer image.code).isNone || BitVec.ofNat 64 image.code.length == 0
      || decide (arm64PageSize < BitVec.ofNat 64 image.code.length)
      || decide (arm64PageSize < BitVec.ofNat 64 image.data.length)
      || (BitVec.ofNat 64 image.data.length != 0 && (listBuffer image.data).isNone)
      || decide (BitVec.ofNat 64 image.code.length ≤ BitVec.ofNat 64 image.entryOffset)
      || BitVec.ofNat 64 image.entryOffset &&& (4 - 1) != 0) = false := by
  have hsome := h.codeSome
  have hcode := h.codeFits
  have hdata := h.dataFits
  have hentry := h.entry
  have hcodelen := toNat_small hcode
  have hdatalen := toNat_small hdata
  have hentrylen := toNat_small (hentry.le.trans hcode)
  have hnull : ∀ bytes, (listBuffer bytes).isNone = false := fun _ => rfl
  have hzero : (BitVec.ofNat 64 image.code.length == 0) = false := by
    rw [beq_eq_false_iff_ne, ne_eq, ← BitVec.toNat_inj, hcodelen]
    exact Nat.ne_of_gt hsome
  have hcodefits : ¬ arm64PageSize < BitVec.ofNat 64 image.code.length := by
    rw [BitVec.lt_def, hcodelen]
    exact not_lt.mpr hcode
  have hdatafits : ¬ arm64PageSize < BitVec.ofNat 64 image.data.length := by
    rw [BitVec.lt_def, hdatalen]
    exact not_lt.mpr hdata
  have hinside : ¬ BitVec.ofNat 64 image.code.length ≤ BitVec.ofNat 64 image.entryOffset := by
    rw [BitVec.le_def, hcodelen, hentrylen]
    exact not_le.mpr hentry
  have haligned : (BitVec.ofNat 64 image.entryOffset &&& (4 - 1) != 0) = false := by
    rw [bne_eq_false_iff_eq, ← BitVec.toNat_inj, BitVec.toNat_and, hentrylen]
    exact (Nat.and_two_pow_sub_one_eq_mod image.entryOffset 2).trans h.aligned
  rw [hnull, hnull, hzero, haligned, decide_eq_false hcodefits, decide_eq_false hdatafits,
    decide_eq_false hinside, Bool.and_false]
  rfl

/-- **The loader takes every image within the bounds**, into a user space with its mappings. -/
theorem load_image {image : SaturnExecImage} (h : ImageOk image) (st : SpaceStatics)
    {space : AddressSpace} (hkind : space.kind = .user)
    (hslot : space.userTableSlot < addressSpaceUserTableSlots)
    (hready : space.userMappingsReady = true) : ∃ pages checksum,
      addressSpaceLoadUserImage st space (listBuffer image.code) (BitVec.ofNat 64 image.code.length)
        (listBuffer image.data) (BitVec.ofNat 64 image.data.length)
        (BitVec.ofNat 64 image.entryOffset)
      = ({ st with userRegionPages := pages },
        { space with
          userImageEntry := space.userCodeStart + BitVec.ofNat 64 image.entryOffset
          userImageSize := BitVec.ofNat 64 image.code.length
          userImageChecksum := checksum
          userImageReady := true }, true) := by
  rw [addressSpaceLoadUserImage, dif_pos ⟨hkind, hslot⟩, hready, Bool.not_true, Bool.false_or,
    loader_checks h]
  exact ⟨_, _, rfl⟩

/-- …and into no other. -/
theorem load_ok {image : SaturnExecImage} (h : ImageOk image) (st : SpaceStatics)
    (space : AddressSpace) :
    (addressSpaceLoadUserImage st space (listBuffer image.code) (BitVec.ofNat 64 image.code.length)
      (listBuffer image.data) (BitVec.ofNat 64 image.data.length)
      (BitVec.ofNat 64 image.entryOffset)).2.2
    = decide (space.kind = .user ∧ space.userTableSlot < addressSpaceUserTableSlots
      ∧ space.userMappingsReady = true) := by
  by_cases hspace : space.kind = .user ∧ space.userTableSlot < addressSpaceUserTableSlots
  · cases hready : space.userMappingsReady with
    | true =>
      obtain ⟨pages, checksum, heq⟩ := load_image h st hspace.1 hspace.2 hready
      rw [heq]
      exact (decide_eq_true ⟨hspace.1, hspace.2, rfl⟩).symm
    | false =>
      rw [addressSpaceLoadUserImage, dif_pos hspace, hready]
      exact (decide_eq_false fun hall => Bool.false_ne_true hall.2.2).symm
  · rw [addressSpaceLoadUserImage, dif_neg hspace]
    exact (decide_eq_false fun hall => hspace ⟨hall.1, hall.2.1⟩).symm

/-- **The Saturn executable format**: the parser accepts exactly the encodings of images within the
bounds, gives the image that was encoded, and the loader takes it. -/
theorem saturn_exec_format (file : List Byte) :
    ((saturnExecParse (some file)).isSome = true
        ↔ ∃ image, ImageOk image ∧ saturnExecFile image = file)
      ∧ (∀ image, saturnExecParse (some file) = some image
        ↔ ImageOk image ∧ saturnExecFile image = file)
      ∧ ∀ image, saturnExecParse (some file) = some image → ∀ (st : SpaceStatics)
      (space : AddressSpace),
        (addressSpaceLoadUserImage st space (listBuffer image.code)
          (BitVec.ofNat 64 image.code.length) (listBuffer image.data)
          (BitVec.ofNat 64 image.data.length) (BitVec.ofNat 64 image.entryOffset)).2.2
        = decide (space.kind = .user ∧ space.userTableSlot < addressSpaceUserTableSlots
          ∧ space.userMappingsReady = true) := by
  have hiff : ∀ image, saturnExecParse (some file) = some image
      ↔ ImageOk image ∧ saturnExecFile image = file := by
    refine fun image => ⟨accepted_file, ?_⟩
    rintro ⟨hok, rfl⟩
    exact parse_file hok
  refine ⟨?_, hiff, fun image h => load_ok (hiff image |>.mp h).1⟩
  rw [Option.isSome_iff_exists]
  exact exists_congr hiff

/-- A program of one word. -/
def oneWord : SaturnExecImage := ⟨[0x1F, 0x20, 0x03, 0xD5], [], 0⟩

theorem oneWord_parsed : saturnExecParse (some (saturnExecFile oneWord)) = some oneWord :=
  ((saturn_exec_format (saturnExecFile oneWord)).2.1 oneWord).mpr
    ⟨⟨by decide, by decide, by decide, by decide, rfl⟩, rfl⟩

end SaturnOS
