import SaturnOS.Fs.Contents
import SaturnOS.Machinery.Mixing
import SaturnOS.User.Format

/-!
# Fs/Corruption — one byte changed

    checksum ──▸ (checksum << 5) ⊕ (checksum >> 2) ⊕ byte

The step that `saturn_exec_checksum` and SaturnFS mix with loses two bits' worth of differences, and
two more in a second turn, and no more after that: what was mixed twice can be turned back
(`unmix_mix`).  No difference of two bytes is lost, so one byte changed in an executable or in a
file is always seen (`one_byte_detected`).
-/

open Machinery

namespace SaturnOS

/-! ## The mixing step -/

def mix (x : BitVec 32) : BitVec 32 := (x <<< 5) ^^^ (x >>> 2)

theorem xorLinear_mix : XorLinear mix := by
  intro x y
  rw [mix, mix, mix, BitVec.shiftLeft_xor_distrib, BitVec.ushiftRight_xor_distrib]
  ac_rfl

/-- What a word mixed three times was after two, bit by bit. -/
def unmixColumns : List (BitVec 32) :=
  [0, 0, 0, 0, 0x8102040, 0x10204080, 0x20408100, 0x40810200, 0x81020400, 0x10, 0x20, 0x8102000,
    0x10204000, 0x20408000, 0x204, 0x408, 0x810, 0x1020, 0x8100000, 0x4081, 0x8102, 0x40800000,
    0x81000000, 0x40810, 0x81020, 0x8000000, 0x204081, 0x408102, 0x810204, 0x1020408, 0x2040810,
      0x4081020]

def unmix (x : BitVec 32) : BitVec 32 := combination (fun i => unmixColumns.getD i 0) x 32

/-- **A third turn of mixing can be undone.** -/
theorem unmix_mix (x : BitVec 32) : unmix (mix (mix^[2] x)) = mix^[2] x := by
  have hbits : ∀ i : Fin 32, unmix (mix (mix^[2] (BitVec.twoPow 32 i)))
      = mix^[2] (BitVec.twoPow 32 i) := by
    decide +kernel
  have hmixed := xorLinear_mix.iterate 2
  exact XorLinear.ext ((xorLinear_combination _ 32).comp (xorLinear_mix.comp hmixed)) hmixed
    (fun i hi => hbits ⟨i, hi⟩) x

/-- **No difference of two bytes dies out.** -/
theorem mix_byte_ne_zero {d : Byte} (hd : d ≠ 0) (n : ℕ) : mix^[n] (d.setWidth 32) ≠ 0 := by
  have htwice : ∀ d : Byte, d ≠ 0 → mix^[2] (d.setWidth 32) ≠ 0 := by decide +kernel
  exact iterate_ne_zero xorLinear_mix.zero unmix_mix (htwice d hd) n

/-- Two lists of bytes that differ in one place are told apart. -/
theorem mixed_ne {a b : List Byte} (h : OneApart a b) : mixed mix 0 a ≠ mixed mix 0 b := by
  obtain ⟨before, x, y, after, rfl, rfl, hne⟩ := h.split
  intro heq
  have hdiff := mixed_append_cons xorLinear_mix before after x y 0
  rw [heq, BitVec.xor_self] at hdiff
  refine mix_byte_ne_zero (fun h0 => hne ?_) after.length hdiff.symm
  exact BitVec.xor_eq_zero_iff.mp h0

theorem saturnExecChecksum_eq (bytes : List Byte) :
    saturnExecChecksum bytes = mixed mix 0 bytes := rfl

theorem sfsChecksum_eq (bytes : List Byte) : sfsChecksum bytes = mixed mix 0 bytes := rfl

/-- …by the checksum of executables… -/
theorem saturnExecChecksum_ne {a b : List Byte} (h : OneApart a b) :
    saturnExecChecksum a ≠ saturnExecChecksum b := by
  rw [saturnExecChecksum_eq, saturnExecChecksum_eq]
  exact mixed_ne h

/-- …and by that of files. -/
theorem sfsChecksum_ne {a b : List Byte} (h : OneApart a b) : sfsChecksum a ≠ sfsChecksum b := by
  rw [sfsChecksum_eq, sfsChecksum_eq]
  exact mixed_ne h

/-! ## Executables -/

/-- A file with another byte behind the header has the same header. -/
theorem readHeader_set {file : List Byte} {i : ℕ} (hi : saturnExecHeaderSize ≤ i) (x : Byte) :
    readHeader (file.set i x) = readHeader file := by
  have hfield : ∀ offset width, offset + width ≤ saturnExecHeaderSize →
      readLe (file.set i x) offset width = readLe file offset width := fun offset width h => by
    rw [readLe, List.drop_set, if_neg (by omega), List.take_set_of_le (by omega)]
    rfl
  rw [readHeader, hfield 0 4 (by decide), hfield 4 2 (by decide), hfield 6 2 (by decide),
    hfield 8 4 (by decide), hfield 12 4 (by decide), hfield 16 4 (by decide),
    hfield 20 4 (by decide)]
  rfl

/-- The payload of an accepted file has the checksum in its header. -/
theorem checksum_accepted {file : List Byte} {image : SaturnExecImage}
    (h : saturnExecParse (some file) = some image) :
    saturnExecChecksum (file.drop saturnExecHeaderSize) = (readHeader file).payloadChecksum := by
  obtain ⟨hok, rfl⟩ := accepted_file h
  rw [readHeader_file hok, saturnExecFile, List.drop_append, length_bytes, Nat.sub_self,
    List.drop_zero,
    List.drop_of_length_le (length_bytes _).le, List.nil_append]
  rfl

/-- **A byte changed in the code or the data** of an executable is noticed. -/
theorem saturnExecParse_set {file : List Byte} {image : SaturnExecImage}
    (h : saturnExecParse (some file) = some image) {i : ℕ} (hi : saturnExecHeaderSize ≤ i)
    (hlt : i < file.length) {x : Byte} (hx : file[i] ≠ x) :
    saturnExecParse (some (file.set i x)) = none := by
  cases hparse : saturnExecParse (some (file.set i x)) with
  | none => rfl
  | some image' =>
    have hsum := checksum_accepted hparse
    rw [readHeader_set hi, ← checksum_accepted h, List.drop_set, if_neg (Nat.not_lt.mpr hi)] at hsum
    have hinside : i - saturnExecHeaderSize < (file.drop saturnExecHeaderSize).length := by
      rw [List.length_drop]
      omega
    have hat : (file.drop saturnExecHeaderSize)[i - saturnExecHeaderSize] ≠ x := by
      rw [List.getElem_drop]
      simpa [Nat.add_sub_cancel' hi] using hx
    exact absurd hsum.symm (saturnExecChecksum_ne (oneApart_set hinside hat))

/-! ## Files -/

/-- A byte of the device is another one. -/
def Sfs.corrupt (s : Sfs) (place : ℕ) (x : Byte) : Sfs :=
  { s with device := { s.device with data := Function.update s.device.data place x } }

/-- **A byte changed in the extent of a file**, within its size, is noticed. -/
theorem sfsReadFile_corrupt {s : Sfs} {path : CStr} {c : List Byte} {i : ℕ}
    (hc : s.contents path = some c) (hfind : findEntry s.directory path = some i) {j : ℕ}
    (hj : j < entrySize s.directory i) {x : Byte}
    (hx : s.device.data (blockSectorSize * entryStart s.directory i + j) ≠ x) (hasData : Bool)
    (capacity : ℕ) : (sfsReadFile (s.corrupt (blockSectorSize * entryStart s.directory i + j) x)
    path hasData
      capacity).2 = none := by
  obtain ⟨-, i', hfind', hstores⟩ := contents_iff.mp hc
  obtain rfl := Option.some.inj (hfind.symm.trans hfind')
  cases hasData with
  | false => simp [sfsReadFile]
  | true =>
    cases hread : (sfsReadFile (s.corrupt (blockSectorSize * entryStart s.directory i + j) x) path
      true
        capacity).2 with
    | none => rfl
    | some c' =>
      have hserves := (readFile_some hread).1
      obtain ⟨-, -, i', hfind', hstores'⟩ := (readFile_spec _ path capacity hserves c').mp hread
      obtain rfl := Option.some.inj (hfind.symm.trans hfind')
      have hsum : sfsChecksum c = sfsChecksum c' := BitVec.eq_of_toNat_eq
        (hstores.checksum_eq.symm.trans hstores'.checksum_eq)
      have hlen : c'.length = c.length := hstores'.size_eq.symm.trans hstores.size_eq
      have hjc : j < c.length := hstores.size_eq ▸ hj
      have hset : c' = c.set j x := by
        have hdata := hstores'.data_eq
        rw [hlen] at hdata
        refine hdata.symm.trans ((cells_update s.device.data _ _ j x).trans ?_)
        rw [hstores.data_eq]
      refine absurd hsum (sfsChecksum_ne (hset ▸ oneApart_set hjc fun heq => hx ?_))
      have hcell := getElem?_cells (m := s.device.data)
        (a := blockSectorSize * entryStart s.directory i) hjc
      rw [hstores.data_eq, List.getElem?_eq_getElem hjc, heq] at hcell
      exact (Option.some.inj hcell).symm

/-! ## One byte -/

/-- **Every change of one byte is detected**: by the checksums, in executables and in files. -/
theorem one_byte_detected :
    (∀ a b : List Byte, OneApart a b → saturnExecChecksum a ≠ saturnExecChecksum b
      ∧ sfsChecksum a ≠ sfsChecksum b)
    ∧ (∀ file image, saturnExecParse (some file) = some image → ∀ i x, saturnExecHeaderSize ≤ i →
      ∀ h : i < file.length, file[i] ≠ x → saturnExecParse (some (file.set i x)) = none)
    ∧ ∀ (s : Sfs) path c, s.contents path = some c → ∀ i, findEntry s.directory path = some i →
      ∀ j < entrySize s.directory i, ∀ x,
        s.device.data (blockSectorSize * entryStart s.directory i + j) ≠ x → ∀ hasData capacity,
        (sfsReadFile (s.corrupt (blockSectorSize * entryStart s.directory i + j) x) path hasData
        capacity).2
          = none :=
  ⟨fun _ _ h => ⟨saturnExecChecksum_ne h, sfsChecksum_ne h⟩,
    fun _ _ h _ _ hi hlt hx => saturnExecParse_set h hi hlt hx,
    fun _ _ _ hc _ hfind _ hj _ hx hasData capacity => sfsReadFile_corrupt hc hfind hj hx hasData
      capacity⟩

end SaturnOS
