import SaturnOS.Shell.Numbers

/-!
# Shell/Kprintf — numbers, as they are printed

    value   0x0001a2b0                      value   -1230
    buffer  0 0 0 1 a 2 b 0 \0              buffer  0 3 2 1 ⋯
                  ▴ p ──▸ console_write             ◂── i

The numbers of `kernel/console/kprintf.c`: `print_hex` writes all eight digits and leaves out the
zeros in front, `print_decimal` writes the digits from the low one on and prints them backwards.
What is printed is the canonical numeral (`printHex_eq`, `printDecimal_eq`), but for the least
value: its negation overflows, and what is printed then is undefined.
-/

open Machinery

namespace SaturnOS

/-! ## The functions -/

/-- `buffer[i] = c`, if there is such a place. -/
def storeChar {n : ℕ} (buffer : Vector Byte n) (i : ℕ) (c : Byte) : Option (Vector Byte n) :=
  if h : i < n then some (buffer.set i c h) else none

/-- `console_write(buffer + p)`: the characters up to the zero.  There are at most so many of them
`left` in the buffer. -/
def consoleWrite {n : ℕ} (buffer : Vector Byte n) : ℕ → ℕ → Option (List Byte)
  | 0, _ => none
  | left + 1, p => do
    let c ← buffer[p]?
    if c ≠ 0 then return c :: (← consoleWrite buffer left (p + 1)) else return []

def nibble (value : BitVec 32) (i : ℕ) : BitVec 32 := (value >>> (28 - i * 4)) &&& 0xF

/-- `nibble < 10 ? '0' + nibble : 'a' + nibble - 10` -/
def nibbleChar (nibble : BitVec 32) : Byte :=
  if nibble < 10#32 then (0x30 + nibble).truncate 8 else (0x61 + nibble - 10).truncate 8

/-- `while (*p == '0' && *(p + 1) != '\0') p++` -/
def skipZeros {n : ℕ} (buffer : Vector Byte n) : ℕ → ℕ → Option ℕ
  | 0, _ => none
  | left + 1, p => do
    if (← buffer[p]?) = 0x30 then
      if (← buffer[p + 1]?) ≠ 0 then skipZeros buffer left (p + 1) else return p
    else return p

/-- `print_hex`, of a value, in a buffer. -/
def printHex (buffer : Vector Byte 9) (value : BitVec 32) : Option (List Byte) := do
  if value = 0 then return [0x30]
  let buffer ← (List.range 8).foldlM
    (fun buffer i => storeChar buffer i (nibbleChar (nibble value i))) buffer
  let buffer ← storeChar buffer 8 0
  let p ← skipZeros buffer 9 0
  consoleWrite buffer 9 p

/-- `while (value > 0) { buffer[i++] = '0' + (value % 10); value /= 10; }`, with so many places
`left` in the buffer. -/
def decimalLoop {n : ℕ} : ℕ → Vector Byte n → ℕ → BitVec 32 → Option (Vector Byte n × ℕ)
  | left, buffer, i, value =>
    if (0#32).slt value then
      match left with
      | 0 => none
      | left + 1 => do
        let buffer ← storeChar buffer i ((0x30 + value.srem 10).truncate 8)
        decimalLoop left buffer (i + 1) (value.sdiv 10)
    else some (buffer, i)

/-- `while (i > 0) console_putc(buffer[--i])` -/
def putBackwards {n : ℕ} (buffer : Vector Byte n) : ℕ → Option (List Byte)
  | 0 => some []
  | i + 1 => do
    let c ← buffer[i]?
    return c :: (← putBackwards buffer i)

/-- `-value`, of an `int`.  There is no result where it overflows: this is undefined. -/
def negateInt (value : BitVec 32) : Option (BitVec 32) :=
  if value = BitVec.intMin 32 then none else some (-value)

/-- The value of which the digits are written. -/
def magnitude (value : BitVec 32) : Option (BitVec 32) :=
  if value.slt 0 then negateInt value else some value

/-- `print_decimal`, of a value, in a buffer. -/
def printDecimal (buffer : Vector Byte 12) (value : BitVec 32) : Option (List Byte) := do
  if value = 0 then return [0x30]
  let negative := value.slt 0
  let value ← magnitude value
  let (buffer, i) ← decimalLoop 12 buffer 0 value
  let digits ← putBackwards buffer i
  return if negative then 0x2d :: digits else digits

/-- An argument after the format: a string, which may be null, or an `int` or `unsigned int`. -/
inductive Argument
  | string (text : Option CStr)
  | word (value : BitVec 32)

/-- What is in the buffers before they are written. -/
structure Frame where
  hex : Vector Byte 9
  decimal : Vector Byte 12

/-- What `%` and a character print, and the arguments that are left.  There is no result where the
argument is missing or of the other kind. -/
def conversion (frame : Frame) (c : Byte) (args : List Argument) :
    Option (List Byte × List Argument) :=
  if c = 0x73 then
    match args with
    | .string text :: args => some ((text.map CStr.chars).getD (ascii "(null)"), args)
    | _ => none
  else if c = 0x63 then
    match args with
    | .word value :: args => some ([value.truncate 8], args)
    | _ => none
  else if c = 0x64 then
    match args with
    | .word value :: args => (printDecimal frame.decimal value).map (·, args)
    | _ => none
  else if c = 0x78 then
    match args with
    | .word value :: args => (printHex frame.hex value).map (·, args)
    | _ => none
  else some ([0x25, c], args)

/-- `kprintf`: the characters that it gives to `console_putc`.  After a `%` at its end, the format
is read on behind its zero; of that there is no result. -/
def kprintf (frame : Frame) : List Byte → List Argument → Option (List Byte)
  | [], _ => some []
  | [c], _ => if c = 0x25 then none else some [c]
  | c :: c' :: fmt, args => do
    if c = 0x25 then
      let (text, args) ← conversion frame c' args
      return text ++ (← kprintf frame fmt args)
    else return c :: (← kprintf frame (c' :: fmt) args)

/-! ## What is to be printed -/

/-- The characters of the digits. -/
def digitSymbol (d : ℕ) : Byte := (ascii "0123456789abcdef").getD d 0

/-- The canonical decimal numeral of an integer. -/
def decimalText (z : ℤ) : List Byte :=
  if z < 0 then 0x2d :: numeral digitSymbol 10 z.natAbs else numeral digitSymbol 10 z.natAbs

/-- The text is read as the integer. -/
def ReadAs (text : List Byte) (z : ℤ) : Prop :=
  ∃ n : ℕ, Numeral decDigit 10 text n ∧ z = n ∨
    ∃ digits, text = 0x2d :: digits ∧ Numeral decDigit 10 digits n ∧ z = -n

/-- **`%d` prints the value**: wherever it stands, what it gives is the canonical numeral, and is
read as nothing but the value. -/
def PrintsInt (frame : Frame) (value : BitVec 32) : Prop :=
  ∃ text, (∀ fmt args, kprintf frame (0x25 :: 0x64 :: fmt) (.word value :: args)
      = (kprintf frame fmt args).map (text ++ ·)) ∧
    text = decimalText value.toInt ∧ ∀ z, ReadAs text z ↔ z = value.toInt

/-- …and `%x`. -/
def PrintsHex (frame : Frame) (value : BitVec 32) : Prop :=
  ∃ text, (∀ fmt args, kprintf frame (0x25 :: 0x78 :: fmt) (.word value :: args)
      = (kprintf frame fmt args).map (text ++ ·)) ∧
    text = numeral digitSymbol 16 value.toNat ∧ ∀ n, Numeral hexDigit 16 text n ↔ n = value.toNat

/-! ## Buffers -/

section Buffers

variable {n i p left : ℕ} {buffer : Vector Byte n} {c : Byte} {s rest : List Byte}

theorem storeChar_eq (h : i < n) : storeChar buffer i c = some (buffer.set i c h) := dif_pos h

theorem getElem?_of_drop (h : buffer.toList.drop p = c :: s) : buffer[p]? = some c := by
  rw [← Vector.getElem?_toList, ← Nat.add_zero p, ← List.getElem?_drop, h]
  rfl

theorem drop_succ (h : buffer.toList.drop p = c :: s) : buffer.toList.drop (p + 1) = s := by
  rw [← List.drop_drop, h]
  rfl

/-- **The string at `p` is printed.** -/
theorem consoleWrite_eq (h : buffer.toList.drop p = s ++ 0 :: rest) (hs : 0 ∉ s)
    (hleft : s.length < left) : consoleWrite buffer left p = some s := by
  induction s generalizing left p with
  | nil =>
    obtain ⟨left, rfl⟩ := Nat.exists_eq_succ_of_ne_zero (Nat.ne_of_gt hleft)
    rw [consoleWrite, getElem?_of_drop h]
    rfl
  | cons c s ih =>
    obtain ⟨left, rfl⟩ := Nat.exists_eq_succ_of_ne_zero (Nat.ne_of_gt (Nat.zero_lt_of_lt hleft))
    rw [List.mem_cons, not_or] at hs
    rw [consoleWrite, getElem?_of_drop h]
    simp only [Option.bind_eq_bind, Option.bind_some, if_pos (Ne.symm hs.1),
      ih (drop_succ h) hs.2 (Nat.lt_of_succ_lt_succ hleft)]
    rfl

/-- **The zeros in front are skipped**, if there is a digit behind them. -/
theorem skipZeros_eq (h : buffer.toList.drop p = s ++ 0 :: rest) (hs : 0 ∉ s)
    (hne : s.dropWhile (· == 0x30) ≠ []) (hleft : s.length < left) :
    ∃ p', skipZeros buffer left p = some p' ∧
      buffer.toList.drop p' = s.dropWhile (· == 0x30) ++ 0 :: rest := by
  induction s generalizing left p with
  | nil => exact absurd rfl hne
  | cons c s ih =>
    obtain ⟨left, rfl⟩ := Nat.exists_eq_succ_of_ne_zero (Nat.ne_of_gt (Nat.zero_lt_of_lt hleft))
    rw [skipZeros, getElem?_of_drop h]
    by_cases hc : c = 0x30
    · have hdrop : (c :: s).dropWhile (· == 0x30) = s.dropWhile (· == 0x30) :=
        List.dropWhile_cons_of_pos (beq_iff_eq.mpr hc)
      rw [hdrop] at hne ⊢
      have hnext := drop_succ h
      cases s with
      | nil => exact absurd rfl hne
      | cons d s =>
        simp only [Option.bind_eq_bind, Option.bind_some, if_pos hc, getElem?_of_drop hnext,
          if_pos (show d ≠ 0 by rintro rfl; simp at hs)]
        exact ih hnext (fun hmem => hs (List.mem_cons_of_mem c hmem)) hne
          (Nat.lt_of_succ_lt_succ hleft)
    · rw [List.dropWhile_cons_of_neg (by simpa using hc)]
      exact ⟨p, if_neg hc, h⟩

/-- **The first places are written**, one after the other. -/
theorem foldlM_storeChar (buffer : Vector Byte n) (f : ℕ → Byte) {k : ℕ} (hk : k ≤ n) :
    ∃ buffer',
      (List.range k).foldlM (fun buffer i => storeChar buffer i (f i)) buffer = some buffer' ∧
      buffer'.toList = (List.range k).map f ++ buffer.toList.drop k := by
  induction k with
  | zero => exact ⟨buffer, rfl, rfl⟩
  | succ k ih =>
    obtain ⟨buffer', hfold, hlist⟩ := ih (Nat.le_of_succ_le hk)
    refine ⟨buffer'.set k (f k) hk, ?_, ?_⟩
    · rw [List.range_succ, List.foldlM_append, hfold]
      simp only [Option.bind_eq_bind, Option.bind_some, List.foldlM_cons, List.foldlM_nil,
        storeChar_eq (show k < n from hk)]
      rfl
    · rw [Vector.toList_set, hlist, List.set_append_right _ _ (by simp), List.length_map,
        List.length_range, Nat.sub_self, List.range_succ, List.map_append, List.append_assoc,
        List.drop_eq_getElem_cons (by simpa using Nat.lt_of_succ_le hk)]
      rfl

theorem putBackwards_eq (h : i ≤ n) :
    putBackwards buffer i = some (buffer.toList.take i).reverse := by
  induction i with
  | zero => rfl
  | succ i ih =>
    have hi : i < buffer.toList.length := by simpa using Nat.lt_of_succ_le h
    rw [putBackwards, ih (Nat.le_of_succ_le h), ← Vector.getElem?_toList,
      List.getElem?_eq_getElem hi, List.take_succ_eq_append_getElem hi, List.reverse_append]
    rfl

end Buffers

/-! ## Hexadecimal -/

section Hexadecimal

variable {i : ℕ} {value : BitVec 32}

theorem digitSymbol_eq_zero (d : ℕ) : (digitSymbol d == 0x30) = (d == 0) := by
  rcases Nat.lt_or_ge d 16 with hlt | hge
  · revert d
    decide
  · have hsymbol : digitSymbol d = 0 := List.getD_eq_default _ _ hge
    rw [hsymbol, Bool.eq_iff_iff, beq_iff_eq, beq_iff_eq]
    exact iff_of_false (by decide) (by omega)

theorem digitSymbol_ne_zero : ∀ d < 16, digitSymbol d ≠ 0 := by decide

theorem nibble_toNat (hi : i < 8) :
    (nibble value i).toNat = value.toNat / 16 ^ (8 - 1 - i) % 16 := by
  have hpow : 2 ^ (28 - i * 4) = 16 ^ (8 - 1 - i) := by
    rw [show 28 - i * 4 = 4 * (8 - 1 - i) by omega, Nat.pow_mul]
  rw [nibble, BitVec.toNat_and, BitVec.toNat_ushiftRight, Nat.shiftRight_eq_div_pow, hpow]
  exact Nat.and_two_pow_sub_one_eq_mod _ 4

theorem nibbleChar_eq (hi : i < 8) :
    nibbleChar (nibble value i) = digitSymbol (value.toNat / 16 ^ (8 - 1 - i) % 16) := by
  have hchars : ∀ d < 16, nibbleChar (BitVec.ofNat 32 d) = digitSymbol d := by decide
  rw [← nibble_toNat hi, ← hchars _ (by rw [nibble_toNat hi]; exact Nat.mod_lt _ (by decide)),
    BitVec.ofNat_toNat, BitVec.setWidth_eq]

/-- The eight digits, as they are written. -/
def hexChars (value : BitVec 32) : List Byte :=
  ((List.range 8).map fun i => value.toNat / 16 ^ (8 - 1 - i) % 16).map digitSymbol

theorem length_hexChars : (hexChars value).length = 8 := by
  rw [hexChars, List.length_map, List.length_map, List.length_range]

theorem zero_not_mem_hexChars : 0 ∉ hexChars value := by
  intro hmem
  obtain ⟨d, hd, hzero⟩ := List.mem_map.mp hmem
  obtain ⟨i, -, rfl⟩ := List.mem_map.mp hd
  exact digitSymbol_ne_zero _ (Nat.mod_lt _ (by decide)) hzero

theorem dropWhile_hexChars (h : value.toNat ≠ 0) :
    (hexChars value).dropWhile (· == 0x30) = numeral digitSymbol 16 value.toNat := by
  have hzero : (· == 0x30) ∘ digitSymbol = (· == 0) := funext digitSymbol_eq_zero
  have hlt : value.toNat < 16 ^ 8 := value.isLt
  rw [hexChars, List.dropWhile_map, hzero, dropWhile_digits (by decide) hlt h, numeral]

/-- The buffer of `print_hex`, before it is printed. -/
theorem hexBuffer_eq {buffer written : Vector Byte 9}
    (h : written.toList
      = (List.range 8).map (fun i => nibbleChar (nibble value i)) ++ buffer.toList.drop 8) :
    (written.set 8 0).toList = hexChars value ++ [0] := by
  obtain ⟨c, hc⟩ : ∃ c, buffer.toList.drop 8 = [c] := List.length_eq_one_iff.mp (by simp)
  rw [Vector.toList_set, h, hc, List.set_append_right _ _ (by simp), hexChars, List.map_map]
  refine congrArg (· ++ [0]) (List.map_congr_left fun i hi => ?_)
  exact nibbleChar_eq (List.mem_range.mp hi)

/-- **`print_hex` prints the canonical numeral.** -/
theorem printHex_eq (buffer : Vector Byte 9) :
    printHex buffer value = some (numeral digitSymbol 16 value.toNat) := by
  by_cases hzero : value = 0
  · rw [hzero]
    rfl
  have hne : value.toNat ≠ 0 := fun h => hzero (BitVec.eq_of_toNat_eq h)
  have hnumeral := dropWhile_hexChars hne
  have hnonempty : (hexChars value).dropWhile (· == 0x30) ≠ [] := by
    rw [hnumeral]
    exact mt List.map_eq_nil_iff.mp canonicalDigits_ne_nil
  obtain ⟨written, hfold, hwritten⟩ :=
    foldlM_storeChar buffer (fun i => nibbleChar (nibble value i)) (show 8 ≤ 9 by decide)
  have hleft : (hexChars value).length < 9 := length_hexChars.symm ▸ Nat.lt_succ_self 8
  obtain ⟨p, hskip, hdrop⟩ := skipZeros_eq (p := 0) (hexBuffer_eq hwritten) zero_not_mem_hexChars
    hnonempty hleft
  have hwrite : consoleWrite (written.set 8 0) 9 p = some (numeral digitSymbol 16 value.toNat) := by
    rw [hnumeral] at hdrop
    refine consoleWrite_eq hdrop (fun hmem => ?_) ?_
    · rw [← hnumeral] at hmem
      exact zero_not_mem_hexChars ((List.dropWhile_sublist _).mem hmem)
    · rw [← hnumeral]
      exact Nat.lt_of_le_of_lt (List.length_dropWhile_le _ _) hleft
  rw [printHex, if_neg hzero, hfold]
  simp only [Option.bind_eq_bind, Option.bind_some, storeChar_eq (show 8 < 9 by decide), hskip]
  exact hwrite

end Hexadecimal

/-! ## Decimal -/

section Decimal

variable {n N left i d : ℕ} {buffer : Vector Byte N} {value : BitVec 32}

/-! The values that are printed are not negative. -/

theorem msb_ofNat (h : n < 2 ^ 31) : (BitVec.ofNat 32 n).msb = false := by
  rw [BitVec.msb_eq_false_iff_two_mul_lt, BitVec.toNat_ofNat]
  omega

theorem slt_ofNat (h : n < 2 ^ 31) : (0#32).slt (BitVec.ofNat 32 n) = decide (0 < n) := by
  have hint : (BitVec.ofNat 32 n).toInt = n := by
    rw [BitVec.toInt_eq_toNat_of_msb (msb_ofNat h), BitVec.toNat_ofNat]
    omega
  rw [BitVec.slt, hint]
  exact decide_eq_decide.mpr Int.natCast_pos

theorem sdiv_ofNat (h : n < 2 ^ 31) :
    (BitVec.ofNat 32 n).sdiv 10 = BitVec.ofNat 32 (n / 10) := by
  refine (BitVec.sdiv_eq _ _).trans ?_
  rw [msb_ofNat h]
  refine BitVec.eq_of_toNat_eq ?_
  show (BitVec.ofNat 32 n).toNat / 10 = _
  rw [BitVec.toNat_ofNat, BitVec.toNat_ofNat]
  omega

theorem srem_ofNat (h : n < 2 ^ 31) :
    (BitVec.ofNat 32 n).srem 10 = BitVec.ofNat 32 (n % 10) := by
  refine (BitVec.srem_eq _ _).trans ?_
  rw [msb_ofNat h]
  refine BitVec.eq_of_toNat_eq ?_
  show (BitVec.ofNat 32 n).toNat % 10 = _
  rw [BitVec.toNat_ofNat, BitVec.toNat_ofNat]
  omega

theorem decimalChar_eq : ∀ d < 10, (0x30 + BitVec.ofNat 32 d).truncate 8 = digitSymbol d := by
  decide

theorem decimalLoop_end (h : (0#32).slt value = false) :
    decimalLoop left buffer i value = some (buffer, i) := by
  rw [decimalLoop.eq_def]
  dsimp only
  rw [h]
  rfl

theorem decimalLoop_next (h : (0#32).slt value = true) (hi : i < N) :
    decimalLoop (left + 1) buffer i value = decimalLoop left
      (buffer.set i ((0x30 + value.srem 10).truncate 8) hi) (i + 1) (value.sdiv 10) := by
  rw [decimalLoop.eq_def]
  dsimp only
  rw [h, if_pos rfl, storeChar_eq hi]
  rfl

/-- **The digits are written**, the low one first, after what has been. -/
theorem decimalLoop_eq (hn : n < 2 ^ 31) (hleft : n < 10 ^ left) (hroom : i + left ≤ N) :
    ∃ buffer', decimalLoop left buffer i (BitVec.ofNat 32 n)
        = some (buffer', i + (Nat.digits 10 n).length) ∧ i + (Nat.digits 10 n).length ≤ N ∧
      buffer'.toList.take (i + (Nat.digits 10 n).length)
        = buffer.toList.take i ++ (Nat.digits 10 n).map digitSymbol := by
  induction left generalizing n i buffer with
  | zero =>
    obtain rfl : n = 0 := Nat.lt_one_iff.mp hleft
    exact ⟨buffer, decimalLoop_end rfl, hroom, (List.append_nil _).symm⟩
  | succ left ih =>
    rcases Nat.eq_zero_or_pos n with rfl | hpos
    · exact ⟨buffer, decimalLoop_end rfl, Nat.le_of_add_right_le hroom, (List.append_nil _).symm⟩
    have hi : i < N := by omega
    have hdiv : n / 10 < 10 ^ left := by
      rw [Nat.div_lt_iff_lt_mul (by decide)]
      exact hleft
    obtain ⟨buffer', hloop, hle, htake⟩ := @ih (n / 10) (i + 1)
      (buffer.set i ((0x30 + (BitVec.ofNat 32 n).srem 10).truncate 8) hi) (by omega) hdiv (by omega)
    have hslt : (0#32).slt (BitVec.ofNat 32 n) = true := (slt_ofNat hn).trans (decide_eq_true hpos)
    have hlength : i + 1 + (Nat.digits 10 (n / 10)).length = i + (Nat.digits 10 n).length := by
      rw [Nat.digits_def' (by decide) hpos, List.length_cons]
      omega
    rw [← hlength]
    refine ⟨buffer', ?_, hle, ?_⟩
    · rw [decimalLoop_next hslt hi, sdiv_ofNat hn]
      exact hloop
    · have hlen : i < buffer.toList.length := by simpa using hi
      rw [htake, Vector.toList_set, srem_ofNat hn, decimalChar_eq _ (Nat.mod_lt n (by decide)),
        List.take_succ_eq_append_getElem (by simpa using hlen), List.take_set_of_le (Nat.le_refl i),
        List.getElem_set_self, Nat.digits_def' (by decide) hpos, List.map_cons, List.append_assoc]
      rfl

theorem printed_digits (buffer : Vector Byte 12) (hn : n < 2 ^ 31) (hne : n ≠ 0) :
    ∃ written i, decimalLoop 12 buffer 0 (BitVec.ofNat 32 n) = some (written, i) ∧
      putBackwards written i = some (numeral digitSymbol 10 n) := by
  have hdigits : n < 10 ^ 12 := Nat.lt_trans hn (by decide)
  obtain ⟨written, hloop, hle, htake⟩ :=
    @decimalLoop_eq n 12 12 0 buffer hn hdigits (Nat.le_refl 12)
  refine ⟨written, _, hloop, ?_⟩
  rw [putBackwards_eq hle, htake, List.take_zero, List.nil_append, numeral, canonicalDigits_pos hne,
    List.map_reverse]

/-- What `print_decimal` does with a value that is not 0. -/
theorem printDecimal_of_ne {buffer : Vector Byte 12} (h : value ≠ 0) {written : Vector Byte 12}
    {text : List Byte} {m : BitVec 32} (hm : magnitude value = some m)
    (hloop : decimalLoop 12 buffer 0 m = some (written, i))
    (hput : putBackwards written i = some text) :
    printDecimal buffer value = some (if value.slt 0 then 0x2d :: text else text) := by
  rw [printDecimal, if_neg h]
  simp only [Option.bind_eq_bind, hm, hloop, Option.bind_some, hput]
  rfl

theorem slt_zero_iff : value.slt 0 = true ↔ value.toInt < 0 := decide_eq_true_iff

/-- The digits are those of the absolute value. -/
theorem magnitude_eq (h : value ≠ BitVec.intMin 32) :
    value.toInt.natAbs < 2 ^ 31 ∧
      magnitude value = some (BitVec.ofNat 32 value.toInt.natAbs) := by
  have hmin : value.toNat ≠ 2 ^ 31 := fun heq => h (BitVec.eq_of_toNat_eq heq)
  have hvalue := value.isLt
  have hint := BitVec.toInt_eq_toNat_cond value
  rw [magnitude]
  split
  · have hneg := slt_zero_iff.mp ‹_›
    refine ⟨by omega, (if_neg h).trans (congrArg some (BitVec.eq_of_toNat_eq ?_))⟩
    rw [BitVec.toNat_neg, BitVec.toNat_ofNat]
    omega
  · have hpos := mt slt_zero_iff.mpr ‹_›
    refine ⟨by omega, congrArg some (BitVec.eq_of_toNat_eq ?_)⟩
    rw [BitVec.toNat_ofNat]
    omega

/-- **`print_decimal` prints the canonical numeral**, of any value but the least one… -/
theorem printDecimal_eq (buffer : Vector Byte 12) (h : value ≠ BitVec.intMin 32) :
    printDecimal buffer value = some (decimalText value.toInt) := by
  by_cases hzero : value = 0
  · rw [hzero]
    rfl
  obtain ⟨hlt, hmagnitude⟩ := magnitude_eq h
  have hne : value.toInt.natAbs ≠ 0 := fun heq =>
    hzero (BitVec.eq_of_toInt_eq (Int.natAbs_eq_zero.mp heq))
  obtain ⟨written, i, hloop, hput⟩ := printed_digits buffer hlt hne
  rw [printDecimal_of_ne hzero hmagnitude hloop hput, decimalText]
  refine congrArg some ?_
  by_cases hneg : value.toInt < 0
  · rw [if_pos hneg, if_pos (slt_zero_iff.mpr hneg)]
  · rw [if_neg hneg, if_neg (mt slt_zero_iff.mp hneg)]

/-- …of which there is no result. -/
theorem printDecimal_intMin (buffer : Vector Byte 12) :
    printDecimal buffer (BitVec.intMin 32) = none := rfl

end Decimal

/-! ## Reading back -/

section Reading

variable {text digits : List Byte} {n : ℕ} {z z' : ℤ} {frame : Frame} {value : BitVec 32}

theorem decDigit_symbol : ∀ d < 10, decDigit (digitSymbol d) = some d := by decide

theorem hexDigit_symbol : ∀ d < 16, hexDigit (digitSymbol d) = some d := by decide

/-- The sign is no digit. -/
theorem not_numeral_sign : ¬Numeral decDigit 10 (0x2d :: digits) n := by
  rintro ⟨-, ds, hds, -⟩
  exact hds.ne_none List.mem_cons_self rfl

theorem decimalText_reads (z : ℤ) : ReadAs (decimalText z) z := by
  have hdigits := numeral_reads (n := z.natAbs) (by decide) decDigit_symbol
  refine ⟨z.natAbs, ?_⟩
  rw [decimalText]
  split
  · exact .inr ⟨_, rfl, hdigits, by omega⟩
  · exact .inl ⟨hdigits, by omega⟩

theorem ReadAs.unique (h : ReadAs text z) (h' : ReadAs text z') : z = z' := by
  obtain ⟨n, ⟨hn, rfl⟩ | ⟨digits, rfl, hn, rfl⟩⟩ := h
  · obtain ⟨n', ⟨hn', rfl⟩ | ⟨digits', rfl, -, -⟩⟩ := h'
    · rw [hn.unique hn']
    · exact absurd hn not_numeral_sign
  · obtain ⟨n', ⟨hn', rfl⟩ | ⟨digits', heq, hn', rfl⟩⟩ := h'
    · exact absurd hn' not_numeral_sign
    · obtain rfl := List.tail_eq_of_cons_eq heq
      rw [hn.unique hn']

/-- **What a conversion prints comes before the rest.** -/
theorem kprintf_conversion {c : Byte} {args rest : List Argument}
    (h : conversion frame c args = some (text, rest)) (fmt : List Byte) :
    kprintf frame (0x25 :: c :: fmt) args = (kprintf frame fmt rest).map (text ++ ·) := by
  rw [kprintf, if_pos rfl, h]
  exact Option.map_eq_bind.symm

/-- **`%x` prints every value.** -/
theorem printsHex (frame : Frame) (value : BitVec 32) : PrintsHex frame value := by
  have hreads := numeral_reads (n := value.toNat) (by decide) hexDigit_symbol
  refine ⟨_, fun fmt args => kprintf_conversion ?_ fmt, rfl,
    fun n => ⟨fun h => h.unique hreads, fun h => h ▸ hreads⟩⟩
  show (printHex frame.hex value).map (·, args) = _
  rw [printHex_eq]
  rfl

/-- **`%d` prints every value but the least one.** -/
theorem printsInt_iff : PrintsInt frame value ↔ value ≠ BitVec.intMin 32 := by
  constructor
  · rintro ⟨text, hprints, -, -⟩ rfl
    have hnone : conversion frame 0x64 [.word (BitVec.intMin 32)] = none :=
      congrArg (Option.map (·, [])) (printDecimal_intMin frame.decimal)
    have hnothing : kprintf frame [0x25, 0x64] [.word (BitVec.intMin 32)] = none := by
      rw [kprintf, if_pos rfl, hnone]
      rfl
    cases hnothing.symm.trans (hprints [] [])
  · intro h
    refine ⟨_, fun fmt args => kprintf_conversion ?_ fmt, rfl, fun z =>
      ⟨fun h => h.unique (decimalText_reads _), fun h => h ▸ decimalText_reads _⟩⟩
    show (printDecimal frame.decimal value).map (·, args) = _
    rw [printDecimal_eq _ h]
    rfl

end Reading

/-- **Numbers are printed faithfully**, but for the least one. -/
theorem kprintf_numbers_iff (frame : Frame) (value unsigned : BitVec 32) :
    PrintsInt frame value ∧ PrintsHex frame unsigned ↔ value ≠ BitVec.intMin 32 :=
  ⟨fun h => printsInt_iff.mp h.1, fun h => ⟨printsInt_iff.mpr h, printsHex frame unsigned⟩⟩

/-- The least number: its negation is undefined, and so is what is printed. -/
theorem kprintf_least :
    kprintf ⟨default, default⟩ (ascii "%d") [.word (BitVec.intMin 32)] = none ∧
      ¬∀ frame value unsigned, PrintsInt frame value ∧ PrintsHex frame unsigned :=
  ⟨by decide, fun h =>
    printsInt_iff.mp (h ⟨default, default⟩ (BitVec.intMin 32) 0).1 rfl⟩

example : kprintf ⟨default, default⟩ (ascii "0x%x, %d") [.word 0x1a2b0, .word (-1230)]
    = some (ascii "0x1a2b0, -1230") := by decide

end SaturnOS
