import Mathlib.Data.List.TakeWhile
import SaturnOS.Fs.Path
import SaturnOS.Machinery.Numerals

/-!
# Shell/Numbers — the numbers of a command line

    "  42"  ↦  42        "0x2A"  ↦  42        "0x", "4x", ""  ↦  none

`parse_number` reads a numeral in words of 64 bits and does not look whether it fits: what it gives
is the value modulo 2^64, and it is exact for the texts that are no numeral beyond
(`parseNumber_exact_iff`).
-/

open Machinery

namespace SaturnOS

/-! ## The functions -/

def space : Byte := 0x20

/-- `skip_spaces` -/
def skipSpaces (text : List Byte) : List Byte := text.dropWhile (· == space)

def hexDigitValue (c : Byte) : Option Word :=
  if 0x30#8 ≤ c ∧ c ≤ 0x39#8 then some (c.setWidth 64 - 0x30)
  else if 0x61#8 ≤ c ∧ c ≤ 0x66#8 then some (c.setWidth 64 - 0x61 + 10)
  else if 0x41#8 ≤ c ∧ c ≤ 0x46#8 then some (c.setWidth 64 - 0x41 + 10)
  else none

/-- The digit that `parse_number` reads. -/
def numberDigit (base : Word) (c : Byte) : Option Word :=
  if base = 16 then hexDigitValue c
  else if c < 0x30#8 ∨ 0x39#8 < c then none
  else some (c.setWidth 64 - 0x30)

/-- The loop of `parse_number`: `none` where it returns 0. -/
def numberLoop (base : Word) : List Byte → Word → Bool → Option Word
  | [], result, foundDigit => if foundDigit then some result else none
  | c :: text, result, _ =>
    match numberDigit base c with
    | none => none
    | some digit => numberLoop base text (result * base + digit) true

/-- What `parse_number` returns, and what `*value` is then. -/
def parseNumber (text : CStr) (value : Word) : Bool × Word :=
  let text := skipSpaces text.chars
  let hex := text[0]? = some 0x30 ∧ (text[1]? = some 0x78 ∨ text[1]? = some 0x58)
  let parsed := if hex then numberLoop 16 (text.drop 2) 0 false else numberLoop 10 text 0 false
  match parsed with
  | none => (false, value)
  | some result => (true, result)

/-! ## The numbers -/

def decDigit (c : Byte) : Option ℕ :=
  if 0x30 ≤ c.toNat ∧ c.toNat ≤ 0x39 then some (c.toNat - 0x30) else none

def hexDigit (c : Byte) : Option ℕ :=
  if 0x30 ≤ c.toNat ∧ c.toNat ≤ 0x39 then some (c.toNat - 0x30)
  else if 0x61 ≤ c.toNat ∧ c.toNat ≤ 0x66 then some (c.toNat - 0x61 + 10)
  else if 0x41 ≤ c.toNat ∧ c.toNat ≤ 0x46 then some (c.toNat - 0x41 + 10)
  else none

/-- A decimal numeral, or a hexadecimal one after `0x` or `0X`. -/
def Written (text : List Byte) (n : ℕ) : Prop :=
  Numeral decDigit 10 text n ∨
    ∃ x digits, text = 0x30 :: x :: digits ∧ (x = 0x78 ∨ x = 0x58) ∧ Numeral hexDigit 16 digits n

/-- **The text denotes the number**: spaces, and a numeral. -/
def Denotes (text : List Byte) (n : ℕ) : Prop :=
  ∃ k rest, text = List.replicate k space ++ rest ∧ Written rest n

/-- **`parse_number` is exact** on the text: it returns 1 with the number that the text denotes if
there is one below 2^64, and else 0, with `*value` unchanged. -/
structure ParsedExactly (text : CStr) : Prop where
  accepts : ∀ n value, Denotes text.chars n → n < 2 ^ 64 →
    parseNumber text value = (true, BitVec.ofNat 64 n)
  rejects : ∀ value, (∀ n < 2 ^ 64, ¬ Denotes text.chars n) →
    parseNumber text value = (false, value)

section Parsing

variable {text : List Byte} {digit : Byte → Option ℕ} {b : ℕ} {n m : ℕ}

theorem hexDigitValue_eq (c : Byte) : hexDigitValue c = (hexDigit c).map (BitVec.ofNat 64) := by
  revert c
  decide

theorem numberDigit_dec (c : Byte) : numberDigit 10 c = (decDigit c).map (BitVec.ofNat 64) := by
  revert c
  decide

/-- **The loop on digits**… -/
theorem numberLoop_digits (hdigit : ∀ c, numberDigit (BitVec.ofNat 64 b) c
      = (digit c).map (BitVec.ofNat 64)) {ds : List ℕ} (h : DigitsAre digit text ds)
    (result : Word) (found : Bool) :
    numberLoop (BitVec.ofNat 64 b) text result found =
      if found ∨ text ≠ [] then
        some (ds.foldl (fun r d => r * BitVec.ofNat 64 b + BitVec.ofNat 64 d) result)
      else none := by
  induction h generalizing result found with
  | nil => cases found <;> rfl
  | cons hd _ ih =>
    rw [numberLoop, hdigit, hd]
    refine (ih _ true).trans ?_
    rw [if_pos (.inl rfl), if_pos (.inr (List.cons_ne_nil _ _)), List.foldl_cons]

/-- …and on another text. -/
theorem numberLoop_other (hdigit : ∀ c, numberDigit (BitVec.ofNat 64 b) c
      = (digit c).map (BitVec.ofNat 64)) {c : Byte} (hc : c ∈ text) (hnone : digit c = none)
    (result : Word) (found : Bool) :
    numberLoop (BitVec.ofNat 64 b) text result found = none := by
  induction text generalizing result found with
  | nil => exact absurd hc List.not_mem_nil
  | cons c' text ih =>
    rw [numberLoop, hdigit]
    cases hd : digit c' with
    | none => rfl
    | some d =>
      rcases List.mem_cons.mp hc with rfl | hmem
      · exact nomatch hnone.symm.trans hd
      · exact ih hmem _ _

/-- **The loop gives the value of a numeral, modulo 2^64**, and rejects every other text. -/
theorem numberLoop_iff (hdigit : ∀ c, numberDigit (BitVec.ofNat 64 b) c
      = (digit c).map (BitVec.ofNat 64)) {r : Word} :
    numberLoop (BitVec.ofNat 64 b) text 0 false = some r ↔
      ∃ n, Numeral digit b text n ∧ r = BitVec.ofNat 64 n := by
  rcases digitsAre_or digit text with ⟨ds, hds⟩ | ⟨c, hc, hnone⟩
  · have hvalue := accumulate_ofNat (w := 64) b ds 0
    rw [accumulate_eq, Nat.zero_mul, Nat.zero_add] at hvalue
    rw [numberLoop_digits hdigit hds, show (0 : Word) = BitVec.ofNat 64 0 from rfl, hvalue]
    by_cases hnil : text = []
    · rw [if_neg (by simp [hnil])]
      exact iff_of_false (fun h => nomatch h) fun ⟨n, hn, _⟩ => hn.1 hnil
    · rw [if_pos (.inr hnil), Option.some_inj]
      constructor
      · rintro rfl
        exact ⟨_, ⟨hnil, ds, hds, rfl⟩, rfl⟩
      · rintro ⟨n, ⟨-, ds', hds', rfl⟩, rfl⟩
        rw [hds.unique hds']
  · rw [numberLoop_other hdigit hc hnone]
    exact iff_of_false (fun h => nomatch h) fun ⟨n, ⟨_, ds, hds, _⟩, _⟩ => hds.ne_none hc hnone

/-- A numeral does not begin with a space. -/
theorem Written.head (h : Written text n) : text.head? ≠ some space := by
  rcases h with ⟨hnil, ds, hds, -⟩ | ⟨x, digits, rfl, -⟩
  · rcases hds with - | ⟨hd, -⟩
    · exact absurd rfl hnil
    · intro hhead
      obtain rfl := Option.some.inj hhead
      exact nomatch hd
  · exact fun hhead => absurd (Option.some.inj hhead) (by decide)

/-- The spaces before it are those that are skipped. -/
theorem denotes_iff : Denotes text n ↔ Written (skipSpaces text) n := by
  constructor
  · rintro ⟨k, rest, rfl, hrest⟩
    have hspaces : ∀ c ∈ List.replicate k space, (c == space) = true :=
      fun c hc => beq_iff_eq.mpr (List.eq_of_mem_replicate hc)
    have hstays : rest.dropWhile (· == space) = rest := by
      refine List.dropWhile_eq_self_iff.mpr fun hpos heq => hrest.head ?_
      rw [List.head?_eq_getElem?, List.getElem?_eq_getElem hpos, beq_iff_eq.mp heq]
    rwa [skipSpaces, List.dropWhile_append_of_pos hspaces, hstays]
  · intro h
    refine ⟨(text.takeWhile (· == space)).length, skipSpaces text, ?_, h⟩
    have hspaces : text.takeWhile (· == space)
        = List.replicate (text.takeWhile (· == space)).length space :=
      List.eq_replicate_iff.mpr ⟨rfl, fun c hc =>
        beq_iff_eq.mp (List.mem_takeWhile_imp (p := (· == space)) hc)⟩
    rw [← hspaces]
    exact (List.takeWhile_append_dropWhile).symm

/-- A text after `0x`… -/
theorem written_hex {x : Byte} {digits : List Byte} (hx : x = 0x78 ∨ x = 0x58) :
    Written (0x30 :: x :: digits) n ↔ Numeral hexDigit 16 digits n := by
  constructor
  · rintro (⟨-, ds, hds, -⟩ | ⟨x', digits', heq, -, h⟩)
    · refine absurd ?_ (hds.ne_none (List.mem_cons_of_mem _ List.mem_cons_self))
      rcases hx with rfl | rfl
      · decide
      · decide
    · obtain ⟨-, rfl, rfl⟩ := List.cons.inj heq |>.imp_right List.cons.inj
      exact h
  · exact fun h => .inr ⟨x, digits, rfl, hx, h⟩

/-- …and any other. -/
theorem written_dec
    (h : ¬ (text[0]? = some 0x30 ∧ (text[1]? = some 0x78 ∨ text[1]? = some 0x58))) :
    Written text n ↔ Numeral decDigit 10 text n := by
  refine or_iff_left ?_
  rintro ⟨x, digits, rfl, hx, -⟩
  exact h ⟨rfl, hx.imp (congrArg some) (congrArg some)⟩

theorem exists_hex (h : text[0]? = some 0x30 ∧ (text[1]? = some 0x78 ∨ text[1]? = some 0x58)) :
    ∃ x digits, text = 0x30 :: x :: digits ∧ (x = 0x78 ∨ x = 0x58) := by
  match text, h with
  | [], h => exact nomatch h.1
  | [_], h => exact h.2.elim (fun h => nomatch h) fun h => nomatch h
  | c :: x :: digits, h =>
    obtain rfl := Option.some.inj h.1
    exact ⟨x, digits, rfl, h.2.imp Option.some.inj Option.some.inj⟩

theorem Denotes.unique (h : Denotes text n) (h' : Denotes text m) : n = m := by
  rw [denotes_iff] at h h'
  by_cases hhex : (skipSpaces text)[0]? = some 0x30 ∧
      ((skipSpaces text)[1]? = some 0x78 ∨ (skipSpaces text)[1]? = some 0x58)
  · obtain ⟨x, digits, heq, hx⟩ := exists_hex hhex
    rw [heq, written_hex hx] at h h'
    exact h.unique h'
  · rw [written_dec hhex] at h h'
    exact h.unique h'

/-- What the loops give together. -/
theorem parsed_iff {r : Word} :
    (if text[0]? = some 0x30 ∧ (text[1]? = some 0x78 ∨ text[1]? = some 0x58) then
      numberLoop 16 (text.drop 2) 0 false else numberLoop 10 text 0 false) = some r ↔
    ∃ n, Written text n ∧ r = BitVec.ofNat 64 n := by
  by_cases hhex : text[0]? = some 0x30 ∧ (text[1]? = some 0x78 ∨ text[1]? = some 0x58)
  · obtain ⟨x, digits, rfl, hx⟩ := exists_hex hhex
    rw [if_pos hhex]
    simp only [written_hex hx]
    exact numberLoop_iff (b := 16) fun c => hexDigitValue_eq c
  · rw [if_neg hhex]
    simp only [written_dec hhex]
    exact numberLoop_iff (b := 10) numberDigit_dec

/-- **`parse_number` gives the number modulo 2^64**… -/
theorem parseNumber_denotes {text : CStr} (h : Denotes text.chars n) (value : Word) :
    parseNumber text value = (true, BitVec.ofNat 64 n) := by
  have hparsed := parsed_iff.mpr ⟨n, denotes_iff.mp h, rfl⟩
  rw [parseNumber]
  simp only [hparsed]

/-- …or nothing. -/
theorem parseNumber_other {text : CStr} (h : ∀ n, ¬ Denotes text.chars n) (value : Word) :
    parseNumber text value = (false, value) := by
  have hparsed : (if (skipSpaces text.chars)[0]? = some 0x30 ∧
      ((skipSpaces text.chars)[1]? = some 0x78 ∨ (skipSpaces text.chars)[1]? = some 0x58) then
      numberLoop 16 ((skipSpaces text.chars).drop 2) 0 false
      else numberLoop 10 (skipSpaces text.chars) 0 false) = none := by
    refine Option.eq_none_iff_forall_ne_some.mpr fun r hr => ?_
    obtain ⟨n, hn, -⟩ := parsed_iff.mp hr
    exact h n (denotes_iff.mpr hn)
  rw [parseNumber]
  simp only [hparsed]

/-- **`parse_number` is exact for exactly the texts that denote no number from 2^64 on.** -/
theorem parseNumber_exact_iff (text : CStr) :
    ParsedExactly text ↔ ∀ n, Denotes text.chars n → n < 2 ^ 64 := by
  constructor
  · intro h n hn
    by_contra hlarge
    have hnone : ∀ m < 2 ^ 64, ¬ Denotes text.chars m :=
      fun m hm hm' => hlarge (hn.unique hm' ▸ hm)
    exact nomatch (h.rejects 0 hnone).symm.trans (parseNumber_denotes hn 0)
  · intro h
    refine ⟨fun n value hn _ => parseNumber_denotes hn value, fun value hnone => ?_⟩
    exact parseNumber_other (fun n hn => hnone n (h n hn) hn) value

theorem denotes_large : Denotes (ascii "18446744073709551616") (2 ^ 64) := by
  refine ⟨0, ascii "18446744073709551616", rfl, .inl ⟨by decide,
    [1, 8, 4, 4, 6, 7, 4, 4, 0, 7, 3, 7, 0, 9, 5, 5, 1, 6, 1, 6], ?_, rfl⟩⟩
  simp [DigitsAre, ascii, decDigit]

/-- 2^64 is read as 0. -/
theorem parseNumber_wraps : ¬ ParsedExactly ⟨ascii "18446744073709551616", by decide⟩ ∧
    parseNumber ⟨ascii "18446744073709551616", by decide⟩ 1 = (true, 0) := by
  refine ⟨fun h => ?_, (parseNumber_denotes (n := 2 ^ 64) denotes_large 1).trans rfl⟩
  have hrejects := h.rejects 1 fun m hm hm' => Nat.ne_of_lt hm (hm'.unique denotes_large)
  exact nomatch hrejects.symm.trans (parseNumber_denotes denotes_large 1)

end Parsing

end SaturnOS
