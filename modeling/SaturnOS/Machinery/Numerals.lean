import Mathlib.Data.List.Forall2
import Mathlib.Data.List.GetD
import Mathlib.Data.Nat.Digits.Lemmas

/-!
# Machinery/Numerals — strings of digits and their values

    d₀ d₁ ⋯ dₙ   ↦   (⋯ (d₀ · b + d₁) · b + ⋯) · b + dₙ

A numeral is a nonempty string of digits, the high one first.  Reading it from left to right in
words of `w` bits gives its value modulo `2 ^ w` (`accumulate_ofNat`).  Of the numerals of a number
one is canonical: it has no zeros in front, and is what is left of any other without them
(`dropWhile_digits`).
-/

namespace Machinery

variable {α : Type*} {digit : α → Option ℕ} {b : ℕ} {s : List α} {ds : List ℕ} {n m : ℕ}

/-- The characters are the digits. -/
def DigitsAre (digit : α → Option ℕ) : List α → List ℕ → Prop :=
  List.Forall₂ fun c d => digit c = some d

/-- A nonempty string of digits to the base `b`, and its value. -/
def Numeral (digit : α → Option ℕ) (b : ℕ) (s : List α) (n : ℕ) : Prop :=
  s ≠ [] ∧ ∃ ds, DigitsAre digit s ds ∧ n = Nat.ofDigits b ds.reverse

theorem DigitsAre.unique {ds' : List ℕ} (h : DigitsAre digit s ds) (h' : DigitsAre digit s ds') :
    ds = ds' := by
  induction h generalizing ds' with
  | nil => exact (List.forall₂_nil_left_iff.mp h').symm
  | cons hd _ ih =>
    obtain ⟨d', ds', hd', hrest, rfl⟩ := List.forall₂_cons_left_iff.mp h'
    rw [ih hrest, Option.some.inj (hd.symm.trans hd')]

theorem Numeral.unique (h : Numeral digit b s n) (h' : Numeral digit b s m) : n = m := by
  obtain ⟨-, ds, hds, rfl⟩ := h
  obtain ⟨-, ds', hds', rfl⟩ := h'
  rw [hds.unique hds']

/-- A string is one of digits, or has a character that is none. -/
theorem digitsAre_or (digit : α → Option ℕ) (s : List α) :
    (∃ ds, DigitsAre digit s ds) ∨ ∃ c ∈ s, digit c = none := by
  induction s with
  | nil => exact .inl ⟨[], .nil⟩
  | cons c s ih =>
    cases hc : digit c with
    | none => exact .inr ⟨c, List.mem_cons_self, hc⟩
    | some d =>
      refine ih.imp ?_ ?_
      · rintro ⟨ds, hds⟩
        exact ⟨d :: ds, .cons hc hds⟩
      · rintro ⟨c', hmem, hnone⟩
        exact ⟨c', List.mem_cons_of_mem c hmem, hnone⟩

theorem DigitsAre.ne_none (h : DigitsAre digit s ds) {c : α} (hc : c ∈ s) : digit c ≠ none := by
  induction h with
  | nil => exact absurd hc List.not_mem_nil
  | cons hd _ ih =>
    rcases List.mem_cons.mp hc with rfl | hmem
    · rw [hd]
      exact Option.some_ne_none _
    · exact ih hmem

/-- The value, from left to right. -/
def accumulate (b : ℕ) (ds : List ℕ) (n : ℕ) : ℕ := ds.foldl (fun n d => n * b + d) n

theorem accumulate_eq (b : ℕ) (ds : List ℕ) (n : ℕ) :
    accumulate b ds n = n * b ^ ds.length + Nat.ofDigits b ds.reverse := by
  induction ds generalizing n with
  | nil => simp [accumulate]
  | cons d ds ih =>
    refine (ih (n * b + d)).trans ?_
    rw [List.reverse_cons, Nat.ofDigits_append, Nat.ofDigits_singleton, List.length_reverse,
      List.length_cons]
    ring

/-- **Words keep the value modulo their size.** -/
theorem accumulate_ofNat {w : ℕ} (b : ℕ) (ds : List ℕ) (n : ℕ) :
    ds.foldl (fun r d => r * BitVec.ofNat w b + BitVec.ofNat w d) (BitVec.ofNat w n)
      = BitVec.ofNat w (accumulate b ds n) := by
  induction ds generalizing n with
  | nil => rfl
  | cons d ds ih =>
    rw [List.foldl_cons, ← BitVec.ofNat_mul, ← BitVec.ofNat_add, ih]
    rfl

/-! ## Canonical numerals -/

/-- The digits of a number, the high one first, without zeros in front. -/
def canonicalDigits (b n : ℕ) : List ℕ := if n = 0 then [0] else (Nat.digits b n).reverse

theorem canonicalDigits_pos (h : n ≠ 0) : canonicalDigits b n = (Nat.digits b n).reverse := if_neg h

theorem canonicalDigits_ne_nil : canonicalDigits b n ≠ [] := by
  rw [canonicalDigits]
  split
  · exact List.cons_ne_nil 0 []
  · exact mt List.reverse_eq_nil_iff.mp (Nat.digits_ne_nil_iff_ne_zero.mpr ‹_›)

theorem ofDigits_canonicalDigits : Nat.ofDigits b (canonicalDigits b n).reverse = n := by
  rw [canonicalDigits]
  split
  · rename_i hzero
    rw [hzero]
    exact Nat.ofDigits_singleton
  · rw [List.reverse_reverse, Nat.ofDigits_digits]

theorem canonicalDigits_lt (h : 1 < b) : ∀ d ∈ canonicalDigits b n, d < b := by
  rw [canonicalDigits]
  split
  · exact List.forall_mem_singleton.mpr (Nat.zero_lt_of_lt h)
  · exact fun d hd => Nat.digits_lt_base h (List.mem_reverse.mp hd)

/-- **No zero in front.** -/
theorem head?_canonicalDigits (h : n ≠ 0) : (canonicalDigits b n).head? ≠ some 0 := by
  rw [canonicalDigits_pos h, List.head?_reverse]
  intro hzero
  have hne : Nat.digits b n ≠ [] := Nat.digits_ne_nil_iff_ne_zero.mpr h
  rw [List.getLast?_eq_some_getLast hne] at hzero
  exact Nat.getLast_digit_ne_zero b h (Option.some.inj hzero)

/-- So many digits, with as many zeros in front as it takes… -/
theorem range_digits {k : ℕ} (hb : 2 ≤ b) (hn : n < b ^ k) :
    (List.range k).map (fun i => n / b ^ (k - 1 - i) % b)
      = List.replicate (k - (Nat.digits b n).length) 0 ++ (Nat.digits b n).reverse := by
  have hlength : (Nat.digits b n).length ≤ k := (Nat.digits_length_le_iff hb n).mpr hn
  have hlow : (List.range k).map (fun i => n / b ^ i % b)
      = Nat.digits b n ++ List.replicate (k - (Nat.digits b n).length) 0 := by
    refine List.ext_getElem ?_ fun i hi hi' => ?_
    · simp only [List.length_map, List.length_range, List.length_append, List.length_replicate]
      omega
    · rw [List.getElem_map, List.getElem_range, ← Nat.getD_digits n i hb, List.getElem_append]
      split
      · rw [List.getD_eq_getElem]
      · rw [List.getElem_replicate, List.getD_eq_default _ _ (Nat.not_lt.mp ‹_›)]
  have hdown : (List.range k).reverse = (List.range k).map (k - 1 - ·) := by
    rw [List.range_eq_range', List.reverse_range', Nat.zero_add, List.range_eq_range']
  rw [← List.reverse_replicate, ← List.reverse_append, ← hlow, ← List.map_reverse, hdown,
    List.map_map]
  rfl

/-- **…which are dropped.** -/
theorem dropWhile_digits {k : ℕ} (hb : 2 ≤ b) (hn : n < b ^ k) (h : n ≠ 0) :
    ((List.range k).map (fun i => n / b ^ (k - 1 - i) % b)).dropWhile (· == 0)
      = canonicalDigits b n := by
  rw [range_digits hb hn, ← canonicalDigits_pos h, List.dropWhile_append_of_pos]
  · cases hd : canonicalDigits b n with
    | nil => rfl
    | cons d ds =>
      have hhead := @head?_canonicalDigits b n h
      rw [hd, List.head?_cons] at hhead
      exact List.dropWhile_cons_of_neg (by simpa using hhead)
  · intro d hd
    exact beq_iff_eq.mpr (List.eq_of_mem_replicate hd)

/-- The canonical numeral, of these characters. -/
def numeral (symbols : ℕ → α) (b n : ℕ) : List α := (canonicalDigits b n).map symbols

/-- **It is read as its number.** -/
theorem numeral_reads {symbols : ℕ → α} (hb : 1 < b) (h : ∀ d < b, digit (symbols d) = some d) :
    Numeral digit b (numeral symbols b n) n := by
  refine ⟨mt List.map_eq_nil_iff.mp canonicalDigits_ne_nil, canonicalDigits b n, ?_,
    ofDigits_canonicalDigits.symm⟩
  rw [DigitsAre, numeral, List.forall₂_map_left_iff, List.forall₂_same]
  exact fun d hd => h d (canonicalDigits_lt hb d hd)

end Machinery
