import Mathlib.Data.Finset.Card
import Mathlib.Data.Nat.Notation
import Mathlib.Logic.Function.Basic
import Mathlib.Tactic.Common

/-!
# Machinery/Bitmaps — sets of numbers, packed into words

    i  ↦  bit i mod w of word i / w

An array of words is a set of numbers.  Setting a bit inserts its number and clearing it erases it
(`bits_putBit`, `bits_dropBit`), and nothing else changes.
-/

namespace Machinery

variable {w : ℕ} {m : ℕ → BitVec w} {i j n : ℕ}

/-- The bit of a number… -/
def bitAt (m : ℕ → BitVec w) (i : ℕ) : Bool := (m (i / w)).getLsbD (i % w)

/-- …is set in its word… -/
def putBit (m : ℕ → BitVec w) (i : ℕ) : ℕ → BitVec w :=
  Function.update m (i / w) (m (i / w) ||| BitVec.twoPow w (i % w))

/-- …or cleared in it. -/
def dropBit (m : ℕ → BitVec w) (i : ℕ) : ℕ → BitVec w :=
  Function.update m (i / w) (m (i / w) &&& ~~~BitVec.twoPow w (i % w))

/-- The numbers below `n` whose bits are set. -/
def bits (m : ℕ → BitVec w) (n : ℕ) : Finset ℕ := (Finset.range n).filter fun i => bitAt m i = true

/-- A number is in the set by its bit, below the end of the array. -/
theorem mem_bits : i ∈ bits m n ↔ i < n ∧ bitAt m i = true := by
  rw [bits, Finset.mem_filter, Finset.mem_range]

/-- There are no more of them than there are bits. -/
theorem card_bits_le (m : ℕ → BitVec w) (n : ℕ) : (bits m n).card ≤ n := by
  have hle := Finset.card_filter_le (Finset.range n) fun i => bitAt m i = true
  rwa [Finset.card_range] at hle

/-- A number is its word and its place in the word. -/
theorem eq_of_place (hdiv : j / w = i / w) (hmod : j % w = i % w) : j = i := by
  rw [← Nat.div_add_mod j w, ← Nat.div_add_mod i w, hdiv, hmod]

variable (hw : 0 < w)

include hw

/-- **Setting a bit** adds its number: the other bits of the word are kept by the disjunction, the
other words are not touched. -/
theorem bitAt_putBit : bitAt (putBit m i) j = true ↔ j = i ∨ bitAt m j = true := by
  have hlt := Nat.mod_lt j hw
  rw [bitAt, putBit, bitAt]
  by_cases hword : j / w = i / w
  · rw [hword, Function.update_self, BitVec.getLsbD_or, BitVec.getLsbD_twoPow, Bool.or_eq_true,
      Bool.and_eq_true, decide_eq_true_eq, decide_eq_true_eq, or_comm]
    refine or_congr_left ⟨fun h => eq_of_place hword h.2.symm, ?_⟩
    rintro rfl
    exact ⟨hlt, rfl⟩
  · rw [Function.update_of_ne hword]
    refine (or_iff_right ?_).symm
    rintro rfl
    exact hword rfl

/-- **Clearing a bit** takes its number away, and no other. -/
theorem bitAt_dropBit : bitAt (dropBit m i) j = true ↔ j ≠ i ∧ bitAt m j = true := by
  have hlt := Nat.mod_lt j hw
  rw [bitAt, dropBit, bitAt]
  by_cases hword : j / w = i / w
  · rw [hword, Function.update_self, BitVec.getLsbD_and, BitVec.getLsbD_not, BitVec.getLsbD_twoPow,
      Bool.and_eq_true, Bool.and_eq_true, Bool.not_eq_true', Bool.and_eq_false_iff,
      decide_eq_true_eq, decide_eq_false_iff_not, decide_eq_false_iff_not, and_comm]
    refine and_congr_left fun _ => ⟨?_, fun hne => ⟨hlt, .inr fun hmod =>
      hne (eq_of_place hword hmod.symm)⟩⟩
    rintro ⟨-, hi | hmod⟩ rfl
    · exact hi hlt
    · exact hmod rfl
  · rw [Function.update_of_ne hword]
    refine (and_iff_right ?_).symm
    rintro rfl
    exact hword rfl

/-- As sets: an insertion… -/
theorem bits_putBit (hi : i < n) : bits (putBit m i) n = insert i (bits m n) := by
  ext j
  rw [mem_bits, bitAt_putBit hw, Finset.mem_insert, mem_bits]
  constructor
  · rintro ⟨hj, rfl | hbit⟩
    · exact .inl rfl
    · exact .inr ⟨hj, hbit⟩
  · rintro (rfl | ⟨hj, hbit⟩)
    · exact ⟨hi, .inl rfl⟩
    · exact ⟨hj, .inr hbit⟩

/-- …and an erasure. -/
theorem bits_dropBit : bits (dropBit m i) n = (bits m n).erase i := by
  ext j
  rw [mem_bits, bitAt_dropBit hw, Finset.mem_erase, mem_bits]
  exact and_left_comm

end Machinery
