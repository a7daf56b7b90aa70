import Mathlib.Tactic.Common
import Mathlib.Data.Nat.Bitwise

/-!
# Machinery/Bits — words read through a mask

    aligned at 2ᵏ, below 2ⁿ  ⟹  the bits live in [k, n)

A mask sees an aligned word whole as soon as it covers `[k, n)`, and not at all when it stays
below `k`.  Field extraction (`(w >>> s) &&& (2ⁿ - 1)`) is the quotient-remainder of the value.
-/

namespace Machinery

variable {w k n : ℕ} {p m : BitVec w}

/-- A bit of an aligned, bounded word sits between its alignment and its bound. -/
theorem bit_bounds (hk : 2 ^ k ∣ p.toNat) (hn : p.toNat < 2 ^ n) {i : ℕ}
    (hi : p.getLsbD i = true) : k ≤ i ∧ i < n := by
  obtain ⟨q, hq⟩ := hk
  have hb : p.toNat.testBit i = true := by rwa [BitVec.testBit_toNat]
  constructor
  · by_contra hlt
    rw [hq, Nat.testBit_two_pow_mul] at hb
    simp only [ge_iff_le, hlt, decide_false, Bool.false_and, Bool.false_eq_true] at hb
  · by_contra hge
    have hlt : p.toNat < 2 ^ i :=
      lt_of_lt_of_le hn (Nat.pow_le_pow_right (by decide) (not_lt.mp hge))
    rw [Nat.testBit_lt_two_pow hlt] at hb
    exact Bool.noConfusion hb

/-- **A mask over `[k, n)` keeps a word aligned at `2ᵏ` and below `2ⁿ`.** -/
theorem and_eq_self_of_aligned (hk : 2 ^ k ∣ p.toNat) (hn : p.toNat < 2 ^ n)
    (hm : ∀ i, k ≤ i → i < n → m.getLsbD i = true) : p &&& m = p := by
  refine BitVec.eq_of_getLsbD_eq fun i _ => ?_
  rw [BitVec.getLsbD_and]
  cases hp : p.getLsbD i with
  | false => rfl
  | true =>
    obtain ⟨h1, h2⟩ := bit_bounds hk hn hp
    rw [hm i h1 h2, Bool.and_self]

/-- …and a mask below `2ᵏ` sees nothing of it. -/
theorem and_eq_zero_of_aligned (hk : 2 ^ k ∣ p.toNat) (hm : m.toNat < 2 ^ k) : p &&& m = 0 := by
  refine BitVec.eq_of_getLsbD_eq fun i _ => ?_
  rw [BitVec.getLsbD_and]
  cases hb : m.getLsbD i with
  | false => simp
  | true =>
    have hi := (bit_bounds (p := m) (k := 0) (by simp) hm hb).2
    cases hp : p.getLsbD i with
    | false => simp
    | true =>
      have := (bit_bounds hk p.isLt hp).1
      omega

/-- A shifted field is a quotient-remainder of the value. -/
theorem toNat_field (s j : ℕ) (v : BitVec w) (hj : 2 ^ j ≤ 2 ^ w) :
    ((v >>> s) &&& BitVec.ofNat w (2 ^ j - 1)).toNat = v.toNat / 2 ^ s % 2 ^ j := by
  have hpos : 0 < 2 ^ j := Nat.two_pow_pos j
  rw [BitVec.toNat_and, BitVec.toNat_ushiftRight, Nat.shiftRight_eq_div_pow, BitVec.toNat_ofNat,
    Nat.mod_eq_of_lt (by omega), Nat.and_two_pow_sub_one_eq_mod]

/-- **A mask that clears the low bits rounds down.** -/
theorem toNat_and_not (k : ℕ) (v : BitVec w) :
    (v &&& ~~~(BitVec.ofNat w (2 ^ k - 1))).toNat = v.toNat / 2 ^ k * 2 ^ k := by
  have hshift : v &&& ~~~(BitVec.ofNat w (2 ^ k - 1)) = (v >>> k) <<< k := by
    refine BitVec.eq_of_getLsbD_eq fun i hi => ?_
    rw [BitVec.getLsbD_and, BitVec.getLsbD_not, BitVec.getLsbD_ofNat, Nat.testBit_two_pow_sub_one,
      BitVec.getLsbD_shiftLeft, BitVec.getLsbD_ushiftRight]
    by_cases hik : i < k
    · simp [hi, hik]
    · rw [Nat.add_sub_cancel' (Nat.le_of_not_lt hik)]
      simp [hi, hik]
  have hlt : v.toNat / 2 ^ k * 2 ^ k < 2 ^ w := lt_of_le_of_lt (Nat.div_mul_le_self _ _) v.isLt
  rw [hshift, BitVec.toNat_shiftLeft, BitVec.toNat_ushiftRight, Nat.shiftRight_eq_div_pow,
    Nat.shiftLeft_eq, Nat.mod_eq_of_lt hlt]

end Machinery
