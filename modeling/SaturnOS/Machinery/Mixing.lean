import Mathlib.Tactic.Common
import Mathlib.Logic.Function.Iterate

/-!
# Machinery/Mixing — checksums that mix and add

    c ──mix──▸ mix c ⊕ b₁ ──mix──▸ mix (mix c ⊕ b₁) ⊕ b₂ ──▸ ⋯

A checksum that mixes linearly is linear: two lists that differ in one place have checksums that
differ by the difference of the two elements, mixed once for every element after
(`mixed_append_cons`).  So one change is always seen if no difference of two elements dies out,
however often it is mixed, and what survives a few turns survives all of them if these can be undone
(`iterate_ne_zero`).
-/

namespace Machinery

/-! ## Linear maps -/

section Linear

variable {v w : ℕ} {f g : BitVec v → BitVec w} {x y : BitVec v}

/-- A map that keeps exclusive or. -/
def XorLinear (f : BitVec v → BitVec w) : Prop := ∀ x y, f (x ^^^ y) = f x ^^^ f y

theorem XorLinear.zero (hf : XorLinear f) : f 0 = 0 := by
  have h := hf 0 0
  rwa [BitVec.xor_self, BitVec.xor_self] at h

theorem XorLinear.comp {u : ℕ} {e : BitVec u → BitVec v} (hf : XorLinear f) (he : XorLinear e) :
    XorLinear fun x => f (e x) := fun x y => (congrArg f (he x y)).trans (hf _ _)

theorem XorLinear.iterate {f : BitVec w → BitVec w} (hf : XorLinear f) : ∀ n, XorLinear f^[n]
  | 0 => fun _ _ => rfl
  | n + 1 => (hf.iterate n).comp hf

/-- The columns at the bits of `x` below `n`, added. -/
def combination (columns : ℕ → BitVec w) (x : BitVec v) : ℕ → BitVec w
  | 0 => 0
  | n + 1 => (if x.getLsbD n then columns n else 0) ^^^ combination columns x n

theorem xorLinear_combination (columns : ℕ → BitVec w) (n : ℕ) :
    XorLinear fun x : BitVec v => combination columns x n := by
  intro x y
  induction n with
  | zero => exact BitVec.xor_self.symm
  | succ n ih =>
    have hbit : (if (x ^^^ y).getLsbD n then columns n else 0)
        = (if x.getLsbD n then columns n else 0) ^^^ (if y.getLsbD n then columns n else 0) := by
      rw [BitVec.getLsbD_xor]
      cases x.getLsbD n <;> cases y.getLsbD n <;> simp
    dsimp only at ih
    simp only [combination]
    rw [ih, hbit]
    ac_rfl

theorem XorLinear.map_combination (hf : XorLinear f) (columns : ℕ → BitVec v) {u : ℕ} (x : BitVec u)
    (n : ℕ) :
    f (combination columns x n) = combination (fun i => f (columns i)) x n := by
  induction n with
  | zero => exact hf.zero
  | succ n ih =>
    rw [combination, hf, ih, combination, apply_ite f, hf.zero]

theorem getLsbD_combination (x : BitVec w) (n j : ℕ) :
    (combination (BitVec.twoPow w) x n).getLsbD j = (decide (j < n) && x.getLsbD j) := by
  induction n with
  | zero => simp [combination]
  | succ n ih =>
    rw [combination, BitVec.getLsbD_xor, ih]
    by_cases hj : j = n
    · subst hj
      cases hx : x.getLsbD j with
      | false => simp
      | true => simp [BitVec.lt_of_getLsbD hx]
    · have hbit : (if x.getLsbD n then BitVec.twoPow w n else 0).getLsbD j = false := by
        split
        · simp [Ne.symm hj]
        · simp
      rw [hbit, Bool.false_xor]
      congr 1
      exact decide_eq_decide.mpr (by omega)

theorem combination_twoPow (x : BitVec w) : combination (BitVec.twoPow w) x w = x := by
  refine BitVec.eq_of_getLsbD_eq fun j hj => ?_
  rw [getLsbD_combination, decide_eq_true hj, Bool.true_and]

/-- **A linear map is what it does to the bits.** -/
theorem XorLinear.ext (hf : XorLinear f) (hg : XorLinear g)
    (h : ∀ i < v, f (BitVec.twoPow v i) = g (BitVec.twoPow v i)) (x : BitVec v) : f x = g x := by
  have hbits : ∀ n ≤ v, combination (fun i => f (BitVec.twoPow v i)) x n
      = combination (fun i => g (BitVec.twoPow v i)) x n := by
    intro n hn
    induction n with
    | zero => rfl
    | succ n ih => rw [combination, ih (by omega), h n (by omega), combination]
  rw [← combination_twoPow x, hf.map_combination, hg.map_combination, hbits v (Nat.le_refl v)]

end Linear

/-! ## What does not die out -/

/-- **What survives `k` turns survives all**, if a turn after them can be undone. -/
theorem iterate_ne_zero {α : Type*} [Zero α] {f back : α → α} {k : ℕ} (hf : f 0 = 0)
    (hback : ∀ x, back (f (f^[k] x)) = f^[k] x) {x : α} (hx : f^[k] x ≠ 0) (n : ℕ) :
    f^[n] x ≠ 0 := by
  -- from `k` turns on nothing new is lost
  have hlater : ∀ m, f^[k + m] x ≠ 0 := by
    intro m
    induction m with
    | zero => exact hx
    | succ m ih =>
      intro h0
      have hundo := hback (f^[m] x)
      rw [← Function.iterate_add_apply] at hundo
      rw [← Nat.add_assoc, Function.iterate_succ_apply'] at h0
      have hzero := hback 0
      have hfix : f^[k] 0 = 0 := Function.iterate_fixed hf k
      rw [hfix, hf] at hzero
      rw [h0, hzero] at hundo
      exact ih hundo.symm
  intro h0
  refine hlater n ?_
  rw [Function.iterate_add_apply, h0]
  exact Function.iterate_fixed hf k

/-! ## Checksums -/

section Mixed

variable {u w : ℕ} {mix : BitVec w → BitVec w}

/-- Each element is added after what was before has been mixed. -/
def mixed (mix : BitVec w → BitVec w) (c : BitVec w) (l : List (BitVec u)) : BitVec w :=
  l.foldl (fun c b => mix c ^^^ b.setWidth w) c

/-- The difference of two starts is mixed on. -/
theorem mixed_xor (hmix : XorLinear mix) (l : List (BitVec u)) (c d : BitVec w) :
    mixed mix c l ^^^ mixed mix d l = mix^[l.length] (c ^^^ d) := by
  induction l generalizing c d with
  | nil => rfl
  | cons b l ih =>
    have hstep : mix c ^^^ b.setWidth w ^^^ (mix d ^^^ b.setWidth w) = mix (c ^^^ d) := by
      rw [BitVec.xor_comm (mix d), BitVec.xor_assoc, ← BitVec.xor_assoc (b.setWidth w),
        BitVec.xor_self,
        BitVec.zero_xor, hmix]
    rw [List.length_cons, Function.iterate_succ_apply, ← hstep]
    exact ih _ _

/-- **One element changed.** -/
theorem mixed_append_cons (hmix : XorLinear mix) (before after : List (BitVec u)) (a b : BitVec u)
    (c : BitVec w) : mixed mix c (before ++ a :: after) ^^^ mixed mix c (before ++ b :: after)
      = mix^[after.length] ((a ^^^ b).setWidth w) := by
  rw [mixed, mixed, List.foldl_append, List.foldl_append, List.foldl_cons, List.foldl_cons]
  refine (mixed_xor hmix after _ _).trans (congrArg _ ?_)
  rw [BitVec.xor_comm (mix _), BitVec.xor_assoc, ← BitVec.xor_assoc (mix _), BitVec.xor_self,
    BitVec.zero_xor, BitVec.setWidth_xor]

end Mixed

/-! ## Lists that differ in one place -/

section OneApart

variable {α : Type*} {l l' : List α}

/-- The lists are as long as each other and differ in exactly one place. -/
def OneApart (l l' : List α) : Prop := l.length = l'.length ∧ ∃! i : ℕ, l[i]? ≠ l'[i]?

theorem OneApart.split (h : OneApart l l') : ∃ before a b after,
    l = before ++ a :: after ∧ l' = before ++ b :: after ∧ a ≠ b := by
  obtain ⟨hlen, i, hi, honly⟩ := h
  have hlt : i < l.length := by
    by_contra hge
    rw [Nat.not_lt] at hge
    exact hi (by rw [List.getElem?_eq_none hge, List.getElem?_eq_none (hlen ▸ hge)])
  have hlt' : i < l'.length := hlen ▸ hlt
  have hsame : ∀ j, j ≠ i → l[j]? = l'[j]? := fun j hj => by
    by_contra hne
    exact hj (honly j hne)
  have hbefore : l.take i = l'.take i := by
    refine List.ext_getElem? fun j => ?_
    rw [List.getElem?_take, List.getElem?_take]
    split
    · exact hsame j (by omega)
    · rfl
  have hafter : l.drop (i + 1) = l'.drop (i + 1) := by
    refine List.ext_getElem? fun j => ?_
    rw [List.getElem?_drop, List.getElem?_drop]
    exact hsame _ (by omega)
  refine ⟨l.take i, l[i], l'[i], l.drop (i + 1), ?_, ?_, fun heq => hi ?_⟩
  · rw [← List.drop_eq_getElem_cons hlt, List.take_append_drop]
  · rw [hbefore, hafter, ← List.drop_eq_getElem_cons hlt', List.take_append_drop]
  · rw [List.getElem?_eq_getElem hlt, List.getElem?_eq_getElem hlt', heq]

theorem oneApart_set {i : ℕ} (hi : i < l.length) {a : α} (ha : l[i] ≠ a) :
    OneApart l (l.set i a) := by
  refine ⟨List.length_set.symm, i, ?_, fun j hj => ?_⟩
  · dsimp only
    rw [List.getElem?_set_self hi, List.getElem?_eq_getElem hi]
    exact fun heq => ha (Option.some.inj heq)
  · by_contra hne
    exact hj (List.getElem?_set_ne (Ne.symm hne)).symm

end OneApart

end Machinery
