import Mathlib.Data.Nat.Notation
import Mathlib.Logic.Function.Basic
import Mathlib.Tactic.Common

/-!
# Machinery/Rasters — counting loops, and the rectangles they paint

          x₀      x₁
        ┌───────────────┐
     y₀ │  ┌──────┐     │
        │  │ v    │     │        cell (x, y)  ↦  place y · W + x
     y₁ │  └──────┘     │
        └───────────────┘ W

A raster is an array that is read row by row.  Two nested loops over a rectangle write its cells in
the order in which they stand in the array; where the value of a cell is made of cells that do not
come before it, each gets the value it has in the array the loops began with (`sweep_apply`).
-/

namespace Machinery

/-! ## Counting loops -/

section Counting

variable {σ α : Type*} {lo hi : ℕ} {body : ℕ → σ → σ} {s : σ}

/-- `for (i = lo; i < hi; i++)`. -/
def countUp (lo hi : ℕ) (body : ℕ → σ → σ) (s : σ) : σ :=
  (List.range' lo (hi - lo)).foldl (fun s i => body i s) s

theorem countUp_of_le (h : hi ≤ lo) : countUp lo hi body s = s := by
  rw [countUp, Nat.sub_eq_zero_of_le h]
  rfl

theorem countUp_succ (h : lo ≤ hi) :
    countUp lo (hi + 1) body s = body hi (countUp lo hi body s) := by
  rw [countUp, Nat.succ_sub h, List.range'_concat, List.foldl_append, Nat.one_mul,
    Nat.add_sub_cancel' h]
  rfl

/-- **The invariant rule for counting loops.** -/
theorem countUp_keeps {P : ℕ → σ → Prop} (hle : lo ≤ hi) (hP : P lo s)
    (hstep : ∀ i s, lo ≤ i → i < hi → P i s → P (i + 1) (body i s)) :
    P hi (countUp lo hi body s) := by
  induction hle with
  | refl => rwa [countUp_of_le (Nat.le_refl lo)]
  | @step n hn ih =>
    rw [countUp_succ hn]
    exact hstep n _ hn (Nat.lt_succ_self n)
      (ih fun i s hlo hlt => hstep i s hlo (Nat.lt_succ_of_lt hlt))

/-- **Marks add up**: a loop whose turns each put `v` where a condition holds puts it where one of
the conditions does. -/
theorem countUp_marks {body : ℕ → (ℕ → α) → ℕ → α} {Q : ℕ → ℕ → Prop} [∀ k i, Decidable (Q k i)]
    {v : α} {m : ℕ → α} (hbody : ∀ k m i, lo ≤ k → k < hi → body k m i = if Q k i then v else m i)
    (i : ℕ) [Decidable (∃ k, lo ≤ k ∧ k < hi ∧ Q k i)] :
    countUp lo hi body m i = if ∃ k, lo ≤ k ∧ k < hi ∧ Q k i then v else m i := by
  rcases Nat.lt_or_ge hi lo with hlt | hle
  · rw [countUp_of_le (Nat.le_of_lt hlt), if_neg]
    rintro ⟨k, hlo, hhi, -⟩
    omega
  have hall : (∃ k, lo ≤ k ∧ k < hi ∧ Q k i) ∧ countUp lo hi body m i = v ∨
      (∀ k, lo ≤ k → k < hi → ¬ Q k i) ∧ countUp lo hi body m i = m i := by
    refine countUp_keeps (P := fun n (m' : ℕ → α) => (∃ k, lo ≤ k ∧ k < n ∧ Q k i) ∧ m' i = v ∨
      (∀ k, lo ≤ k → k < n → ¬ Q k i) ∧ m' i = m i) hle
      (.inr ⟨fun k hlo hhi => absurd hlo (Nat.not_le.mpr hhi), rfl⟩) fun n m' hlo hhi h => ?_
    rw [hbody n m' i hlo hhi]
    by_cases hq : Q n i
    · exact .inl ⟨⟨n, hlo, Nat.lt_succ_self n, hq⟩, if_pos hq⟩
    rw [if_neg hq]
    refine h.imp (And.imp_left ?_) (And.imp_left fun hno k hk hkn => ?_)
    · rintro ⟨k, hk, hkn, hq⟩
      exact ⟨k, hk, Nat.lt_succ_of_lt hkn, hq⟩
    · rcases Nat.lt_succ_iff_lt_or_eq.mp hkn with hlt | rfl
      · exact hno k hk hlt
      · exact hq
  rcases hall with ⟨hex, hv⟩ | ⟨hno, hm⟩
  · rw [if_pos hex, hv]
  · rw [if_neg (fun ⟨k, hlo, hhi, hq⟩ => hno k hlo hhi hq), hm]

end Counting

/-! ## Rectangles -/

section Rectangles

variable {α : Type*} {W x₀ x₁ y₀ y₁ i : ℕ} {v : (ℕ → α) → ℕ → α} {m : ℕ → α}

/-- The cell at place `i` lies in the rectangle. -/
def InRect (W x₀ x₁ y₀ y₁ i : ℕ) : Prop := (x₀ ≤ i % W ∧ i % W < x₁) ∧ y₀ ≤ i / W ∧ i / W < y₁

instance : Decidable (InRect W x₀ x₁ y₀ y₁ i) := inferInstanceAs (Decidable (_ ∧ _))

/-- Row by row, each cell of the rectangle gets `v` of the array as it is then. -/
def sweep (W x₀ x₁ y₀ y₁ : ℕ) (v : (ℕ → α) → ℕ → α) (m : ℕ → α) : ℕ → α :=
  countUp y₀ y₁ (fun y => countUp x₀ x₁ fun x m =>
    Function.update m (y * W + x) (v m (y * W + x))) m

/-- The value of a cell is made of cells that do not come before it. -/
def LooksAhead (v : (ℕ → α) → ℕ → α) : Prop :=
  ∀ m m' i, (∀ j, i ≤ j → m' j = m j) → v m' i = v m i

theorem looksAhead_const (c : α) : LooksAhead fun _ _ => c := fun _ _ _ _ => rfl

theorem looksAhead_shift (k : ℕ) : LooksAhead fun (m : ℕ → α) i => m (i + k) :=
  fun _ _ i h => h (i + k) (Nat.le_add_right i k)

/-- The cell has been written when the loops come to cell `(x, y)`. -/
def Swept (W x₀ x₁ y₀ y₁ x y i : ℕ) : Prop :=
  InRect W x₀ x₁ y₀ y₁ i ∧ (i / W < y ∨ i / W = y ∧ i % W < x)

instance {x y : ℕ} : Decidable (Swept W x₀ x₁ y₀ y₁ x y i) := inferInstanceAs (Decidable (_ ∧ _))

theorem place_div {x y : ℕ} (hx : x < W) : (y * W + x) / W = y := by
  rw [Nat.add_comm, Nat.add_mul_div_right x y (Nat.zero_lt_of_lt hx), Nat.div_eq_of_lt hx,
    Nat.zero_add]

theorem place_mod {x y : ℕ} (hx : x < W) : (y * W + x) % W = x := by
  rw [Nat.add_comm, Nat.add_mul_mod_self_right, Nat.mod_eq_of_lt hx]

theorem eq_place {x y : ℕ} (hdiv : i / W = y) (hmod : i % W = x) : i = y * W + x := by
  rw [← hdiv, ← hmod, Nat.mul_comm, Nat.div_add_mod]

/-- A cell that stands no earlier has not been written. -/
theorem not_swept {x y : ℕ} (hW : 0 < W) (hi : y * W + x ≤ i) :
    ¬ Swept W x₀ x₁ y₀ y₁ x y i := by
  rintro ⟨-, hlt | ⟨heq, hlt⟩⟩
  · have hrow : (i / W + 1) * W ≤ y * W := Nat.mul_le_mul_right W hlt
    have hmod : i % W < W := Nat.mod_lt i hW
    have hdiv := Nat.div_add_mod i W
    rw [Nat.add_mul, Nat.one_mul, Nat.mul_comm] at hrow
    omega
  · have hdiv := Nat.div_add_mod i W
    rw [heq, Nat.mul_comm] at hdiv
    omega

/-- One cell more has been written. -/
theorem swept_succ {x y : ℕ} (hx₀ : x₀ ≤ x) (hx₁ : x < x₁) (hy₀ : y₀ ≤ y) (hy₁ : y < y₁)
    (hW : x₁ ≤ W) : Swept W x₀ x₁ y₀ y₁ (x + 1) y i ↔
      Swept W x₀ x₁ y₀ y₁ x y i ∨ i = y * W + x := by
  have hxW := Nat.lt_of_lt_of_le hx₁ hW
  constructor
  · rintro ⟨hin, hrow | ⟨hrow, hcol⟩⟩
    · exact .inl ⟨hin, .inl hrow⟩
    · rcases Nat.lt_succ_iff_lt_or_eq.mp hcol with hlt | heq
      · exact .inl ⟨hin, .inr ⟨hrow, hlt⟩⟩
      · exact .inr (eq_place hrow heq)
  · rintro (⟨hin, hdone⟩ | rfl)
    · exact ⟨hin, hdone.imp_right (And.imp_right Nat.lt_succ_of_lt)⟩
    · rw [Swept, InRect, place_div hxW, place_mod hxW]
      exact ⟨⟨⟨hx₀, hx₁⟩, hy₀, hy₁⟩, .inr ⟨rfl, Nat.lt_succ_self x⟩⟩

/-- The array when the loops come to cell `(x, y)`. -/
def UpTo (W x₀ x₁ y₀ y₁ : ℕ) (v : (ℕ → α) → ℕ → α) (m : ℕ → α) (x y : ℕ) (m' : ℕ → α) : Prop :=
  ∀ i, m' i = if Swept W x₀ x₁ y₀ y₁ x y i then v m i else m i

section Steps

variable {x y x' y' : ℕ} {m' : ℕ → α}

theorem UpTo.move (h : UpTo W x₀ x₁ y₀ y₁ v m x y m')
    (hiff : ∀ i, InRect W x₀ x₁ y₀ y₁ i → ((i / W < y ∨ i / W = y ∧ i % W < x) ↔
      (i / W < y' ∨ i / W = y' ∧ i % W < x'))) : UpTo W x₀ x₁ y₀ y₁ v m x' y' m' :=
  fun i => (h i).trans (if_congr (and_congr_right (hiff i)) rfl rfl)

/-- A cell is written… -/
theorem UpTo.cell (hv : LooksAhead v) (hW : 0 < W) (hx : x₁ ≤ W) (hx₀ : x₀ ≤ x) (hx₁ : x < x₁)
    (hy₀ : y₀ ≤ y) (hy₁ : y < y₁) (h : UpTo W x₀ x₁ y₀ y₁ v m x y m') :
    UpTo W x₀ x₁ y₀ y₁ v m (x + 1) y
      (Function.update m' (y * W + x) (v m' (y * W + x))) := by
  intro i
  have hvalue : v m' (y * W + x) = v m (y * W + x) :=
    hv m m' _ fun j hj => (h j).trans (if_neg (not_swept hW hj))
  by_cases hi : i = y * W + x
  · rw [hi, Function.update_self, hvalue, if_pos]
    exact (swept_succ hx₀ hx₁ hy₀ hy₁ hx).mpr (.inr rfl)
  · rw [Function.update_of_ne hi, h i]
    refine if_congr ?_ rfl rfl
    rw [swept_succ hx₀ hx₁ hy₀ hy₁ hx, or_iff_left hi]

/-- …and so is a row. -/
theorem UpTo.row (hv : LooksAhead v) (hW : 0 < W) (hx : x₁ ≤ W) (hy₀ : y₀ ≤ y) (hy₁ : y < y₁)
    (h : UpTo W x₀ x₁ y₀ y₁ v m 0 y m') :
    UpTo W x₀ x₁ y₀ y₁ v m 0 (y + 1) (countUp x₀ x₁
      (fun x m => Function.update m (y * W + x) (v m (y * W + x))) m') := by
  rcases Nat.lt_or_ge x₁ x₀ with hlt | hx₀
  · rw [countUp_of_le (Nat.le_of_lt hlt)]
    refine h.move fun i hin => ?_
    have hcol := hin.1
    omega
  have hbegin : UpTo W x₀ x₁ y₀ y₁ v m x₀ y m' := h.move fun i hin => by
    have hcol := hin.1
    omega
  refine UpTo.move (countUp_keeps (P := fun x m' => UpTo W x₀ x₁ y₀ y₁ v m x y m') hx₀ hbegin
    fun x m' hlo hhi => UpTo.cell hv hW hx hlo hhi hy₀ hy₁) fun i hin => ?_
  have hcol := hin.1
  omega

end Steps

/-- **The loops paint the rectangle.** -/
theorem sweep_apply (hv : LooksAhead v) (hW : 0 < W) (hx : x₁ ≤ W) (i : ℕ) :
    sweep W x₀ x₁ y₀ y₁ v m i = if InRect W x₀ x₁ y₀ y₁ i then v m i else m i := by
  rcases Nat.lt_or_ge y₁ y₀ with hlt | hy
  · rw [sweep, countUp_of_le (Nat.le_of_lt hlt), if_neg]
    rintro ⟨-, hlow, hhigh⟩
    omega
  have hbegin : UpTo W x₀ x₁ y₀ y₁ v m 0 y₀ m := by
    intro i
    rw [if_neg]
    rintro ⟨hin, hdone⟩
    have hlow := hin.2.1
    omega
  have hend : UpTo W x₀ x₁ y₀ y₁ v m 0 y₁ (sweep W x₀ x₁ y₀ y₁ v m) :=
    countUp_keeps (P := fun y m' => UpTo W x₀ x₁ y₀ y₁ v m 0 y m') hy hbegin
      fun y m' hlo hhi => UpTo.row hv hW hx hlo hhi
  exact (hend i).trans (if_congr ⟨And.left, fun hin => ⟨hin, .inl hin.2.2⟩⟩ rfl rfl)

end Rectangles

end Machinery
