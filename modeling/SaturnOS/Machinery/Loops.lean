import Mathlib.Tactic.Common

/-!
# Machinery/Loops — loops that may not end

    s₀ ──▸ s₁ ──▸ ⋯ ──▸ sₙ ──▸ r        body sᵢ = .inl sᵢ₊₁,  body sₙ = .inr r

A loop is its body: from a state it goes on with another, or leaves with a result.  `loop` runs it
for so many turns; it `Leaves` with a result when some number of turns is enough, and no larger
number changes the result.
-/

namespace Machinery

variable {σ ρ : Type*}

/-- At most so many turns. -/
def loop (body : σ → σ ⊕ ρ) : ℕ → σ → Option ρ
  | 0, _ => none
  | n + 1, s =>
    match body s with
    | .inl s' => loop body n s'
    | .inr r => some r

/-- The loop ends, with `r`. -/
def Leaves (body : σ → σ ⊕ ρ) (s : σ) (r : ρ) : Prop := ∃ n, loop body n s = some r

variable {body : σ → σ ⊕ ρ} {s s' : σ} {r r' : ρ}

theorem loop_next (h : body s = .inl s') (n : ℕ) : loop body (n + 1) s = loop body n s' := by
  rw [loop, h]

theorem loop_end (h : body s = .inr r) (n : ℕ) : loop body (n + 1) s = some r := by
  rw [loop, h]

/-- **More turns change nothing.** -/
theorem loop_mono {n m : ℕ} (h : loop body n s = some r) (hle : n ≤ m) :
    loop body m s = some r := by
  induction n generalizing s m with
  | zero => cases h
  | succ n ih =>
    obtain ⟨m, rfl⟩ := Nat.exists_eq_add_of_le' (Nat.lt_of_lt_of_le (Nat.succ_pos n) hle)
    cases hbody : body s with
    | inl s' =>
      rw [loop_next hbody] at h ⊢
      exact ih h (Nat.le_of_succ_le_succ hle)
    | inr r' =>
      rw [loop_end hbody] at h ⊢
      exact h

/-- Enough turns give one result. -/
theorem loop_unique {n m : ℕ} (h : loop body n s = some r) (h' : loop body m s = some r') :
    r = r' :=
  Option.some.inj ((loop_mono h (Nat.le_max_left n m)).symm.trans
    (loop_mono h' (Nat.le_max_right n m)))

/-- **The invariant rule for loops**: what every turn keeps and the last one turns into `J` holds of
the result. -/
theorem loop_keeps {I : σ → Prop} {J : ρ → Prop} (hnext : ∀ s s', I s → body s = .inl s' → I s')
    (hend : ∀ s r, I s → body s = .inr r → J r) {n : ℕ} (hI : I s) (h : loop body n s = some r) :
    J r := by
  induction n generalizing s with
  | zero => cases h
  | succ n ih =>
    cases hbody : body s with
    | inl s' =>
      rw [loop_next hbody] at h
      exact ih (hnext s s' hI hbody) h
    | inr r' =>
      rw [loop_end hbody] at h
      obtain rfl := Option.some.inj h
      exact hend s r' hI hbody

/-- A turn that goes on. -/
theorem leaves_next (h : body s = .inl s') : Leaves body s r ↔ Leaves body s' r := by
  constructor
  · rintro ⟨_ | n, hn⟩
    · cases hn
    · rw [loop_next h] at hn
      exact ⟨n, hn⟩
  · rintro ⟨n, hn⟩
    exact ⟨n + 1, (loop_next h n).trans hn⟩

/-- A turn that leaves. -/
theorem leaves_end (h : body s = .inr r') : Leaves body s r ↔ r = r' := by
  constructor
  · rintro ⟨_ | n, hn⟩
    · cases hn
    · rw [loop_end h] at hn
      exact (Option.some.inj hn).symm
  · rintro rfl
    exact ⟨1, loop_end h 0⟩

/-- **Turn after turn**: a loop leaves from where a stretch of turns has led. -/
theorem leaves_through (f : ℕ → σ) (n : ℕ) (h : ∀ i, i < n → body (f i) = .inl (f (i + 1))) :
    Leaves body (f 0) r ↔ Leaves body (f n) r := by
  induction n with
  | zero => exact Iff.rfl
  | succ n ih =>
    rw [ih fun i hi => h i (Nat.lt_succ_of_lt hi)]
    exact leaves_next (h n (Nat.lt_succ_self n))

end Machinery
