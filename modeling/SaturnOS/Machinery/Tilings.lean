import Mathlib.Data.Set.Lattice
import Mathlib.Order.CompletePartialOrder
import Mathlib.Tactic.Common

/-!
# Machinery/Tilings — pieces that cover a set once

    S = │  a  │ b │    c    │  d  │

A list of pieces tiles a set when every point of the set lies in one of them and every other point
in none.  Counting makes this additive: pieces are cut, joined and put in any order without a look
at the others (`Tiles.replace`), and `tiles_iff` reads it as disjoint pieces whose union is the set.
-/

namespace Machinery

variable {α : Type*} {l l₁ l₂ : List (Set α)} {S T a b : Set α} {x : α}

open Classical in
/-- How many of the pieces a point lies in. -/
noncomputable def layers (l : List (Set α)) (x : α) : ℕ := l.countP fun a => decide (x ∈ a)

/-- Every point of `S` lies in one piece, every other in none. -/
def Tiles (S : Set α) (l : List (Set α)) : Prop :=
  ∀ x, (x ∈ S → layers l x = 1) ∧ (x ∉ S → layers l x = 0)

/-! ## Counting -/

@[simp] theorem layers_nil : layers [] x = 0 := rfl

theorem layers_append : layers (l₁ ++ l₂) x = layers l₁ x + layers l₂ x :=
  List.countP_append

theorem layers_cons_of_mem (h : x ∈ a) : layers (a :: l) x = layers l x + 1 := by
  simp only [layers, List.countP_cons, h, decide_true, if_true]

theorem layers_cons_of_notMem (h : x ∉ a) : layers (a :: l) x = layers l x := by
  simp only [layers, List.countP_cons, h, decide_false, Bool.false_eq_true, if_false, Nat.add_zero]

theorem layers_eq_zero : layers l x = 0 ↔ ∀ a ∈ l, x ∉ a := by
  simp only [layers, List.countP_eq_zero, decide_eq_true_eq]

/-- A piece cut in two. -/
theorem layers_cut (hS : S = a ∪ b) (h : Disjoint a b) : layers [a, b] x = layers [S] x := by
  subst hS
  by_cases ha : x ∈ a
  · have hb : x ∉ b := Set.disjoint_left.mp h ha
    rw [layers_cons_of_mem ha, layers_cons_of_notMem hb, layers_cons_of_mem
      (Set.mem_union_left b ha)]
  · rw [layers_cons_of_notMem ha]
    by_cases hb : x ∈ b
    · rw [layers_cons_of_mem hb, layers_cons_of_mem (Set.mem_union_right a hb)]
    · rw [layers_cons_of_notMem hb, layers_cons_of_notMem fun h => h.elim ha hb]

/-! ## Tilings -/

/-- **Pieces are replaced by pieces that cover the same points as often.** -/
theorem Tiles.replace (h : Tiles S (l₁ ++ l ++ l₂)) {l' : List (Set α)}
    (hl : ∀ x, layers l' x = layers l x) : Tiles S (l₁ ++ l' ++ l₂) := by
  intro x
  have hx := h x
  rw [layers_append, layers_append] at hx ⊢
  rwa [hl]

/-- A piece beside the set. -/
theorem Tiles.snoc (h : Tiles S l) (hT : Disjoint S T) : Tiles (S ∪ T) (l ++ [T]) := by
  intro x
  rw [layers_append]
  by_cases hx : x ∈ T
  · have hS : x ∉ S := Set.disjoint_right.mp hT hx
    rw [(h x).2 hS, layers_cons_of_mem hx]
    exact ⟨fun _ => rfl, fun hn => absurd (Set.mem_union_right S hx) hn⟩
  · rw [layers_cons_of_notMem hx, layers_nil, Nat.add_zero]
    exact ⟨fun hu => (h x).1 (hu.resolve_right hx), fun hn => (h x).2 fun hS => hn (Or.inl hS)⟩

theorem tiles_nil : Tiles (∅ : Set α) [] := fun _ => ⟨fun h => h.elim, fun _ => rfl⟩

/-- Disjoint pieces cover a point once or not at all. -/
theorem pairwise_disjoint_iff : l.Pairwise Disjoint ↔ ∀ x, layers l x ≤ 1 := by
  induction l with
  | nil => exact ⟨fun _ _ => Nat.zero_le 1, fun _ => List.Pairwise.nil⟩
  | cons a l ih =>
    rw [List.pairwise_cons, ih]
    constructor
    · rintro ⟨ha, hl⟩ x
      by_cases hx : x ∈ a
      · have hzero : layers l x = 0 :=
          layers_eq_zero.mpr fun b hb => Set.disjoint_left.mp (ha b hb) hx
        rw [layers_cons_of_mem hx, hzero]
      · rw [layers_cons_of_notMem hx]
        exact hl x
    · intro h
      refine ⟨fun b hb => Set.disjoint_left.mpr fun x hx hxb => ?_, fun x => ?_⟩
      · have hle := h x
        rw [layers_cons_of_mem hx] at hle
        exact layers_eq_zero.mp (by omega) b hb hxb
      · by_cases hx : x ∈ a
        · have hle := h x
          rw [layers_cons_of_mem hx] at hle
          omega
        · have hle := h x
          rwa [layers_cons_of_notMem hx] at hle

/-- **A tiling: disjoint pieces whose union is the set.** -/
theorem tiles_iff : Tiles S l ↔ l.Pairwise Disjoint ∧ ⋃ a ∈ l, a = S := by
  have hmem : ∀ x, x ∈ ⋃ a ∈ l, a ↔ layers l x ≠ 0 := fun x => by
    rw [Set.mem_iUnion₂, ne_eq, layers_eq_zero]
    push Not
    exact ⟨fun ⟨a, ha, hx⟩ => ⟨a, ha, hx⟩, fun ⟨a, ha, hx⟩ => ⟨a, ha, hx⟩⟩
  rw [pairwise_disjoint_iff]
  constructor
  · intro h
    refine ⟨fun x => ?_, Set.ext fun x => ?_⟩
    · by_cases hx : x ∈ S
      · exact Nat.le_of_eq ((h x).1 hx)
      · rw [(h x).2 hx]
        exact Nat.zero_le 1
    · rw [hmem]
      by_cases hx : x ∈ S
      · rw [(h x).1 hx]
        exact iff_of_true Nat.one_ne_zero hx
      · rw [(h x).2 hx]
        exact iff_of_false (fun h => h rfl) hx
  · rintro ⟨hle, rfl⟩ x
    rw [hmem]
    have := hle x
    exact ⟨fun h => by omega, fun h => by omega⟩

end Machinery
