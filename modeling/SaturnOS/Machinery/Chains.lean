import Mathlib.Tactic.Common

/-!
# Machinery/Chains — lists whose links stand in memory

    p ──▸ n₁ ──▸ n₂ ──▸ ⋯ ──▸ nₖ ──▸ q        R nᵢ pᵢ pᵢ₊₁ : nᵢ stands at pᵢ and links to pᵢ₊₁

A chain is a list of nodes and the relation `R` that a node has to the place it stands at and the
place it links to.  Chains are cut and joined (`links_append`), and a chain depends on its own nodes
only (`Links.imp`): what an update elsewhere leaves is a chain again.
-/

namespace Machinery

variable {N A : Type*} {R R' : N → A → A → Prop} {p q r : A} {n : N} {l l' : List N}

/-- The nodes stand one after the other from `p` on, and the last links to `q`. -/
def Links (R : N → A → A → Prop) : A → List N → A → Prop
  | p, [], q => p = q
  | p, n :: l, q => ∃ r, R n p r ∧ Links R r l q

@[simp] theorem links_nil : Links R p [] q ↔ p = q := Iff.rfl

theorem links_cons : Links R p (n :: l) q ↔ ∃ r, R n p r ∧ Links R r l q := Iff.rfl

/-- **A chain is cut where one likes.** -/
theorem links_append : Links R p (l ++ l') q ↔ ∃ r, Links R p l r ∧ Links R r l' q := by
  induction l generalizing p with
  | nil => exact ⟨fun h => ⟨p, rfl, h⟩, fun ⟨_, h, h'⟩ => h ▸ h'⟩
  | cons n l ih =>
    rw [List.cons_append, links_cons]
    constructor
    · rintro ⟨s, hn, hs⟩
      obtain ⟨r, hl, hl'⟩ := ih.mp hs
      exact ⟨r, ⟨s, hn, hl⟩, hl'⟩
    · rintro ⟨r, ⟨s, hn, hl⟩, hl'⟩
      exact ⟨s, hn, ih.mpr ⟨r, hl, hl'⟩⟩

/-- …at one of its nodes: what stands before it, the node, and what stands after it. -/
theorem links_middle : Links R p (l ++ n :: l') q ↔
    ∃ a b, Links R p l a ∧ R n a b ∧ Links R b l' q := by
  rw [links_append]
  constructor
  · rintro ⟨a, hl, b, hn, hl'⟩
    exact ⟨a, b, hl, hn, hl'⟩
  · rintro ⟨a, b, hl, hn, hl'⟩
    exact ⟨a, hl, b, hn, hl'⟩

/-- **Frame**: a chain is a chain of any relation that its nodes have too. -/
theorem Links.imp (h : Links R p l q) (hR : ∀ n ∈ l, ∀ a b, R n a b → R' n a b) :
    Links R' p l q := by
  induction l generalizing p with
  | nil => exact h
  | cons n l ih =>
    obtain ⟨r, hn, hl⟩ := h
    exact ⟨r, hR n List.mem_cons_self p r hn, ih hl fun n' hn' =>
      hR n' (List.mem_cons_of_mem n hn')⟩

end Machinery
