import SaturnOS.Machinery.Loops

/-!
# Machinery/Scans — one thing after another, and loops that skip

    a₀ a₁ a₂ a₃ a₄ a₅ ⋯          scan: each in turn, up to the first that decides
    a₀ ─────▸ a₃ ───▸ a₅ ⋯       a loop: past those that would change nothing

A scan looks at the things of a list in their order and remembers something; one of them may decide
the result at once.  A loop that goes from one thing to a later one has the result of the scan when
the things in between would not have changed what is remembered (`leaves_scan`).
-/

namespace Machinery

variable {α σ ρ κ : Type*} {look : σ → α → σ ⊕ ρ} {finish : σ → ρ} {l r : List α} {s : σ}

/-- Each in turn, up to the first that decides. -/
def lookThrough (look : σ → α → σ ⊕ ρ) (finish : σ → ρ) : List α → σ → ρ
  | [], s => finish s
  | a :: l, s =>
    match look s a with
    | .inl s' => lookThrough look finish l s'
    | .inr r => r

theorem lookThrough_inl {a : α} {s' : σ} (h : look s a = .inl s') :
    lookThrough look finish (a :: l) s = lookThrough look finish l s' := by
  rw [lookThrough, h]

theorem lookThrough_inr {a : α} {x : ρ} (h : look s a = .inr x) :
    lookThrough look finish (a :: l) s = x := by
  rw [lookThrough, h]

/-- **What changes nothing can be skipped.** -/
theorem lookThrough_skip (h : ∀ a ∈ l, look s a = .inl s) :
    lookThrough look finish (l ++ r) s = lookThrough look finish r s := by
  induction l with
  | nil => rfl
  | cons a l ih =>
    obtain ⟨ha, hl⟩ := List.forall_mem_cons.mp h
    rw [List.cons_append, lookThrough_inl ha, ih hl]

/-- A turn at `a`, with `l` after it: the loop decides as the scan does, or goes on past things that
would change nothing. -/
def TurnsAt (look : σ → α → σ ⊕ ρ) (body : κ → κ ⊕ ρ) (I : κ → Prop) (rest : κ → List α)
    (seen : κ → σ) (c : κ) (a : α) (l : List α) : Prop :=
  (∃ x, look (seen c) a = .inr x ∧ body c = .inr x) ∨
    ∃ c' skipped, look (seen c) a = .inl (seen c') ∧ body c = .inl c' ∧ I c' ∧
      l = skipped ++ rest c' ∧ ∀ b ∈ skipped, look (seen c') b = .inl (seen c')

variable (finish) in
/-- **A loop that skips has the result of the scan**, and ends. -/
theorem leaves_scan {body : κ → κ ⊕ ρ} {I : κ → Prop} {rest : κ → List α} {seen : κ → σ}
    (hdone : ∀ c, I c → rest c = [] → body c = .inr (finish (seen c)))
    (hturn : ∀ c a l, I c → rest c = a :: l → TurnsAt look body I rest seen c a l) {c : κ}
    (hc : I c) : Leaves body c (lookThrough look finish (rest c) (seen c)) := by
  -- on the length of what is left, which every turn makes shorter
  induction hn : (rest c).length using Nat.strongRecOn generalizing c with
  | ind n ih =>
    cases hrest : rest c with
    | nil => exact (leaves_end (hdone c hc hrest)).mpr rfl
    | cons a l =>
      rcases hturn c a l hc hrest with
        ⟨x, hlook, hbody⟩ | ⟨c', skipped, hlook, hbody, hc', hl, hskip⟩
      · rw [lookThrough_inr hlook]
        exact (leaves_end hbody).mpr rfl
      · rw [lookThrough_inl hlook, hl, lookThrough_skip hskip, leaves_next hbody]
        refine ih _ ?_ hc' rfl
        rw [← hn, hrest, hl, List.length_cons, List.length_append]
        omega

end Machinery
