import Mathlib.Tactic.Common
import Mathlib.Data.List.Rotate
import Mathlib.Order.Lattice

/-!
# Machinery/Turns — taking turns

    l = a₁ < ⋯ < aₖ ≤ c < aₖ₊₁ < ⋯ < aₙ          after c:  aₖ₊₁ ⋯ aₙ a₁ ⋯ aₖ

Round robin gives the turn to the first of `rotated l c`, the members of `l` after `c` and then
those up to it, and goes on from there.  Then the turns come in the order of `rotated l c`, so that
each member has one before any has another (`turns_eq`), whether or not `c` is a member.
-/

namespace Machinery

section Turns

variable {α : Type*} [LinearOrder α] {l lo hi : List α} {c a : α}

/-- What comes after `c`, and then what comes up to it. -/
def rotated (l : List α) (c : α) : List α := l.filter (c < ·) ++ l.filter (· ≤ c)

/-- The next so many turns, each taken after the last. -/
def turns (l : List α) : α → ℕ → List α
  | _, 0 => []
  | c, n + 1 =>
    match (rotated l c).head? with
    | none => []
    | some a => a :: turns l a n

theorem perm_rotated (l : List α) (c : α) : (rotated l c).Perm l := by
  have hle : (fun x => decide (x ≤ c)) = fun x => !decide (c < x) :=
    funext fun x => by rw [← decide_not]; exact decide_eq_decide.mpr not_lt.symm
  rw [rotated, hle]
  exact List.filter_append_perm (fun x => decide (c < x)) l

/-- A list cut after `c`. -/
theorem rotated_append (hlo : ∀ x ∈ lo, x ≤ c) (hhi : ∀ x ∈ hi, c < x) :
    rotated (lo ++ hi) c = hi ++ lo := by
  have hlo' : ∀ x ∈ lo, ¬ decide (c < x) = true := fun x hx => by simpa using hlo x hx
  have hhi' : ∀ x ∈ hi, ¬ decide (x ≤ c) = true := fun x hx => by simpa using hhi x hx
  rw [rotated, List.filter_append, List.filter_append, List.filter_eq_nil_iff.mpr hlo',
    List.filter_eq_nil_iff.mpr hhi', List.filter_eq_self.mpr fun x hx => decide_eq_true (hhi x hx),
    List.filter_eq_self.mpr fun x hx => decide_eq_true (hlo x hx), List.nil_append, List.append_nil]

/-- A sorted list is what comes up to `c` and what comes after. -/
theorem sorted_split (h : l.Pairwise (· < ·)) (c : α) :
    l = l.filter (· ≤ c) ++ l.filter (c < ·) := by
  induction l with
  | nil => rfl
  | cons a l ih =>
    obtain ⟨ha, hl⟩ := List.pairwise_cons.mp h
    by_cases hac : a ≤ c
    · rw [List.filter_cons_of_pos (by simpa using hac), List.filter_cons_of_neg
        (by simpa using hac),
        List.cons_append, ← ih hl]
    · -- everything after `a` is after `c` too
      rw [not_le] at hac
      have hafter : ∀ x ∈ l, c < x := fun x hx => hac.trans (ha x hx)
      rw [List.filter_cons_of_neg (by simpa using hac), List.filter_cons_of_pos
        (by simpa using hac),
        List.filter_eq_nil_iff.mpr fun x hx => by simpa using hafter x hx,
        List.filter_eq_self.mpr fun x hx => decide_eq_true (hafter x hx), List.nil_append]

/-- **Once `a` has had the turn, it is the last to have it again.** -/
theorem rotated_next {r : List α} (h : l.Pairwise (· < ·)) (hr : rotated l c = a :: r) :
    rotated l a = r ++ [a] := by
  set lo := l.filter (· ≤ c) with hlo
  set hi := l.filter (c < ·) with hhi
  have hsplit : l = lo ++ hi := sorted_split h c
  have hlow : ∀ x ∈ lo, x ≤ c := fun x hx => by simpa using (List.mem_filter.mp hx).2
  have hhigh : ∀ x ∈ hi, c < x := fun x hx => by simpa using (List.mem_filter.mp hx).2
  rw [hsplit, rotated_append hlow hhigh] at hr
  rw [hsplit] at h ⊢
  cases hhi' : hi with
  | nil =>
    -- nothing comes after `c`: the turn goes to the first of all
    rw [hhi', List.nil_append] at hr
    rw [hr, List.append_nil]
    rw [hhi', List.append_nil, hr] at h
    exact @rotated_append _ _ [a] _ _ (by simp) (List.pairwise_cons.mp h).1
  | cons b s =>
    rw [hhi', List.cons_append] at hr
    obtain ⟨rfl, rfl⟩ := List.cons.inj hr
    rw [hhi'] at h hhigh
    have hcb : c < b := hhigh b List.mem_cons_self
    have hs : ∀ x ∈ s, b < x := (List.pairwise_cons.mp (List.pairwise_append.mp h).2.1).1
    have hcut : lo ++ b :: s = (lo ++ [b]) ++ s := by rw [List.append_assoc, List.singleton_append]
    rw [hcut, rotated_append (fun x hx => ?_) hs, List.append_assoc]
    rcases List.mem_append.mp hx with hx | hx
    · exact (hlow x hx).trans hcb.le
    · exact (List.mem_singleton.mp hx).le

/-- **The turns come in order.** -/
theorem turns_eq_take {n : ℕ} (h : l.Pairwise (· < ·)) (hn : n ≤ l.length) :
    turns l c n = (rotated l c).take n := by
  induction n generalizing c with
  | zero => rfl
  | succ n ih =>
    have hlen : (rotated l c).length = l.length := (perm_rotated l c).length_eq
    cases hr : rotated l c with
    | nil =>
      rw [hr, List.length_nil] at hlen
      omega
    | cons a r =>
      rw [hr, List.length_cons] at hlen
      have hnext : (rotated l a).take n = r.take n := by
        rw [rotated_next h hr, List.take_append_of_le_length (by omega)]
      rw [turns, hr, List.head?_cons, List.take_succ_cons, ← hnext]
      exact congrArg (a :: ·) (ih (by omega))

/-- **…one for each.** -/
theorem turns_eq (h : l.Pairwise (· < ·)) : turns l c l.length = rotated l c := by
  rw [turns_eq_take h le_rfl]
  exact List.take_of_length_le (perm_rotated l c).length_eq.le

/-- The turn goes to the first that will take it. -/
theorem head?_rotated_filter (p : α → Bool) (l : List α) (c : α) :
    (rotated (l.filter p) c).head? = (rotated l c).find? p := by
  rw [← List.head?_filter, rotated, rotated, List.filter_append,
    List.filter_comm (c < ·), List.filter_comm (· ≤ c)]

end Turns

/-- The places from `c + 1` on, all the way round. -/
theorem rotated_range {n c : ℕ} (hc : c < n) :
    rotated (List.range n) c = (List.range n).map fun i => (c + (i + 1)) % n := by
  have hcut : List.range n = (List.range n).take (c + 1) ++ (List.range n).drop (c + 1) :=
    (List.take_append_drop _ _).symm
  have hrotate : rotated (List.range n) c = (List.range n).rotate (c + 1) := by
    rw [List.rotate_eq_drop_append_take (by rw [List.length_range]; omega)]
    nth_rewrite 1 [hcut]
    refine rotated_append (fun x hx => ?_) fun x hx => ?_
    · rw [List.take_range, List.mem_range] at hx
      omega
    · obtain ⟨i, hi, rfl⟩ := List.mem_drop_iff_getElem.mp hx
      rw [List.getElem_range]
      omega
  rw [hrotate]
  refine List.ext_getElem (by simp) fun i h₁ h₂ => ?_
  rw [List.getElem_rotate, List.getElem_range, List.getElem_map, List.getElem_range,
    List.length_range]
  congr 1
  omega

end Machinery
