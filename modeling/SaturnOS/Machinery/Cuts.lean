import Mathlib.Tactic.Common
import Mathlib.Algebra.BigOperators.Group.List.Basic
import Mathlib.Algebra.GroupWithZero.Nat

/-!
# Machinery/Cuts — a list, piece after piece

    l = │ n₁ │ n₂ │ ⋯ │ nₖ │ …          cuts [n₁, …, nₖ] l

`cuts` takes so many elements at a time and so gives the list back from its start, in order and
without a gap (`flatten_take_cuts`); where every cut takes something, the first empty piece comes
after the whole list (`flatten_of_cut_nil`) and comes as soon as that (`cut_nil_of_le`).
-/

namespace Machinery

variable {α : Type*} {ns : List ℕ} {l : List α} {k n : ℕ}

/-- Pieces of the given lengths, from the start on; shorter, then empty, where the list ends. -/
def cuts : List ℕ → List α → List (List α)
  | [], _ => []
  | n :: ns, l => l.take n :: cuts ns (l.drop n)

@[simp] theorem length_cuts (ns : List ℕ) (l : List α) : (cuts ns l).length = ns.length := by
  induction ns generalizing l with
  | nil => rfl
  | cons n ns ih => rw [cuts, List.length_cons, ih, List.length_cons]

theorem getElem?_cuts : (cuts ns l)[k]? = (ns[k]?).map fun n =>
    (l.drop (ns.take k).sum).take n := by
  induction ns generalizing l k with
  | nil => rfl
  | cons n ns ih =>
    cases k with
    | zero => rfl
    | succ k =>
      rw [cuts, List.getElem?_cons_succ, ih, List.getElem?_cons_succ, List.take_succ_cons,
        List.sum_cons]
      refine congrArg (Option.map · _) (funext fun m => ?_)
      rw [List.drop_drop]

/-- **The first pieces are the start of the list.** -/
theorem flatten_take_cuts : ((cuts ns l).take k).flatten = l.take (ns.take k).sum := by
  induction ns generalizing l k with
  | nil => rw [cuts, List.take_nil, List.take_nil, List.sum_nil, List.take_zero, List.flatten_nil]
  | cons n ns ih =>
    cases k with
    | zero => rfl
    | succ k =>
      rw [cuts, List.take_succ_cons, List.flatten_cons, ih, List.take_succ_cons, List.sum_cons,
        List.take_add]

/-- **An empty piece comes after the whole list**… -/
theorem flatten_of_cut_nil (hpos : ∀ n ∈ ns, 0 < n) (h : (cuts ns l)[k]? = some []) :
    ((cuts ns l).take k).flatten = l := by
  rw [getElem?_cuts] at h
  obtain ⟨n, hn, hempty⟩ := Option.map_eq_some_iff.mp h
  have hlength := congrArg List.length hempty
  rw [List.length_take, List.length_drop, List.length_nil] at hlength
  have := hpos n (List.mem_of_getElem? hn)
  rw [flatten_take_cuts, List.take_of_length_le (by omega)]

/-- …and as soon as the pieces before it are long enough. -/
theorem cut_nil_of_le (hk : k < ns.length) (h : l.length ≤ (ns.take k).sum) :
    (cuts ns l)[k]? = some [] := by
  rw [getElem?_cuts, List.getElem?_eq_getElem hk, Option.map_some, List.drop_eq_nil_of_le h,
    List.take_nil]

end Machinery
