import Mathlib.Data.List.Destutter
import Mathlib.Data.List.DropRight

/-!
# Machinery/Recents — the last few, with no one twice in a row

    a b b c a a d ──destutter──▸ a b c a d ──rtake 3──▸ c a d

Things come one after the other.  Who remembers so many of them, and passes over one that is the
last already, has no more to look at than what is remembered (`recents_concat`).
-/

namespace Machinery

open List

variable {α : Type*} {n : ℕ} {l : List α} {a b : α}

/-! ## The last few -/

theorem rtake_rtake {m : ℕ} (h : m ≤ n) (l : List α) : (l.rtake n).rtake m = l.rtake m := by
  rw [rtake_eq_reverse_take_reverse, rtake_eq_reverse_take_reverse, rtake_eq_reverse_take_reverse,
    reverse_reverse, take_take, Nat.min_eq_left h]

theorem getLast?_rtake (h : 0 < n) (l : List α) : (l.rtake n).getLast? = l.getLast? := by
  rw [rtake_eq_reverse_take_reverse, getLast?_reverse, head?_take, if_neg (Nat.ne_of_gt h),
    head?_reverse]

theorem rtake_of_length_le (h : l.length ≤ n) : l.rtake n = l := by
  rw [rtake, Nat.sub_eq_zero_of_le h, drop_zero]

/-- A full one loses its first. -/
theorem rtake_concat_full (h : l.length = n) (hn : 0 < n) :
    (l ++ [a]).rtake n = l.tail ++ [a] := by
  obtain ⟨m, rfl⟩ := Nat.exists_eq_succ_of_ne_zero (Nat.ne_of_gt hn)
  rw [rtake_concat_succ, rtake, h, Nat.succ_sub (Nat.le_refl m), Nat.sub_self, drop_one]

/-! ## No one twice in a row -/

section Destutter

variable [DecidableEq α]

theorem destutter'_concat :
    (l ++ [b]).destutter' (· ≠ ·) a
      = if (l.destutter' (· ≠ ·) a).getLast? = some b then l.destutter' (· ≠ ·) a
        else l.destutter' (· ≠ ·) a ++ [b] := by
  induction l generalizing a with
  | nil =>
    by_cases h : a = b
    · simp [h]
    · simp [h]
  | cons c l ih =>
    rw [cons_append]
    by_cases h : a ≠ c
    · obtain ⟨d, l', hl⟩ := exists_cons_of_ne_nil (destutter'_ne_nil l (· ≠ ·) (a := c))
      rw [destutter'_cons_pos _ h, destutter'_cons_pos _ h, ih, hl, getLast?_cons_cons,
        apply_ite (a :: ·)]
      rfl
    · rw [destutter'_cons_neg _ h, destutter'_cons_neg _ h, ih]

/-- **One more** is kept, unless it is the last already. -/
theorem destutter_concat :
    (l ++ [b]).destutter (· ≠ ·)
      = if (l.destutter (· ≠ ·)).getLast? = some b then l.destutter (· ≠ ·)
        else l.destutter (· ≠ ·) ++ [b] := by
  cases l with
  | nil => rfl
  | cons a l => exact destutter'_concat

/-- The last `n`, of which none is the same as the one before it. -/
def recents (n : ℕ) (l : List α) : List α := (l.destutter (· ≠ ·)).rtake n

/-- Another one comes. -/
def remember (n : ℕ) (l : List α) (a : α) : List α :=
  if l.getLast? = some a then l else (l ++ [a]).rtake n

/-- **What is remembered is enough to go on.** -/
theorem recents_concat (h : 0 < n) : recents n (l ++ [a]) = remember n (recents n l) a := by
  obtain ⟨m, rfl⟩ := Nat.exists_eq_succ_of_ne_zero (Nat.ne_of_gt h)
  rw [recents, destutter_concat, remember, recents, getLast?_rtake h]
  split
  · rfl
  · rw [rtake_concat_succ, rtake_concat_succ, rtake_rtake (Nat.le_succ m)]

end Destutter

end Machinery
