import Mathlib.Data.List.GetD
import Mathlib.Data.Nat.Notation
import Mathlib.Logic.Function.Basic
import Mathlib.Tactic.Common

/-!
# Machinery/Drafts — a text with a cursor, and a line that shows it

    before │ after             h e l│p m e          Draft
                             ──────────────
                             > h e l p m e _ _      Strip, its column after the `l`

A draft is edited at its cursor.  A strip is a line of unbounded width on which characters are
written one over the other: writing `u` over `x` shows `u` and what of `x` is longer
(`Shows.puts`), and blanks at the end are not seen (`shows_blanks`).
-/

namespace Machinery

variable {α : Type*}

/-! ## Drafts -/

/-- A text, before and after the cursor. -/
@[ext] structure Draft (α : Type*) where
  before : List α
  after : List α

namespace Draft

def text (d : Draft α) : List α := d.before ++ d.after

def insert (c : α) (d : Draft α) : Draft α := ⟨d.before ++ [c], d.after⟩

/-- Without the character before the cursor… -/
def erase (d : Draft α) : Draft α := ⟨d.before.dropLast, d.after⟩

/-- …and without the one after it. -/
def delete (d : Draft α) : Draft α := ⟨d.before, d.after.tail⟩

def left (d : Draft α) : Draft α := ⟨d.before.dropLast, d.before.getLast?.toList ++ d.after⟩

def right (d : Draft α) : Draft α := ⟨d.before ++ d.after.head?.toList, d.after.tail⟩

def home (d : Draft α) : Draft α := ⟨[], d.text⟩

def toEnd (d : Draft α) : Draft α := ⟨d.text, []⟩

end Draft

/-! ## Strips -/

/-- A line of unbounded width, and the column of its cursor. -/
structure Strip (α : Type*) where
  cells : ℕ → α
  column : ℕ

namespace Strip

/-- A character is written over the one at the cursor, which goes on. -/
def put (s : Strip α) (c : α) : Strip α := ⟨Function.update s.cells s.column c, s.column + 1⟩

def back (s : Strip α) : Strip α := { s with column := s.column - 1 }

def blank (a : α) : Strip α := ⟨fun _ => a, 0⟩

/-- The strip shows the text, and then blanks, with the cursor at the column. -/
structure Shows (blank : α) (text : List α) (column : ℕ) (s : Strip α) : Prop where
  cells : ∀ i, s.cells i = text.getD i blank
  column : s.column = column

variable {a : α} {t x u : List α} {p : List α} {k n : ℕ} {s : Strip α}

theorem shows_blank (a : α) : (blank a).Shows a [] 0 := ⟨fun _ => rfl, rfl⟩

theorem Shows.back (h : s.Shows a t k) : s.back.Shows a t (k - 1) :=
  ⟨h.cells, congrArg (· - 1) h.column⟩

theorem Shows.put (h : s.Shows a (p ++ x) p.length) (c : α) :
    (s.put c).Shows a (p ++ c :: x.tail) (p.length + 1) := by
  refine ⟨fun i => ?_, congrArg (· + 1) h.column⟩
  rw [Strip.put, h.column]
  dsimp only
  rcases Nat.lt_trichotomy i p.length with hlt | rfl | hgt
  · rw [Function.update_of_ne (Nat.ne_of_lt hlt), h.cells, List.getD_append _ _ _ _ hlt,
      List.getD_append _ _ _ _ hlt]
  · rw [Function.update_self, List.getD_append_right _ _ _ _ (Nat.le_refl _), Nat.sub_self]
    rfl
  · obtain ⟨j, rfl⟩ := Nat.exists_eq_add_of_lt hgt
    have hle : p.length ≤ p.length + j + 1 := by omega
    rw [Function.update_of_ne (Nat.ne_of_gt hgt), h.cells, List.getD_append_right _ _ _ _ hle,
      List.getD_append_right _ _ _ _ hle, show p.length + j + 1 - p.length = j + 1 by omega]
    cases x with
    | nil => rfl
    | cons y x => rfl

/-- **A text is written over another.** -/
theorem Shows.puts (h : s.Shows a (p ++ x) p.length) (u : List α) :
    (u.foldl Strip.put s).Shows a (p ++ (u ++ x.drop u.length)) (p.length + u.length) := by
  induction u generalizing s p x with
  | nil => exact h
  | cons c u ih =>
    have hput : (s.put c).Shows a ((p ++ [c]) ++ x.tail) (p ++ [c]).length := by
      rw [List.append_assoc, List.length_append]
      exact h.put c
    have hrest := ih hput
    rwa [List.append_assoc, List.drop_tail, List.length_append, Nat.add_assoc,
      Nat.add_comm [c].length] at hrest

/-- **Blanks at the end are not seen.** -/
theorem shows_blanks : s.Shows a (t ++ List.replicate n a) k ↔ s.Shows a t k := by
  have hget : ∀ i, (t ++ List.replicate n a).getD i a = t.getD i a := by
    intro i
    rcases Nat.lt_or_ge i t.length with hlt | hge
    · exact List.getD_append _ _ _ _ hlt
    · rw [List.getD_append_right _ _ _ _ hge, List.getD_eq_default _ _ hge,
        List.getD_eq_getElem?_getD, List.getElem?_replicate]
      split
      · rfl
      · rfl
  exact ⟨fun h => ⟨fun i => (h.cells i).trans (hget i), h.column⟩,
    fun h => ⟨fun i => (h.cells i).trans (hget i).symm, h.column⟩⟩

end Strip

end Machinery
