import Mathlib.Data.Nat.Notation
import Mathlib.Tactic.Common

/-!
# Machinery/Terminals — a grid of characters and a cursor

    row 0   │ h e l l o        │
    row 1   │ w o r _          │        put: draw and go right
      ⋮     │                  │        newline: go down, or scroll
            └──────────────────┘ columns

A character is drawn in the cell of the cursor, which moves on to the next line at the end of one;
below the last line the grid moves up by a row and the last row is blank.
-/

namespace Machinery

/-- A grid, row by row, and the cell of the cursor. -/
structure Terminal (α : Type*) where
  grid : ℕ → ℕ → α
  row : ℕ
  column : ℕ

namespace Terminal

variable {α : Type*} (rows columns : ℕ) (blank : α)

/-- To the first column of the next row, or the grid moves up by one and the cursor stays in the
last. -/
def newline (t : Terminal α) : Terminal α :=
  if t.row + 1 < rows then { t with row := t.row + 1, column := 0 }
  else
    { t with
      grid := fun r c => if r + 1 < rows then t.grid (r + 1) c else blank
      column := 0 }

/-- One column on, or to the next line at the end of one. -/
def advance (t : Terminal α) : Terminal α :=
  if t.column + 1 < columns then { t with column := t.column + 1 } else t.newline rows blank

/-- The character in the cell of the cursor. -/
def draw (a : α) (t : Terminal α) : Terminal α :=
  { t with grid := fun r c => if r = t.row ∧ c = t.column then a else t.grid r c }

/-- Draw and go on. -/
def put (a : α) (t : Terminal α) : Terminal α := (t.draw a).advance rows columns blank

/-- One column back, and no further than to the first. -/
def back (t : Terminal α) : Terminal α := { t with column := t.column - 1 }

/-- To the first column. -/
def home (t : Terminal α) : Terminal α := { t with column := 0 }

/-- The cursor is in the grid. -/
structure InGrid (t : Terminal α) : Prop where
  row : t.row < rows
  column : t.column < columns

variable {rows columns blank} {t : Terminal α}

/-- **Every move keeps the cursor in the grid**: to a new line… -/
theorem InGrid.newline (h : t.InGrid rows columns) :
    (t.newline rows blank).InGrid rows columns := by
  have hpos := Nat.zero_lt_of_lt h.column
  rw [Terminal.newline]
  split
  · exact ⟨‹_›, hpos⟩
  · exact ⟨h.row, hpos⟩

/-- …a column on… -/
theorem InGrid.advance (h : t.InGrid rows columns) :
    (t.advance rows columns blank).InGrid rows columns := by
  rw [Terminal.advance]
  split
  · exact ⟨h.row, ‹_›⟩
  · exact h.newline

/-- …with a character drawn first… -/
theorem InGrid.put (h : t.InGrid rows columns) (a : α) :
    (t.put rows columns blank a).InGrid rows columns :=
  InGrid.advance (t := t.draw a) ⟨h.row, h.column⟩

/-- …a column back… -/
theorem InGrid.back (h : t.InGrid rows columns) : t.back.InGrid rows columns :=
  ⟨h.row, Nat.lt_of_le_of_lt (Nat.sub_le _ _) h.column⟩

/-- …and to the first. -/
theorem InGrid.home (h : t.InGrid rows columns) : t.home.InGrid rows columns :=
  ⟨h.row, Nat.zero_lt_of_lt h.column⟩

end Terminal

end Machinery
