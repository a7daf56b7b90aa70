import Mathlib.Data.BitVec
import SaturnOS.Machinery.Bytes
import SaturnOS.Memory.AddressSpace

/-!
# Fs/Path — C strings and paths

    '/' 'a' '/' 'b' 0

A path argument is a NUL-terminated string, its characters without the NUL (`CStr`); a stored path
is bytes in memory, which spell a string only as far as there is a NUL.  `sfs.c` and `vfs.c` have
the comparison and the check of a path each for themselves, with the same code and their own bounds.
-/

open Machinery

namespace SaturnOS

/-- A NUL-terminated string. -/
@[ext] structure CStr where
  chars : List Byte
  noNul : 0 ∉ chars
  deriving DecidableEq

namespace CStr

def length (s : CStr) : ℕ := s.chars.length

/-- The string from its `n`-th character on. -/
def drop (s : CStr) (n : ℕ) : CStr := ⟨s.chars.drop n, fun h => s.noNul (List.mem_of_mem_drop h)⟩

/-- The first `n` characters. -/
def take (s : CStr) (n : ℕ) : CStr := ⟨s.chars.take n, fun h => s.noNul (List.mem_of_mem_take h)⟩

def nil : CStr := ⟨[], List.not_mem_nil⟩

def cons (c : Byte) (h : c ≠ 0) (s : CStr) : CStr :=
  ⟨c :: s.chars, fun hmem => (List.mem_cons.mp hmem).elim (fun heq => h heq.symm) s.noNul⟩

def append (s t : CStr) : CStr :=
  ⟨s.chars ++ t.chars, fun h => (List.mem_append.mp h).elim s.noNul t.noNul⟩

end CStr

/-- The character `/`. -/
def slash : Byte := 0x2F

/-- `path_equals`, of the string at `a` with a path. -/
def pathEquals (m : ℕ → Byte) : ℕ → List Byte → Bool
  | a, [] => m a == 0
  | a, c :: s => m a == c && pathEquals m (a + 1) s

/-- `path_valid`, for paths shorter than `max`. -/
def pathValid (max : ℕ) (path : CStr) : Bool :=
  path.chars.head? == some slash && decide (path.length < max) && decide (1 < path.length)

theorem pathEquals_iff {m : ℕ → Byte} {a : ℕ} {s : List Byte} (h : 0 ∉ s) :
    pathEquals m a s = true ↔ Spells m a s := by
  induction s generalizing a with
  | nil => simp [pathEquals, Spells]
  | cons c s ih =>
    rw [List.mem_cons, not_or] at h
    rw [pathEquals, Bool.and_eq_true, beq_iff_eq, ih h.2, Spells]
    exact (and_iff_right (Ne.symm h.1)).symm

theorem pathEquals_cstr {m : ℕ → Byte} {a : ℕ} (path : CStr) :
    pathEquals m a path.chars = true ↔ Spells m a path.chars := pathEquals_iff path.noNul

/-- A comparison reads no further than the path and its NUL. -/
theorem pathEquals_congr {m m' : ℕ → Byte} {a : ℕ} {s : List Byte}
    (h : ∀ i ≤ s.length, m' (a + i) = m (a + i)) : pathEquals m' a s = pathEquals m a s := by
  induction s generalizing a with
  | nil => rw [pathEquals, pathEquals, show m' a = m a from h 0 (Nat.le_refl 0)]
  | cons c s ih =>
    have hrest : pathEquals m' (a + 1) s = pathEquals m (a + 1) s := by
      refine ih fun i hi => ?_
      rw [Nat.add_assoc, Nat.add_comm 1 i]
      exact h (i + 1) (Nat.succ_le_succ hi)
    rw [pathEquals, pathEquals, show m' a = m a from h 0 (Nat.zero_le _), hrest]

theorem pathValid_iff {max : ℕ} {path : CStr} : pathValid max path = true ↔
    path.chars.head? = some slash ∧ path.length < max ∧ 1 < path.length := by
  simp only [pathValid, Bool.and_eq_true, beq_iff_eq, decide_eq_true_eq, and_assoc]

end SaturnOS
