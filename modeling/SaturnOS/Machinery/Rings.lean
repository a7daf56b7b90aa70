import Mathlib.Data.BitVec
import Mathlib.Data.List.Basic
import Mathlib.Logic.Function.Basic
import Mathlib.Tactic.Common

/-!
# Machinery/Rings — lists in an array that goes round

    0   1   2   3   4   5   6   7
    │ c │ d │   │   │   │ a │ b │ ◂── size 8, start 5, length 4:  a b … c d
              ▴           ▴
             end        start

The entries of a ring stand one after the other from its start on, modulo its size.  While there is
room one is added at the end (`ringList_push`), and the first is taken by going on by one
(`ringList_pop`); in a full ring the newest entry takes the place of the oldest
(`ringList_overwrite`).  The start and the end may be counters of words: what counts of them is
their distance (`ringWords_push`, `ringWords_pop`).
-/

namespace Machinery

variable {α : Type*} {ring ring' : ℕ → α} {size start length : ℕ} {a : α}

/-- So many entries from `start` on. -/
def ringList (ring : ℕ → α) (size start length : ℕ) : List α :=
  (List.range length).map fun i => ring ((start + i) % size)

@[simp] theorem length_ringList : (ringList ring size start length).length = length := by
  rw [ringList, List.length_map, List.length_range]

theorem ringList_congr (h : ∀ i < length, ring' ((start + i) % size) = ring ((start + i) % size)) :
    ringList ring' size start length = ringList ring size start length :=
  List.map_congr_left fun i hi => h i (List.mem_range.mp hi)

/-- Only the place of the start counts. -/
theorem ringList_start {start' : ℕ} (h : start' % size = start % size) :
    ringList ring size start' length = ringList ring size start length := by
  refine List.map_congr_left fun i _ => ?_
  rw [← Nat.mod_add_mod start', h, Nat.mod_add_mod]

/-- Places of a ring are apart. -/
theorem ring_place_ne {i j : ℕ} (hij : i < j) (hj : j < i + size) :
    (start + i) % size ≠ (start + j) % size := by
  intro heq
  have hdvd := Nat.dvd_of_mod_eq_zero (Nat.sub_mod_eq_zero_of_mod_eq heq.symm)
  rw [Nat.add_sub_add_left] at hdvd
  exact absurd (Nat.le_of_dvd (Nat.sub_pos_of_lt hij) hdvd) (by omega)

/-- **A place behind the entries may be written**. -/
theorem ringList_write (h : length < size) :
    ringList (Function.update ring ((start + length) % size) a) size start length
      = ringList ring size start length :=
  ringList_congr fun _ hi => Function.update_of_ne (ring_place_ne hi (by omega)) _ _

theorem ringList_succ :
    ringList ring size start (length + 1)
      = ringList ring size start length ++ [ring ((start + length) % size)] := by
  rw [ringList, List.range_succ, List.map_append]
  rfl

/-- …and is then the last of them. -/
theorem ringList_push (h : length < size) :
    ringList (Function.update ring ((start + length) % size) a) size start (length + 1)
      = ringList ring size start length ++ [a] := by
  rw [ringList_succ, ringList_write h, Function.update_self]

/-- **The first entry**, and the others. -/
theorem ringList_pop : ringList ring size start (length + 1)
    = ring (start % size) :: ringList ring size (start + 1) length := by
  rw [ringList, List.range_succ_eq_map, List.map_cons, List.map_map]
  refine congrArg (_ :: ·) (List.map_congr_left fun i _ => ?_)
  show ring ((start + (i + 1)) % size) = _
  rw [Nat.add_assoc, Nat.add_comm 1 i]

/-- **In a full ring the newest entry takes the place of the oldest.** -/
theorem ringList_overwrite (h : 0 < size) :
    ringList (Function.update ring (start % size) a) size (start + 1) size
      = (ringList ring size start size).tail ++ [a] := by
  obtain ⟨n, rfl⟩ := Nat.exists_eq_succ_of_ne_zero (Nat.ne_of_gt h)
  have hplace : (start + 1 + n) % (n + 1) = start % (n + 1) := by
    rw [Nat.add_assoc, Nat.add_comm 1 n, Nat.add_mod_right]
  have hpush := @ringList_push _ ring (n + 1) (start + 1) n a (Nat.lt_succ_self n)
  rw [hplace] at hpush
  rw [Nat.succ_eq_add_one, hpush, ringList_pop]
  rfl

/-! ## Counters of words -/

section Counters

variable {w : ℕ} {head tail : BitVec w}

/-- The entries from one counter to another. -/
def ringWords (ring : ℕ → α) (size : ℕ) (head tail : BitVec w) : List α :=
  ringList ring size head.toNat (tail - head).toNat

@[simp] theorem length_ringWords : (ringWords ring size head tail).length = (tail - head).toNat :=
  length_ringList

@[simp] theorem ringWords_self : ringWords ring size head head = [] := by
  rw [ringWords, BitVec.sub_self]
  rfl

/-- The place of a counter is that of its distance from another. -/
theorem place_eq (hsize : size ∣ 2 ^ w) :
    (head.toNat + (tail - head).toNat) % size = tail.toNat % size := by
  obtain ⟨k, hk⟩ := hsize
  have hsum : (head.toNat + (tail - head).toNat) % 2 ^ w = tail.toNat := by
    rw [← BitVec.toNat_add, BitVec.add_comm, BitVec.sub_add_cancel]
  rw [← hsum, hk, Nat.mod_mul_right_mod]

theorem ringWords_write (hsize : size ∣ 2 ^ w) (h : (tail - head).toNat < size) :
    ringWords (Function.update ring (tail.toNat % size) a) size head tail
      = ringWords ring size head tail := by
  rw [ringWords, ← place_eq hsize]
  exact ringList_write h

/-- **The next entry**, behind the others, where there is room. -/
theorem ringWords_push (hsize : size ∣ 2 ^ w) (hlt : size < 2 ^ w)
    (h : (tail - head).toNat < size) : ringWords ring size head (tail + 1#w)
      = ringWords ring size head tail ++ [ring (tail.toNat % size)] := by
  have hone : (1#w).toNat = 1 := by
    rw [BitVec.toNat_ofNat, Nat.mod_eq_of_lt (by omega)]
  have hlength : (tail + 1#w - head).toNat = (tail - head).toNat + 1 := by
    rw [add_sub_right_comm, BitVec.toNat_add, hone, Nat.mod_eq_of_lt (by omega)]
  rw [ringWords, hlength, ringList_succ, place_eq hsize, ringWords]

/-- **The first entry**, where there is one. -/
theorem ringWords_pop (hsize : size ∣ 2 ^ w) (hne : head ≠ tail) : ringWords ring size head tail
    = ring (head.toNat % size) :: ringWords ring size (head + 1#w) tail := by
  have hpos : 0 < (tail - head).toNat := by
    refine Nat.pos_of_ne_zero fun hzero => hne ?_
    exact (sub_eq_zero.mp (BitVec.eq_of_toNat_eq hzero)).symm
  have hle : 1#w ≤ tail - head := by
    rw [BitVec.le_def, BitVec.toNat_ofNat]
    exact (Nat.mod_le 1 _).trans hpos
  have hone : (1#w).toNat = 1 := by
    rw [BitVec.toNat_ofNat, Nat.mod_eq_of_lt (by have := (tail - head).isLt; omega)]
  have hlength : (tail - head).toNat = (tail - (head + 1#w)).toNat + 1 := by
    rw [sub_add_eq_sub_sub, BitVec.toNat_sub_of_le hle, hone]
    omega
  have hstart : (head + 1#w).toNat % size = (head.toNat + 1) % size := by
    obtain ⟨k, hk⟩ := hsize
    rw [BitVec.toNat_add, hone, hk, Nat.mod_mul_right_mod]
  rw [ringWords, hlength, ringList_pop, ringWords, ringList_start hstart]

end Counters

end Machinery
