import Mathlib.Tactic.Common
import Mathlib.Algebra.Group.Nat.Defs
import Mathlib.Data.Nat.Notation

/-!
# Machinery/Bytes — cells, strings and words in a flat memory

    ⋯ │ a │ a+1 │ ⋯ │ a+n−1 │ ⋯        m : ℕ → α

A memory is a function; `blit` copies a range into it and leaves the rest, `cells` reads a range
out.  A string stands in memory as its characters and a zero (`Spells`), a 32-bit word as four
bytes, the low one first.
-/

namespace Machinery

/-! ## Ranges -/

section Cells

variable {α : Type*} {m m' s : ℕ → α} {a i n : ℕ}

/-- `n` cells of `s`, copied to `a`. -/
def blit (m : ℕ → α) (a : ℕ) (s : ℕ → α) (n : ℕ) : ℕ → α :=
  fun i => if a ≤ i ∧ i < a + n then s (i - a) else m i

theorem blit_inside (hi : i < n) : blit m a s n (a + i) = s i := by
  rw [blit, if_pos ⟨Nat.le_add_right a i, Nat.add_lt_add_left hi a⟩, Nat.add_sub_cancel_left]

theorem blit_outside (hi : i < a ∨ a + n ≤ i) : blit m a s n i = m i := by
  rw [blit, if_neg]
  rintro ⟨h, h'⟩
  omega

/-- The `n` cells from `a` on. -/
def cells (m : ℕ → α) (a n : ℕ) : List α := (List.range n).map fun i => m (a + i)

@[simp] theorem length_cells (m : ℕ → α) (a n : ℕ) : (cells m a n).length = n := by
  rw [cells, List.length_map, List.length_range]

theorem getElem?_cells (hi : i < n) : (cells m a n)[i]? = some (m (a + i)) := by
  rw [cells, List.getElem?_map, List.getElem?_range hi]
  rfl

theorem cells_congr {a' : ℕ} (h : ∀ i < n, m' (a' + i) = m (a + i)) :
    cells m' a' n = cells m a n :=
  List.map_congr_left fun i hi => h i (List.mem_range.mp hi)

/-- Nothing outside `[a, b)` differs. -/
def EqOutside (a b : ℕ) (m m' : ℕ → α) : Prop := ∀ i, i < a ∨ b ≤ i → m' i = m i

theorem EqOutside.trans {b : ℕ} {m'' : ℕ → α} (h : EqOutside a b m m') (h' : EqOutside a b m' m'') :
    EqOutside a b m m'' :=
  fun i hi => (h' i hi).trans (h i hi)

theorem EqOutside.mono {a' b b' : ℕ} (h : EqOutside a b m m') (ha : a' ≤ a) (hb : b ≤ b') :
    EqOutside a' b' m m' :=
  fun i hi => h i (hi.imp (fun hlt => Nat.lt_of_lt_of_le hlt ha) fun hle => Nat.le_trans hb hle)

theorem eqOutside_blit (m : ℕ → α) (a : ℕ) (s : ℕ → α) (n : ℕ) :
    EqOutside a (a + n) m (blit m a s n) :=
  fun _ hi => blit_outside hi

/-- A list is read back from where it stands. -/
theorem cells_eq {l : List α} (hn : l.length = n) (h : ∀ i < n, l[i]? = some (m (a + i))) :
    cells m a n = l := by
  subst hn
  refine List.ext_getElem? fun i => ?_
  by_cases hi : i < l.length
  · rw [getElem?_cells hi, h i hi]
  · rw [List.getElem?_eq_none (by rw [length_cells]; omega), List.getElem?_eq_none (by omega)]

/-- One cell is another one. -/
theorem cells_update (m : ℕ → α) (a n j : ℕ) (x : α) :
    cells (Function.update m (a + j) x) a n = (cells m a n).set j x := by
  refine List.ext_getElem? fun i => ?_
  by_cases hi : i < n
  · rw [getElem?_cells hi, List.getElem?_set, length_cells, getElem?_cells hi]
    by_cases hj : j = i
    · subst hj
      rw [if_pos rfl, if_pos hi, Function.update_self]
    · rw [if_neg hj, Function.update_of_ne (by omega)]
  · rw [List.getElem?_eq_none (by rw [length_cells]; omega),
      List.getElem?_eq_none (by rw [List.length_set, length_cells]; omega)]

end Cells

/-! ## Byte strings

A file is the cells up to its size; it is read, cut, extended with zeros and written into. -/

section Extents

variable {α : Type*} {m m' f : ℕ → α} {a i k n n' : ℕ} {l b : List α}

theorem getElem?_cells_eq (m : ℕ → α) (a n i : ℕ) :
    (cells m a n)[i]? = if i < n then some (m (a + i)) else none := by
  split
  · exact getElem?_cells ‹_›
  · rw [List.getElem?_eq_none]
    rw [length_cells]
    omega

/-- Part of a file. -/
theorem cells_read : ((cells m 0 n).drop a).take k = cells m a (min k (n - a)) := by
  refine List.ext_getElem? fun i => ?_
  rw [List.getElem?_take, List.getElem?_drop, getElem?_cells_eq, getElem?_cells_eq, Nat.zero_add]
  by_cases hi : i < min k (n - a)
  · rw [if_pos (by omega), if_pos (by omega), if_pos hi]
  · rw [if_neg hi]
    split
    · rw [if_neg (by omega)]
    · rfl

variable [Zero α]

/-- `l`, cut or extended with zeros to `n`. -/
def resize (l : List α) (n : ℕ) : List α := l.take n ++ List.replicate (n - l.length) 0

/-- `l`, with `b` put over it from `a` on, zeros before it where `l` ends earlier. -/
def splice (l : List α) (a : ℕ) (b : List α) : List α := resize l a ++ b ++ l.drop (a + b.length)

theorem length_resize (l : List α) (n : ℕ) : (resize l n).length = n := by
  rw [resize, List.length_append, List.length_take, List.length_replicate]
  omega

theorem getElem?_resize (l : List α) (n i : ℕ) :
    (resize l n)[i]? = if i < n then some (l[i]?.getD 0) else none := by
  rw [resize, List.getElem?_append, List.length_take]
  split
  · rename_i h
    rw [List.getElem?_take_of_lt (by omega), List.getElem?_eq_getElem (by omega), if_pos (by omega)]
    rfl
  · rename_i h
    rw [List.getElem?_replicate]
    split
    · rw [if_pos (by omega), List.getElem?_eq_none (by omega)]
      rfl
    · rw [if_neg (by omega)]

theorem getElem?_splice (l : List α) (a : ℕ) (b : List α) (i : ℕ) :
    (splice l a b)[i]? = if i < a then some (l[i]?.getD 0)
      else if i < a + b.length then b[i - a]? else l[i]? := by
  rw [splice, List.append_assoc, List.getElem?_append, length_resize]
  split
  · rw [getElem?_resize, if_pos ‹_›]
  · rw [List.getElem?_append]
    split
    · rw [if_pos (by omega)]
    · rw [if_neg (by omega), List.getElem?_drop]
      congr 1
      omega

/-- Over a string that goes on to `a` there are no zeros. -/
theorem splice_of_le (ha : a ≤ l.length) :
    splice l a b = l.take a ++ b ++ l.drop (a + b.length) := by
  rw [splice, resize, Nat.sub_eq_zero_of_le ha, List.replicate_zero, List.append_nil]

/-- At the front the string is put over the other… -/
theorem splice_zero (l b : List α) : splice l 0 b = b ++ l.drop b.length := by
  rw [splice_of_le (Nat.zero_le _), List.take_zero, List.nil_append, Nat.zero_add]

/-- …and a cut takes away what goes on behind it. -/
theorem resize_append (b l : List α) : resize (b ++ l) b.length = b := by
  rw [resize, List.take_left, List.length_append, Nat.sub_eq_zero_of_le (Nat.le_add_right _ _),
    List.replicate_zero, List.append_nil]

/-- A file cut, or extended over cells that are zero. -/
theorem cells_resize (hkeep : ∀ i < n, m' i = m i) (hzero : ∀ i, n ≤ i → i < n' → m' i = 0) :
    cells m' 0 n' = resize (cells m 0 n) n' := by
  refine List.ext_getElem? fun i => ?_
  rw [getElem?_cells_eq, getElem?_resize, getElem?_cells_eq, Nat.zero_add]
  split
  · split
    · rw [hkeep i ‹_›]
      rfl
    · rw [hzero i (by omega) ‹_›]
      rfl
  · rfl

/-- **A file written into**: what the cells between its end and the write hold becomes part of
it. -/
theorem cells_splice_iff : cells (blit m a f k) 0 (max (a + k) n) = splice (cells m 0 n) a
    (cells f 0 k)
    ↔ ∀ i, n ≤ i → i < a → m i = 0 := by
  have hget : ∀ i, (splice (cells m 0 n) a (cells f 0 k))[i]?
    = (cells (blit m a f k) 0 (max (a + k) n))[i]?
      ↔ (n ≤ i → i < a → m i = 0) := by
    intro i
    rw [getElem?_splice, getElem?_cells_eq m, getElem?_cells_eq (blit m a f k), length_cells]
    simp only [Nat.zero_add]
    by_cases hia : i < a
    · have hmax : i < max (a + k) n := by omega
      rw [if_pos hia, if_pos hmax, blit_outside (.inl hia)]
      by_cases hin : i < n
      · rw [if_pos hin]
        exact iff_of_true rfl fun h => absurd hin (Nat.not_lt.mpr h)
      · rw [if_neg hin, Option.getD_none, Option.some.injEq]
        exact ⟨fun h _ _ => h.symm, fun h => (h (Nat.le_of_not_lt hin) hia).symm⟩
    · refine iff_of_true ?_ fun _ h => absurd h hia
      rw [if_neg hia]
      by_cases hik : i < a + k
      · obtain ⟨j, rfl⟩ := Nat.exists_eq_add_of_le (Nat.le_of_not_lt hia)
        rw [if_pos hik, if_pos (by omega), getElem?_cells (by omega), Nat.add_sub_cancel_left,
          blit_inside (by omega), Nat.zero_add]
      · rw [if_neg hik, blit_outside (.inr (by omega))]
        by_cases hin : i < n
        · rw [if_pos hin, if_pos (by omega)]
        · rw [if_neg hin, if_neg (by omega)]
  constructor
  · intro h i
    rw [h] at hget
    exact (hget i).mp rfl
  · exact fun h => (List.ext_getElem? fun i => (hget i).mpr (h i)).symm

end Extents

/-! ## Strings -/

/-- The characters of a literal. -/
def ascii (s : String) : List (BitVec 8) := s.toList.map fun c => BitVec.ofNat 8 c.toNat

section Strings

variable {α : Type*} [Zero α] {m m' : ℕ → α}

/-- At `a` stands the string `s`, and a zero ends it. -/
def Spells (m : ℕ → α) : ℕ → List α → Prop
  | a, [] => m a = 0
  | a, c :: s => c ≠ 0 ∧ m a = c ∧ Spells m (a + 1) s

/-- A place in memory spells one string. -/
theorem Spells.unique : ∀ {a : ℕ} {s t : List α}, Spells m a s → Spells m a t → s = t
  | _, [], [], _, _ => rfl
  | _, [], _ :: _, hs, ht => absurd (ht.2.1.symm.trans hs) ht.1
  | _, _ :: _, [], hs, ht => absurd (hs.2.1.symm.trans ht) hs.1
  | _, _ :: _, _ :: _, hs, ht => by
    obtain ⟨-, rfl, hs⟩ := hs
    obtain ⟨-, rfl, ht⟩ := ht
    rw [hs.unique ht]

theorem Spells.congr {a : ℕ} {s : List α} (h : ∀ i ≤ s.length, m' (a + i) = m (a + i))
    (hs : Spells m a s) : Spells m' a s := by
  induction s generalizing a with
  | nil => exact (h 0 (Nat.le_refl 0)).trans hs
  | cons c s ih =>
    refine ⟨hs.1, (h 0 (Nat.zero_le _)).trans hs.2.1, ih (fun i hi => ?_) hs.2.2⟩
    rw [Nat.add_assoc, Nat.add_comm 1 i]
    exact h (i + 1) (Nat.succ_le_succ hi)

/-- What is left of a string after its first characters. -/
theorem Spells.drop {a : ℕ} {s t : List α} (h : Spells m a (s ++ t)) :
    Spells m (a + s.length) t := by
  induction s generalizing a with
  | nil => exact h
  | cons c s ih =>
    rw [List.length_cons, Nat.add_comm s.length 1, ← Nat.add_assoc]
    exact ih h.2.2

theorem spells_iff {a : ℕ} {s : List α} : Spells m a s ↔
    0 ∉ s ∧ (∀ i (hi : i < s.length), m (a + i) = s[i]) ∧ m (a + s.length) = 0 := by
  induction s generalizing a with
  | nil => simp [Spells]
  | cons c s ih =>
    rw [Spells, ih]
    constructor
    · rintro ⟨hc, ha, h0, hs, hend⟩
      refine ⟨by simp [h0, Ne.symm hc], fun i hi => ?_, ?_⟩
      · cases i with
        | zero => exact ha
        | succ i =>
          rw [← Nat.add_assoc, Nat.add_right_comm]
          exact hs i (Nat.lt_of_succ_lt_succ hi)
      · rw [List.length_cons, ← Nat.add_assoc, Nat.add_right_comm]
        exact hend
    · rintro ⟨h0, hs, hend⟩
      rw [List.mem_cons, not_or] at h0
      refine ⟨Ne.symm h0.1, hs 0 (Nat.succ_pos _), h0.2, fun i hi => ?_, ?_⟩
      · have := hs (i + 1) (Nat.succ_lt_succ hi)
        rwa [← Nat.add_assoc, Nat.add_right_comm] at this
      · rwa [List.length_cons, ← Nat.add_assoc, Nat.add_right_comm] at hend

/-- …character by character, with the zero for the last one. -/
theorem spells_getD {s : List α} :
    Spells m 0 s ↔ 0 ∉ s ∧ ∀ i, i ≤ s.length → m i = s.getD i 0 := by
  rw [spells_iff]
  refine and_congr_right fun _ => ⟨fun ⟨hs, hend⟩ i hi => ?_, fun h => ⟨fun i hi => ?_, ?_⟩⟩
  · rcases Nat.lt_or_eq_of_le hi with hlt | rfl
    · rw [List.getD_eq_getElem?_getD, List.getElem?_eq_getElem hlt, ← hs i hlt, Nat.zero_add,
        Option.getD_some]
    · rw [List.getD_eq_getElem?_getD, List.getElem?_eq_none (Nat.le_refl _), Option.getD_none]
      rwa [Nat.zero_add] at hend
  · rw [Nat.zero_add, h i (Nat.le_of_lt hi), List.getD_eq_getElem?_getD,
      List.getElem?_eq_getElem hi, Option.getD_some]
  · rw [Nat.zero_add, h _ (Nat.le_refl _), List.getD_eq_getElem?_getD,
      List.getElem?_eq_none (Nat.le_refl _), Option.getD_none]

/-- The string and its zero, copied to `a`. -/
def putString (m : ℕ → α) (a : ℕ) (s : List α) : ℕ → α :=
  blit m a (fun i => s.getD i 0) (s.length + 1)

theorem spells_putString {a : ℕ} {s : List α} (h : 0 ∉ s) : Spells (putString m a s) a s := by
  refine spells_iff.mpr ⟨h, fun i hi => ?_, ?_⟩
  · rw [putString, blit_inside (Nat.lt_succ_of_lt hi)]
    simp [hi]
  · rw [putString, blit_inside (Nat.lt_succ_self _)]
    simp

theorem putString_outside {a i : ℕ} {s : List α} (h : i < a ∨ a + s.length < i) :
    putString m a s i = m i :=
  blit_outside (by omega)

/-- The string at `a`, as far as `n` cells show it. -/
def stringAt [DecidableEq α] (m : ℕ → α) : ℕ → ℕ → List α
  | _, 0 => []
  | a, n + 1 => if m a = 0 then [] else m a :: stringAt m (a + 1) n

theorem stringAt_eq [DecidableEq α] : ∀ {a n : ℕ} {s : List α}, Spells m a s → s.length ≤ n →
    stringAt m a n = s
  | _, 0, [], _, _ => rfl
  | _, _ + 1, [], hs, _ => if_pos hs
  | a, n + 1, c :: s, hs, hn => by
    obtain ⟨hc, rfl, hs⟩ := hs
    rw [stringAt, if_neg hc, stringAt_eq hs (Nat.le_of_succ_le_succ hn)]

end Strings

/-! ## Words -/

section Words

variable {m m' : ℕ → BitVec 8} {a i v : ℕ}

/-- The 32-bit word at `a`. -/
def getLe32 (m : ℕ → BitVec 8) (a : ℕ) : ℕ :=
  (m a).toNat + 256 * (m (a + 1)).toNat + 65536 * (m (a + 2)).toNat + 16777216 * (m (a + 3)).toNat

/-- …set to `v`, modulo 2³². -/
def putLe32 (m : ℕ → BitVec 8) (a v : ℕ) : ℕ → BitVec 8 :=
  blit m a (fun i => BitVec.ofNat 8 (v / 256 ^ i)) 4

theorem getLe32_congr (h : ∀ i < 4, m' (a + i) = m (a + i)) : getLe32 m' a = getLe32 m a := by
  have h0 : m' a = m a := h 0 (by omega)
  rw [getLe32, getLe32, h0, h 1 (by omega), h 2 (by omega), h 3 (by omega)]

theorem getLe32_put (hv : v < 2 ^ 32) : getLe32 (putLe32 m a v) a = v := by
  have hbyte : ∀ i < 4, (putLe32 m a v (a + i)).toNat = v / 256 ^ i % 256 := fun i hi => by
    rw [putLe32, blit_inside hi, BitVec.toNat_ofNat]
  have h0 := hbyte 0 (by omega)
  rw [Nat.add_zero] at h0
  rw [getLe32, h0, hbyte 1 (by omega), hbyte 2 (by omega), hbyte 3 (by omega)]
  omega

theorem putLe32_outside (h : i < a ∨ a + 4 ≤ i) : putLe32 m a v i = m i := blit_outside h

/-- A word elsewhere stays. -/
theorem getLe32_put_of_ne {b : ℕ} (h : b + 4 ≤ a ∨ a + 4 ≤ b) :
    getLe32 (putLe32 m a v) b = getLe32 m b :=
  getLe32_congr fun i hi => putLe32_outside (by omega)

theorem getLe32_eq_zero : getLe32 m a = 0 ↔ ∀ i < 4, m (a + i) = 0 := by
  constructor
  · intro h i hi
    rw [getLe32] at h
    refine BitVec.eq_of_toNat_eq ?_
    show (m (a + i)).toNat = 0
    obtain rfl | rfl | rfl | rfl : i = 0 ∨ i = 1 ∨ i = 2 ∨ i = 3 := by omega
    · rw [Nat.add_zero]
      omega
    · omega
    · omega
    · omega
  · intro h
    have h0 : m a = 0 := h 0 (by omega)
    rw [getLe32, h0, h 1 (by omega), h 2 (by omega), h 3 (by omega)]
    rfl

/-- The high half of a small word is zero. -/
theorem high_of_getLe32_lt (h : getLe32 m a < 65536) : m (a + 2) = 0 ∧ m (a + 3) = 0 := by
  rw [getLe32] at h
  constructor
  · exact BitVec.eq_of_toNat_eq (by simp; omega)
  · exact BitVec.eq_of_toNat_eq (by simp; omega)

end Words

/-! ## Numbers -/

section Numbers

/-- The number that bytes are, the low one first. -/
def ofLe (bytes : List (BitVec 8)) : ℕ := bytes.foldr (fun b n => b.toNat + 256 * n) 0

/-- The bytes that a number is, `width` of them. -/
def toLe : ℕ → ℕ → List (BitVec 8)
  | 0, _ => []
  | width + 1, n => BitVec.ofNat 8 n :: toLe width (n / 256)

@[simp] theorem length_toLe (width n : ℕ) : (toLe width n).length = width := by
  induction width generalizing n with
  | zero => rfl
  | succ width ih => rw [toLe, List.length_cons, ih]

/-- The bytes of a number, one by one. -/
theorem toLe_eq_map (width n : ℕ) :
    toLe width n = (List.range width).map fun i => BitVec.ofNat 8 (n / 256 ^ i) := by
  induction width generalizing n with
  | zero => rfl
  | succ width ih =>
    rw [toLe, ih, List.range_succ_eq_map, List.map_cons, List.map_map, pow_zero, Nat.div_one]
    congr 1
    refine List.map_congr_left fun i _ => ?_
    rw [Function.comp_apply, Nat.div_div_eq_div_mul, ← pow_succ']

theorem ofLe_toLe (width n : ℕ) : ofLe (toLe width n) = n % 256 ^ width := by
  induction width generalizing n with
  | zero => rw [pow_zero, Nat.mod_one]; rfl
  | succ width ih =>
    have hstep : ofLe (toLe (width + 1) n) = (BitVec.ofNat 8 n).toNat + 256 * ofLe
        (toLe width (n / 256)) :=
      rfl
    rw [hstep, ih, BitVec.toNat_ofNat, Nat.pow_succ' (m := 256), Nat.mod_mul (x := n)]

theorem toLe_ofLe (bytes : List (BitVec 8)) : toLe bytes.length (ofLe bytes) = bytes := by
  induction bytes with
  | nil => rfl
  | cons b bytes ih =>
    have hcons : ofLe (b :: bytes) = b.toNat + 256 * ofLe bytes := rfl
    have hb := b.isLt
    have hlow : BitVec.ofNat 8 (b.toNat + 256 * ofLe bytes) = b := by
      refine BitVec.eq_of_toNat_eq ?_
      rw [BitVec.toNat_ofNat]
      omega
    have hhigh : (b.toNat + 256 * ofLe bytes) / 256 = ofLe bytes := by omega
    rw [List.length_cons, hcons, toLe, hlow, hhigh, ih]

theorem ofLe_lt (bytes : List (BitVec 8)) : ofLe bytes < 256 ^ bytes.length := by
  rw [← toLe_ofLe bytes, ofLe_toLe, length_toLe]
  exact Nat.mod_lt _ (Nat.pow_pos (by omega))

end Numbers

/-! ## Fields -/

section Fields

variable {m m' : ℕ → BitVec 8} {a b width width' v : ℕ}

/-- The number that the `width` bytes at `a` are. -/
def getLe (m : ℕ → BitVec 8) (a width : ℕ) : ℕ := ofLe (cells m a width)

/-- …set to `v`, modulo `256 ^ width`. -/
def putLe (m : ℕ → BitVec 8) (a width v : ℕ) : ℕ → BitVec 8 :=
  blit m a (fun i => (toLe width v).getD i 0) width

theorem getLe_congr (h : ∀ i < width, m' (a + i) = m (a + i)) :
    getLe m' a width = getLe m a width :=
  congrArg ofLe (cells_congr h)

theorem getLe_put (hv : v < 256 ^ width) : getLe (putLe m a width v) a width = v := by
  have hcells : cells (putLe m a width v) a width = toLe width v := by
    refine cells_eq (length_toLe width v) fun i hi => ?_
    rw [putLe, blit_inside hi, List.getD_eq_getElem?_getD,
      List.getElem?_eq_getElem (by rwa [length_toLe])]
    rfl
  rw [getLe, hcells, ofLe_toLe, Nat.mod_eq_of_lt hv]

/-- A word is read back from the bytes that hold all of it. -/
theorem ofNat_getLe_put {w : ℕ} (hw : 2 ^ w = 256 ^ width) (v : BitVec w) :
    BitVec.ofNat w (getLe (putLe m a width v.toNat) a width) = v := by
  rw [getLe_put (hw ▸ v.isLt), BitVec.ofNat_toNat, BitVec.setWidth_eq]

theorem putLe_outside {i : ℕ} (h : i < a ∨ a + width ≤ i) : putLe m a width v i = m i :=
  blit_outside h

theorem eqOutside_putLe (m : ℕ → BitVec 8) (a width v : ℕ) :
    EqOutside a (a + width) m (putLe m a width v) :=
  eqOutside_blit m a _ width

/-- A field elsewhere stays. -/
theorem getLe_put_of_ne (h : b + width' ≤ a ∨ a + width ≤ b) :
    getLe (putLe m a width v) b width' = getLe m b width' :=
  getLe_congr fun i hi => putLe_outside (by omega)

end Fields

/-! ## Chunks -/

/-- Pieces of one length, one after the other. -/
theorem chunk_flatMap {α β : Type*} {f : α → List β} {k : ℕ} (hf : ∀ a, (f a).length = k)
    {l : List α} {j : ℕ} (hj : j < l.length) :
    ((l.flatMap f).drop (k * j)).take k = f l[j] := by
  induction l generalizing j with
  | nil => exact absurd hj (Nat.not_lt_zero j)
  | cons a l ih =>
    rw [List.flatMap_cons]
    cases j with
    | zero => rw [Nat.mul_zero, List.drop_zero, List.take_left' (hf a), List.getElem_cons_zero]
    | succ j =>
      rw [Nat.mul_succ, Nat.add_comm, ← List.drop_drop, List.drop_left' (hf a),
        List.getElem_cons_succ]
      exact ih (Nat.lt_of_succ_lt_succ hj)

end Machinery
