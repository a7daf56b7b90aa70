import Mathlib.Data.List.TakeWhile
import SaturnOS.Machinery.Bytes
import SaturnOS.Machinery.Loops

/-!
# Machinery/Words — the words of a text

    ␣␣ w₁ ␣ w₂ ␣␣␣ w₃ ␣        gap, word, gap, word, ⋯

`Words p text ws` says that `ws` are the maximal stretches of `text` on which `p` holds, in order.
Two ways to them: the list is split at its separator and what is empty dropped (`words_splitOn`), or
a cursor skips the gaps and stops behind each word (`loop_scan`).
-/

namespace Machinery

variable {α : Type*} {p : α → Prop}

/-- `ws` are the maximal stretches of a text on which `p` holds: a gap comes before each, and behind
it the text ends or fails `p`. -/
inductive Words (p : α → Prop) : List α → List (List α) → Prop
  | none {gap : List α} (hgap : ∀ c ∈ gap, ¬ p c) : Words p gap []
  | word {gap w rest : List α} {ws : List (List α)} (hgap : ∀ c ∈ gap, ¬ p c) (hne : w ≠ [])
      (hw : ∀ c ∈ w, p c) (hend : ∀ c ∈ rest.head?, ¬ p c) (hrest : Words p rest ws) :
      Words p (gap ++ (w ++ rest)) (w :: ws)

/-! ## By splitting -/

section Split

variable [DecidableEq α] {a : α}

/-- The non-empty parts of a list between its separators. -/
def splitWords (a : α) (text : List α) : List (List α) := (text.splitOn a).filter (· ≠ [])

theorem splitWords_gap {gap : List α} (h : ∀ c ∈ gap, c = a) (rest : List α) :
    splitWords a (gap ++ rest) = splitWords a rest := by
  induction gap with
  | nil => rfl
  | cons c gap ih =>
    obtain rfl := h c List.mem_cons_self
    rw [← ih fun d hd => h d (List.mem_cons_of_mem c hd), splitWords, List.cons_append,
      List.splitOn_cons_eq_if_modifyHead, if_pos (beq_self_eq_true c)]
    rfl

theorem splitWords_word {w rest : List α} (hne : w ≠ []) (hw : ∀ c ∈ w, c ≠ a)
    (hend : ∀ c ∈ rest.head?, c = a) : splitWords a (w ++ rest) = w :: splitWords a rest := by
  have hnot : a ∉ w := fun h => hw a h rfl
  cases rest with
  | nil =>
    rw [List.append_nil, splitWords, List.splitOn_eq_singleton hnot,
      List.filter_cons_of_pos (by simpa using hne)]
    rfl
  | cons c rest =>
    obtain rfl := hend c rfl
    rw [splitWords, List.splitOn_append_cons_self_of_not_mem hnot,
      List.filter_cons_of_pos (by simpa using hne)]
    have hgap : splitWords c ([c] ++ rest) = splitWords c rest := splitWords_gap (by simp) rest
    exact congrArg _ hgap.symm

/-- **Splitting finds the words.** -/
theorem words_splitOn (a : α) (text : List α) : Words (· ≠ a) text (splitWords a text) := by
  induction hn : text.length using Nat.strongRecOn generalizing text with
  | ind n ih =>
    -- the gap in front
    have hgap : ∀ c ∈ text.takeWhile (· == a), c = a := fun c hc => by
      simpa using List.mem_takeWhile_imp hc
    have htext : text.takeWhile (· == a) ++ text.dropWhile (· == a) = text :=
      List.takeWhile_append_dropWhile
    have hhead := List.head?_dropWhile_not (· == a) text
    generalize text.takeWhile (· == a) = gap at hgap htext
    generalize text.dropWhile (· == a) = tail at htext hhead
    subst htext
    rw [splitWords_gap hgap]
    cases tail with
    | nil =>
      rw [List.append_nil]
      exact .none fun c hc => not_not.mpr (hgap c hc)
    | cons c tail =>
      -- the word behind it, and what is left
      have hc : c ≠ a := by simpa using hhead
      have hw : ∀ d ∈ c :: tail.takeWhile (· != a), d ≠ a := by
        rintro d (_ | ⟨_, hd⟩)
        · exact hc
        · simpa using List.mem_takeWhile_imp hd
      have hend : ∀ d ∈ (tail.dropWhile (· != a)).head?, d = a := fun d hd => by
        have := List.head?_dropWhile_not (· != a) tail
        rw [hd] at this
        simpa using this
      have htail : c :: tail = (c :: tail.takeWhile (· != a)) ++ tail.dropWhile (· != a) := by
        rw [List.cons_append, List.takeWhile_append_dropWhile]
      rw [htail, List.length_append, List.length_append, List.length_cons] at hn
      rw [htail, splitWords_word (List.cons_ne_nil _ _) hw hend]
      exact .word (fun d hd => not_not.mpr (hgap d hd)) (List.cons_ne_nil _ _) hw
        (fun d hd => not_not.mpr (hend d hd)) (ih _ (by omega) _ rfl)

end Split

/-! ## By a cursor

A text stands in memory, and something that is no word character behind it. -/

/-- `while (go(i)) i++`. -/
def scan (go : ℕ → Bool) (i : ℕ) : ℕ ⊕ ℕ := if go i then .inl (i + 1) else .inr i

/-- …at most `n` times. -/
def advance (go : ℕ → Bool) : ℕ → ℕ → ℕ
  | 0, i => i
  | n + 1, i => if go i then advance go n (i + 1) else i

variable {go : ℕ → Bool} {i d n : ℕ}

theorem scan_on (h : go i = true) : scan go i = .inl (i + 1) := if_pos h

theorem scan_stop (h : go i = false) : scan go i = .inr i := if_neg (Bool.eq_false_iff.mp h)

/-- **A scan stops** at the first place where its condition fails. -/
theorem loop_scan (hgo : ∀ x < d, go (i + x) = true) (hstop : go (i + d) = false) (hn : d < n) :
    loop (scan go) n i = some (i + d) := by
  induction d generalizing i n with
  | zero =>
    obtain ⟨n, rfl⟩ := Nat.exists_eq_add_of_le' hn
    exact loop_end (scan_stop hstop) n
  | succ d ih =>
    obtain ⟨n, rfl⟩ := Nat.exists_eq_add_of_le' (Nat.zero_lt_of_lt hn)
    have hshift (x : ℕ) : i + (x + 1) = i + 1 + x := by omega
    refine (loop_next (scan_on (hgo 0 (Nat.succ_pos d))) n).trans ?_
    rw [hshift d] at hstop ⊢
    refine ih (fun x hx => ?_) hstop (Nat.lt_of_succ_lt_succ hn)
    rw [← hshift x]
    exact hgo (x + 1) (Nat.succ_lt_succ hx)

/-- …and a bounded one there, or at its bound. -/
theorem advance_eq (hgo : ∀ x < d, go (i + x) = true) (hd : d ≤ n)
    (hstop : d = n ∨ go (i + d) = false) : advance go n i = i + d := by
  induction n generalizing i d with
  | zero =>
    obtain rfl := Nat.le_zero.mp hd
    rfl
  | succ n ih =>
    cases d with
    | zero => exact if_neg (Bool.eq_false_iff.mp (hstop.resolve_left (Nat.succ_ne_zero n).symm))
    | succ d =>
      have hshift (x : ℕ) : i + (x + 1) = i + 1 + x := by omega
      rw [advance, if_pos (by exact hgo 0 (Nat.succ_pos d))]
      rw [hshift d] at hstop ⊢
      refine ih (fun x hx => ?_) (Nat.le_of_succ_le_succ hd) (hstop.imp_left Nat.succ.inj)
      rw [← hshift x]
      exact hgo (x + 1) (Nat.succ_lt_succ hx)

/-- What a place in memory spells, character by character. -/
theorem Spells.at [Zero α] {m : ℕ → α} {a : ℕ} {s t : List α} (h : Spells m a (s ++ t)) :
    ∀ x < s.length, m (a + x) ∈ s ∧ m (a + x) ≠ 0 := by
  obtain ⟨h0, hs, -⟩ := spells_iff.mp h
  intro x hx
  have hlt : x < (s ++ t).length := by
    rw [List.length_append]
    omega
  have hget : m (a + x) = s[x] := by
    rw [hs x hlt, List.getElem_append_left hx]
  rw [hget]
  refine ⟨List.getElem_mem hx, fun hzero => h0 ?_⟩
  rw [← hzero]
  exact List.mem_append_left t (List.getElem_mem hx)

/-- …and behind it. -/
theorem Spells.behind [Zero α] {m : ℕ → α} {a : ℕ} {s t : List α} (h : Spells m a (s ++ t)) :
    m (a + s.length) = t.head?.getD 0 := by
  have ht := h.drop
  cases t with
  | nil => exact ht
  | cons c t => exact ht.2.1

/-- …as cells. -/
theorem Spells.cells [Zero α] {m : ℕ → α} {a : ℕ} {s t : List α} (h : Spells m a (s ++ t)) :
    Machinery.cells m a s.length = s := by
  refine cells_eq rfl fun x hx => ?_
  obtain ⟨-, hs, -⟩ := spells_iff.mp h
  rw [hs x (by rw [List.length_append]; omega), List.getElem_append_left hx]
  exact List.getElem?_eq_getElem hx

end Machinery
