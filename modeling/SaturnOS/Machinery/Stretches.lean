import Mathlib.Data.List.SplitBy
import Mathlib.Data.Nat.Notation
import Mathlib.Tactic.Common

/-!
# Machinery/Stretches — spans that lie one behind the other

    [a, b) [b, c)   [d, e)        a ⋯ b ⋯ c   d ⋯ e        the points, in order

A list of spans has its points in order.  Spans that touch have the points of one (`points_touch`),
and the points determine the spans once no two neighbours touch (`eq_of_points_eq`): those are the
maximal stretches, of pieces of one size the runs of pieces (`runs_stretches`).
-/

namespace Machinery

/-- The `len` numbers from `start` on. -/
@[ext] structure Span where
  start : ℕ
  len : ℕ
  deriving DecidableEq

namespace Span

def points (s : Span) : List ℕ := List.range' s.start s.len

/-- The one begins where the other ends. -/
def Touches (s t : Span) : Prop := s.start + s.len = t.start

end Span

/-- The points of all spans, in order. -/
def pointsOf (l : List Span) : List ℕ := l.flatMap Span.points

/-- Spans with something in them, no neighbours of which touch. -/
structure Stretches (l : List Span) : Prop where
  pos : ∀ s ∈ l, 0 < s.len
  apart : l.IsChain fun s t => ¬ s.Touches t

variable {s t : Span} {l l' : List Span}

@[simp] theorem pointsOf_append (l l' : List Span) :
    pointsOf (l ++ l') = pointsOf l ++ pointsOf l' := List.flatMap_append

@[simp] theorem pointsOf_singleton (s : Span) : pointsOf [s] = s.points := List.append_nil _

/-- **Spans that touch** have the points of the one that they make up. -/
theorem points_touch (h : s.Touches t) :
    s.points ++ t.points = (Span.mk s.start (s.len + t.len)).points := by
  rw [Span.Touches] at h
  rw [Span.points, Span.points, ← h]
  exact List.range'_append_1

/-! ## The points determine the stretches -/

/-- `a`, and the number behind it. -/
def successive (a b : ℕ) : Bool := a + 1 == b

theorem isChain_points (s : Span) : s.points.IsChain fun a b => successive a b = true := by
  rw [Span.points, List.isChain_iff_getElem]
  intro i hi
  rw [List.getElem_range', List.getElem_range', successive, beq_iff_eq]
  omega

theorem Span.points_inj (hs : 0 < s.len) (h : s.points = t.points) : s = t := by
  obtain ⟨hlen, hstart⟩ := List.range'_inj.mp h
  ext <;> omega

/-- The maximal runs of consecutive points are the stretches. -/
theorem splitBy_points (h : Stretches l) : (pointsOf l).splitBy successive = l.map Span.points := by
  have hne : ∀ s ∈ l, s.points ≠ [] := fun s hs hnil => by
    have := h.pos s hs
    rw [Span.points, List.range'_eq_nil_iff] at hnil
    omega
  refine List.splitBy_eq_iff.mpr ⟨rfl, ?_, ?_, ?_⟩
  · intro hmem
    obtain ⟨s, hs, hnil⟩ := List.mem_map.mp hmem
    exact hne s hs hnil
  · intro m hm
    obtain ⟨s, -, rfl⟩ := List.mem_map.mp hm
    exact isChain_points s
  · rw [List.isChain_map]
    refine h.apart.imp_of_mem_imp fun s t hs ht hst => ⟨hne s hs, hne t ht, ?_⟩
    have hpos := h.pos s hs
    have hlast : s.points.getLast (hne s hs) = s.start + s.len - 1 := List.getLast_range' _
    have hhead : t.points.head (hne t ht) = t.start := List.head_range' _
    rw [hlast, hhead, successive, beq_eq_false_iff_ne]
    rw [Span.Touches] at hst
    omega

/-- **The points determine the stretches.** -/
theorem eq_of_points_eq (h : Stretches l) (h' : Stretches l') (hpoints : pointsOf l = pointsOf l') :
    l = l' := by
  have hmap : l.map Span.points = l'.map Span.points := by
    rw [← splitBy_points h, ← splitBy_points h', hpoints]
  have hlen : l.length = l'.length := by simpa using congrArg List.length hmap
  refine List.ext_getElem hlen fun i hi hi' => Span.points_inj (h.pos _ (List.getElem_mem hi)) ?_
  have hget := List.getElem_of_eq hmap (i := i) (by simpa using hi)
  simpa using hget

/-! ## Runs of pieces -/

section Pieces

variable {size : ℕ}

/-- The maximal runs of pieces of one size, given by where they begin, that lie one behind the
other. -/
def runsOf (size : ℕ) (ps : List ℕ) : List (List ℕ) := ps.splitBy fun p q => p + size == q

/-- What the pieces of a run make up. -/
def runSpan (size : ℕ) (run : List ℕ) : Span := ⟨run.headD 0, size * run.length⟩

theorem points_run {run : List ℕ} (h : run.IsChain fun p q => p + size = q) :
    pointsOf (run.map fun p => ⟨p, size⟩) = (runSpan size run).points := by
  induction run with
  | nil => rfl
  | cons p run ih =>
    rw [List.map_cons, ← List.singleton_append, pointsOf_append, pointsOf_singleton, ih h.tail]
    cases run with
    | nil => simp [runSpan, Span.points]
    | cons q run =>
      have hpq : (Span.mk p size).Touches (runSpan size (q :: run)) :=
        (List.isChain_cons_cons.mp h).1
      rw [points_touch hpq]
      refine congrArg Span.points (Span.ext rfl ?_)
      show size + size * (run.length + 1) = size * (run.length + 1 + 1)
      rw [Nat.mul_succ size (run.length + 1), Nat.add_comm]

/-- The last piece of a run ends where the run does. -/
theorem getLast_run {run : List ℕ} (h : run.IsChain fun p q => p + size = q) (hne : run ≠ []) :
    run.getLast hne + size = (runSpan size run).start + (runSpan size run).len := by
  induction run with
  | nil => exact absurd rfl hne
  | cons p run ih =>
    cases run with
    | nil => simp [runSpan]
    | cons q run =>
      obtain ⟨rfl, htail⟩ := List.isChain_cons_cons.mp h
      rw [List.getLast_cons (List.cons_ne_nil _ _), ih htail]
      simp only [runSpan, List.headD_cons, List.length_cons, Nat.mul_succ]
      omega

/-- **The runs of pieces are the stretches of their points.** -/
theorem runs_stretches (hsize : 0 < size) (ps : List ℕ) :
    Stretches ((runsOf size ps).map (runSpan size)) ∧
      pointsOf ((runsOf size ps).map (runSpan size)) = pointsOf (ps.map fun p => ⟨p, size⟩) := by
  have hchain : ∀ run ∈ runsOf size ps, run.IsChain fun p q => p + size = q := fun run hrun =>
    (List.isChain_of_mem_splitBy hrun).imp fun p q h => beq_iff_eq.mp h
  refine ⟨⟨fun s hs => ?_, ?_⟩, ?_⟩
  · obtain ⟨run, hrun, rfl⟩ := List.mem_map.mp hs
    exact Nat.mul_pos hsize (List.length_pos_of_ne_nil (List.ne_nil_of_mem_splitBy hrun))
  · rw [List.isChain_map]
    refine (List.isChain_getLast_head_splitBy _ ps).imp_of_mem_imp
      fun run run' hrun _ ⟨hne, hne', hlast⟩ htouch => ?_
    rw [Span.Touches, ← getLast_run (hchain run hrun) hne, runSpan,
      List.headD_eq_head?_getD, List.head?_eq_some_head hne'] at htouch
    rw [beq_eq_false_iff_ne] at hlast
    exact hlast htouch
  · have hflat : (runsOf size ps).flatten = ps := List.flatten_splitBy _ ps
    conv_rhs => rw [← hflat]
    rw [pointsOf, pointsOf, List.map_flatten, List.flatMap_map, List.flatMap_def, List.flatMap_def,
      List.map_flatten, List.flatten_flatten, List.map_map, List.map_map]
    refine congrArg List.flatten (List.map_congr_left fun run hrun => ?_)
    exact (points_run (hchain run hrun)).symm

end Pieces

end Machinery
