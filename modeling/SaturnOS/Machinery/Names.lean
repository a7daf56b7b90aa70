import Mathlib.Tactic.Common
import Mathlib.Data.List.Infix

/-!
# Machinery/Names — a tree of names in a flat table

    i ─name─▸ p        j ─name─▸ p / s        k ─name─▸ p / s / t

A table gives some of its indices a name, and the tree is in the names alone: one lies beneath
another that it continues with a separator.  `Tree` says that names are distinct and that everything
above a name is the name of a directory.  A new name, a removal and the renaming of a whole subtree
keep it, each under the check a file system makes.
-/

namespace Machinery

variable {α ι : Type*} {sep : α} {p q r s : List α}

/-! ## Beneath -/

/-- `q` continues `p` with a separator. -/
def Beneath (sep : α) (p q : List α) : Prop := p ++ [sep] <+: q

instance [DecidableEq α] : Decidable (Beneath sep p q) :=
  inferInstanceAs (Decidable (p ++ [sep] <+: q))

theorem not_beneath_nil : ¬ Beneath sep p [] := by simp [Beneath]

theorem nil_beneath_cons {c : α} : Beneath sep [] (c :: q) ↔ sep = c := by simp [Beneath]

theorem cons_beneath_cons {c d : α} : Beneath sep (c :: p) (d :: q) ↔ c = d ∧ Beneath sep p q :=
  List.cons_prefix_cons

theorem Beneath.isPrefix (h : Beneath sep p q) : p <+: q := (List.prefix_append p [sep]).trans h

theorem Beneath.length_lt (h : Beneath sep p q) : p.length < q.length := by
  have := h.length_le
  rw [List.length_append, List.length_singleton] at this
  exact this

theorem Beneath.trans (h : Beneath sep p q) (h' : Beneath sep q r) : Beneath sep p r :=
  List.IsPrefix.trans h h'.isPrefix

theorem beneath_iff : Beneath sep p q ↔ p <+: q ∧ q[p.length]? = some sep := by
  constructor
  · intro h
    refine ⟨h.isPrefix, ?_⟩
    obtain ⟨t, rfl⟩ := h
    simp
  · rintro ⟨⟨t, rfl⟩, hsep⟩
    cases t with
    | nil => simp at hsep
    | cons c t =>
      have hc : c = sep := by simpa using hsep
      subst hc
      exact ⟨t, by simp⟩

theorem beneath_append : Beneath sep (p ++ q) (p ++ r) ↔ Beneath sep q r := by
  rw [Beneath, List.append_assoc, List.prefix_append_right_inj]
  exact Iff.rfl

theorem beneath_cons {t : List α} : Beneath sep p (p ++ sep :: t) := ⟨t, by simp⟩

theorem Beneath.exists_eq (h : Beneath sep p q) : ∃ t, q = p ++ sep :: t := by
  obtain ⟨t, rfl⟩ := h
  exact ⟨t, by simp⟩

/-- What is above one name is above, beneath or the same as what is. -/
theorem Beneath.compare (hp : Beneath sep p r) (hq : Beneath sep q r) :
    Beneath sep p q ∨ p = q ∨ Beneath sep q p := by
  rcases Nat.lt_trichotomy p.length q.length with hlt | heq | hlt
  · refine .inl (List.prefix_of_prefix_length_le hp hq.isPrefix ?_)
    rw [List.length_append, List.length_singleton]
    exact hlt
  · exact .inr (.inl (List.IsPrefix.eq_of_length
      (List.prefix_of_prefix_length_le hp.isPrefix hq.isPrefix heq.le) heq))
  · refine .inr (.inr (List.prefix_of_prefix_length_le hq hp.isPrefix ?_))
    rw [List.length_append, List.length_singleton]
    exact hlt

/-! ## Trees -/

/-- Names are distinct, and above a name there are directories. -/
structure Tree (sep : α) (name : ι → Option (List α)) (dir : ι → Prop) : Prop where
  distinct : ∀ i j q, name i = some q → name j = some q → i = j
  closed : ∀ i q, name i = some q → ∀ p, p ≠ [] → Beneath sep p q → ∃ j, name j = some p ∧ dir j

namespace Tree

variable {name name' : ι → Option (List α)} {dir dir' : ι → Prop} {i j : ι}

/-- Nothing lies beneath what is no directory. -/
theorem leaf (h : Tree sep name dir) (hi : name i = some p) (hp : p ≠ []) (hdir : ¬ dir i)
    (hj : name j = some q) : ¬ Beneath sep p q := by
  intro hq
  obtain ⟨k, hk, hkdir⟩ := h.closed j q hj p hp hq
  rw [h.distinct k i p hk hi] at hkdir
  exact hdir hkdir

/-- …or beneath what is no name. -/
theorem leaf_free (h : Tree sep name dir) (hp : p ≠ []) (hfree : ∀ j, name j ≠ some p)
    (hj : name j = some q) : ¬ Beneath sep p q := by
  intro hq
  obtain ⟨k, hk, -⟩ := h.closed j q hj p hp hq
  exact hfree k hk

/-- …or has a name that continues one that is free. -/
theorem ne_of_free (h : Tree sep name dir) (hp : p ≠ []) (hfree : ∀ j, name j ≠ some p)
    (hj : name j = some q) {u : List α} (hu : u = [] ∨ ∃ t, u = sep :: t) : q ≠ p ++ u := by
  rintro rfl
  rcases hu with rfl | ⟨t, rfl⟩
  · rw [List.append_nil] at hj
    exact hfree j hj
  · exact h.leaf_free hp hfree hj beneath_cons

/-- **Everything above a name, from the directory it is in**: `l` is where its last separator
stands. -/
theorem above (h : Tree sep name dir) {l : ℕ} (hlast : ∀ m, l < m → q[m]? ≠ some sep)
    (hparent : l = 0 ∨ ∃ j, name j = some (q.take l) ∧ dir j) (hp : p ≠ [])
    (hpq : Beneath sep p q) : ∃ j, name j = some p ∧ dir j := by
  obtain ⟨hstart, hsep⟩ := beneath_iff.mp hpq
  have hle : p.length ≤ l := by
    by_contra hlt
    exact hlast p.length (Nat.lt_of_not_le hlt) hsep
  rcases hparent with rfl | ⟨j, hj, hdir⟩
  · exact absurd (List.length_eq_zero_iff.mp (Nat.le_zero.mp hle)) hp
  · have htake : p <+: q.take l := List.prefix_take_iff.mpr ⟨hstart, hle⟩
    rcases Nat.lt_or_eq_of_le hle with hlt | rfl
    · refine h.closed j _ hj p hp (beneath_iff.mpr ⟨htake, ?_⟩)
      rw [List.getElem?_take_of_lt hlt]
      exact hsep
    · rw [List.prefix_iff_eq_take.mp hstart]
      exact ⟨j, hj, hdir⟩

/-- **A new name**, below a directory. -/
theorem insert (h : Tree sep name dir) (hfree : ∀ j, name j ≠ some p)
    (habove : ∀ r, r ≠ [] → Beneath sep r p → ∃ j, name j = some r ∧ dir j)
    (hnone : name i = none) (hi : name' i = some p)
    (hother : ∀ j, j ≠ i → name' j = name j ∧ (dir' j ↔ dir j)) : Tree sep name' dir' := by
  have hkeep : ∀ {j r}, name j = some r → name' j = some r ∧ (dir j → dir' j) := by
    intro j r hj
    have hne : j ≠ i := by
      rintro rfl
      cases hnone.symm.trans hj
    exact ⟨(hother j hne).1.trans hj, (hother j hne).2.mpr⟩
  have hcases : ∀ {j r}, name' j = some r → j = i ∧ r = p ∨ name j = some r := by
    intro j r hj
    by_cases hne : j = i
    · subst hne
      exact .inl ⟨rfl, Option.some.inj (hj.symm.trans hi)⟩
    · exact .inr ((hother j hne).1.symm.trans hj)
  constructor
  · intro j k q hj hk
    rcases hcases hj with ⟨rfl, rfl⟩ | hj' <;> rcases hcases hk with ⟨rfl, hq⟩ | hk'
    · rfl
    · exact absurd hk' (hfree k)
    · exact absurd (hq ▸ hj') (hfree j)
    · exact h.distinct j k q hj' hk'
  · intro j q hj r hr hrq
    have hold : ∃ k, name k = some r ∧ dir k := by
      rcases hcases hj with ⟨rfl, rfl⟩ | hj'
      · exact habove r hr hrq
      · exact h.closed j q hj' r hr hrq
    obtain ⟨k, hk, hdir⟩ := hold
    exact ⟨k, (hkeep hk).1, (hkeep hk).2 hdir⟩

/-- **A removal**, with nothing beneath. -/
theorem remove (h : Tree sep name dir) (hi : name i = some p)
    (hbelow : ∀ j q, name j = some q → ¬ Beneath sep p q) (hnone : name' i = none)
    (hother : ∀ j, j ≠ i → name' j = name j ∧ (dir' j ↔ dir j)) : Tree sep name' dir' := by
  have hold : ∀ {j q}, name' j = some q → j ≠ i ∧ name j = some q := by
    intro j q hj
    have hne : j ≠ i := by
      rintro rfl
      cases hnone.symm.trans hj
    exact ⟨hne, (hother j hne).1.symm.trans hj⟩
  constructor
  · intro j k q hj hk
    exact h.distinct j k q (hold hj).2 (hold hk).2
  · intro j q hj r hr hrq
    obtain ⟨k, hk, hdir⟩ := h.closed j q (hold hj).2 r hr hrq
    have hne : k ≠ i := by
      rintro rfl
      obtain rfl := Option.some.inj (hk.symm.trans hi)
      exact hbelow j q (hold hj).2 hrq
    exact ⟨k, (hother k hne).1.trans hk, (hother k hne).2.mpr hdir⟩

end Tree

/-! ## A subtree under another name -/

section Rename

variable [DecidableEq α] {old new : List α}

/-- `old`, and what lies beneath it, moved to `new`. -/
def rebase (sep : α) (old new q : List α) : List α :=
  if q = old ∨ Beneath sep old q then new ++ q.drop old.length else q

theorem rebase_self : rebase sep old new old = new := by
  rw [rebase, if_pos (.inl rfl), List.drop_length, List.append_nil]

theorem rebase_beneath {t : List α} : rebase sep old new (old ++ sep :: t) = new ++ sep :: t := by
  rw [rebase, if_pos (.inr beneath_cons), List.drop_left]

theorem rebase_of_not (h : q ≠ old) (h' : ¬ Beneath sep old q) : rebase sep old new q = q :=
  if_neg (not_or.mpr ⟨h, h'⟩)

/-- A name moves, with what it continues `old` by, or it stays. -/
theorem rebase_cases (sep : α) (old new q : List α) :
    (∃ u, (u = [] ∨ ∃ t, u = sep :: t) ∧ q = old ++ u ∧ rebase sep old new q = new ++ u)
      ∨ q ≠ old ∧ ¬ Beneath sep old q ∧ rebase sep old new q = q := by
  by_cases h : q = old
  · subst h
    exact .inl ⟨[], .inl rfl, (List.append_nil q).symm, rebase_self.trans
      (List.append_nil new).symm⟩
  · by_cases h' : Beneath sep old q
    · obtain ⟨t, rfl⟩ := h'.exists_eq
      exact .inl ⟨sep :: t, .inr ⟨t, rfl⟩, rfl, rebase_beneath⟩
    · exact .inr ⟨h, h', rebase_of_not h h'⟩

/-- A directory outside the subtree is found where it was. -/
theorem rebase_found {name : ι → Option (List α)} {dir : ι → Prop} (new : List α)
    (hfound : ∃ k, name k = some r ∧ dir k) (hne : r ≠ old) (hnot : ¬ Beneath sep old r) :
    ∃ k, (name k).map (rebase sep old new) = some r ∧ dir k := by
  obtain ⟨k, hk, hdir⟩ := hfound
  exact ⟨k, by rw [hk, Option.map_some, rebase_of_not hne hnot], hdir⟩

namespace Tree

variable {name : ι → Option (List α)} {dir : ι → Prop}
  (h : Tree sep name dir) (hnew : new ≠ []) (hfree : ∀ j, name j ≠ some new)

include h hnew hfree

/-- Renaming keeps names apart. -/
theorem rebase_inj {j k : ι} (hj : name j = some q) (hk : name k = some r)
    (heq : rebase sep old new q = rebase sep old new r) : q = r := by
  rcases rebase_cases sep old new q with ⟨u, hu, rfl, hq⟩ | ⟨-, -, hq⟩ <;>
    rcases rebase_cases sep old new r with ⟨v, hv, rfl, hr⟩ | ⟨-, -, hr⟩ <;> rw [hq, hr] at heq
  · rw [List.append_cancel_left heq]
  · exact absurd heq.symm (h.ne_of_free hnew hfree hk hu)
  · exact absurd heq (h.ne_of_free hnew hfree hj hv)
  · exact heq

/-- **A renaming**: the new name is free, in a directory, and not beneath the old one. -/
theorem rename (hold : old ≠ []) (hbelow : ¬ Beneath sep old new)
    (habove : ∀ r, r ≠ [] → Beneath sep r new → ∃ j, name j = some r ∧ dir j) :
    Tree sep (fun j => (name j).map (rebase sep old new)) dir := by
  -- a directory above the new name stays
  have hstay : ∀ r, r ≠ [] → Beneath sep r new →
      ∃ k, (name k).map (rebase sep old new) = some r ∧ dir k := by
    intro r hr hrnew
    refine rebase_found new (habove r hr hrnew) ?_ fun hb => hbelow (hb.trans hrnew)
    rintro rfl
    exact hbelow hrnew
  constructor
  · intro j k q hj hk
    obtain ⟨a, ha, haq⟩ := Option.map_eq_some_iff.mp hj
    obtain ⟨b, hb, hbq⟩ := Option.map_eq_some_iff.mp hk
    rw [h.rebase_inj hnew hfree ha hb (haq.trans hbq.symm)] at ha
    exact h.distinct j k b ha hb
  · intro j q' hj r hr hrq
    obtain ⟨q, hq, rfl⟩ := Option.map_eq_some_iff.mp hj
    rcases rebase_cases sep old new q with ⟨u, hu, rfl, heq⟩ | ⟨hne, hnot, heq⟩ <;> rw [heq] at hrq
    · rcases hu with rfl | ⟨t, rfl⟩
      · rw [List.append_nil] at hrq
        exact hstay r hr hrq
      · rcases hrq.compare beneath_cons with hrnew | rfl | hnewr
        · exact hstay r hr hrnew
        · obtain ⟨k, hk, hdir⟩ := h.closed j _ hq old hold beneath_cons
          exact ⟨k, by rw [hk, Option.map_some, rebase_self], hdir⟩
        · obtain ⟨v, rfl⟩ := hnewr.exists_eq
          obtain ⟨k, hk, hdir⟩ := h.closed j _ hq (old ++ sep :: v) (by simp)
            (beneath_append.mpr (beneath_append.mp hrq))
          exact ⟨k, by rw [hk, Option.map_some, rebase_beneath], hdir⟩
    · refine rebase_found new (h.closed j q hq r hr hrq) ?_ fun hb => hnot (hb.trans hrq)
      rintro rfl
      exact hnot hrq

end Tree

end Rename

end Machinery
