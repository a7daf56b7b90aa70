import Mathlib.Tactic.Common

/-!
# Machinery/Runs — runs of a partial step function

    s₀ ──a₁──▸ s₁ ──a₂──▸ s₂ ──▸ ⋯        T sᵢ aᵢ₊₁ = some sᵢ₊₁

A system is a function `T : S → A → Option S`; an action with no successor is not enabled and
ends the run.  `Along C` says that every step of a run meets `C`, `Always P` that every state of it
does.  An invariant rule turns a step lemma into a statement about runs, and
`always_iff_along` does so for an exact condition.
-/

namespace Machinery

variable {S A : Type*} (T : S → A → Option S)

/-- Every step taken along the actions, from `s`, meets `C`. -/
def Along (C : S → A → S → Prop) : S → List A → Prop
  | _, [] => True
  | s, a :: as => ∀ s', T s a = some s' → C s a s' ∧ Along C s' as

/-- Every state reached along the actions, `s` included, meets `P`. -/
def Always (P : S → Prop) (s : S) (as : List A) : Prop :=
  P s ∧ Along T (fun _ _ s' => P s') s as

/-- The state the actions lead to. -/
def run : S → List A → Option S
  | s, [] => some s
  | s, a :: as => (T s a).bind fun s' => run s' as

variable {T} {C D : S → A → S → Prop} {I J P : S → Prop}

/-- A run of checkable steps is checked by running it. -/
instance Along.instDecidable [∀ s a s', Decidable (C s a s')] :
    ∀ (s : S) (as : List A), Decidable (Along T C s as)
  | _, [] => isTrue trivial
  | s, a :: as =>
    match h : T s a with
    | none => isTrue fun s' hs => nomatch h.symm.trans hs
    | some t =>
      have := Along.instDecidable t as
      decidable_of_iff (C s a t ∧ Along T C t as) <| by
        rw [Along]
        exact ⟨fun ht s' hs => Option.some.inj (h.symm.trans hs) ▸ ht, fun ht => ht t h⟩

/-- **The invariant rule for steps**: under an invariant that `C`-steps keep, runs of `C`-steps are
runs of `D`-steps. -/
theorem Along.imp_of_inv
    (hstep : ∀ s a s', I s → T s a = some s' → C s a s' → I s' ∧ D s a s')
    {s : S} {as : List A} (hI : I s) (h : Along T C s as) : Along T D s as := by
  induction as generalizing s with
  | nil => trivial
  | cons a as ih =>
    intro s' hs
    obtain ⟨hC, hrest⟩ := h s' hs
    obtain ⟨hI', hD⟩ := hstep s a s' hI hs hC
    exact ⟨hD, ih hI' hrest⟩

/-- **The exact rule for steps**: under an invariant of both, runs of `C`-steps are the runs of
`D`-steps. -/
theorem Along.iff_of_inv
    (hstep : ∀ s a s', J s → T s a = some s' → (C s a s' ↔ D s a s') ∧ (D s a s' → J s'))
    {s : S} {as : List A} (h₀ : J s) : Along T C s as ↔ Along T D s as := by
  constructor
  · refine fun h => Along.imp_of_inv (I := J) (fun s a s' hJ hs hC => ?_) h₀ h
    obtain ⟨hiff, hkeep⟩ := hstep s a s' hJ hs
    exact ⟨hkeep (hiff.mp hC), hiff.mp hC⟩
  · refine fun h => Along.imp_of_inv (I := J) (fun s a s' hJ hs hD => ?_) h₀ h
    obtain ⟨hiff, hkeep⟩ := hstep s a s' hJ hs
    exact ⟨hkeep hD, hiff.mpr hD⟩

/-- A condition every step meets is met along every run. -/
theorem Along.of_forall (h : ∀ s a s', T s a = some s' → C s a s') (s : S) (as : List A) :
    Along T C s as := by
  induction as generalizing s with
  | nil => trivial
  | cons a as ih => exact fun s' hs => ⟨h s a s' hs, ih s'⟩

/-- **The invariant rule for states**, over runs of `C`-steps. -/
theorem Always.of_along (hstep : ∀ s a s', I s → T s a = some s' → C s a s' → I s')
    (hP : ∀ s, I s → P s) {s : S} {as : List A} (h₀ : I s) (h : Along T C s as) :
    Always T P s as :=
  ⟨hP s h₀, h.imp_of_inv (fun s a s' hI hs hC =>
    ⟨hstep s a s' hI hs hC, hP s' (hstep s a s' hI hs hC)⟩) h₀⟩

/-- …and over all runs. -/
theorem Always.of_inv (hstep : ∀ s a s', I s → T s a = some s' → I s')
    (hP : ∀ s, I s → P s) {s : S} (h₀ : I s) (as : List A) : Always T P s as :=
  Always.of_along (C := fun _ _ _ => True) (fun s a s' hI hs _ => hstep s a s' hI hs) hP h₀
    (Along.of_forall (fun _ _ _ _ => trivial) s as)

/-- What follows from a property of every state is one. -/
theorem Always.imp {Q : S → Prop} {s : S} {as : List A} (h : Always T P s as)
    (hPQ : ∀ s, P s → Q s) : Always T Q s as := by
  refine ⟨hPQ s h.1, Along.imp_of_inv (I := fun _ => True)
    (fun _ _ s' _ _ hP => ⟨trivial, hPQ s' hP⟩)
    trivial h.2⟩

/-- Every step up to the first `E`-step meets `C`. -/
def Until (T : S → A → Option S) (C E : S → A → S → Prop) : S → List A → Prop
  | _, [] => True
  | s, a :: as => ∀ s', T s a = some s' → E s a s' ∨ C s a s' ∧ Until T C E s' as

/-- **The rule for until**: what every step keeps or ends holds up to the end. -/
theorem Until.of_inv {E : S → A → S → Prop}
    (hstep : ∀ s a s', I s → T s a = some s' → E s a s' ∨ C s a s' ∧ I s')
    {s : S} (as : List A) (hI : I s) : Until T C E s as := by
  induction as generalizing s with
  | nil => trivial
  | cons a as ih =>
    intro s' hs
    exact (hstep s a s' hI hs).imp_right fun h => ⟨h.1, ih h.2⟩

/-- …over runs of `D`-steps. -/
theorem Until.of_along {E : S → A → S → Prop}
    (hstep : ∀ s a s', I s → T s a = some s' → D s a s' → E s a s' ∨ C s a s' ∧ I s')
    {s : S} {as : List A} (hI : I s) (h : Along T D s as) : Until T C E s as := by
  induction as generalizing s with
  | nil => trivial
  | cons a as ih =>
    intro s' hs
    obtain ⟨hD, hrest⟩ := h s' hs
    exact (hstep s a s' hI hs hD).imp_right fun hkept => ⟨hkept.1, ih hkept.2 hrest⟩

/-- …over steps that meet `D` up to an end of their own. -/
theorem Until.imp_of_inv {E E' : S → A → S → Prop}
    (hend : ∀ s a s', I s → T s a = some s' → E s a s' → E' s a s')
    (hstep : ∀ s a s', I s → T s a = some s' → D s a s' → E' s a s' ∨ C s a s' ∧ I s')
    {s : S} {as : List A} (hI : I s) (h : Until T D E s as) : Until T C E' s as := by
  induction as generalizing s with
  | nil => trivial
  | cons a as ih =>
    intro s' hs
    obtain hE | ⟨hD, hrest⟩ := h s' hs
    · exact .inl (hend s a s' hI hs hE)
    · exact (hstep s a s' hI hs hD).imp_right fun hkept => ⟨hkept.1, ih hkept.2 hrest⟩

/-- Until, by running it. -/
instance Until.instDecidable {E : S → A → S → Prop} [∀ s a s', Decidable (C s a s')]
    [∀ s a s', Decidable (E s a s')] : ∀ (s : S) (as : List A), Decidable (Until T C E s as)
  | _, [] => isTrue trivial
  | s, a :: as =>
    match h : T s a with
    | none => isTrue fun s' hs => nomatch h.symm.trans hs
    | some t =>
      have : Decidable (Until T C E t as) := Until.instDecidable t as
      decidable_of_iff (E s a t ∨ C s a t ∧ Until T C E t as) <| by
        rw [Until]
        exact ⟨fun ht s' hs => Option.some.inj (h.symm.trans hs) ▸ ht, fun ht => ht t h⟩

/-- At every state of the run, `Q` holds of it and of what is left of the actions. -/
def Throughout (T : S → A → Option S) (Q : S → List A → Prop) : S → List A → Prop
  | s, [] => Q s []
  | s, a :: as => Q s (a :: as) ∧ ∀ s', T s a = some s' → Throughout T Q s' as

section Throughout

variable {Q : S → List A → Prop} (hinv : ∀ s a s', I s → T s a = some s' → I s')

include hinv

/-- What holds of `D`-runs from every `I`-state on holds throughout a `D`-run. -/
theorem Throughout.of_along (hQ : ∀ s as, I s → Along T D s as → Q s as) {s : S} {as : List A}
    (hI : I s) (h : Along T D s as) : Throughout T Q s as := by
  induction as generalizing s with
  | nil => exact hQ s [] hI h
  | cons a as ih => exact ⟨hQ s (a :: as) hI h, fun s' hs => ih (hinv s a s' hI hs) (h s' hs).2⟩

end Throughout

/-- **The exact rule**: where a step keeps `P` precisely when it meets `C`, a run keeps `P`
throughout precisely when all its steps meet `C`. -/
theorem always_iff_along (hJ : ∀ s a s', J s → P s → T s a = some s' → J s')
    (hstep : ∀ s a s', J s → P s → T s a = some s' → (P s' ↔ C s a s'))
    {s : S} {as : List A} (hJs : J s) (hP : P s) : Always T P s as ↔ Along T C s as := by
  induction as generalizing s with
  | nil => exact ⟨fun _ => trivial, fun _ => ⟨hP, trivial⟩⟩
  | cons a as ih =>
    constructor
    · rintro ⟨-, h⟩ s' hs
      obtain ⟨hP', hrest⟩ := h s' hs
      exact ⟨(hstep s a s' hJs hP hs).mp hP', (ih (hJ s a s' hJs hP hs) hP').mp ⟨hP', hrest⟩⟩
    · intro h
      refine ⟨hP, fun s' hs => ?_⟩
      obtain ⟨hC, hrest⟩ := h s' hs
      have hP' := (hstep s a s' hJs hP hs).mpr hC
      exact ⟨hP', ((ih (hJ s a s' hJs hP hs) hP').mpr hrest).2⟩

/-- A run over two lists goes on from where the first has led. -/
theorem run_append (s : S) (as bs : List A) :
    run T s (as ++ bs) = (run T s as).bind fun s' => run T s' bs := by
  induction as generalizing s with
  | nil => rfl
  | cons a as ih =>
    rw [List.cons_append, run, run]
    cases T s a with
    | none => rfl
    | some s' => exact ih s'

/-- A property of every state of a run holds of the last one. -/
theorem Always.last {s s' : S} {as : List A} (h : Always T P s as) (hrun : run T s as = some s') :
    P s' := by
  induction as generalizing s with
  | nil =>
    obtain rfl := Option.some.inj hrun
    exact h.1
  | cons a as ih =>
    obtain ⟨t, ht, hrest⟩ := Option.bind_eq_some_iff.mp hrun
    exact ih (h.2 t ht) hrest

/-- A run that ends in a state without the property, by evaluation. -/
theorem not_always_of_run {s : S} (as : List A) (bad : S → Bool)
    (hrun : (run T s as).any bad = true) (hbad : ∀ s', bad s' = true → ¬ P s') :
    ¬ Always T P s as := by
  intro h
  cases hs : run T s as with
  | none =>
    rw [hs] at hrun
    exact nomatch hrun
  | some s' =>
    rw [hs] at hrun
    exact hbad s' hrun (h.last hs)

/-- A condition on every step of a run holds of the last one. -/
theorem Along.last {s t t' : S} {as : List A} {a : A} (h : Along T C s (as ++ [a]))
    (hrun : run T s as = some t) (hstep : T t a = some t') : C t a t' := by
  induction as generalizing s with
  | nil =>
    obtain rfl := Option.some.inj hrun
    exact (h t' hstep).1
  | cons b as ih =>
    obtain ⟨u, hu, hrest⟩ := Option.bind_eq_some_iff.mp hrun
    exact ih (h u hu).2 hrest

/-- A run whose last step breaks the condition, by evaluation. -/
theorem not_along_of_run {s : S} (as : List A) (a : A) (bad : S → S → Bool)
    (hrun : ((run T s as).any fun t => (T t a).any fun t' => bad t t') = true)
    (hbad : ∀ t t', bad t t' = true → ¬ C t a t') : ¬ Along T C s (as ++ [a]) := by
  intro h
  cases hs : run T s as with
  | none =>
    rw [hs] at hrun
    exact nomatch hrun
  | some t =>
    rw [hs] at hrun
    cases hs' : T t a with
    | none =>
      simp only [Option.any_some, hs'] at hrun
      exact nomatch hrun
    | some t' =>
      simp only [Option.any_some, hs'] at hrun
      exact hbad t t' hrun (h.last hs hs')

end Machinery
