import SaturnOS.Machinery.Runs

/-!
# Machinery/Registers — programs over registers that a device answers

    write a v ──▸ read b ──v₁──▸ ⋯
                     └────v₂──▸ ⋯        one branch for each answer

A `Driver` reads and writes registers and goes on with what it has read.  Its run is against a
device that answers each read from all that has happened before, in any way at all.

A monitor `M : S → Access A V → Option S` follows the accesses and refuses those that break a rule.
`Obeys` is the weakest precondition of a driver under a monitor, over all answers that `ok` admits;
`Obeys.run` makes a statement about runs of it.
-/

namespace Machinery

/-- One access to a register: what was read from it, or written into it. -/
inductive Access (A V : Type)
  | read (a : A) (v : V)
  | write (a : A) (v : V)

/-- A program that reads and writes registers. -/
inductive Driver (A V α : Type)
  | done (x : α)
  | read (a : A) (next : V → Driver A V α)
  | write (a : A) (v : V) (next : Driver A V α)

namespace Driver

variable {A B V α β σ ι S I : Type}

protected def bind (p : Driver A V α) (k : α → Driver A V β) : Driver A V β :=
  match p with
  | done x => k x
  | read a next => read a fun v => (next v).bind k
  | write a v next => write a v (next.bind k)

instance : Monad (Driver A V) where
  pure := done
  bind := Driver.bind

/-- The same program, with its registers elsewhere. -/
def placed (f : A → B) : Driver A V α → Driver B V α
  | done x => done x
  | read a next => read (f a) fun v => (next v).placed f
  | write a v next => write (f a) v (next.placed f)

/-- The accesses of a run, after those of the past, and the result. -/
def run (answer : List (Access A V) → A → V) :
    List (Access A V) → Driver A V α → List (Access A V) × α
  | past, done x => (past, x)
  | past, read a next =>
    (next (answer past a)).run answer (past ++ [.read a (answer past a)])
  | past, write a v next => next.run answer (past ++ [.write a v])

/-! ## Weakest preconditions -/

/-- Every access is one that the monitor takes, whatever the answers, and the end meets `Q`. -/
def Obeys (ok : A → V → Prop) (M : S → Access A V → Option S) :
    Driver A V α → S → (α → S → Prop) → Prop
  | done x, s, Q => Q x s
  | read a next, s, Q =>
    ∀ v, ok a v → ∃ s', M s (.read a v) = some s' ∧ Obeys ok M (next v) s' Q
  | write a v next, s, Q => ∃ s', M s (.write a v) = some s' ∧ Obeys ok M next s' Q

variable {ok : A → V → Prop} {M : S → Access A V → Option S} {p : Driver A V α} {s : S}
  {Q Q' : α → S → Prop}

theorem Obeys.mono (h : Obeys ok M p s Q) (hQ : ∀ x s', Q x s' → Q' x s') :
    Obeys ok M p s Q' := by
  induction p generalizing s with
  | done x => exact hQ x s h
  | read a next ih =>
    intro v hv
    obtain ⟨s', hs, hrest⟩ := h v hv
    exact ⟨s', hs, ih v hrest⟩
  | write a v next ih =>
    obtain ⟨s', hs, hrest⟩ := h
    exact ⟨s', hs, ih hrest⟩

theorem Obeys.bind {k : α → Driver A V β} {R : β → S → Prop} (h : Obeys ok M p s Q)
    (hk : ∀ x s', Q x s' → Obeys ok M (k x) s' R) : Obeys ok M (p >>= k) s R := by
  induction p generalizing s with
  | done x => exact hk x s h
  | read a next ih =>
    intro v hv
    obtain ⟨s', hs, hrest⟩ := h v hv
    exact ⟨s', hs, ih v hrest⟩
  | write a v next ih =>
    obtain ⟨s', hs, hrest⟩ := h
    exact ⟨s', hs, ih hrest⟩

/-- A run goes on by one access. -/
theorem run_concat {s₀ s' : S} {past : List (Access A V)} {e : Access A V}
    (hpast : Machinery.run M s₀ past = some s) (he : M s e = some s') :
    Machinery.run M s₀ (past ++ [e]) = some s' := by
  rw [run_append, hpast, Option.bind_some, Machinery.run, he]
  rfl

/-- **Soundness**: the accesses of every run are taken by the monitor, and the run ends in `Q`. -/
theorem Obeys.run {answer : List (Access A V) → A → V} {s₀ : S} {past : List (Access A V)}
    (h : Obeys ok M p s Q) (hanswer : ∀ past a, ok a (answer past a))
    (hpast : Machinery.run M s₀ past = some s) :
    ∃ s', Machinery.run M s₀ (p.run answer past).1 = some s' ∧ Q (p.run answer past).2 s' := by
  induction p generalizing s past with
  | done x => exact ⟨s, hpast, h⟩
  | read a next ih =>
    obtain ⟨s', hs, hrest⟩ := h _ (hanswer past a)
    exact ih _ hrest (run_concat hpast hs)
  | write a v next ih =>
    obtain ⟨s', hs, hrest⟩ := h
    exact ih hrest (run_concat hpast hs)

/-! ## One device of many -/

section Family

variable [DecidableEq I]

/-- The monitor of a family of devices: an access is to one of them, and goes to its monitor. -/
def family (M : S → Access A V → Option S) (place : B → Option (I × A)) (s : I → S) :
    Access B V → Option (I → S)
  | .read b v => (place b).bind fun (i, a) => (M (s i) (.read a v)).map (Function.update s i)
  | .write b v => (place b).bind fun (i, a) => (M (s i) (.write a v)).map (Function.update s i)

variable {place : B → Option (I × A)} {f : A → B} {i : I} {s : I → S} {okB : B → V → Prop}

/-- **The frame rule**: a driver of one device leaves the others alone. -/
theorem Obeys.placed (hplace : ∀ a, place (f a) = some (i, a))
    (h : Obeys (fun a => okB (f a)) M p (s i) Q) :
    Obeys okB (family M place) (p.placed f) s fun x s' =>
      ∃ t, s' = Function.update s i t ∧ Q x t := by
  induction p generalizing s with
  | done x => exact ⟨s i, (Function.update_eq_self i s).symm, h⟩
  | read a next ih =>
    intro v hv
    obtain ⟨t, ht, hrest⟩ := h v hv
    refine ⟨Function.update s i t, ?_, ?_⟩
    · simp only [family, hplace, Option.bind_some, ht, Option.map_some]
    · have hnext := ih v (s := Function.update s i t) (by rwa [Function.update_self])
      simpa only [Function.update_idem] using hnext
  | write a v next ih =>
    obtain ⟨t, ht, hrest⟩ := h
    refine ⟨Function.update s i t, ?_, ?_⟩
    · simp only [family, hplace, Option.bind_some, ht, Option.map_some]
    · have hnext := ih (s := Function.update s i t) (by rwa [Function.update_self])
      simpa only [Function.update_idem] using hnext

end Family

/-! ## Until one succeeds -/

/-- The probes one after another, up to the first that succeeds. -/
def tryEach (probe : ι → σ → Driver A V (σ × Bool)) : List ι → σ → Driver A V (σ × Bool)
  | [], x => pure (x, false)
  | i :: is, x => do
    let (x, found) ← probe i x
    if found then pure (x, true) else tryEach probe is x

/-- **The rule for the search**: where a probe that fails leaves what the next one needs, the search
ends at the first that succeeds, or with all of them failed. -/
theorem Obeys.tryEach {probe : ℕ → σ → Driver A V (σ × Bool)} {n : ℕ}
    (Failed Found : ℕ → σ → S → Prop)
    (hprobe : ∀ i x s, i < n → Failed i x s → Obeys ok M (probe i x) s fun y s' =>
      if y.2 then Found i y.1 s' else Failed (i + 1) y.1 s')
    {x : σ} {s : S} (h : Failed 0 x s) :
    Obeys ok M (tryEach probe (List.range n) x) s fun y s' =>
      if y.2 then ∃ i < n, Found i y.1 s' else Failed n y.1 s' := by
  suffices hrest : ∀ m i x s, i + m = n → Failed i x s →
      Obeys ok M (Driver.tryEach probe (List.range' i m) x) s fun y s' =>
        if y.2 then ∃ i < n, Found i y.1 s' else Failed n y.1 s' by
    rw [List.range_eq_range']
    exact hrest n 0 x s (Nat.zero_add n) h
  intro m
  induction m with
  | zero =>
    rintro i x s rfl h
    exact h
  | succ m ih =>
    intro i x s him h
    have hi : i < n := by omega
    refine (hprobe i x s hi h).bind fun y s' hy => ?_
    obtain ⟨x', found⟩ := y
    cases found with
    | true => exact ⟨i, hi, hy⟩
    | false => exact ih (i + 1) x' s' (by omega) hy

end Driver

end Machinery
