import SaturnOS.Sched.Arguments

/-!
# Sched/Admission — a task that was created is admitted

    create ──▸ BLOCKED ──unblock──▸ READY
      ✗                    (✗)

Creation needs a valid image, an argument that fits, a task slot and a table slot, and nothing else
(`createUserTask_iff`).  The readiness that admission asks for is all set by then, so the two that
call one after the other, the spawn syscall and the shell, leave no blocked task behind.
-/

open Machinery

namespace SaturnOS

/-! ## What creation needs -/

/-- The file is there and parses, and the argument is short, of few words, and fits the data
page. -/
def CanLoad (file argument : Option (List Byte)) : Prop :=
  ∃ bytes image, file = some bytes ∧ saturnExecParse (some bytes) = some image
    ∧ (argument.getD []).length ≤ taskUserArgumentMax
    ∧ (argumentTokens (argument.getD [])).length ≤ taskUserArgMax
    ∧ argumentStart image + 128 + (argument.getD []).length + 1 ≤ 4096

/-- A task slot is unused, or the table can grow. -/
def HasTaskSlot (k : Kernel) : Prop :=
  (∃ i, 0 < i ∧ i < k.taskCount ∧ (k.tasks i).state = .unused) ∨ k.taskCount < schedMaxTasks

/-- A page-table slot is free. -/
def HasTableSlot (k : Kernel) : Prop := ∃ slot, k.spaces.userTableSlotsUsed slot = false

theorem userTaskImage_isSome (file argument : Option (List Byte)) :
    (∃ image, userTaskImage file argument = some image) ↔ CanLoad file argument := by
  constructor
  · rintro ⟨image, himage⟩
    obtain ⟨hparse, hrest⟩ := userTaskImage_iff.mp himage
    cases file with
    | none => cases hparse
    | some bytes => exact ⟨bytes, image, rfl, hparse, hrest⟩
  · rintro ⟨bytes, image, rfl, hparse, hrest⟩
    exact ⟨image, userTaskImage_iff.mpr ⟨hparse, hrest⟩⟩

theorem claimTaskSlot_isSome (k : Kernel) : (∃ r, claimTaskSlot k = some r) ↔ HasTaskSlot k := by
  constructor
  · rintro ⟨⟨k', p⟩, hclaim⟩
    obtain ⟨-, -, -, ⟨hpos, hlt, hunused, -⟩ | ⟨-, -, hlt⟩⟩ := claimTaskSlot_spec hclaim
    · exact .inl ⟨p, hpos, hlt, hunused⟩
    · exact .inr hlt
  · intro h
    rw [claimTaskSlot]
    cases hfind : ((List.range k.taskCount).drop 1).find? fun i => (k.tasks i).state == .unused with
    | some i => exact ⟨_, rfl⟩
    | none =>
      rcases h with ⟨i, hpos, hlt, hunused⟩ | hlt
      · have := List.find?_eq_none.mp hfind i (mem_slots.mpr ⟨hpos, hlt⟩)
        simp [hunused] at this
      · exact ⟨_, if_neg (Nat.not_le.mpr hlt)⟩

theorem lowestFreeSlot_isSome (k : Kernel) :
    (∃ slot, lowestFreeSlot k.spaces = some slot) ↔ HasTableSlot k := by
  constructor
  · rintro ⟨slot, hslot⟩
    exact ⟨slot, lowestFreeSlot_some hslot⟩
  · rintro ⟨slot, hfree⟩
    cases hfind : lowestFreeSlot k.spaces with
    | some s => exact ⟨s, rfl⟩
    | none =>
      have := List.find?_eq_none.mp hfind slot (List.mem_finRange slot)
      simp [hfree] at this

/-- **Creation needs no more than this.** -/
theorem createUserTask_iff (L : Layout) (S : Symbols) {k : Kernel} (h : TableOk k)
    (name : Option String) (file argument : Option (List Byte)) :
    0 ≤ (schedulerCreateUserTaskFromImage L S name file argument k).2
      ↔ CanLoad file argument ∧ HasTaskSlot k ∧ HasTableSlot k := by
  rw [← userTaskImage_isSome, ← claimTaskSlot_isSome, ← lowestFreeSlot_isSome]
  constructor
  · intro hpos
    obtain ⟨p, hp⟩ := Int.eq_ofNat_of_zero_le hpos
    obtain ⟨image, k₀, q, slot, himage, hclaim, -, hfree⟩ :=
      createUserTask_needs L S (Prod.ext rfl hp)
    rw [(claimTaskSlot_spec hclaim).2.2.1] at hfree
    exact ⟨⟨image, himage⟩, ⟨_, hclaim⟩, slot, hfree⟩
  · rintro ⟨⟨image, himage⟩, ⟨⟨k₀, p⟩, hclaim⟩, slot, hfree⟩
    obtain ⟨hmax, -, hlt, -⟩ := h.claim hclaim
    rw [← (claimTaskSlot_spec hclaim).2.2.1] at hfree
    obtain ⟨k', hdone, -⟩ := createUserTask_done L S name himage hclaim (by omega) hfree
    rw [hdone]
    exact Int.natCast_nonneg p

/-! ## Admission -/

/-- No task is blocked that was not. -/
def NoneBlocked (k k' : Kernel) : Prop :=
  ∀ i, (k'.tasks i).state = .blocked → (k.tasks i).state = .blocked

/-- The shell's `run`: create, and admit. -/
def shellRun (L : Layout) (S : Symbols) (file argument : Option (List Byte)) (k : Kernel) :
    Kernel × Bool :=
  match schedulerCreateUserTaskFromImage L S (some "user-program") file argument k with
  | (k, pid) =>
    if 0 ≤ pid then
      match schedulerUnblockUserTask S pid k with
      | (k, r) => (k, r == 0)
    else (k, false)

/-- The kernel's root is none of the static user roots. -/
def RootApart (L : Layout) (k : Kernel) : Prop :=
  ∀ slot, k.spaces.kernelAddressSpace.rootTable ≠ L.table (.userL1 slot)

theorem FailsClean.noneBlocked {k k' : Kernel} (h : FailsClean k k') : NoneBlocked k k' := by
  intro i hi
  rcases h with rfl | ⟨p, space, hunused, rfl⟩
  · exact hi
  · by_cases hip : i = p
    · subst hip
      rwa [Kernel.modTask_self] at hi
    · rwa [Kernel.modTask_of_ne _ _ _ hip] at hi

/-- An admission that succeeds makes its task ready. -/
theorem unblock_ready (S : Symbols) {k : Kernel} {p : ℕ}
    (h : (schedulerUnblockUserTask S p k).2 = 0) :
    (∀ i, i ≠ p → (schedulerUnblockUserTask S p k).1.tasks i = k.tasks i)
      ∧ ((schedulerUnblockUserTask S p k).1.tasks p).state = .ready := by
  simp only [schedulerUnblockUserTask, Int.toNat_natCast] at h ⊢
  split at h
  · cases h
  split at h
  · cases h
  split at h
  · cases h
  split at h
  · cases h
  rename_i h₁ h₂ h₃ h₄
  rw [if_neg h₁, if_neg h₂, if_neg h₃, if_neg h₄]
  dsimp only
  refine ⟨fun i hi => Kernel.modTask_of_ne _ _ _ hi, ?_⟩
  rw [Kernel.modTask_self]

theorem noneBlocked_unblock (S : Symbols) {k k' : Kernel} {p : ℕ} (hchanged : ChangedAt p k k')
    (h : (schedulerUnblockUserTask S p k').2 = 0) :
    NoneBlocked k (schedulerUnblockUserTask S p k').1 := by
  obtain ⟨hrest, hready⟩ := unblock_ready S h
  intro i hi
  by_cases hip : i = p
  · subst hip
    rw [hready] at hi
    cases hi
  · rwa [hrest i hip, hchanged.tasks i hip] at hi

section Admitting

variable (L : Layout) (S : Symbols) {k : Kernel} (h : TableOk k)

include h

/-- **A created task is admitted.** -/
theorem createUserTask_admitted (hroot : RootApart L k) (name : Option String)
    (file argument : Option (List Byte))
    (hpos : 0 ≤ (schedulerCreateUserTaskFromImage L S name file argument k).2) :
    (schedulerUnblockUserTask S (schedulerCreateUserTaskFromImage L S name file argument k).2
      (schedulerCreateUserTaskFromImage L S name file argument k).1).2 = 0 := by
  have hend := createUserTask_ends L S h name file argument
  generalize schedulerCreateUserTaskFromImage L S name file argument k = r at hend hpos ⊢
  cases hend with
  | failed hclean => exact absurd (show (0 : ℤ) ≤ -1 from hpos) (by decide)
  | created hunused hp hlt hcount hchanged hok hspace htarget htask =>
    exact unblock_admissible hok hspace (by rw [htarget]; exact hroot _) S hlt htask

/-- **The shell's `run`** leaves no task blocked. -/
theorem shellRun_noneBlocked (hroot : RootApart L k) (file argument : Option (List Byte)) :
    NoneBlocked k (shellRun L S file argument k).1 := by
  have hend := createUserTask_ends L S h (some "user-program") file argument
  rw [shellRun]
  generalize schedulerCreateUserTaskFromImage L S (some "user-program") file argument k
    = r at hend ⊢
  cases hend with
  | failed hclean => exact hclean.noneBlocked
  | created hunused hp hlt hcount hchanged hok hspace htarget htask =>
    have hadmitted := unblock_admissible hok hspace (by rw [htarget]; exact hroot _) S hlt htask
    dsimp only
    rw [if_pos (Int.natCast_nonneg _)]
    exact noneBlocked_unblock S hchanged hadmitted

/-- **A spawn** leaves no task blocked. -/
theorem spawnChild_noneBlocked (hroot : RootApart L k) (hcurrent : k.currentTask ≠ 0)
    (file argument : Option (List Byte)) : NoneBlocked k (spawnChild L S file argument k).1 := by
  have hend := createUserTask_ends L S h (some "user-child") file argument
  rw [spawnChild]
  generalize schedulerCreateUserTaskFromImage L S (some "user-child") file argument k = r at hend ⊢
  cases hend with
  | failed hclean => exact hclean.noneBlocked
  | created hunused hp hlt hcount hchanged hok hspace htarget htask =>
    obtain ⟨k₁, hparent, hchanged₁, hadmitted⟩ := child_admitted S h hcurrent hunused hp hlt hcount
      hchanged hok hspace (by rw [htarget]; exact hroot _) htask
    dsimp only
    rw [if_neg (by omega), hparent]
    dsimp only
    rw [hadmitted, if_neg (by omega)]
    exact noneBlocked_unblock S hchanged₁ hadmitted

end Admitting

/-- What a state promises of creation and admission. -/
structure Admits (L : Layout) (S : Symbols) (k : Kernel) : Prop where
  creates : ∀ name file argument,
    0 ≤ (schedulerCreateUserTaskFromImage L S name file argument k).2
      ↔ CanLoad file argument ∧ HasTaskSlot k ∧ HasTableSlot k
  admits : ∀ name file argument,
    0 ≤ (schedulerCreateUserTaskFromImage L S name file argument k).2 →
      (schedulerUnblockUserTask S (schedulerCreateUserTaskFromImage L S name file argument k).2
        (schedulerCreateUserTaskFromImage L S name file argument k).1).2 = 0
  run : ∀ file argument, NoneBlocked k (shellRun L S file argument k).1
  spawn : k.currentTask ≠ 0 → ∀ file argument, NoneBlocked k (spawnChild L S file argument k).1

/-- **Admission never fails after creation**, in any state any sequence of calls leads to. -/
theorem admission_never_fails (L : Layout) (S : Symbols) (spaces : SpaceStatics)
    (ops : List KernelOp) :
    Always (taskStep L S) (fun k => RootApart L k → Admits L S k) (bootKernel S spaces) ops :=
  Always.of_inv (I := TableOk) (fun _ _ _ h hstep => tableOk_task h hstep)
    (fun _ h hroot => ⟨createUserTask_iff L S h, createUserTask_admitted L S h hroot,
      shellRun_noneBlocked L S h hroot, fun hcurrent => spawnChild_noneBlocked L S h hroot
      hcurrent⟩)
    (tableOk_boot S spaces) ops

/-- …and over the kernel map at its static root. -/
theorem admission_never_fails_boot : Admits bssLayout imageSymbols bssKernel :=
  (admission_never_fails bssLayout imageSymbols (addressSpaceInit (bssLayout.table .vmL1) {}) []).1
    fun _ heq => nomatch bssLayout.table_injective heq

end SaturnOS
