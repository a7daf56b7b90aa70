import SaturnOS.Memory.UserTables
import SaturnOS.Sched.Ownership

/-!
# Sched/Slots — who holds the user table slots

    user_table_slots_used[s]  ⟺  exactly one task in the table points to a user space rooted in s

A slot is taken by `address_space_init_user` in the middle of a creation and given back by
`address_space_destroy_user` — at the end of the task's life, or on the way out of a creation that
failed.  `SlotsOk` is the invariant: a space rooted in a slot belongs to a task in use that points
to it, and the flags are exactly the slots some space is rooted in.  A step touches one task's space
(`SlotsOk.change`) or none (`SlotsOk.congr`).
-/

open Machinery

namespace SaturnOS

/-! ## Slots and their holders -/

/-- The user space of task `i` is rooted in slot `s`. -/
def Rooted (k : Kernel) (i : ℕ) (s : Fin 4) : Prop :=
  (k.tasks i).userAddressSpace.kind = .user ∧ (k.tasks i).userAddressSpace.userTableSlot = s.val

/-- Task `i` is in use and its address space is a user space in slot `s`. -/
def Holds (k : Kernel) (i : ℕ) (s : Fin 4) : Prop :=
  Used k i ∧ ∃ space, k.taskSpace i = some space ∧ space.kind = .user
    ∧ space.userTableSlot = s.val

theorem Rooted.slot_unique {k : Kernel} {i : ℕ} {s t : Fin 4} (h : Rooted k i s)
    (h' : Rooted k i t) : s = t := Fin.ext (h.2.symm.trans h'.2)

/-- **The invariant of the slots.** -/
structure SlotsOk (k : Kernel) : Prop where
  kernelKind : k.spaces.kernelAddressSpace.kind = .kernel
  rooted : ∀ i s, Rooted k i s → Used k i ∧ (k.tasks i).memory.addressSpace = .user
  flag : ∀ s, k.spaces.userTableSlotsUsed s = true ↔ ∃ i, Rooted k i s
  distinct : ∀ i j s, Rooted k i s → Rooted k j s → i = j

namespace SlotsOk

variable {k k' : Kernel} (h : SlotsOk k)

include h

/-- Under the invariant, to hold a slot is to be rooted in it. -/
theorem holds_iff (i : ℕ) (s : Fin 4) : Holds k i s ↔ Rooted k i s := by
  constructor
  · rintro ⟨-, space, hspace, hkind, hslot⟩
    rw [Kernel.taskSpace] at hspace
    split at hspace
    · cases hspace
    · obtain rfl := Option.some.inj hspace
      exact absurd (h.kernelKind.symm.trans hkind) (by decide)
    · obtain rfl := Option.some.inj hspace
      exact ⟨hkind, hslot⟩
  · intro hr
    obtain ⟨hu, hpointer⟩ := h.rooted i s hr
    exact ⟨hu, _, by rw [Kernel.taskSpace, hpointer], hr.1, hr.2⟩

/-- **A flag is up exactly when one task holds the slot.** -/
theorem flag_iff (s : Fin 4) :
    k.spaces.userTableSlotsUsed s = true ↔ ∃! i, Holds k i s := by
  rw [h.flag s]
  constructor
  · rintro ⟨i, hi⟩
    exact ⟨i, (h.holds_iff i s).mpr hi, fun j hj => h.distinct j i s ((h.holds_iff j s).mp hj) hi⟩
  · rintro ⟨i, hi, -⟩
    exact ⟨i, (h.holds_iff i s).mp hi⟩

/-- Four slots taken are four tasks. -/
theorem holders (hlack : (addressSpaceAllocUserTableSlot k.spaces).2 = none) :
    ∃ holder : Fin 4 → ℕ, Function.Injective holder ∧ ∀ s, Holds k (holder s) s := by
  have hnone : lowestFreeSlot k.spaces = none := by
    rw [addressSpaceAllocUserTableSlot] at hlack
    split at hlack
    · assumption
    · cases hlack
  have hall : ∀ s, k.spaces.userTableSlotsUsed s = true := by
    intro s
    have := List.find?_eq_none.mp hnone s (List.mem_finRange s)
    simpa using this
  choose holder hholder using fun s => (h.flag s).mp (hall s)
  refine ⟨holder, fun s t hst => ?_, fun s => (h.holds_iff _ s).mpr (hholder s)⟩
  have ht := hholder t
  rw [← hst] at ht
  exact (hholder s).slot_unique ht

/-- An unused task is rooted nowhere. -/
theorem not_rooted {i : ℕ} (hi : (k.tasks i).state = .unused) (s : Fin 4) : ¬ Rooted k i s :=
  fun hr => (h.rooted i s hr).1 hi

/-- **One task's space changes**: it is rooted in a slot nobody else has, or in none. -/
theorem change {p : ℕ} (hrest : ChangedAt p k k')
    (hroot : ∀ s, Rooted k' p s → Used k' p ∧ (k'.tasks p).memory.addressSpace = .user
      ∧ ∀ i, i ≠ p → ¬ Rooted k i s)
    (hflag : ∀ s, k'.spaces.userTableSlotsUsed s = true ↔
      Rooted k' p s ∨ k.spaces.userTableSlotsUsed s = true ∧ ¬ Rooted k p s) : SlotsOk k' := by
  have hother : ∀ i, i ≠ p → ∀ s, Rooted k' i s ↔ Rooted k i s := by
    intro i hi s
    rw [Rooted, hrest.tasks i hi, Rooted]
  refine ⟨hrest.kernelKind.trans h.kernelKind, fun i s hr => ?_, fun s => ?_, fun i j s hi hj => ?_⟩
  · by_cases hip : i = p
    · subst hip
      exact ⟨(hroot s hr).1, (hroot s hr).2.1⟩
    · have := h.rooted i s ((hother i hip s).mp hr)
      rwa [Used, hrest.tasks i hip]
  · rw [hflag, h.flag]
    constructor
    · rintro (hp | ⟨⟨i, hi⟩, hp⟩)
      · exact ⟨p, hp⟩
      · refine ⟨i, (hother i ?_ s).mpr hi⟩
        rintro rfl
        exact hp hi
    · rintro ⟨i, hi⟩
      by_cases hip : i = p
      · subst hip
        exact .inl hi
      · have hi := (hother i hip s).mp hi
        exact .inr ⟨⟨i, hi⟩, fun hp => hip (h.distinct i p s hi hp)⟩
  · by_cases hip : i = p <;> by_cases hjp : j = p
    · rw [hip, hjp]
    · subst hip
      exact absurd ((hother j hjp s).mp hj) ((hroot s hi).2.2 j hjp)
    · subst hjp
      exact absurd ((hother i hip s).mp hi) ((hroot s hj).2.2 i hip)
    · exact h.distinct i j s ((hother i hip s).mp hi) ((hother j hjp s).mp hj)

end SlotsOk

/-! ## Steps that touch no space -/

/-- A task keeps its slot of the table and its address space. -/
structure SameSpace (t t' : Task) : Prop where
  unused_iff : t'.state = .unused ↔ t.state = .unused
  pointer_eq : t'.memory.addressSpace = t.memory.addressSpace
  space_eq : t'.userAddressSpace = t.userAddressSpace

/-- …and every task does, with the flags. -/
structure SameSpaces (k k' : Kernel) : Prop where
  tasks : ∀ i, SameSpace (k.tasks i) (k'.tasks i)
  slots : SameSlots k.spaces k'.spaces

theorem SameSpace.refl (t : Task) : SameSpace t t := ⟨Iff.rfl, rfl, rfl⟩

theorem SameSpace.of_used {t t' : Task} (hu : t.state ≠ .unused) (hu' : t'.state ≠ .unused)
    (hm : t'.memory = t.memory) (hs : t'.userAddressSpace = t.userAddressSpace) : SameSpace t t' :=
  ⟨iff_of_false hu' hu, by rw [hm], hs⟩

theorem SlotsOk.congr {k k' : Kernel} (h : SlotsOk k) (hs : SameSpaces k k') : SlotsOk k' := by
  have hroot : ∀ i s, Rooted k' i s ↔ Rooted k i s := by
    intro i s
    rw [Rooted, (hs.tasks i).space_eq, Rooted]
  refine ⟨by rw [hs.slots.kernel]; exact h.kernelKind, fun i s hr => ?_, fun s => ?_,
    fun i j s hi hj => h.distinct i j s ((hroot i s).mp hi) ((hroot j s).mp hj)⟩
  · obtain ⟨hu, hpointer⟩ := h.rooted i s ((hroot i s).mp hr)
    exact ⟨fun hu' => hu ((hs.tasks i).unused_iff.mp hu'), (hs.tasks i).pointer_eq.trans hpointer⟩
  · rw [hs.slots.flags, h.flag]
    exact exists_congr fun i => (hroot i s).symm

namespace SameSpaces

variable {k k' k'' : Kernel}

theorem refl (k : Kernel) : SameSpaces k k := ⟨fun _ => SameSpace.refl _, SameSlots.refl _⟩

theorem trans (h : SameSpaces k k') (h' : SameSpaces k' k'') : SameSpaces k k'' :=
  ⟨fun i => ⟨(h'.tasks i).unused_iff.trans (h.tasks i).unused_iff,
    (h'.tasks i).pointer_eq.trans (h.tasks i).pointer_eq,
    (h'.tasks i).space_eq.trans (h.tasks i).space_eq⟩, h.slots.trans h'.slots⟩

theorem modTask (k : Kernel) (p : ℕ) {f : Task → Task}
    (hf : SameSpace (k.tasks p) (f (k.tasks p))) : SameSpaces k (k.modTask p f) :=
  ⟨k.modTask_ind p f (P := fun i t => SameSpace (k.tasks i) t) hf fun _ _ => SameSpace.refl _,
    SameSlots.refl _⟩

theorem of_tasks (ht : k'.tasks = k.tasks) (hs : k'.spaces = k.spaces) : SameSpaces k k' :=
  ⟨fun i => by rw [ht]; exact SameSpace.refl _, by rw [hs]; exact SameSlots.refl _⟩

theorem of_resched (h : Resched k k') : SameSpaces k k' :=
  ⟨fun i => ⟨(h.tasks i).unused_iff, by rw [(h.tasks i).memory_eq], (h.tasks i).space_eq⟩,
    by rw [h.spaces]; exact SameSlots.refl _⟩

theorem of_closes (h : ClosesSessions k k') : SameSpaces k k' :=
  ⟨fun i => ⟨by rw [(h.tasks i).state_eq], by rw [(h.tasks i).memory_eq], (h.tasks i).space_eq⟩,
    by rw [h.spaces]; exact SameSlots.refl _⟩

theorem of_readmits {p : ℕ} (h : Readmits p k k') : SameSpaces k k' := by
  rcases h with rfl | ⟨-, -, f, rfl, ht⟩
  · exact refl k'
  · exact modTask k p (SameSpace.of_used ht.used.1 ht.used.2 ht.memory_eq ht.space_eq)

end SameSpaces

section Calls

variable (S : Symbols) {k : Kernel} (h : TableOk k)

theorem terminateChild_sameSpaces (pid : ℤ) (code : Word) (k : Kernel) :
    SameSpaces k (schedulerTerminateChild pid code k).1 := by
  simp only [schedulerTerminateChild]
  split
  · exact SameSpaces.refl k
  · rename_i hp
    simp only [Bool.not_eq_true', Bool.not_eq_false, canTerminate, Bool.and_eq_true,
      bne_iff_ne] at hp
    dsimp only
    exact SameSpaces.modTask k _ (SameSpace.of_used hp.1.2 (by simp) rfl rfl)

theorem finishUserTask_sameSpaces {p : ℕ} (status : UserModeStatus) (hu : Used k p) :
    SameSpaces k (finishUserTask p status k).1 := by
  rw [finishUserTask]
  split
  · dsimp only
    exact SameSpaces.modTask k p (SameSpace.of_used hu (by simp) rfl rfl)
  · dsimp only
    exact SameSpaces.modTask k p (SameSpace.of_used hu (by simp) rfl rfl)

theorem orphanChildren_sameSpaces (p : ℕ) (k : Kernel) : SameSpaces k (orphanChildren p k) := by
  refine ⟨fun i => ?_, SameSlots.refl _⟩
  dsimp only [orphanChildren]
  split
  · exact ⟨Iff.rfl, rfl, rfl⟩
  · exact SameSpace.refl _

theorem setTaskParent_sameSpaces (pid parentPid : ℤ) (k : Kernel) :
    SameSpaces k (schedulerSetTaskParent pid parentPid k).1 := by
  rw [schedulerSetTaskParent]
  split
  · exact SameSpaces.refl k
  · dsimp only
    refine SameSpaces.modTask k _ ?_
    exact ⟨Iff.rfl, rfl, rfl⟩

include h

theorem sleepMs_sameSpaces (ms intervalMs : Word) :
    SameSpaces k (schedulerSleepMs ms intervalMs k).1 := by
  simp only [schedulerSleepMs]
  split
  · exact SameSpaces.refl k
  · refine SameSpaces.trans ?_ (SameSpaces.of_resched (yield_resched _))
    exact SameSpaces.modTask k _ (SameSpace.of_used h.current_used (by simp) rfl rfl)

theorem startThreads_sameSpaces : SameSpaces k (schedulerStartThreads k) := by
  have hidle : (k.tasks 0).state ≠ .unused := by
    rcases h.idle with hi | hi <;> simp [hi]
  have hstart : SameSpaces k { k with threadsStarted := true, currentTask := 0 } :=
    SameSpaces.of_tasks rfl rfl
  rw [schedulerStartThreads, schedulerSetRunningTask]
  exact hstart.trans (SameSpaces.modTask _ 0 (SameSpace.of_used hidle (by simp) rfl rfl))

theorem enterEl0_sameSpaces :
    SameSpaces k (schedulerRunUserTaskEnter S k.currentTask k).1 := by
  have henter : SameSpaces k (userModeRunTaskEnter S k.currentTask k).1 := by
    obtain ⟨status, -, heq⟩ | ⟨space, -, -, -, -, -, -, heq⟩ := runTaskEnter_spec S k.currentTask k
    · rw [heq]
      exact SameSpaces.refl k
    · rw [heq]
      dsimp only
      have hswitched : SameSpaces k ((k.modSession (openSession S k.currentTask
        space)).arm64MmuSwitchTtbr0 space.targetRootTable) := SameSpaces.of_tasks rfl rfl
      refine hswitched.trans (SameSpaces.modTask _ _ ?_)
      exact ⟨Iff.rfl, rfl, rfl⟩
  rw [schedulerRunUserTaskEnter]
  split
  · exact SameSpaces.refl k
  · split
    · exact SameSpaces.refl k
    · split
      · rename_i heq
        rwa [heq] at henter
      · rename_i status _ heq
        rw [heq] at henter
        refine henter.trans (finishUserTask_sameSpaces status ?_)
        exact fun hu => h.current_used ((henter.tasks _).unused_iff.mp hu)

theorem completeUserTask_sameSpaces :
    SameSpaces k (schedulerRunUserTaskReturn k.currentTask k).1 := by
  have hreturn := SameSpaces.of_closes (runTaskReturn_closes k.currentTask k)
  refine hreturn.trans (finishUserTask_sameSpaces _ ?_)
  exact fun hu => h.current_used ((hreturn.tasks _).unused_iff.mp hu)

theorem exitTask_sameSpaces : SameSpaces k (schedulerExitTask k.currentTask k).1 := by
  have horphan := orphanChildren_sameSpaces k.currentTask k
  have hu : ((orphanChildren k.currentTask k).tasks k.currentTask).state ≠ .unused :=
    fun hu => h.current_used ((horphan.tasks _).unused_iff.mp hu)
  have hzombie := horphan.trans (SameSpaces.modTask (orphanChildren k.currentTask k) k.currentTask
    (f := fun t => { t with state := .zombie }) (SameSpace.of_used hu (by simp) rfl rfl))
  simp only [schedulerExitTask]
  exact (hzombie.trans (SameSpaces.of_tasks rfl rfl)).trans
    (SameSpaces.of_resched (yield_resched _))

end Calls

/-! ## Giving a slot back -/

/-- Destroying a space lowers the flag of its slot, and leaves it rooted nowhere. -/
theorem destroyUser_slots (st : SpaceStatics) (space : AddressSpace) (s : Fin 4) :
    ¬ ((addressSpaceDestroyUser st space).2.kind = .user
        ∧ (addressSpaceDestroyUser st space).2.userTableSlot = s.val)
      ∧ ((addressSpaceDestroyUser st space).1.userTableSlotsUsed s = true ↔
        st.userTableSlotsUsed s = true ∧ ¬ (space.kind = .user ∧ space.userTableSlot = s.val)) := by
  rw [addressSpaceDestroyUser]
  split
  · rename_i hlive
    dsimp only
    refine ⟨fun hr => absurd hr.2.symm (Nat.ne_of_lt s.isLt), ?_⟩
    show Function.update st.userTableSlotsUsed _ false s = true ↔ _
    by_cases hs : space.userTableSlot = s.val
    · have : s = ⟨space.userTableSlot, hlive.2⟩ := Fin.ext hs.symm
      rw [this, Function.update_self]
      simp [hlive.1]
    · rw [Function.update_of_ne]
      · simp [hs]
      · rintro rfl
        exact hs rfl
  · rename_i hdead
    have hno : ¬ (space.kind = .user ∧ space.userTableSlot = s.val) := by
      rintro ⟨hkind, hslot⟩
      exact hdead ⟨hkind, hslot ▸ s.isLt⟩
    exact ⟨hno, by simp [hno]⟩

theorem destroyUserAddressSpace_slots (p : ℕ) (k : Kernel) (s : Fin 4) :
    ¬ Rooted (destroyUserAddressSpace p k) p s
      ∧ ((destroyUserAddressSpace p k).spaces.userTableSlotsUsed s = true ↔
        k.spaces.userTableSlotsUsed s = true ∧ ¬ Rooted k p s) := by
  have hd := destroyUser_slots k.spaces (k.tasks p).userAddressSpace s
  refine ⟨?_, hd.2⟩
  rw [Rooted, destroyUserAddressSpace, Kernel.modTask_self]
  exact hd.1

/-- **A cleared task gives its slot back.** -/
theorem slotsOk_clearTaskSlot {k : Kernel} (h : SlotsOk k) (p : ℕ) :
    SlotsOk (schedulerClearTaskSlot p k) := by
  have hdestroy : ∀ s, ¬ Rooted (destroyTaskSpace p k) p s
      ∧ ((destroyTaskSpace p k).spaces.userTableSlotsUsed s = true ↔
        k.spaces.userTableSlotsUsed s = true ∧ ¬ Rooted k p s) := by
    intro s
    rw [destroyTaskSpace]
    split
    · rename_i hpointer
      have hno : ¬ Rooted k p s := fun hr => by cases hpointer.symm.trans (h.rooted p s hr).2
      exact ⟨hno, by simp [hno]⟩
    · rename_i hpointer
      have hno : ¬ Rooted k p s := fun hr => by cases hpointer.symm.trans (h.rooted p s hr).2
      have hkernel : ¬ (k.spaces.kernelAddressSpace.kind = .user
          ∧ k.spaces.kernelAddressSpace.userTableSlot < addressSpaceUserTableSlots) := by
        rw [h.kernelKind]
        rintro ⟨hk, -⟩
        cases hk
      dsimp only
      rw [addressSpaceDestroyUser, dif_neg hkernel]
      exact ⟨hno, by simp [hno]⟩
    · exact destroyUserAddressSpace_slots p k s
  have hroot : ∀ s, ¬ Rooted (schedulerClearTaskSlot p k) p s := by
    intro s
    rw [Rooted, schedulerClearTaskSlot, Kernel.modTask_self]
    exact (hdestroy s).1
  refine h.change (clearTaskSlot_spec p k).1 (fun s hr => absurd hr (hroot s)) fun s => ?_
  rw [or_iff_right (hroot s)]
  exact (hdestroy s).2

theorem slotsOk_trim {k : Kernel} (h : SlotsOk k) : SlotsOk (schedulerTrimUnusedTail k) :=
  h.congr (SameSpaces.of_tasks rfl rfl)

theorem slotsOk_reapZombieTask {k : Kernel} (h : SlotsOk k) (pid : ℤ) :
    SlotsOk (schedulerReapZombieTask pid k).1 := by
  simp only [schedulerReapZombieTask]
  split
  · exact h
  · split
    · exact h
    · exact slotsOk_trim (slotsOk_clearTaskSlot h _)

theorem slotsOk_foldl_reapSlot {k : Kernel} (h : SlotsOk k) (slots : List ℕ) :
    SlotsOk (slots.foldl reapSlot k) := by
  induction slots generalizing k with
  | nil => exact h
  | cons i rest ih =>
    refine ih ?_
    rw [reapSlot]
    split
    · exact slotsOk_clearTaskSlot h i
    · exact h

theorem slotsOk_waitOnTask {k : Kernel} (h : SlotsOk k) (p : ℕ) : SlotsOk (waitOnTask p k).1 := by
  simp only [waitOnTask]
  split
  · exact h
  · split
    · exact h
    · exact slotsOk_trim (slotsOk_clearTaskSlot h p)

theorem slotsOk_waitTaskStatus {k : Kernel} (h : SlotsOk k) (pid : ℤ) (hasStatus : Bool) :
    SlotsOk (schedulerWaitTaskStatus pid hasStatus k).1 := by
  simp only [schedulerWaitTaskStatus]
  split
  · exact h
  · split
    · split
      · exact slotsOk_waitOnTask h _
      · exact h
    · exact slotsOk_waitOnTask h _

/-! ## Taking a slot -/

/-- How the creation of a user task in slot `p` of the table leaves the table slots: as they were,
the task rooted nowhere; or with one more taken, by the task. -/
inductive SlotOutcome (p : ℕ) (k : Kernel) : Kernel × ℤ → Prop
  | undone {k' : Kernel} (hflags : k'.spaces.userTableSlotsUsed = k.spaces.userTableSlotsUsed)
      (hroot : ∀ s, ¬ Rooted k' p s) : SlotOutcome p k (k', -1)
  | created {k' : Kernel} {slot : Fin 4} (hfree : k.spaces.userTableSlotsUsed slot = false)
      (hflags : k'.spaces.userTableSlotsUsed
        = Function.update k.spaces.userTableSlotsUsed slot true)
      (hroot : Rooted k' p slot) (hnew : NewUserTask p (k'.tasks p)) : SlotOutcome p k (k', p)

theorem releaseTaskSlot_spaces (p : ℕ) (k : Kernel) : (releaseTaskSlot p k).spaces = k.spaces := by
  rw [releaseTaskSlot]
  split <;> rfl

/-- An image is loaded into the slot the space has, and into none otherwise. -/
theorem loadUserImage_space (st : SpaceStatics) (space : AddressSpace) (code data : Buffer)
    (codeSize dataSize entryOffset : Word) :
    let r := addressSpaceLoadUserImage st space code codeSize data dataSize entryOffset
    r.2.1.kind = space.kind ∧ r.2.1.userTableSlot = space.userTableSlot
      ∧ (addressSpaceUserTableSlots ≤ space.userTableSlot → r.2.2 = false) := by
  dsimp only
  rw [addressSpaceLoadUserImage]
  split
  · rename_i hlive
    split
    · exact ⟨rfl, rfl, fun _ => rfl⟩
    · exact ⟨rfl, rfl, fun hge => absurd hlive.2 (Nat.not_lt.mpr hge)⟩
  · exact ⟨rfl, rfl, fun _ => rfl⟩

/-- What building a space and loading an image into it do to the table slots: nothing when all are
taken, and the image is not loaded; else they take one. -/
inductive SpaceLoad (st : SpaceStatics) : SpaceStatics × AddressSpace × Bool → Prop
  | full {st' : SpaceStatics} {space : AddressSpace}
      (hflags : st'.userTableSlotsUsed = st.userTableSlotsUsed)
      (hdead : space.userTableSlot = addressSpaceUserTableSlots) : SpaceLoad st (st', space, false)
  | built {st' : SpaceStatics} {space : AddressSpace} {loaded : Bool} {slot : Fin 4}
      (hfree : st.userTableSlotsUsed slot = false)
      (hflags : st'.userTableSlotsUsed = Function.update st.userTableSlotsUsed slot true)
      (hkind : space.kind = .user) (hslot : space.userTableSlot = slot) :
      SpaceLoad st (st', space, loaded)

theorem spaceLoad (L : Layout) (name : Option String) (root : Word) (st : SpaceStatics)
    (code data : Buffer) (codeSize dataSize entryOffset : Word) :
    let init := addressSpaceInitUser L name root st
    let load := addressSpaceLoadUserImage init.1 init.2 code codeSize data dataSize entryOffset
    load.1.kernelAddressSpace = st.kernelAddressSpace ∧ SpaceLoad st load := by
  dsimp only
  refine ⟨(addressSpaceLoadUserImage_kernel ..).trans (addressSpaceInitUser_kernel ..), ?_⟩
  obtain ⟨hkind, hroot, hfails⟩ := loadUserImage_space (addressSpaceInitUser L name root st).1
    (addressSpaceInitUser L name root st).2 code data codeSize dataSize entryOffset
  have hslots := addressSpaceLoadUserImage_slots (addressSpaceInitUser L name root st).1
    (addressSpaceInitUser L name root st).2 code data codeSize dataSize entryOffset
  generalize addressSpaceLoadUserImage (addressSpaceInitUser L name root st).1
    (addressSpaceInitUser L name root st).2 code codeSize data dataSize entryOffset = load
    at hkind hroot hfails hslots ⊢
  obtain ⟨st', space, loaded⟩ := load
  cases hfree : lowestFreeSlot st with
  | none =>
    obtain ⟨hst, hdead, -⟩ := addressSpaceInitUser_none L name root hfree
    rw [hst] at hslots
    obtain rfl : loaded = false := hfails (le_of_eq hdead.symm)
    exact .full hslots (hroot.trans hdead)
  | some slot =>
    obtain ⟨shared, hbuilt⟩ := addressSpaceInitUser_some L name root hfree
    rw [hbuilt] at hkind hroot hslots
    exact .built (lowestFreeSlot_some hfree) hslots hkind hroot

/-- **Destroying the space a creation has built takes everything back.** -/
theorem SlotOutcome.taken_back {p : ℕ} {k k₁ k' : Kernel} {loaded : Bool}
    (hload : SpaceLoad k.spaces (k₁.spaces, (k₁.tasks p).userAddressSpace, loaded))
    (hslots : k'.spaces = (destroyUserAddressSpace p k₁).spaces)
    (hspace : (k'.tasks p).userAddressSpace
      = ((destroyUserAddressSpace p k₁).tasks p).userAddressSpace) : SlotOutcome p k (k', -1) := by
  have hd := destroyUserAddressSpace_slots p k₁
  refine .undone (funext fun s => ?_) fun s => ?_
  · have hs := (hd s).2
    rw [hslots, Bool.eq_iff_iff, hs]
    cases hload with
    | full hflags hdead =>
      have hno : ¬ Rooted k₁ p s := fun hr => absurd (hr.2.symm.trans hdead) (Nat.ne_of_lt s.isLt)
      rw [hflags, and_iff_left hno]
    | @built _ _ _ slot hfree hflags hkind hslot =>
      have hroot : Rooted k₁ p slot := ⟨hkind, hslot⟩
      rw [hflags]
      by_cases hs' : s = slot
      · subst hs'
        rw [hfree]
        exact iff_of_false (fun hn => hn.2 hroot) Bool.false_ne_true
      · rw [Function.update_of_ne hs']
        exact and_iff_left fun hr => hs' (hr.slot_unique hroot)
  · rw [Rooted, hspace]
    exact (hd s).1

/-- **The arguments of a loaded task** leave it created, or everything as it was. -/
theorem packArguments_slots {p : ℕ} {k k₁ : Kernel} (image : SaturnExecImage)
    (argument : List Byte) (hrest : ChangedAt p k k₁)
    (hload : SpaceLoad k.spaces (k₁.spaces, (k₁.tasks p).userAddressSpace, true))
    (hnew : NewUserTask p (k₁.tasks p)) :
    ChangedAt p k (packArguments p image argument k₁).1
      ∧ SlotOutcome p k (packArguments p image argument k₁) := by
  obtain ⟨k₂, hrest₂, -, hnew₂, hslots₂, hspace₂, hpack⟩ := packArguments_spec image argument hnew
  rw [← hspace₂] at hload
  obtain hpack | hpack := hpack
  · rw [hpack]
    refine ⟨hrest.trans hrest₂, ?_⟩
    cases hload with
    | built hfree hflags hkind hslot =>
      exact .created hfree (hslots₂.flags.trans hflags) ⟨hkind, hslot⟩ hnew₂
  · have hload₂ : SpaceLoad k.spaces (k₂.spaces, (k₂.tasks p).userAddressSpace, true) := by
      cases hload with
      | built hfree hflags hkind hslot =>
        exact .built hfree (hslots₂.flags.trans hflags) hkind hslot
    rw [hpack]
    set k₃ := (destroyUserAddressSpace p k₂).modTask p fun t => { t with state := .unused } with hk₃
    obtain ⟨htasks, hrelease⟩ := releaseTaskSlot_spec p k₃
    have hdestroy := (destroyUserAddressSpace_spec p k₂).1
    refine ⟨(((hrest.trans hrest₂).trans hdestroy).trans (ChangedAt.modTask _ p _)).trans hrelease,
      .taken_back hload₂ (releaseTaskSlot_spaces p k₃) ?_⟩
    show ((releaseTaskSlot p k₃).tasks p).userAddressSpace = _
    rw [htasks, hk₃, Kernel.modTask_self]

/-- **Creation takes a slot for the task it creates, and none for a task it does not.** -/
theorem createUserTask_slots (L : Layout) (S : Symbols) (name : Option String)
    (file argument : Option (List Byte)) {k : Kernel} (hmax : k.taskCount ≤ schedMaxTasks) :
    schedulerCreateUserTaskFromImage L S name file argument k = (k, -1)
      ∨ ∃ k' p, claimTaskSlot k = some (k', p)
        ∧ ChangedAt p k (schedulerCreateUserTaskFromImage L S name file argument k).1
        ∧ SlotOutcome p k (schedulerCreateUserTaskFromImage L S name file argument k) := by
  rw [schedulerCreateUserTaskFromImage]
  split
  · exact .inl rfl
  · rename_i image _
    split
    · exact .inl rfl
    · rename_i k' p hclaim
      obtain ⟨hk', -, hspaces, hslot⟩ := claimTaskSlot_spec hclaim
      have hlt : ¬ schedMaxTasks ≤ p := by omega
      rw [if_neg hlt]
      dsimp only
      refine .inr ⟨k', p, hclaim, ?_⟩
      obtain ⟨hkernel, hload⟩ := spaceLoad L (some (name.getD "user-demo"))
        k'.spaces.kernelAddressSpace.rootTable k'.spaces (listBuffer image.code)
        (listBuffer image.data) (BitVec.ofNat 64 image.code.length)
        (BitVec.ofNat 64 image.data.length) (BitVec.ofNat 64 image.entryOffset)
      generalize addressSpaceLoadUserImage (addressSpaceInitUser L (some (name.getD "user-demo"))
        k'.spaces.kernelAddressSpace.rootTable k'.spaces).1 _ _ _ _ _ _ = load at hkernel hload ⊢
      rw [hspaces] at hload
      set k₁ := Kernel.modTask { k' with spaces := load.1 } p fun t =>
        { t with userAddressSpace := load.2.1 } with hk₁
      have hspace₁ : (k₁.tasks p).userAddressSpace = load.2.1 := by
        rw [hk₁, Kernel.modTask_self]
      have hload₁ : SpaceLoad k.spaces (k₁.spaces, (k₁.tasks p).userAddressSpace, load.2.2) := by
        rw [hspace₁]
        exact hload
      have hrest : ChangedAt p k k₁ :=
        (hk'.trans (ChangedAt.spaces p k' (congrArg AddressSpace.kind hkernel))).trans
          (ChangedAt.modTask { k' with spaces := load.1 } p _)
      split
      · obtain ⟨htasks, hrelease⟩ := releaseTaskSlot_spec p (destroyUserAddressSpace p k₁)
        refine ⟨(hrest.trans (destroyUserAddressSpace_spec p k₁).1).trans hrelease,
          .taken_back hload₁ (releaseTaskSlot_spaces p _) ?_⟩
        rw [htasks]
      · rename_i hloaded
        have htrue : load.2.2 = true := by simpa using hloaded
        rw [htrue] at hload₁
        set k₂ := k₁.modTask p (resetTask S p (some (name.getD "user-demo")) .blocked 0) with hk₂
        refine packArguments_slots image (argument.getD [])
          ((hrest.trans (ChangedAt.modTask k₁ p _)).trans (ChangedAt.modTask k₂ p _)) ?_ ?_
        · rw [Kernel.modTask_self, hk₂, Kernel.modTask_self]
          exact hload₁
        · rw [Kernel.modTask_self, hk₂, Kernel.modTask_self]
          exact ⟨rfl, rfl, rfl, rfl, rfl⟩

section Creation

variable (L : Layout) (S : Symbols) {k : Kernel}

theorem SlotsOk.outcome (h : SlotsOk k) {p : ℕ} {r : Kernel × ℤ}
    (hu : (k.tasks p).state = .unused) (hrest : ChangedAt p k r.1) (ho : SlotOutcome p k r) :
    SlotsOk r.1 := by
  cases ho with
  | undone hflags hroot =>
    refine h.change hrest (fun s hr => absurd hr (hroot s)) fun s => ?_
    rw [hflags, or_iff_right (hroot s), and_iff_left (h.not_rooted hu s)]
  | created hfree hflags hroot hnew =>
    rename_i k' slot
    refine h.change hrest (fun s hr => ⟨?_, hnew.space_eq, fun i _ hi => ?_⟩) fun s => ?_
    · rw [Used, hnew.state_eq]
      simp
    · obtain rfl := hr.slot_unique hroot
      have hflag := (h.flag s).mpr ⟨i, hi⟩
      rw [hfree] at hflag
      cases hflag
    · rw [hflags, and_iff_left (h.not_rooted hu s)]
      by_cases hs : s = slot
      · subst hs
        rw [Function.update_self]
        exact iff_of_true rfl (.inl hroot)
      · rw [Function.update_of_ne hs, or_iff_right fun hr => hs (hr.slot_unique hroot)]

theorem slotsOk_createUserTask (ht : TableOk k) (h : SlotsOk k) (name : Option String)
    (file argument : Option (List Byte)) :
    SlotsOk (schedulerCreateUserTaskFromImage L S name file argument k).1 := by
  obtain heq | ⟨k', p, hclaim, hrest, ho⟩ :=
    createUserTask_slots L S name file argument ht.count_le
  · rw [heq]
    exact h
  · obtain ⟨-, -, -, hu, -, -⟩ := ht.claim hclaim
    exact h.outcome hu hrest ho

/-- **A creation that fails leaves the flags as they were.** -/
theorem createUserTask_fails (ht : TableOk k) (name : Option String)
    (file argument : Option (List Byte))
    (hneg : (schedulerCreateUserTaskFromImage L S name file argument k).2 < 0) :
    (schedulerCreateUserTaskFromImage L S name file argument k).1.spaces.userTableSlotsUsed
      = k.spaces.userTableSlotsUsed := by
  obtain heq | ⟨k', p, hclaim, -, ho⟩ := createUserTask_slots L S name file argument ht.count_le
  · rw [heq]
  · generalize schedulerCreateUserTaskFromImage L S name file argument k = r at hneg ho ⊢
    cases ho with
    | undone hflags hroot => exact hflags
    | created hfree hflags hroot hnew => exact absurd hneg (by simp)

theorem slotsOk_spawnChild (ht : TableOk k) (h : SlotsOk k) (file argument : Option (List Byte)) :
    SlotsOk (spawnChild L S file argument k).1 := by
  have hcreate := slotsOk_createUserTask L S ht h (some "user-child") file argument
  simp only [spawnChild]
  generalize schedulerCreateUserTaskFromImage L S (some "user-child") file argument k = r
    at hcreate ⊢
  obtain ⟨k₁, pid⟩ := r
  dsimp only at hcreate ⊢
  split
  · exact hcreate
  · have hset := hcreate.congr (setTaskParent_sameSpaces pid k₁.current.pid k₁)
    split
    · rename_i k₂ heq
      rwa [heq] at hset
    · rename_i k₂ heq
      rw [heq] at hset
      have hadmit := hset.congr (SameSpaces.of_readmits (unblockUserTask_readmits S pid k₂))
      split <;> exact hadmit

/-- A new thread inherits the space left in its slot. -/
theorem addTask_space {k' : Kernel} {p : ℕ} (name : Option String) (entry : Word)
    (hclaim : claimTaskSlot k = some (k', p)) :
    ((schedulerAddTask S name entry k).1.tasks p).userAddressSpace
      = (k.tasks p).userAddressSpace := by
  obtain ⟨-, htasks, -⟩ := claimTaskSlot_spec hclaim
  rw [schedulerAddTask, hclaim]
  dsimp only
  split
  · rw [Kernel.modTask_self, Kernel.modTask_self, ← htasks]
    rfl
  · rw [Kernel.modTask_self, Kernel.modTask_self, Kernel.modTask_self, ← htasks]
    rfl

theorem slotsOk_createKernelThread (ht : TableOk k) (h : SlotsOk k) (name : Option String)
    (entry : Word) : SlotsOk (schedulerCreateKernelThread S name entry k).1 := by
  rw [schedulerCreateKernelThread]
  cases hclaim : claimTaskSlot k with
  | none =>
    rw [schedulerAddTask, hclaim]
    exact h
  | some r =>
    obtain ⟨k', p⟩ := r
    obtain ⟨-, -, -, hu, -, -⟩ := ht.claim hclaim
    obtain ⟨-, hrest, -, hspaces, -⟩ := addTask_spec S name entry hclaim
    have hroot : ∀ s, ¬ Rooted (schedulerAddTask S name entry k).1 p s := by
      intro s hr
      rw [Rooted, addTask_space S name entry hclaim] at hr
      exact h.not_rooted hu s hr
    refine h.change hrest (fun s hr => absurd hr (hroot s)) fun s => ?_
    rw [hspaces, or_iff_right (hroot s), and_iff_left (h.not_rooted hu s)]

end Creation

/-! ## Every run -/

/-- **Every call keeps the slots.** -/
theorem slotsOk_system {L : Layout} {S : Symbols} {k k' : Kernel} {op : KernelOp} (ht : TableOk k)
    (h : SlotsOk k) (hstep : systemStep L S k op = some k') : SlotsOk k' := by
  obtain ⟨hop, sw, hcall⟩ := systemStep_spec hstep
  cases op with
  | createKernelThread name entry =>
    obtain ⟨rfl, rfl⟩ := Prod.mk.inj (Option.some.inj hcall)
    exact slotsOk_createKernelThread S ht h name entry
  | createUserTask name file argument =>
    obtain ⟨rfl, rfl⟩ := Prod.mk.inj (Option.some.inj hcall)
    exact slotsOk_createUserTask L S ht h name file argument
  | spawn file argument =>
    obtain ⟨rfl, rfl⟩ := Prod.mk.inj (Option.some.inj hcall)
    exact slotsOk_spawnChild L S ht h file argument
  | unblockUserTask pid =>
    obtain ⟨rfl, rfl⟩ := Prod.mk.inj (Option.some.inj hcall)
    exact h.congr (SameSpaces.of_readmits (unblockUserTask_readmits S pid k))
  | blockTask pid =>
    obtain ⟨rfl, rfl⟩ := Prod.mk.inj (Option.some.inj hcall)
    exact h.congr (SameSpaces.of_readmits (blockTask_readmits pid k))
  | unblockTask pid =>
    obtain ⟨rfl, rfl⟩ := Prod.mk.inj (Option.some.inj hcall)
    exact h.congr (SameSpaces.of_readmits (unblockTask_readmits pid k))
  | reapZombieTask pid =>
    obtain ⟨rfl, rfl⟩ := Prod.mk.inj (Option.some.inj hcall)
    exact slotsOk_reapZombieTask h pid
  | reapZombies =>
    obtain ⟨rfl, rfl⟩ := Prod.mk.inj (Option.some.inj hcall)
    exact slotsOk_trim (slotsOk_foldl_reapSlot h _)
  | waitTaskStatus pid hasStatus =>
    obtain ⟨rfl, rfl⟩ := Prod.mk.inj (Option.some.inj hcall)
    exact slotsOk_waitTaskStatus h pid hasStatus
  | setTaskParent pid parentPid => exact hop.elim
  | terminateChild pid code =>
    obtain ⟨rfl, rfl⟩ := Prod.mk.inj (Option.some.inj hcall)
    exact h.congr (terminateChild_sameSpaces pid code k)
  | startThreads =>
    obtain ⟨rfl, rfl⟩ := Prod.mk.inj (Option.some.inj hcall)
    exact h.congr (startThreads_sameSpaces ht)
  | yield =>
    obtain rfl := congrArg Prod.fst (Option.some.inj hcall)
    exact h.congr (SameSpaces.of_resched (yield_resched k))
  | sleepMs ms intervalMs =>
    obtain rfl := congrArg Prod.fst (Option.some.inj hcall)
    exact h.congr (sleepMs_sameSpaces ht ms intervalMs)
  | preempt =>
    obtain rfl := congrArg Prod.fst (Option.some.inj hcall)
    exact h.congr (SameSpaces.of_resched (preempt_resched k))
  | enterEl0 =>
    obtain ⟨-, hcall⟩ := Option.ite_none_right_eq_some.mp hcall
    obtain ⟨rfl, rfl⟩ := Prod.mk.inj (Option.some.inj hcall)
    exact h.congr (enterEl0_sameSpaces S ht)
  | exitSyscall code =>
    obtain ⟨rfl, rfl⟩ := Prod.mk.inj (Option.some.inj hcall)
    exact h.congr (SameSpaces.of_closes (handleExitSyscall_closes code k))
  | fault spsr =>
    obtain ⟨rfl, rfl⟩ := Prod.mk.inj (Option.some.inj hcall)
    exact h.congr (SameSpaces.of_closes (handleException_closes spsr k))
  | completeUserTask =>
    obtain ⟨-, hcall⟩ := Option.ite_none_right_eq_some.mp hcall
    obtain ⟨rfl, rfl⟩ := Prod.mk.inj (Option.some.inj hcall)
    exact h.congr (completeUserTask_sameSpaces ht)
  | exit =>
    obtain ⟨-, hcall⟩ := Option.ite_none_right_eq_some.mp hcall
    obtain rfl := congrArg Prod.fst (Option.some.inj hcall)
    exact h.congr (exitTask_sameSpaces ht)

theorem slotsOk_task {L : Layout} {S : Symbols} {k k' : Kernel} {op : KernelOp} (ht : TableOk k)
    (h : SlotsOk k) (hstep : taskStep L S k op = some k') : SlotsOk k' := by
  obtain ⟨-, -, rfl⟩ | ⟨-, hsystem⟩ := taskStep_spec hstep
  · exact h.congr (exitTask_sameSpaces ht)
  · exact slotsOk_system ht h hsystem

/-- No slot is taken at boot, and no space is a user space. -/
theorem slotsOk_boot (S : Symbols) (root : Word) (st : SpaceStatics) :
    SlotsOk (bootKernel S (addressSpaceInit root st)) := by
  have hclaim : claimTaskSlot { spaces := addressSpaceInit root st }
      = some ({ spaces := addressSpaceInit root st, taskCount := 1 }, 0) := rfl
  obtain ⟨-, hrest, -, hspaces, -⟩ := addTask_spec S (some "idle") S.idleTask hclaim
  have hspace := addTask_space S (some "idle") S.idleTask hclaim
  have hroot : ∀ i s, ¬ Rooted (bootKernel S (addressSpaceInit root st)) i s := by
    rintro i s ⟨hkind, -⟩
    by_cases hi : i = 0
    · subst hi
      cases (congrArg AddressSpace.kind hspace).symm.trans hkind
    · have hslot : (bootKernel S (addressSpaceInit root st)).tasks i = {} := hrest.tasks i hi
      rw [hslot] at hkind
      cases hkind
  refine ⟨hrest.kernelKind, fun i s hr => absurd hr (hroot i s), fun s => ?_,
    fun i _ s hr => absurd hr (hroot i s)⟩
  refine iff_of_false ?_ fun ⟨i, hr⟩ => hroot i s hr
  show (schedulerAddTask S _ _ _).1.spaces.userTableSlotsUsed s ≠ true
  rw [hspaces]
  exact Bool.false_ne_true

/-- What the slots promise in a state. -/
structure SlotsKept (L : Layout) (S : Symbols) (k : Kernel) : Prop where
  /-- A slot is in use exactly when one task holds it. -/
  flag_iff : ∀ s, k.spaces.userTableSlotsUsed s = true ↔ ∃! i, Holds k i s
  /-- A creation that fails frees what it took. -/
  failed : ∀ name file argument,
    (schedulerCreateUserTaskFromImage L S name file argument k).2 < 0 →
    (schedulerCreateUserTaskFromImage L S name file argument k).1.spaces.userTableSlotsUsed
      = k.spaces.userTableSlotsUsed
  /-- A task that leaves the table returns its slot. -/
  reaped : ∀ op k', taskStep L S k op = some k' → ∀ i s, Holds k i s → ¬ Used k' i →
    k'.spaces.userTableSlotsUsed s = false
  /-- Only four tasks leave no slot. -/
  lack : (addressSpaceAllocUserTableSlot k.spaces).2 = none →
    ∃ holder : Fin 4 → ℕ, Function.Injective holder ∧ ∀ s, Holds k (holder s) s

/-- A call that frees a slot of the table clears such slots and does nothing else. -/
theorem clears_of_frees {L : Layout} {S : Symbols} {k k' : Kernel} {op : KernelOp} {sw : Switch}
    (ht : TableOk k) (hcall : kernelCall L S k op = some (k', sw)) {i : ℕ} (hf : Frees k op i) :
    Clears (Frees k op) k k' := by
  cases op with
  | reapZombieTask pid =>
    obtain ⟨rfl, rfl⟩ := Prod.mk.inj (Option.some.inj hcall)
    exact clears_reapZombieTask pid k
  | reapZombies =>
    obtain ⟨rfl, rfl⟩ := Prod.mk.inj (Option.some.inj hcall)
    exact clears_reapZombies k
  | waitTaskStatus pid hasStatus =>
    obtain ⟨rfl, rfl⟩ := Prod.mk.inj (Option.some.inj hcall)
    exact clears_waitTaskStatus ht pid hasStatus
  | _ => exact False.elim hf

/-- **A task that leaves the table returns its slot.** -/
theorem SlotsOk.returned {L : Layout} {S : Symbols} {k k' : Kernel} {op : KernelOp} (ht : TableOk k)
    (h : SlotsOk k) (hstep : taskStep L S k op = some k') {i : ℕ} {s : Fin 4} (hi : Holds k i s)
    (hgone : ¬ Used k' i) : k'.spaces.userTableSlotsUsed s = false := by
  have h' := slotsOk_task ht h hstep
  obtain ⟨-, -, rfl⟩ | ⟨-, hsystem⟩ := taskStep_spec hstep
  · exact absurd (fun hu => hi.1 (((exitTask_sameSpaces ht).tasks i).unused_iff.mp hu)) hgone
  · obtain ⟨hop, sw, hcall⟩ := systemStep_spec hsystem
    have hf : Frees k op i := ((turnover_call L S ht hop hcall).gone i hi.1).mp hgone
    have hc := clears_of_frees ht hcall hf
    rw [← Bool.not_eq_true, h'.flag]
    rintro ⟨j, hj⟩
    -- the task rooted there now was there before, beside the one that left
    have hused := (h'.rooted j s hj).1
    have hsame : k'.tasks j = k.tasks j := hc.rest j fun hF => hused (hc.cleared j hF)
    rw [Rooted, hsame] at hj
    obtain rfl := h.distinct j i s hj ((h.holds_iff i s).mp hi)
    exact hgone hused

/-- **No slot is leaked or shared**, in any state any sequence of calls leads to. -/
theorem slots_kept (L : Layout) (S : Symbols) (root : Word) (st : SpaceStatics)
    (ops : List KernelOp) :
    Always (taskStep L S) (SlotsKept L S) (bootKernel S (addressSpaceInit root st)) ops := by
  refine Always.of_inv (I := fun k => TableOk k ∧ SlotsOk k) (fun k op k' hI hstep => ?_)
    (fun k hI => ?_) ⟨tableOk_boot S _, slotsOk_boot S root st⟩ ops
  · exact ⟨tableOk_task hI.1 hstep, slotsOk_task hI.1 hI.2 hstep⟩
  · exact ⟨hI.2.flag_iff, createUserTask_fails L S hI.1,
      fun op k' hstep i s hi hgone => hI.2.returned hI.1 hstep hi hgone, hI.2.holders⟩

end SaturnOS
