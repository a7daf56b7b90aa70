import SaturnOS.Memory.Isolation
import SaturnOS.Sched.Slots

/-!
# Sched/Privacy — a task's memory is its own

    a task in slot s ──any calls, while it is in the table──▸ the same space, tables and pages of s

What a user task will find when it enters EL0 is fixed by its creation: its space, its entry and its
arguments, the tables of its slot and the three pages behind them.  No call of the kernel changes
any of it before the task's slot is freed, whatever is created, run, or reaped in between: a slot of
another task is another slot.
-/

open Machinery

namespace SaturnOS

/-! ## The memory of a slot -/

/-- The tables and the pages of a slot are the same. -/
structure SameMemory (s : Fin 4) (st st' : SpaceStatics) : Prop where
  tables : ∀ id, TableId.OfSlot s id → st'.tables id = st.tables id
  pages : st'.userRegionPages s = st.userRegionPages s

namespace SameMemory

variable {s slot : Fin 4} {st st' st'' : SpaceStatics}

/-- Nothing changes. -/
theorem refl (s : Fin 4) (st : SpaceStatics) : SameMemory s st st := ⟨fun _ _ => rfl, rfl⟩

theorem trans (h : SameMemory s st st') (h' : SameMemory s st' st'') : SameMemory s st st'' :=
  ⟨fun id hid => (h'.tables id hid).trans (h.tables id hid), h'.pages.trans h.pages⟩

/-- Another slot changes. -/
theorem of_onlySlot (hne : s ≠ slot) (htables : OnlySlot slot st.tables st'.tables)
    (hpages : st'.userRegionPages s = st.userRegionPages s) : SameMemory s st st' := by
  obtain ⟨h1, h2, h3⟩ := not_ofSlot_user hne
  refine ⟨fun id hid => htables id ?_, hpages⟩
  obtain rfl | rfl | ⟨i, rfl⟩ := hid
  · exact h1
  · exact h2
  · exact h3 i

/-- Another slot is cleared. -/
theorem clearSlot (hne : s ≠ slot) (st : SpaceStatics) :
    SameMemory s st (SaturnOS.clearSlot slot st) :=
  of_onlySlot hne (clearSlot_onlySlot slot st) (Function.update_of_ne hne ..)

/-- The slot tables keep their shape. -/
theorem slotTables {L : Layout} {k₁ k₂ : Table} (h : SameMemory s st st')
    (hT : SlotTables L s k₁ k₂ st.tables) : SlotTables L s k₁ k₂ st'.tables :=
  hT.congr (h.tables _ (.inl rfl)) (h.tables _ (.inr (.inl rfl)))
    fun i => h.tables _ (.inr (.inr ⟨i, rfl⟩))

end SameMemory

section Spaces

variable {s : Fin 4} {st : SpaceStatics} {space : AddressSpace}

/-- A space that is not in the slot. -/
def Elsewhere (s : Fin 4) (space : AddressSpace) : Prop :=
  ¬ (space.kind = .user ∧ space.userTableSlot = s.val)

/-- A user space that is elsewhere has a slot of its own, another one. -/
theorem Elsewhere.ne (h : Elsewhere s space)
    (hlive : space.kind = .user ∧ space.userTableSlot < addressSpaceUserTableSlots) :
    s ≠ ⟨space.userTableSlot, hlive.2⟩ := fun heq => h ⟨hlive.1, (congrArg Fin.val heq).symm⟩

/-- **The operations on a space that is elsewhere** leave the slot as it is: its destruction… -/
theorem destroyUser_memory (h : Elsewhere s space) :
    SameMemory s st (addressSpaceDestroyUser st space).1 := by
  rw [addressSpaceDestroyUser]
  split
  · rename_i hlive
    exact (SameMemory.clearSlot (h.ne hlive) st).trans ⟨fun _ _ => rfl, rfl⟩
  · exact SameMemory.refl s st

/-- …the loading of an image, which writes the pages of its own slot… -/
theorem loadUserImage_memory (h : Elsewhere s space) (code data : Buffer)
    (codeSize dataSize entryOffset : Word) :
    SameMemory s st
      (addressSpaceLoadUserImage st space code codeSize data dataSize entryOffset).1 := by
  rw [addressSpaceLoadUserImage]
  split
  · rename_i hlive
    split
    · exact SameMemory.refl s st
    · exact ⟨fun _ _ => rfl, Function.update_of_ne (h.ne hlive) ..⟩
  · exact SameMemory.refl s st

/-- …a store into its data… -/
theorem writeUserData_memory (h : Elsewhere s space) (offset : Word) (data : Buffer)
    (size : Word) : SameMemory s st (addressSpaceWriteUserData st space offset data size).1 := by
  rw [addressSpaceWriteUserData]
  split
  · rename_i hlive
    split
    · exact SameMemory.refl s st
    · exact ⟨fun _ _ => rfl, Function.update_of_ne (h.ne hlive) ..⟩
  · exact SameMemory.refl s st

/-- …and the stores of the arguments, one string after the other. -/
theorem packStrings_memory (h : Elsewhere s space) (tokens : List (List Byte)) (cursor : Word)
    (st : SpaceStatics) : SameMemory s st (packStrings space tokens cursor st).1 :=
  @packStrings_keeps (SameMemory s st) space
    (fun _ _ _ _ hst => hst.trans (writeUserData_memory h ..)) tokens cursor st
    (SameMemory.refl s st)

/-- **A space is built in another slot** than one in use. -/
theorem initUser_memory (L : Layout) (name : Option String) (root : Word)
    (hused : st.userTableSlotsUsed s = true) :
    SameMemory s st (addressSpaceInitUser L name root st).1
      ∧ Elsewhere s (addressSpaceInitUser L name root st).2 := by
  cases hfree : lowestFreeSlot st with
  | none =>
    obtain ⟨hst, hdead, -⟩ := addressSpaceInitUser_none L name root hfree
    rw [hst]
    exact ⟨SameMemory.refl s st,
      fun hroot => absurd (hroot.2.symm.trans hdead) (Nat.ne_of_lt s.isLt)⟩
  | some slot =>
    have hne : s ≠ slot := by
      rintro rfl
      rw [lowestFreeSlot_some hfree] at hused
      cases hused
    obtain ⟨shared, hbuilt⟩ := addressSpaceInitUser_some L name root hfree
    rw [hbuilt]
    refine ⟨SameMemory.of_onlySlot hne (takeSlot_onlySlot L root slot st) ?_, fun hroot => ?_⟩
    · exact Function.update_of_ne hne ..
    · exact hne (Fin.ext hroot.2.symm)

end Spaces

/-! ## The task -/

/-- What a task enters EL0 with. -/
structure SameLaunch (t t' : Task) : Prop where
  pointer : t'.memory.addressSpace = t.memory.addressSpace
  space : t'.userAddressSpace = t.userAddressSpace
  el0 : t'.el0 = t.el0
  argc : t'.userArgc = t.userArgc
  argv : t'.userArgvAddress = t.userArgvAddress
  lengths : t'.userArgLengthsAddress = t.userArgLengthsAddress

theorem SameLaunch.refl (t : Task) : SameLaunch t t := ⟨rfl, rfl, rfl, rfl, rfl, rfl⟩

theorem SameLaunch.trans {t t' t'' : Task} (h : SameLaunch t t') (h' : SameLaunch t' t'') :
    SameLaunch t t'' :=
  ⟨h'.pointer.trans h.pointer, h'.space.trans h.space, h'.el0.trans h.el0, h'.argc.trans h.argc,
    h'.argv.trans h.argv, h'.lengths.trans h.lengths⟩

/-- **Task `p`, in slot `s`, keeps its memory.** -/
structure KeepsMemory (p : ℕ) (s : Fin 4) (k k' : Kernel) : Prop where
  launch : SameLaunch (k.tasks p) (k'.tasks p)
  memory : SameMemory s k.spaces k'.spaces

namespace KeepsMemory

variable {p q : ℕ} {s : Fin 4} {k k' k'' : Kernel}

theorem refl (p : ℕ) (s : Fin 4) (k : Kernel) : KeepsMemory p s k k :=
  ⟨SameLaunch.refl _, SameMemory.refl s _⟩

theorem trans (h : KeepsMemory p s k k') (h' : KeepsMemory p s k' k'') : KeepsMemory p s k k'' :=
  ⟨h.launch.trans h'.launch, h.memory.trans h'.memory⟩

theorem of_task (ht : k'.tasks p = k.tasks p) (hs : SameMemory s k.spaces k'.spaces) :
    KeepsMemory p s k k' := ⟨by rw [ht]; exact SameLaunch.refl _, hs⟩

/-- What else there is changes. -/
theorem of_tasks (ht : k'.tasks = k.tasks) (hs : k'.spaces = k.spaces) : KeepsMemory p s k k' :=
  of_task (congrFun ht p) (by rw [hs]; exact SameMemory.refl s _)

/-- Another slot of the table changes. -/
theorem of_changedAt (hc : ChangedAt q k k') (hne : p ≠ q)
    (hs : SameMemory s k.spaces k'.spaces) : KeepsMemory p s k k' := of_task (hc.tasks p hne) hs

/-- A task is rewritten, with what it enters EL0 with as it was. -/
theorem mod (h : KeepsMemory p s k k') (q : ℕ) {f : Task → Task}
    (hf : SameLaunch (k'.tasks q) (f (k'.tasks q))) : KeepsMemory p s k (k'.modTask q f) :=
  h.trans ⟨k'.modTask_ind q f (P := fun i t => SameLaunch (k'.tasks i) t) hf
    (fun _ _ => SameLaunch.refl _) p, SameMemory.refl s _⟩

/-- The space of task `p` is in slot `s` still. -/
theorem rooted (h : KeepsMemory p s k k') (hr : Rooted k p s) : Rooted k' p s := by
  rw [Rooted, h.launch.space]
  exact hr

end KeepsMemory

/-! ## Calls that change no space -/

section Quiet

variable (p : ℕ) (s : Fin 4) (k : Kernel)

/-- Waking is of the state of a task. -/
theorem wakeTask_launch (ticks : Word) (t : Task) : SameLaunch t (wakeTask ticks t) := by
  rw [wakeTask]
  split
  · exact ⟨rfl, rfl, rfl, rfl, rfl, rfl⟩
  · exact SameLaunch.refl t

/-- **The scheduler** moves tasks between states, and their memory is not among what it writes: the
waking pass… -/
theorem wakeSleepingTasks_memory : KeepsMemory p s k (schedulerWakeSleepingTasks k) := by
  refine ⟨?_, SameMemory.refl s _⟩
  dsimp only [schedulerWakeSleepingTasks]
  split
  · exact wakeTask_launch _ _
  · exact SameLaunch.refl _

/-- …the demotion of the running task… -/
theorem demoteTask_memory (q : ℕ) (account : TaskAccounting → TaskAccounting) :
    KeepsMemory p s k (demoteTask q account k) := by
  rw [demoteTask]
  split
  · refine (KeepsMemory.refl p s k).mod q ?_
    exact ⟨rfl, rfl, rfl, rfl, rfl, rfl⟩
  · exact KeepsMemory.refl p s k

/-- …the mark on the next one… -/
theorem setRunningTask_memory (next : ℕ) :
    KeepsMemory p s k (schedulerSetRunningTask next k) := by
  refine (KeepsMemory.refl p s k).mod next ?_
  exact ⟨rfl, rfl, rfl, rfl, rfl, rfl⟩

/-- …the switch to it… -/
theorem runTask_memory (next : ℕ) : KeepsMemory p s k (runTask next k) :=
  (setRunningTask_memory p s k next).trans (.of_tasks rfl rfl)

/-- …and so a yield… -/
theorem yield_memory : KeepsMemory p s k (schedulerYield k).1 := by
  have hwake := wakeSleepingTasks_memory p s k
  simp only [schedulerYield]
  split
  · exact KeepsMemory.refl p s k
  split
  · split
    · dsimp only
      refine hwake.mod _ ?_
      exact ⟨rfl, rfl, rfl, rfl, rfl, rfl⟩
    · exact hwake
  · have hrun := (hwake.trans (demoteTask_memory p s _ k.currentTask
      fun a => { a with yields := a.yields + 1 })).trans (runTask_memory p s _
        (schedulerNextRunnableTask (schedulerWakeSleepingTasks k)))
    split
    · exact hrun.trans (.of_tasks rfl rfl)
    · exact hrun

/-- …a tick… -/
theorem preempt_memory : KeepsMemory p s k (schedulerPreempt k).1 := by
  simp only [schedulerPreempt]
  split
  · exact KeepsMemory.refl p s k
  have hwake : KeepsMemory p s k
      (schedulerWakeSleepingTasks { k with schedulerTicks := k.schedulerTicks + 1 }) := by
    refine KeepsMemory.trans ?_ (wakeSleepingTasks_memory p s _)
    exact .of_tasks rfl rfl
  split
  · dsimp only
    refine hwake.mod _ ?_
    exact ⟨rfl, rfl, rfl, rfl, rfl, rfl⟩
  · refine KeepsMemory.trans ?_ (runTask_memory p s _ _)
    refine KeepsMemory.mod (KeepsMemory.trans ?_ (demoteTask_memory p s _ _ _)) _
      ⟨rfl, rfl, rfl, rfl, rfl, rfl⟩
    refine hwake.mod _ ?_
    exact ⟨rfl, rfl, rfl, rfl, rfl, rfl⟩

/-- …a sleep… -/
theorem sleepMs_memory (ms intervalMs : Word) :
    KeepsMemory p s k (schedulerSleepMs ms intervalMs k).1 := by
  simp only [schedulerSleepMs]
  split
  · exact KeepsMemory.refl p s k
  · refine KeepsMemory.trans ?_ (yield_memory p s _)
    refine (KeepsMemory.refl p s k).mod _ ?_
    exact ⟨rfl, rfl, rfl, rfl, rfl, rfl⟩

/-- …the start of the threads… -/
theorem startThreads_memory : KeepsMemory p s k (schedulerStartThreads k) := by
  rw [schedulerStartThreads]
  refine KeepsMemory.trans ?_ (setRunningTask_memory p s _ 0)
  exact .of_tasks rfl rfl

/-- …and an exit, whose memory goes only with its slot. -/
theorem exitTask_memory (q : ℕ) : KeepsMemory p s k (schedulerExitTask q k).1 := by
  have horphan : KeepsMemory p s k (orphanChildren q k) := by
    refine ⟨?_, SameMemory.refl s _⟩
    dsimp only [orphanChildren]
    split
    · exact ⟨rfl, rfl, rfl, rfl, rfl, rfl⟩
    · exact SameLaunch.refl _
  rw [schedulerExitTask]
  refine KeepsMemory.trans ?_ (yield_memory p s _)
  set z := (orphanChildren q k).modTask q fun t => { t with state := .zombie }
  have hz : KeepsMemory p s k z := horphan.mod q ⟨rfl, rfl, rfl, rfl, rfl, rfl⟩
  exact hz.trans (.of_tasks rfl rfl)

/-- A terminated child keeps its memory until it is reaped. -/
theorem terminateChild_memory (pid : ℤ) (code : Word) :
    KeepsMemory p s k (schedulerTerminateChild pid code k).1 := by
  rw [schedulerTerminateChild]
  split
  · exact KeepsMemory.refl p s k
  · dsimp only
    refine (KeepsMemory.refl p s k).mod _ ?_
    exact ⟨rfl, rfl, rfl, rfl, rfl, rfl⟩

/-- The parent of a task is no part of it… -/
theorem setTaskParent_memory (pid parentPid : ℤ) :
    KeepsMemory p s k (schedulerSetTaskParent pid parentPid k).1 := by
  rw [schedulerSetTaskParent]
  split
  · exact KeepsMemory.refl p s k
  · dsimp only
    refine (KeepsMemory.refl p s k).mod _ ?_
    exact ⟨rfl, rfl, rfl, rfl, rfl, rfl⟩

/-- …nor is what the admission writes, having checked it all… -/
theorem unblockUserTask_memory (S : Symbols) (pid : ℤ) :
    KeepsMemory p s k (schedulerUnblockUserTask S pid k).1 := by
  simp only [schedulerUnblockUserTask]
  repeat' split
  all_goals first
    | exact KeepsMemory.refl p s k
    | dsimp only
      refine (KeepsMemory.refl p s k).mod _ ?_
      exact ⟨rfl, rfl, rfl, rfl, rfl, rfl⟩

/-- …or the state between blocked and ready. -/
theorem readmission_memory (pid : ℤ) : KeepsMemory p s k (schedulerBlockTask pid k).1
    ∧ KeepsMemory p s k (schedulerUnblockTask pid k).1 := by
  simp only [schedulerBlockTask, schedulerUnblockTask]
  constructor <;> repeat' split
  all_goals first
    | exact KeepsMemory.refl p s k
    | dsimp only
      refine (KeepsMemory.refl p s k).mod _ ?_
      exact ⟨rfl, rfl, rfl, rfl, rfl, rfl⟩

/-- The end of an entry is recorded in the status of the task. -/
theorem finishUserTask_memory (q : ℕ) (status : UserModeStatus) :
    KeepsMemory p s k (finishUserTask q status k).1 := by
  rw [finishUserTask]
  split
  all_goals
    dsimp only
    refine (KeepsMemory.refl p s k).mod _ ?_
    exact ⟨rfl, rfl, rfl, rfl, rfl, rfl⟩

/-! ### Sessions -/

theorem modSession_memory (f : UserSession → UserSession) : KeepsMemory p s k (k.modSession f) :=
  .of_tasks rfl rfl

theorem modSessionTask_memory {f : Task → Task} (hf : ∀ t, SameLaunch t (f t)) :
    KeepsMemory p s k (k.modSessionTask f) := by
  rw [Kernel.modSessionTask]
  split
  · exact KeepsMemory.refl p s k
  · exact (KeepsMemory.refl p s k).mod _ (hf _)

theorem switchTtbr0_memory (root : Word) : KeepsMemory p s k (k.arm64MmuSwitchTtbr0 root) :=
  .of_tasks rfl rfl

/-- The switch back to the kernel's root, where there is one. -/
theorem switchBack_memory :
    KeepsMemory p s k (if k.userSession.kernelRoot ≠ 0 then
      k.arm64MmuSwitchTtbr0 k.userSession.kernelRoot else k) := by
  split
  · exact switchTtbr0_memory p s k _
  · exact KeepsMemory.refl p s k

/-- **A session** of any task is recorded in the session and in the status of its task: rejected… -/
theorem userSessionReject_memory (reason : UserSessionRejectReason) :
    KeepsMemory p s k (userSessionReject reason k) := by
  rw [userSessionReject]
  refine KeepsMemory.trans ?_ (modSession_memory p s _ _)
  refine KeepsMemory.trans ?_ (modSessionTask_memory p s _
    fun _ => ⟨rfl, rfl, rfl, rfl, rfl, rfl⟩)
  exact (switchBack_memory p s k).trans (modSession_memory p s _ _)

/-- …ended by a fault… -/
theorem handleException_memory (spsr : Word) :
    KeepsMemory p s k (userModeHandleException spsr k).1 := by
  simp only [userModeHandleException]
  split
  · exact KeepsMemory.refl p s k
  split
  · exact userSessionReject_memory p s k _
  split
  · exact userSessionReject_memory p s k _
  split
  · exact userSessionReject_memory p s k _
  · dsimp only
    refine KeepsMemory.trans ?_ (modSession_memory p s _ _)
    exact (switchTtbr0_memory p s k _).trans (modSessionTask_memory p s _
      fun _ => ⟨rfl, rfl, rfl, rfl, rfl, rfl⟩)

/-- …ended by its program… -/
theorem handleExitSyscall_memory (code : Word) :
    KeepsMemory p s k (userModeHandleExitSyscall code k).1 := by
  simp only [userModeHandleExitSyscall]
  split
  · exact KeepsMemory.refl p s k
  · dsimp only
    refine KeepsMemory.trans ?_ (modSession_memory p s _ _)
    exact (switchBack_memory p s k).trans (modSessionTask_memory p s _
      fun _ => ⟨rfl, rfl, rfl, rfl, rfl, rfl⟩)

/-- …begun, the root of its space being switched to… -/
theorem enterEl0_memory (S : Symbols) (q : ℕ) :
    KeepsMemory p s k (schedulerRunUserTaskEnter S q k).1 := by
  have henter : KeepsMemory p s k (userModeRunTaskEnter S q k).1 := by
    obtain ⟨status, -, heq⟩ | ⟨space, -, -, -, -, -, -, heq⟩ := runTaskEnter_spec S q k
    · rw [heq]
      exact KeepsMemory.refl p s k
    · rw [heq]
      dsimp only
      refine KeepsMemory.mod ?_ q ?_
      · exact (modSession_memory p s k _).trans (switchTtbr0_memory p s _ _)
      · exact ⟨rfl, rfl, rfl, rfl, rfl, rfl⟩
  rw [schedulerRunUserTaskEnter]
  split
  · exact KeepsMemory.refl p s k
  split
  · exact KeepsMemory.refl p s k
  split
  · rename_i heq
    rwa [heq] at henter
  · rename_i heq
    rw [heq] at henter
    exact henter.trans (finishUserTask_memory p s _ q _)

/-- …and left for good. -/
theorem completeUserTask_memory (q : ℕ) :
    KeepsMemory p s k (schedulerRunUserTaskReturn q k).1 := by
  have hreturn : KeepsMemory p s k (userModeRunTaskReturn q k).1 := by
    simp only [userModeRunTaskReturn]
    split
    · dsimp only
      refine KeepsMemory.trans ?_ (modSession_memory p s _ _)
      refine (KeepsMemory.refl p s k).mod q ?_
      exact ⟨rfl, rfl, rfl, rfl, rfl, rfl⟩
    · exact (modSession_memory p s k _).trans (switchTtbr0_memory p s _ _)
  exact hreturn.trans (finishUserTask_memory p s _ q _)

end Quiet

/-! ## Other slots -/

section Others

variable {p : ℕ} {s : Fin 4} {k k' : Kernel}

/-- A task whose space is in another slot than `s`. -/
theorem destroyUserAddressSpace_memory {q : ℕ}
    (h : Elsewhere s (k.tasks q).userAddressSpace) (hne : p ≠ q) :
    KeepsMemory p s k (destroyUserAddressSpace q k) :=
  .of_changedAt (destroyUserAddressSpace_spec q k).1 hne (destroyUser_memory h)

/-- **A task that is cleared takes no other's memory.** -/
theorem clearTaskSlot_memory (hk : SlotsOk k) (hr : Rooted k p s) {q : ℕ} (hne : p ≠ q) :
    KeepsMemory p s k (schedulerClearTaskSlot q k) := by
  have helse : Elsewhere s (k.tasks q).userAddressSpace := fun hq => hne (hk.distinct p q s hr hq)
  refine .of_changedAt (clearTaskSlot_spec q k).1 hne ?_
  show SameMemory s k.spaces (destroyTaskSpace q k).spaces
  rw [destroyTaskSpace]
  split
  · exact SameMemory.refl s _
  · have hmap : Elsewhere s k.spaces.kernelAddressSpace := fun hkernel => by
      cases hk.kernelKind.symm.trans hkernel.1
    have hsame := @destroyUser_memory s k.spaces _ hmap
    exact ⟨hsame.tables, hsame.pages⟩
  · exact destroyUser_memory helse

/-- Trimming and giving back are about the count of slots. -/
theorem trim_memory (k : Kernel) : KeepsMemory p s k (schedulerTrimUnusedTail k) :=
  .of_tasks rfl rfl

theorem releaseTaskSlot_memory (q : ℕ) (k : Kernel) : KeepsMemory p s k (releaseTaskSlot q k) :=
  .of_tasks (releaseTaskSlot_spec q k).1 (releaseTaskSlot_spaces q k)

/-- The reaping loop passes a task by that it does not reap. -/
theorem foldl_reapSlot_memory (hk : SlotsOk k) (hr : Rooted k p s) {slots : List ℕ}
    (hnot : ¬ Reapable k slots p) : KeepsMemory p s k (slots.foldl reapSlot k) := by
  induction slots generalizing k with
  | nil => exact KeepsMemory.refl p s k
  | cons q slots ih =>
    rw [List.foldl_cons]
    by_cases hq : q ≠ k.currentTask ∧ (k.tasks q).state = .zombie
    · have hne : p ≠ q := by
        rintro rfl
        exact hnot ⟨List.mem_cons_self, hq⟩
      have hclear : reapSlot k q = schedulerClearTaskSlot q k := if_pos hq
      have hkeeps := clearTaskSlot_memory hk hr hne
      have hspec := (clearTaskSlot_spec q k).1
      rw [hclear]
      refine hkeeps.trans (ih (slotsOk_clearTaskSlot hk q) (hkeeps.rooted hr) ?_)
      rintro ⟨hmem, hcurrent, hzombie⟩
      rw [hspec.currentTask] at hcurrent
      rw [hspec.tasks p hne] at hzombie
      exact hnot ⟨List.mem_cons_of_mem q hmem, hcurrent, hzombie⟩
    · have hsame : reapSlot k q = k := if_neg hq
      rw [hsame]
      exact ih hk hr fun ⟨hmem, hrest⟩ => hnot ⟨List.mem_cons_of_mem q hmem, hrest⟩

/-- A cleared task is no longer in the table. -/
theorem clearTaskSlot_unused (q : ℕ) (k : Kernel) :
    ¬ Used (schedulerTrimUnusedTail (schedulerClearTaskSlot q k)) q := by
  obtain ⟨-, -, space, hslot⟩ := clearTaskSlot_spec q k
  refine not_not.mpr ?_
  show ((schedulerClearTaskSlot q k).tasks q).state = .unused
  rw [hslot]
  rfl

theorem clearTrim_memory (hk : SlotsOk k) (hr : Rooted k p s) {q : ℕ}
    (hu : Used (schedulerTrimUnusedTail (schedulerClearTaskSlot q k)) p) :
    KeepsMemory p s k (schedulerTrimUnusedTail (schedulerClearTaskSlot q k)) := by
  have hne : p ≠ q := by
    rintro rfl
    exact clearTaskSlot_unused p k hu
  exact (clearTaskSlot_memory hk hr hne).trans (trim_memory _)

/-- A task that is still in the table was not the zombie that was reaped… -/
theorem reapZombieTask_memory (hk : SlotsOk k) (hr : Rooted k p s) (pid : ℤ)
    (hu : Used (schedulerReapZombieTask pid k).1 p) :
    KeepsMemory p s k (schedulerReapZombieTask pid k).1 := by
  simp only [schedulerReapZombieTask] at hu ⊢
  split
  · exact KeepsMemory.refl p s k
  · rename_i hargs
    rw [if_neg hargs] at hu
    split
    · exact KeepsMemory.refl p s k
    · rename_i hzombie
      rw [if_neg hzombie] at hu
      exact clearTrim_memory hk hr hu

/-- …nor the one that was waited for… -/
theorem waitOnTask_memory (hk : SlotsOk k) (hr : Rooted k p s) (q : ℕ)
    (hu : Used (waitOnTask q k).1 p) : KeepsMemory p s k (waitOnTask q k).1 := by
  rw [waitOnTask] at hu ⊢
  split
  · exact KeepsMemory.refl p s k
  · rename_i hmine
    split
    · exact KeepsMemory.refl p s k
    · rename_i hzombie
      rw [if_neg hmine, if_neg hzombie] at hu
      exact clearTrim_memory hk hr hu

/-- …by its number or as any child. -/
theorem waitTaskStatus_memory (hk : SlotsOk k) (hr : Rooted k p s) (pid : ℤ) (hasStatus : Bool)
    (hu : Used (schedulerWaitTaskStatus pid hasStatus k).1 p) :
    KeepsMemory p s k (schedulerWaitTaskStatus pid hasStatus k).1 := by
  rw [schedulerWaitTaskStatus] at hu ⊢
  split
  · exact KeepsMemory.refl p s k
  · rename_i hargs
    rw [if_neg hargs] at hu
    split
    · rename_i hpid
      rw [if_pos hpid] at hu
      split
      · rename_i q heq
        rw [heq] at hu
        exact waitOnTask_memory hk hr q hu
      · exact KeepsMemory.refl p s k
    · rename_i hpid
      rw [if_neg hpid] at hu
      exact waitOnTask_memory hk hr _ hu

end Others

/-! ## Creation -/

section Creation

variable {p q : ℕ} {s : Fin 4} {k k₁ : Kernel}

/-- A creation that fails gives its own space back… -/
theorem abandonUserTask_memory (h : Elsewhere s (k.tasks q).userAddressSpace) (hne : p ≠ q) :
    KeepsMemory p s k (abandonUserTask q k).1 :=
  ((destroyUserAddressSpace_memory h hne).trans (.of_changedAt (ChangedAt.modTask _ q _) hne
    (SameMemory.refl s _))).trans (releaseTaskSlot_memory q _)

/-- The statics change in other slots. -/
theorem KeepsMemory.statics {st : SpaceStatics} (hs : SameMemory s k.spaces st) :
    KeepsMemory p s k { k with spaces := st } := .of_task rfl hs

/-- …and one that packs its arguments writes into its own pages. -/
theorem packArguments_memory (h : Elsewhere s (k.tasks q).userAddressSpace) (hne : p ≠ q)
    (image : SaturnExecImage) (argument : List Byte) :
    KeepsMemory p s k (packArguments q image argument k).1 := by
  have hpack := packStrings_memory h (argumentTokens argument) (argumentBase image + 128) k.spaces
  rw [packArguments]
  dsimp only
  split
  · rename_i st heq
    rw [heq] at hpack
    exact (KeepsMemory.statics hpack).trans (abandonUserTask_memory h hne)
  · rename_i st argv lengths heq
    rw [heq] at hpack
    set k₁ := Kernel.modTask { k with spaces := st } q fun t =>
      { t with
        userArgc := BitVec.ofNat 64 (argumentTokens argument).length
        userArgvAddress := (k.tasks q).userAddressSpace.userDataStart + argumentBase image
        userArgLengthsAddress := (k.tasks q).userAddressSpace.userDataStart + argumentBase image
          + 64 } with hk₁
    have hkeeps : KeepsMemory p s k k₁ := (KeepsMemory.statics hpack).trans
      (.of_changedAt (ChangedAt.modTask _ q _) hne (SameMemory.refl s _))
    have h₁ : Elsewhere s (k₁.tasks q).userAddressSpace := by
      rw [hk₁, Kernel.modTask_self]
      exact h
    have hargv := @writeUserData_memory s st _ h (argumentBase image)
      (listBuffer (argumentArray argv)) 64
    have hspaces : k₁.spaces = st := rfl
    rw [hspaces]
    split
    · rename_i st₁ heq₁
      rw [heq₁] at hargv
      exact (hkeeps.trans (.statics hargv)).trans (abandonUserTask_memory h₁ hne)
    · rename_i st₁ heq₁
      rw [heq₁] at hargv
      have hlengths := @writeUserData_memory s st₁ _ h (argumentBase image + 64)
        (listBuffer (argumentArray lengths)) 64
      split
      · rename_i st₂ heq₂
        rw [heq₂] at hlengths
        exact (hkeeps.trans (.statics (hargv.trans hlengths))).trans
          (abandonUserTask_memory h₁ hne)
      · rename_i st₂ heq₂
        rw [heq₂] at hlengths
        dsimp only
        refine (hkeeps.trans (.statics (hargv.trans hlengths))).trans ?_
        exact .of_changedAt (ChangedAt.modTask _ q _) hne (SameMemory.refl s _)

/-- **A creation takes no other task's memory**, whether it succeeds or not. -/
theorem createUserTask_memory (L : Layout) (S : Symbols) (ht : TableOk k) (hk : SlotsOk k)
    (hr : Rooted k p s) (name : Option String) (file argument : Option (List Byte)) :
    KeepsMemory p s k (schedulerCreateUserTaskFromImage L S name file argument k).1 := by
  have hused := (hk.flag s).mpr ⟨p, hr⟩
  rw [schedulerCreateUserTaskFromImage]
  split
  · exact KeepsMemory.refl p s k
  rename_i image _
  split
  · exact KeepsMemory.refl p s k
  rename_i k₁ q hclaim
  obtain ⟨-, -, -, hu, -, -⟩ := ht.claim hclaim
  have hne : p ≠ q := by
    rintro rfl
    exact (hk.rooted p s hr).1 hu
  obtain ⟨-, htasks, hspaces, -⟩ := claimTaskSlot_spec hclaim
  have hclaimed : KeepsMemory p s k k₁ := .of_tasks htasks hspaces
  split
  · exact hclaimed
  dsimp only
  obtain ⟨hinit, helse⟩ := initUser_memory L (some (name.getD "user-demo"))
    k₁.spaces.kernelAddressSpace.rootTable (hspaces ▸ hused)
  generalize addressSpaceInitUser L (some (name.getD "user-demo"))
    k₁.spaces.kernelAddressSpace.rootTable k₁.spaces = init at hinit helse ⊢
  have hload := @loadUserImage_memory s init.1 init.2 helse (listBuffer image.code)
    (listBuffer image.data) (BitVec.ofNat 64 image.code.length)
    (BitVec.ofNat 64 image.data.length) (BitVec.ofNat 64 image.entryOffset)
  obtain ⟨hkind, hslot, -⟩ := loadUserImage_space init.1 init.2 (listBuffer image.code)
    (listBuffer image.data) (BitVec.ofNat 64 image.code.length)
    (BitVec.ofNat 64 image.data.length) (BitVec.ofNat 64 image.entryOffset)
  generalize addressSpaceLoadUserImage init.1 init.2 (listBuffer image.code)
    (BitVec.ofNat 64 image.code.length) (listBuffer image.data)
    (BitVec.ofNat 64 image.data.length) (BitVec.ofNat 64 image.entryOffset) = load
    at hload hkind hslot ⊢
  have helse' : Elsewhere s load.2.1 := by
    rw [Elsewhere, hkind, hslot]
    exact helse
  set k₂ := Kernel.modTask { k₁ with spaces := load.1 } q fun t =>
    { t with userAddressSpace := load.2.1 } with hk₂
  have hbuilt : KeepsMemory p s k k₂ := (hclaimed.trans (.statics (hinit.trans hload))).trans
    (.of_changedAt (ChangedAt.modTask _ q _) hne (SameMemory.refl s _))
  split
  · have h₂ : Elsewhere s (k₂.tasks q).userAddressSpace := by
      rw [hk₂, Kernel.modTask_self]
      exact helse'
    exact (hbuilt.trans (destroyUserAddressSpace_memory h₂ hne)).trans
      (releaseTaskSlot_memory q _)
  · set k₃ := k₂.modTask q (resetTask S q (some (name.getD "user-demo")) .blocked 0) with hk₃
    have hreset : KeepsMemory p s k k₃ := hbuilt.trans
      (.of_changedAt (ChangedAt.modTask _ q _) hne (SameMemory.refl s _))
    refine (hreset.trans (.of_changedAt (ChangedAt.modTask _ q _) hne
      (SameMemory.refl s _))).trans (packArguments_memory ?_ hne image _)
    rw [Kernel.modTask_self, hk₃, Kernel.modTask_self, hk₂, Kernel.modTask_self]
    exact helse'

/-- A child is a task created, given its parent and admitted. -/
theorem spawnChild_memory (L : Layout) (S : Symbols) (ht : TableOk k) (hk : SlotsOk k)
    (hr : Rooted k p s) (file argument : Option (List Byte)) :
    KeepsMemory p s k (spawnChild L S file argument k).1 := by
  have hcreate := createUserTask_memory L S ht hk hr (some "user-child") file argument
  simp only [spawnChild]
  generalize schedulerCreateUserTaskFromImage L S (some "user-child") file argument k = r
    at hcreate ⊢
  obtain ⟨k₁, pid⟩ := r
  split
  · exact hcreate
  · have hparent := setTaskParent_memory p s k₁ pid k₁.current.pid
    split
    · rename_i heq
      rw [heq] at hparent
      exact hcreate.trans hparent
    · rename_i k₂ heq
      rw [heq] at hparent
      have hadmit := (hcreate.trans hparent).trans (unblockUserTask_memory p s k₂ S pid)
      split <;> exact hadmit

/-- A thread has no user space. -/
theorem createKernelThread_memory (S : Symbols) (ht : TableOk k) (hk : SlotsOk k)
    (hr : Rooted k p s) (name : Option String) (entry : Word) :
    KeepsMemory p s k (schedulerCreateKernelThread S name entry k).1 := by
  rw [schedulerCreateKernelThread]
  cases hclaim : claimTaskSlot k with
  | none =>
    rw [schedulerAddTask, hclaim]
    exact KeepsMemory.refl p s k
  | some r =>
    obtain ⟨k', q⟩ := r
    obtain ⟨-, -, -, hu, -, -⟩ := ht.claim hclaim
    obtain ⟨-, hrest, -, hspaces, -⟩ := addTask_spec S name entry hclaim
    refine .of_changedAt hrest ?_ (by rw [hspaces]; exact SameMemory.refl s _)
    rintro rfl
    exact (hk.rooted p s hr).1 hu

end Creation

/-! ## Every run -/

/-- **No call takes a task's memory that leaves it in the table.** -/
theorem keepsMemory_system {L : Layout} {S : Symbols} {k k' : Kernel} {op : KernelOp} {p : ℕ}
    {s : Fin 4} (ht : TableOk k) (hk : SlotsOk k) (hr : Rooted k p s)
    (hstep : systemStep L S k op = some k') (hu : Used k' p) : KeepsMemory p s k k' := by
  obtain ⟨hop, sw, hcall⟩ := systemStep_spec hstep
  cases op with
  | createKernelThread name entry =>
    obtain ⟨rfl, rfl⟩ := Prod.mk.inj (Option.some.inj hcall)
    exact createKernelThread_memory S ht hk hr name entry
  | createUserTask name file argument =>
    obtain ⟨rfl, rfl⟩ := Prod.mk.inj (Option.some.inj hcall)
    exact createUserTask_memory L S ht hk hr name file argument
  | spawn file argument =>
    obtain ⟨rfl, rfl⟩ := Prod.mk.inj (Option.some.inj hcall)
    exact spawnChild_memory L S ht hk hr file argument
  | unblockUserTask pid =>
    obtain ⟨rfl, rfl⟩ := Prod.mk.inj (Option.some.inj hcall)
    exact unblockUserTask_memory p s k S pid
  | blockTask pid =>
    obtain ⟨rfl, rfl⟩ := Prod.mk.inj (Option.some.inj hcall)
    exact (readmission_memory p s k pid).1
  | unblockTask pid =>
    obtain ⟨rfl, rfl⟩ := Prod.mk.inj (Option.some.inj hcall)
    exact (readmission_memory p s k pid).2
  | reapZombieTask pid =>
    obtain ⟨rfl, rfl⟩ := Prod.mk.inj (Option.some.inj hcall)
    exact reapZombieTask_memory hk hr pid hu
  | reapZombies =>
    obtain ⟨rfl, rfl⟩ := Prod.mk.inj (Option.some.inj hcall)
    have hnot : ¬ Reapable k ((List.range k.taskCount).drop 1) p := fun hreap => by
      obtain ⟨t, heq⟩ := ((foldl_reapSlot_spec _ k).2.2.2.2.2 p).1 hreap
      refine hu ?_
      show ((List.foldl reapSlot k _).tasks p).state = .unused
      rw [heq]
      rfl
    exact (foldl_reapSlot_memory hk hr hnot).trans (trim_memory _)
  | waitTaskStatus pid hasStatus =>
    obtain ⟨rfl, rfl⟩ := Prod.mk.inj (Option.some.inj hcall)
    exact waitTaskStatus_memory hk hr pid hasStatus hu
  | setTaskParent pid parentPid => exact hop.elim
  | terminateChild pid code =>
    obtain ⟨rfl, rfl⟩ := Prod.mk.inj (Option.some.inj hcall)
    exact terminateChild_memory p s k pid code
  | startThreads =>
    obtain ⟨rfl, rfl⟩ := Prod.mk.inj (Option.some.inj hcall)
    exact startThreads_memory p s k
  | yield =>
    obtain rfl := congrArg Prod.fst (Option.some.inj hcall)
    exact yield_memory p s k
  | sleepMs ms intervalMs =>
    obtain rfl := congrArg Prod.fst (Option.some.inj hcall)
    exact sleepMs_memory p s k ms intervalMs
  | preempt =>
    obtain rfl := congrArg Prod.fst (Option.some.inj hcall)
    exact preempt_memory p s k
  | enterEl0 =>
    obtain ⟨-, hcall⟩ := Option.ite_none_right_eq_some.mp hcall
    obtain ⟨rfl, rfl⟩ := Prod.mk.inj (Option.some.inj hcall)
    exact enterEl0_memory p s k S _
  | exitSyscall code =>
    obtain ⟨rfl, rfl⟩ := Prod.mk.inj (Option.some.inj hcall)
    exact handleExitSyscall_memory p s k code
  | fault spsr =>
    obtain ⟨rfl, rfl⟩ := Prod.mk.inj (Option.some.inj hcall)
    exact handleException_memory p s k spsr
  | completeUserTask =>
    obtain ⟨-, hcall⟩ := Option.ite_none_right_eq_some.mp hcall
    obtain ⟨rfl, rfl⟩ := Prod.mk.inj (Option.some.inj hcall)
    exact completeUserTask_memory p s k _
  | exit =>
    obtain ⟨-, hcall⟩ := Option.ite_none_right_eq_some.mp hcall
    obtain rfl := congrArg Prod.fst (Option.some.inj hcall)
    exact exitTask_memory p s k _

theorem keepsMemory_task {L : Layout} {S : Symbols} {k k' : Kernel} {op : KernelOp} {p : ℕ}
    {s : Fin 4} (ht : TableOk k) (hk : SlotsOk k) (hr : Rooted k p s)
    (hstep : taskStep L S k op = some k') (hu : Used k' p) : KeepsMemory p s k k' := by
  obtain ⟨-, -, rfl⟩ | ⟨-, hsystem⟩ := taskStep_spec hstep
  · exact exitTask_memory p s k _
  · exact keepsMemory_system ht hk hr hsystem hu

/-- **A task keeps its memory as long as it is in the table**, over any calls. -/
theorem keepsMemory_run {L : Layout} {S : Symbols} {p : ℕ} {s : Fin 4} (ops : List KernelOp)
    {k k' : Kernel} (ht : TableOk k) (hk : SlotsOk k) (hr : Rooted k p s)
    (hrun : run (taskStep L S) k ops = some k')
    (hused : Always (taskStep L S) (fun k => Used k p) k ops) : KeepsMemory p s k k' := by
  induction ops generalizing k with
  | nil =>
    obtain rfl := Option.some.inj hrun
    exact KeepsMemory.refl p s k
  | cons op ops ih =>
    obtain ⟨k₁, hstep, hrest⟩ := Option.bind_eq_some_iff.mp hrun
    have hused₁ := hused.2 k₁ hstep
    have hfirst := keepsMemory_task ht hk hr hstep hused₁.1
    exact hfirst.trans (ih (tableOk_task ht hstep) (slotsOk_task ht hk hstep)
      (hfirst.rooted hr) hrest hused₁)

/-- **A task's memory is its own**, in any run from boot: while it is in the table, no creation, no
reaping, no switch and no session of any task changes its space, its entry, its arguments, the
tables of its slot or the pages behind them. -/
theorem memory_private (L : Layout) (S : Symbols) (root : Word) (st : SpaceStatics)
    (before later : List KernelOp) {k k' : Kernel} {p : ℕ} {s : Fin 4}
    (hrun : run (taskStep L S) (bootKernel S (addressSpaceInit root st)) before = some k)
    (hr : Rooted k p s) (hlater : run (taskStep L S) k later = some k')
    (hused : Always (taskStep L S) (fun k => Used k p) k later) : KeepsMemory p s k k' := by
  have hok := (Always.of_inv (I := fun k => TableOk k ∧ SlotsOk k)
    (fun _ _ _ h hstep => ⟨tableOk_task h.1 hstep, slotsOk_task h.1 h.2 hstep⟩) (fun _ h => h)
    ⟨tableOk_boot S _, slotsOk_boot S root st⟩ before).last hrun
  exact keepsMemory_run later hok.1 hok.2 hr hlater hused

/-- A task created first, and another created, admitted and entered behind it. -/
def neighbourCalls : List KernelOp :=
  [.createUserTask none (some wordImage) none, .unblockUserTask 2, .startThreads, .preempt,
    .enterEl0]

def firstTenant : Kernel := (run (taskStep bssLayout imageSymbols) bssKernel
  [.createUserTask none (some wordImage) none]).getD {}

theorem memory_private_neighbour : KeepsMemory 1 0 firstTenant
    ((run (taskStep bssLayout imageSymbols) firstTenant neighbourCalls).getD {}) := by
  have hfirst : (run (taskStep bssLayout imageSymbols) bssKernel
      [.createUserTask none (some wordImage) none]).isSome = true := by decide +kernel
  have hlater : (run (taskStep bssLayout imageSymbols) firstTenant neighbourCalls).isSome
      = true := by decide +kernel
  have hused : Used firstTenant 1 ∧ Along (taskStep bssLayout imageSymbols)
      (fun _ _ k => Used k 1) firstTenant neighbourCalls := by decide +kernel
  refine memory_private bssLayout imageSymbols (bssLayout.table .vmL1) {}
    [.createUserTask none (some wordImage) none] neighbourCalls ?_ ?_ ?_ hused
  · obtain ⟨k, hk⟩ := Option.isSome_iff_exists.mp hfirst
    rw [firstTenant, hk]
    exact hk
  · exact ⟨by decide +kernel, by decide +kernel⟩
  · obtain ⟨k, hk⟩ := Option.isSome_iff_exists.mp hlater
    rw [hk]
    rfl

end SaturnOS
