import SaturnOS.Sched.Slots

/-!
# Sched/Files — the scheduler and the open files

    tasks[i].files[j] ──any call──▸ the same, or not in use

No call of the scheduler writes a file that stays in use: a slot that is filled or cleared gives its
files up, and the others keep theirs.  The kernel's own space is not touched either, as long as it
is a kernel space.
-/

open Machinery

namespace SaturnOS

/-- The files in use were there, as they are, and the kernel's space is the same. -/
structure KeepsFiles (k k' : Kernel) : Prop where
  files : ∀ i j, ((k'.tasks i).files j).used = true → (k'.tasks i).files j = (k.tasks i).files j
  kernelSpace : k.spaces.kernelAddressSpace.kind = .kernel →
    k'.spaces.kernelAddressSpace = k.spaces.kernelAddressSpace

namespace KeepsFiles

variable {k k' k'' : Kernel}

/-- Nothing is written. -/
theorem refl (k : Kernel) : KeepsFiles k k := ⟨fun _ _ _ => rfl, fun _ => rfl⟩

/-- A file in use after both steps was in use between them, and before. -/
theorem trans (h : KeepsFiles k k') (h' : KeepsFiles k' k'') : KeepsFiles k k'' where
  files i j hj := by
    have heq := h'.files i j hj
    exact heq.trans (h.files i j (heq ▸ hj))
  kernelSpace hkind := by
    have heq := h.kernelSpace hkind
    exact (h'.kernelSpace (heq ▸ hkind)).trans heq

/-- The table is as it was: what changes is the current task, a session or the clock. -/
theorem of_tasks (ht : k'.tasks = k.tasks)
    (hs : k'.spaces.kernelAddressSpace = k.spaces.kernelAddressSpace) : KeepsFiles k k' :=
  ⟨fun i j _ => by rw [ht], fun _ => hs⟩

/-- One task is rewritten, and what it has in use then it had in use before. -/
theorem modTask (k : Kernel) (p : ℕ) {f : Task → Task}
    (hf : ∀ j, ((f (k.tasks p)).files j).used = true →
      (f (k.tasks p)).files j = (k.tasks p).files j) : KeepsFiles k (k.modTask p f) :=
  ⟨fun i => k.modTask_ind p f
    (P := fun i t => ∀ j, (t.files j).used = true → t.files j = (k.tasks i).files j) hf
    (fun _ _ _ _ => rfl) i, fun _ => rfl⟩

/-- The user spaces change. -/
theorem spaces (h : KeepsFiles k k') {st : SpaceStatics}
    (hs : st.kernelAddressSpace = k'.spaces.kernelAddressSpace) :
    KeepsFiles k { k' with spaces := st } := h.trans (of_tasks rfl hs)

/-- A task is rewritten, its files as they were. -/
theorem mod (h : KeepsFiles k k') (p : ℕ) {f : Task → Task}
    (hf : (f (k'.tasks p)).files = (k'.tasks p).files) : KeepsFiles k (k'.modTask p f) :=
  h.trans (modTask k' p fun j _ => by rw [hf])

/-- …or given up. -/
theorem clear (h : KeepsFiles k k') (p : ℕ) {f : Task → Task}
    (hf : ∀ j, ((f (k'.tasks p)).files j).used = false) : KeepsFiles k (k'.modTask p f) :=
  h.trans (modTask k' p fun j hj => by
    rw [hf j] at hj
    cases hj)

end KeepsFiles

/-! ## Slots -/

/-- A user space that is destroyed is not the kernel's, and no file is in it. -/
theorem destroyUserAddressSpace_files (p : ℕ) (k : Kernel) :
    KeepsFiles k (destroyUserAddressSpace p k) := by
  rw [destroyUserAddressSpace]
  refine KeepsFiles.mod ((KeepsFiles.refl k).spaces ?_) p rfl
  exact addressSpaceDestroyUser_kernel _ _

/-- A cleared slot has no file in use.  Its task may have run in the kernel's own space, which is no
user space and so is not destroyed with it. -/
theorem clearTaskSlot_files (p : ℕ) (k : Kernel) : KeepsFiles k (schedulerClearTaskSlot p k) := by
  refine KeepsFiles.clear ?_ p fun j => rfl
  rw [destroyTaskSpace]
  split
  · exact KeepsFiles.refl k
  · refine ⟨fun _ _ _ => rfl, fun hkind => ?_⟩
    have hnot : ¬ (k.spaces.kernelAddressSpace.kind = .user
        ∧ k.spaces.kernelAddressSpace.userTableSlot < addressSpaceUserTableSlots) := by
      rw [hkind]
      rintro ⟨huser, -⟩
      cases huser
    rw [addressSpaceDestroyUser, dif_neg hnot]
  · exact destroyUserAddressSpace_files p k

/-- Trimming is about the count of slots. -/
theorem trim_files (k : Kernel) : KeepsFiles k (schedulerTrimUnusedTail k) :=
  KeepsFiles.of_tasks rfl rfl

/-- A slot that is given back was claimed last, and only the count falls. -/
theorem releaseTaskSlot_files (p : ℕ) (k : Kernel) : KeepsFiles k (releaseTaskSlot p k) := by
  rw [releaseTaskSlot]
  split
  · exact KeepsFiles.of_tasks rfl rfl
  · exact KeepsFiles.refl k

/-- A claim finds a slot and leaves it as it is. -/
theorem claimTaskSlot_files {k k' : Kernel} {p : ℕ} (h : claimTaskSlot k = some (k', p)) :
    KeepsFiles k k' := by
  obtain ⟨-, htasks, hspaces, -⟩ := claimTaskSlot_spec h
  exact KeepsFiles.of_tasks htasks (congrArg SpaceStatics.kernelAddressSpace hspaces)

/-! ## Creation -/

section Creation

variable (L : Layout) (S : Symbols) {k : Kernel}

/-- **A kernel thread** is made in a slot whose files are cleared first. -/
theorem addTask_files (name : Option String) (entry : Word) (k : Kernel) :
    KeepsFiles k (schedulerAddTask S name entry k).1 := by
  rw [schedulerAddTask]
  split
  · exact KeepsFiles.refl k
  · rename_i k₁ p hclaim
    dsimp only
    have hreset := (claimTaskSlot_files hclaim).clear p (f := resetTask S p name .ready entry)
      fun _ => rfl
    split
    · exact hreset.mod p rfl
    · exact KeepsFiles.mod (hreset.mod p rfl) p rfl

/-- A user task that cannot be finished gives its space and its slot back. -/
theorem abandonUserTask_files (p : ℕ) (k : Kernel) : KeepsFiles k (abandonUserTask p k).1 :=
  ((destroyUserAddressSpace_files p k).mod p rfl).trans (releaseTaskSlot_files p _)

/-- **The arguments** are written into the task's own pages, by three stores each of which can fail;
the task is abandoned then.  No store meets the kernel's space. -/
theorem packArguments_files (p : ℕ) (image : SaturnExecImage) (argument : List Byte) (k : Kernel) :
    KeepsFiles k (packArguments p image argument k).1 := by
  have hkernel := (packStrings_sameSlots (k.tasks p).userAddressSpace (argumentTokens argument)
    (argumentBase image + 128) k.spaces).kernel
  rw [packArguments]
  dsimp only
  split
  · rename_i st heq
    rw [heq] at hkernel
    exact ((KeepsFiles.refl k).spaces hkernel).trans (abandonUserTask_files p _)
  · rename_i st argv lengths heq
    rw [heq] at hkernel
    set k₁ := Kernel.modTask { k with spaces := st } p fun t =>
      { t with
        userArgc := BitVec.ofNat 64 (argumentTokens argument).length
        userArgvAddress := (k.tasks p).userAddressSpace.userDataStart + argumentBase image
        userArgLengthsAddress := (k.tasks p).userAddressSpace.userDataStart + argumentBase image
          + 64 }
    have hk₁ : KeepsFiles k k₁ := ((KeepsFiles.refl k).spaces hkernel).mod p rfl
    have hwrite := addressSpaceWriteUserData_kernel st (k.tasks p).userAddressSpace
      (argumentBase image) (listBuffer (argumentArray argv)) 64
    have hspaces : k₁.spaces = st := rfl
    rw [hspaces]
    split
    · rename_i st₁ heq₁
      rw [heq₁] at hwrite
      exact (hk₁.spaces hwrite).trans (abandonUserTask_files p _)
    · rename_i st₁ heq₁
      rw [heq₁] at hwrite
      have hwrite₁ := addressSpaceWriteUserData_kernel st₁ (k.tasks p).userAddressSpace
        (argumentBase image + 64) (listBuffer (argumentArray lengths)) 64
      split
      · rename_i st₂ heq₂
        rw [heq₂] at hwrite₁
        exact (hk₁.spaces (hwrite₁.trans hwrite)).trans (abandonUserTask_files p _)
      · rename_i st₂ heq₂
        rw [heq₂] at hwrite₁
        dsimp only
        refine (hk₁.spaces (hwrite₁.trans hwrite)).mod p ?_
        rfl

/-- **A user task** is made in a slot that gives its files up, once its space is built and its image
is loaded; up to there a failure gives the slot back with the files it had. -/
theorem createUserTask_files (name : Option String) (file argument : Option (List Byte))
    (k : Kernel) :
    KeepsFiles k (schedulerCreateUserTaskFromImage L S name file argument k).1 := by
  rw [schedulerCreateUserTaskFromImage]
  split
  · exact KeepsFiles.refl k
  rename_i image _
  split
  · exact KeepsFiles.refl k
  rename_i k₁ p hclaim
  have hclaimed := claimTaskSlot_files hclaim
  split
  · exact hclaimed
  dsimp only
  set init := addressSpaceInitUser L (some (name.getD "user-demo"))
    k₁.spaces.kernelAddressSpace.rootTable k₁.spaces with hinit
  set load := addressSpaceLoadUserImage init.1 init.2 (listBuffer image.code)
    (BitVec.ofNat 64 image.code.length) (listBuffer image.data)
    (BitVec.ofNat 64 image.data.length) (BitVec.ofNat 64 image.entryOffset) with hload
  have hkernel : load.1.kernelAddressSpace = k₁.spaces.kernelAddressSpace :=
    (addressSpaceLoadUserImage_kernel _ _ _ _ _ _ _).trans (addressSpaceInitUser_kernel _ _ _ _)
  have hbuilt := (hclaimed.spaces hkernel).mod p
      (f := fun t => { t with userAddressSpace := load.2.1 })
    rfl
  split
  · exact (hbuilt.trans (destroyUserAddressSpace_files p _)).trans (releaseTaskSlot_files p _)
  · exact ((hbuilt.clear p fun _ => rfl).mod p rfl).trans (packArguments_files p image _ _)

/-- A parent is a field of its own. -/
theorem setTaskParent_files (pid parentPid : ℤ) (k : Kernel) :
    KeepsFiles k (schedulerSetTaskParent pid parentPid k).1 := by
  rw [schedulerSetTaskParent]
  split
  · exact KeepsFiles.refl k
  · dsimp only
    refine (KeepsFiles.refl k).mod _ ?_
    rfl

/-- The tests of the admission fail without a write, and the admission is one of the state. -/
theorem unblockUserTask_files (pid : ℤ) (k : Kernel) :
    KeepsFiles k (schedulerUnblockUserTask S pid k).1 := by
  simp only [schedulerUnblockUserTask]
  repeat' split
  all_goals first
    | exact KeepsFiles.refl k
    | dsimp only
      refine (KeepsFiles.refl k).mod _ ?_
      rfl

/-- **A child** is created, given its parent and admitted; each part may be the last. -/
theorem spawnChild_files (file argument : Option (List Byte)) (k : Kernel) :
    KeepsFiles k (spawnChild L S file argument k).1 := by
  have hcreate := createUserTask_files L S (some "user-child") file argument k
  simp only [spawnChild]
  split
  · exact hcreate
  · have hparent := setTaskParent_files
      (schedulerCreateUserTaskFromImage L S (some "user-child") file argument k).2
      (schedulerCreateUserTaskFromImage L S (some "user-child") file argument k).1.current.pid
      (schedulerCreateUserTaskFromImage L S (some "user-child") file argument k).1
    split
    · rename_i heq
      rw [heq] at hparent
      exact hcreate.trans hparent
    · rename_i k₂ heq
      rw [heq] at hparent
      have hunblock := unblockUserTask_files S
        (schedulerCreateUserTaskFromImage L S (some "user-child") file argument k).2 k₂
      split <;> exact (hcreate.trans hparent).trans hunblock

end Creation

/-! ## The other calls -/

section Calls

variable (k : Kernel)

/-- Blocking and unblocking write the state. -/
theorem readmission_files (pid : ℤ) : KeepsFiles k (schedulerBlockTask pid k).1
    ∧ KeepsFiles k (schedulerUnblockTask pid k).1 := by
  simp only [schedulerBlockTask, schedulerUnblockTask]
  constructor <;> repeat' split
  all_goals first
    | exact KeepsFiles.refl k
    | dsimp only
      refine (KeepsFiles.refl k).mod _ ?_
      rfl

/-- A reaped slot is cleared… -/
theorem reapZombieTask_files (pid : ℤ) : KeepsFiles k (schedulerReapZombieTask pid k).1 := by
  simp only [schedulerReapZombieTask]
  repeat' split
  all_goals first
    | exact KeepsFiles.refl k
    | exact (clearTaskSlot_files _ k).trans (trim_files _)

/-- …and so is each of those a reaping pass comes to, one after the other. -/
theorem reapZombies_files : KeepsFiles k (schedulerReapZombies k).1 := by
  rw [schedulerReapZombies]
  refine KeepsFiles.trans ?_ (trim_files _)
  refine List.foldlRecOn (motive := KeepsFiles k) _ reapSlot (KeepsFiles.refl k) fun k' h i _ => ?_
  rw [reapSlot]
  split
  · exact h.trans (clearTaskSlot_files i k')
  · exact h

/-- A wait that finds a zombie clears its slot, one that does not writes nothing. -/
theorem waitOnTask_files (p : ℕ) : KeepsFiles k (waitOnTask p k).1 := by
  rw [waitOnTask]
  repeat' split
  all_goals first
    | exact KeepsFiles.refl k
    | exact (clearTaskSlot_files p k).trans (trim_files _)

/-- …whether it asked for one child or for any. -/
theorem waitTaskStatus_files (pid : ℤ) (hasStatus : Bool) :
    KeepsFiles k (schedulerWaitTaskStatus pid hasStatus k).1 := by
  rw [schedulerWaitTaskStatus]
  repeat' split
  all_goals first
    | exact KeepsFiles.refl k
    | exact waitOnTask_files k _

/-- A terminated child keeps its files until its slot is cleared. -/
theorem terminateChild_files (pid : ℤ) (code : Word) :
    KeepsFiles k (schedulerTerminateChild pid code k).1 := by
  rw [schedulerTerminateChild]
  split
  · exact KeepsFiles.refl k
  · dsimp only
    refine (KeepsFiles.refl k).mod _ ?_
    rfl

/-- Waking is of the state and the sleep of a task. -/
theorem wakeTask_file (ticks : Word) (t : Task) : (wakeTask ticks t).files = t.files := by
  rw [wakeTask]
  split <;> rfl

/-- …in every slot. -/
theorem wakeSleepingTasks_files : KeepsFiles k (schedulerWakeSleepingTasks k) := by
  refine ⟨fun i j _ => ?_, fun _ => rfl⟩
  dsimp only [schedulerWakeSleepingTasks]
  split
  · rw [wakeTask_file]
  · rfl

/-- A demotion writes the state and an account. -/
theorem demoteTask_files (p : ℕ) (account : TaskAccounting → TaskAccounting) :
    KeepsFiles k (demoteTask p account k) := by
  rw [demoteTask]
  split
  · refine (KeepsFiles.refl k).mod _ ?_
    rfl
  · exact KeepsFiles.refl k

/-- The next task is marked as running, and is the current one. -/
theorem runTask_files (next : ℕ) : KeepsFiles k (runTask next k) := by
  have hset : KeepsFiles k (schedulerSetRunningTask next k) := (KeepsFiles.refl k).mod next rfl
  exact hset.trans (KeepsFiles.of_tasks rfl rfl)

/-- **A yield** wakes, demotes and runs, and leaves the files of all it passes. -/
theorem yield_files : KeepsFiles k (schedulerYield k).1 := by
  have hwake := wakeSleepingTasks_files k
  simp only [schedulerYield]
  split
  · exact KeepsFiles.refl k
  split
  · split
    · dsimp only
      refine hwake.mod _ ?_
      rfl
    · exact hwake
  · have hrun := (hwake.trans (demoteTask_files _ k.currentTask
      fun a => { a with yields := a.yields + 1 })).trans (runTask_files _
        (schedulerNextRunnableTask (schedulerWakeSleepingTasks k)))
    split
    · exact hrun.trans (KeepsFiles.of_tasks rfl rfl)
    · exact hrun

/-- A sleep is written into the record before the yield. -/
theorem sleepMs_files (ms intervalMs : Word) :
    KeepsFiles k (schedulerSleepMs ms intervalMs k).1 := by
  simp only [schedulerSleepMs]
  split
  · exact KeepsFiles.refl k
  · refine KeepsFiles.trans ?_ (yield_files _)
    refine (KeepsFiles.refl k).mod _ ?_
    rfl

/-- **A tick** does as a yield, and counts. -/
theorem preempt_files : KeepsFiles k (schedulerPreempt k).1 := by
  simp only [schedulerPreempt]
  split
  · exact KeepsFiles.refl k
  have hwake : KeepsFiles k
      (schedulerWakeSleepingTasks { k with schedulerTicks := k.schedulerTicks + 1 }) := by
    refine KeepsFiles.trans ?_ (wakeSleepingTasks_files _)
    exact KeepsFiles.of_tasks rfl rfl
  split
  · dsimp only
    refine hwake.mod _ ?_
    rfl
  · refine KeepsFiles.trans ?_ (runTask_files _ _)
    refine KeepsFiles.mod (KeepsFiles.trans ?_ (demoteTask_files _ _ _)) _ rfl
    refine hwake.mod _ ?_
    rfl

/-- The idle task is marked as running. -/
theorem startThreads_files : KeepsFiles k (schedulerStartThreads k) := by
  have hstart : KeepsFiles k { k with threadsStarted := true, currentTask := 0 } :=
    KeepsFiles.of_tasks rfl rfl
  rw [schedulerStartThreads, schedulerSetRunningTask]
  refine hstart.mod 0 ?_
  rfl

/-- **An exit** orphans the children, leaves a zombie and yields: its files stay until it is
reaped. -/
theorem exitTask_files (p : ℕ) : KeepsFiles k (schedulerExitTask p k).1 := by
  have horphan : KeepsFiles k (orphanChildren p k) := by
    refine ⟨fun i j _ => ?_, fun _ => rfl⟩
    dsimp only [orphanChildren]
    split <;> rfl
  rw [schedulerExitTask]
  refine KeepsFiles.trans ?_ (yield_files _)
  set z := (orphanChildren p k).modTask p fun t => { t with state := .zombie }
  have hz : KeepsFiles k z := horphan.mod p rfl
  exact hz.trans (KeepsFiles.of_tasks rfl rfl)

/-- The end of an entry is recorded in the status of its task. -/
theorem finishUserTask_files (p : ℕ) (status : UserModeStatus) :
    KeepsFiles k (finishUserTask p status k).1 := by
  rw [finishUserTask]
  split
  all_goals
    dsimp only
    refine (KeepsFiles.refl k).mod _ ?_
    rfl

/-! ### Sessions -/

/-- The sessions are kept apart from the tasks. -/
theorem modSession_files (f : UserSession → UserSession) : KeepsFiles k (k.modSession f) :=
  KeepsFiles.of_tasks rfl rfl

/-- What a session records in its task is not a file. -/
theorem modSessionTask_files {f : Task → Task} (hf : ∀ t, (f t).files = t.files) :
    KeepsFiles k (k.modSessionTask f) := by
  rw [Kernel.modSessionTask]
  split
  · exact KeepsFiles.refl k
  · exact (KeepsFiles.refl k).mod _ (hf _)

/-- A switch of the root writes a register. -/
theorem switchTtbr0_files (root : Word) : KeepsFiles k (k.arm64MmuSwitchTtbr0 root) :=
  KeepsFiles.of_tasks rfl rfl

/-- The switch back to the kernel's root, where there is one. -/
theorem switchBack_files :
    KeepsFiles k (if k.userSession.kernelRoot ≠ 0 then k.arm64MmuSwitchTtbr0
    k.userSession.kernelRoot
      else k) := by
  split
  · exact switchTtbr0_files k _
  · exact KeepsFiles.refl k

/-- A rejected session is recorded, in itself and in its task. -/
theorem userSessionReject_files (reason : UserSessionRejectReason) :
    KeepsFiles k (userSessionReject reason k) := by
  rw [userSessionReject]
  refine KeepsFiles.trans ?_ (modSession_files _ _)
  refine KeepsFiles.trans ?_ (modSessionTask_files _ fun _ => rfl)
  exact (switchBack_files k).trans (modSession_files _ _)

/-- **A fault** rejects the session or closes it as a failure… -/
theorem handleException_files (spsr : Word) : KeepsFiles k (userModeHandleException spsr k).1 := by
  simp only [userModeHandleException]
  split
  · exact KeepsFiles.refl k
  split
  · exact userSessionReject_files k _
  split
  · exact userSessionReject_files k _
  split
  · exact userSessionReject_files k _
  · dsimp only
    refine KeepsFiles.trans ?_ (modSession_files _ _)
    exact (switchTtbr0_files k _).trans (modSessionTask_files _ fun _ => rfl)

/-- …and an exit closes it as a success. -/
theorem handleExitSyscall_files (code : Word) :
    KeepsFiles k (userModeHandleExitSyscall code k).1 := by
  simp only [userModeHandleExitSyscall]
  split
  · exact KeepsFiles.refl k
  · dsimp only
    refine KeepsFiles.trans ?_ (modSession_files _ _)
    exact (switchBack_files k).trans (modSessionTask_files _ fun _ => rfl)

/-- **An entry** tests the space and the session, and opens the session. -/
theorem runTaskEnter_files (S : Symbols) (p : ℕ) : KeepsFiles k (userModeRunTaskEnter S p k).1 := by
  simp only [userModeRunTaskEnter]
  split
  · exact KeepsFiles.refl k
  split
  · exact KeepsFiles.refl k
  split
  · exact KeepsFiles.refl k
  split
  · exact KeepsFiles.refl k
  · dsimp only
    refine KeepsFiles.mod ?_ p rfl
    exact (modSession_files k _).trans (switchTtbr0_files _ _)

/-- …or ends the task without one, where a test fails. -/
theorem enterEl0_files (S : Symbols) (p : ℕ) :
    KeepsFiles k (schedulerRunUserTaskEnter S p k).1 := by
  have henter := runTaskEnter_files k S p
  simp only [schedulerRunUserTaskEnter]
  split
  · exact KeepsFiles.refl k
  split
  · exact KeepsFiles.refl k
  split
  · rename_i heq
    rwa [heq] at henter
  · rename_i heq
    rw [heq] at henter
    exact henter.trans (finishUserTask_files _ p _)

/-- **The return** from EL0 switches to the kernel's root… -/
theorem runTaskReturn_files (p : ℕ) : KeepsFiles k (userModeRunTaskReturn p k).1 := by
  simp only [userModeRunTaskReturn]
  split
  · dsimp only
    refine KeepsFiles.trans ?_ (modSession_files _ _)
    refine (KeepsFiles.refl k).mod p ?_
    rfl
  · exact (modSession_files k _).trans (switchTtbr0_files _ _)

/-- …and the end of the entry follows. -/
theorem completeUserTask_files (p : ℕ) : KeepsFiles k (schedulerRunUserTaskReturn p k).1 := by
  simp only [schedulerRunUserTaskReturn]
  exact (runTaskReturn_files k p).trans (finishUserTask_files _ p _)

end Calls

/-! ## Steps -/

/-- **No step of the tasks writes a file that stays in use.** -/
theorem keepsFiles_task {L : Layout} {S : Symbols} {k k' : Kernel} {op : KernelOp}
    (hstep : taskStep L S k op = some k') : KeepsFiles k k' := by
  obtain ⟨-, -, rfl⟩ | ⟨-, hsystem⟩ := taskStep_spec hstep
  · exact exitTask_files k _
  obtain ⟨-, sw, hcall⟩ := systemStep_spec hsystem
  cases op with
  | createKernelThread name entry =>
    obtain ⟨rfl, -⟩ := Prod.mk.inj (Option.some.inj hcall)
    exact addTask_files S name entry k
  | createUserTask name file argument =>
    obtain ⟨rfl, -⟩ := Prod.mk.inj (Option.some.inj hcall)
    exact createUserTask_files L S name file argument k
  | spawn file argument =>
    obtain ⟨rfl, -⟩ := Prod.mk.inj (Option.some.inj hcall)
    exact spawnChild_files L S file argument k
  | unblockUserTask pid =>
    obtain ⟨rfl, -⟩ := Prod.mk.inj (Option.some.inj hcall)
    exact unblockUserTask_files S pid k
  | blockTask pid =>
    obtain ⟨rfl, -⟩ := Prod.mk.inj (Option.some.inj hcall)
    exact (readmission_files k pid).1
  | unblockTask pid =>
    obtain ⟨rfl, -⟩ := Prod.mk.inj (Option.some.inj hcall)
    exact (readmission_files k pid).2
  | reapZombieTask pid =>
    obtain ⟨rfl, -⟩ := Prod.mk.inj (Option.some.inj hcall)
    exact reapZombieTask_files k pid
  | reapZombies =>
    obtain ⟨rfl, -⟩ := Prod.mk.inj (Option.some.inj hcall)
    exact reapZombies_files k
  | waitTaskStatus pid hasStatus =>
    obtain ⟨rfl, -⟩ := Prod.mk.inj (Option.some.inj hcall)
    exact waitTaskStatus_files k pid hasStatus
  | setTaskParent pid parentPid =>
    obtain ⟨rfl, -⟩ := Prod.mk.inj (Option.some.inj hcall)
    exact setTaskParent_files pid parentPid k
  | terminateChild pid code =>
    obtain ⟨rfl, -⟩ := Prod.mk.inj (Option.some.inj hcall)
    exact terminateChild_files k pid code
  | startThreads =>
    obtain ⟨rfl, -⟩ := Prod.mk.inj (Option.some.inj hcall)
    exact startThreads_files k
  | yield =>
    have hfiles := yield_files k
    rwa [Option.some.inj hcall] at hfiles
  | sleepMs ms intervalMs =>
    have hfiles := sleepMs_files k ms intervalMs
    rwa [Option.some.inj hcall] at hfiles
  | preempt =>
    have hfiles := preempt_files k
    rwa [Option.some.inj hcall] at hfiles
  | enterEl0 =>
    obtain ⟨-, hk⟩ := Option.ite_none_right_eq_some.mp hcall
    obtain ⟨rfl, -⟩ := Prod.mk.inj (Option.some.inj hk)
    exact enterEl0_files k S _
  | exitSyscall code =>
    obtain ⟨rfl, -⟩ := Prod.mk.inj (Option.some.inj hcall)
    exact handleExitSyscall_files k code
  | fault spsr =>
    obtain ⟨rfl, -⟩ := Prod.mk.inj (Option.some.inj hcall)
    exact handleException_files k spsr
  | completeUserTask =>
    obtain ⟨-, hk⟩ := Option.ite_none_right_eq_some.mp hcall
    obtain ⟨rfl, -⟩ := Prod.mk.inj (Option.some.inj hk)
    exact completeUserTask_files k _
  | exit =>
    obtain ⟨-, hk⟩ := Option.ite_none_right_eq_some.mp hcall
    have hfiles := exitTask_files k k.currentTask
    rwa [Option.some.inj hk] at hfiles

end SaturnOS
