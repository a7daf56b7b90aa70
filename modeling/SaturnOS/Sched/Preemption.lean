import SaturnOS.Arch.Cpu
import SaturnOS.Machinery.Runs
import SaturnOS.Sched.Table

/-!
# Sched/Preemption — interrupted kernel threads

    thread ──irq──▸ push frame ──scheduler_preempt──▸ cpu_switch_to ⋯ pop frame ──eret──▸ ELR_EL1

A machine of kernel threads: the scheduler, the CPU and the threads' kernel stacks.  A preempted
thread leaves its registers in a frame on its own stack and its stack pointer in its `cpu_context`;
the program counter and the processor state stay in `ELR_EL1` and `SPSR_EL1`, which the next
interrupt overwrites.  `resumes_exactly` says when that does no harm: when each switch to a thread
suspended in an interrupt finds the two registers as that interrupt left them.
-/

open Machinery

namespace SaturnOS

/-! ## The machine -/

/-- The return addresses of the two calls of `cpu_switch_to`. -/
structure SwitchPoints (S : Symbols) where
  preempt : Word
  yield : Word
  distinct : [S.idleTask, S.threadTrampoline, preempt, yield].Nodup

/-- What a thread has on its kernel stack while it is switched out: the frame of an interrupt, or
the return address of its call of the scheduler.  The calls in between are balanced. -/
inductive StackEntry
  | frame (f : ExceptionFrame)
  | call (pc : Word)

structure Machine where
  kernel : Kernel
  cpu : Cpu
  kernelStacks : ℕ → List StackEntry
  /-- The CPU as a thread's interrupt found it, for threads preempted and not yet resumed. -/
  interrupted : ℕ → Option Cpu

/-- The same thread state: `x0 … x30`, `sp`, program counter and processor state. -/
structure SameThread (c c' : Cpu) : Prop where
  x_eq : c'.x = c.x
  sp_eq : c'.sp = c.sp
  pc_eq : c'.pc = c.pc
  pstate_eq : c'.pstate = c.pstate

section Machine

variable {S : Symbols} (P : SwitchPoints S)

/-- The end of `exception_irq_entry`: pop the frame, `eret`. -/
def irqReturn (m : Machine) : Option Machine :=
  match m.kernelStacks m.kernel.currentTask with
  | .frame f :: rest =>
    some { m with
      cpu := { m.cpu with x := popFrame f, sp := m.cpu.sp + frameSize }.eret
      kernelStacks := Function.update m.kernelStacks m.kernel.currentTask rest
      interrupted := Function.update m.interrupted m.kernel.currentTask none }
  | _ => none

/-- Where the `ret` of `cpu_switch_to` leads. -/
def resume (m : Machine) : Option Machine :=
  if m.cpu.pc = P.preempt then irqReturn m
  else if m.cpu.pc = P.yield then
    match m.kernelStacks m.kernel.currentTask with
    | .call pc :: rest =>
      some { m with
        cpu := { m.cpu with pc := pc }
        kernelStacks := Function.update m.kernelStacks m.kernel.currentTask rest }
    | _ => none
  else if m.cpu.pc = S.threadTrampoline then some { m with cpu := m.cpu.irqEnable }
  else if m.cpu.pc = S.idleTask then some m
  else none

/-- `cpu_switch_to`, called from `lr`. -/
def cpuSwitchTo (lr : Word) (junk : Regs) (prev next : ℕ) (m : Machine) : Machine :=
  { m with
    kernel := m.kernel.modTask prev fun t => { t with context := saveContext m.cpu lr }
    cpu := loadContext (m.kernel.tasks next).context junk m.cpu }

/-- `exception_irq_entry` on the timer interrupt.  C keeps `x19 … x29` and `sp`; `junk` is what it
leaves in the other registers. -/
def exceptionIrqEntry (junk : Regs) (m : Machine) : Option Machine :=
  let entered : Machine :=
    { m with
      cpu := { m.cpu.takeException with sp := m.cpu.sp - frameSize }
      kernelStacks := Function.update m.kernelStacks m.kernel.currentTask
        (.frame (pushFrame m.cpu.x) :: m.kernelStacks m.kernel.currentTask) }
  match schedulerPreempt m.kernel with
  | (k, .stay) => irqReturn { entered with kernel := k }
  | (k, .to prev next) =>
    resume P (cpuSwitchTo P.preempt junk prev next
      { entered with
        kernel := k
        interrupted := Function.update m.interrupted prev (some m.cpu) })
  | (_, .stuck) => none

/-- A call of the scheduler by the running thread, with the outcome `r`. -/
def schedulerCall (junk : Regs) (r : Kernel × Switch) (m : Machine) : Option Machine :=
  match r with
  | (k, .stay) =>
    some { m with
      kernel := k
      cpu := { m.cpu with
        x := fun i => if calleeSaved i then m.cpu.x i else junk i
        pc := m.cpu.pc + 4 } }
  | (k, .to prev next) =>
    resume P (cpuSwitchTo P.yield junk prev next
      { m with
        kernel := k
        kernelStacks := Function.update m.kernelStacks prev
          (.call (m.cpu.pc + 4) :: m.kernelStacks prev) })
  | (_, .stuck) => none

/-- What can happen next. -/
inductive ThreadEvent
  /-- The running thread executes an instruction of its own; it can change the flags. -/
  | exec (x : Regs) (sp pc pstate : Word)
  | irq (junk : Regs)
  | yield (junk : Regs)
  | sleep (ms intervalMs : Word) (junk : Regs)

def threadStep (m : Machine) : ThreadEvent → Option Machine
  | .exec x sp pc pstate =>
    if pstate.setWidth 28 = m.cpu.pstate.setWidth 28 then
      some { m with cpu := { m.cpu with x := x, sp := sp, pc := pc, pstate := pstate } }
    else none
  | .irq junk => if m.cpu.irqEnabled then exceptionIrqEntry P junk m else none
  | .yield junk => schedulerCall P junk (schedulerYield m.kernel) m
  | .sleep ms intervalMs junk => schedulerCall P junk (schedulerSleepMs ms intervalMs m.kernel) m

/-- The machine once `scheduler_start_threads` has switched to the idle task, over the threads
created before. -/
def startMachine (S : Symbols) (spaces : SpaceStatics) (threads : List (Option String × Word)) :
    Machine :=
  let k := schedulerStartThreads (threads.foldl
    (fun k t => (schedulerCreateKernelThread S t.1 t.2 k).1) (bootKernel S spaces))
  { kernel := k
    cpu := loadContext (k.tasks 0).context (fun _ => 0) { pstate := arm64SpsrEl1h }
    kernelStacks := fun _ => []
    interrupted := fun _ => none }

end Machine

/-! ## Suspended threads -/

/-- What is kept of an interrupted thread's state: the registers in the frame and the stack pointer
in the context. -/
structure Held (lr sp : Word) (stack : List StackEntry) (preempt : Word) (snap : Cpu) : Prop where
  lr_eq : lr = preempt
  sp_eq : sp + frameSize = snap.sp
  frame : ∃ rest, stack = .frame (pushFrame snap.x) :: rest

/-- What is not kept, and only the CPU's exception registers have: where the thread was. -/
structure InPlace (c snap : Cpu) : Prop where
  elr_eq : c.elr = snap.pc
  spsr_eq : c.spsr = snap.pstate

section Threads

variable {S : Symbols} (P : SwitchPoints S)

/-- **Interrupted threads are intact.** -/
def Intact (m : Machine) : Prop :=
  ∀ t snap, m.interrupted t = some snap → t ≠ m.kernel.currentTask
    ∧ Held (m.kernel.tasks t).context.lr (m.kernel.tasks t).context.sp (m.kernelStacks t) P.preempt
      snap

/-- A thread suspended in an interrupt is switched in. -/
def ReadyToReturn (m : Machine) (snap : Cpu) : Prop :=
  Held m.cpu.pc m.cpu.sp (m.kernelStacks m.kernel.currentTask) P.preempt snap

variable {P}

/-- **Popping the frame** gives the thread its registers back, and the `eret` its place precisely
where the exception registers have it. -/
theorem irqReturn_spec {m m' : Machine}
    (hothers : ∀ t snap, t ≠ m.kernel.currentTask → m.interrupted t = some snap →
      Held (m.kernel.tasks t).context.lr (m.kernel.tasks t).context.sp (m.kernelStacks t) P.preempt
        snap)
    (h : irqReturn m = some m') :
    Intact P m' ∧ m'.kernel = m.kernel
      ∧ ∀ lr snap, Held lr m.cpu.sp (m.kernelStacks m.kernel.currentTask) P.preempt snap →
        (SameThread snap m'.cpu ↔ InPlace m.cpu snap) := by
  rw [irqReturn] at h
  split at h
  · rename_i f rest hstack
    obtain rfl := Option.some.inj h
    refine ⟨fun t snap ht => ?_, rfl, fun lr snap hready => ?_⟩
    · by_cases htc : t = m.kernel.currentTask
      · rw [htc] at ht
        dsimp only at ht
        rw [Function.update_self] at ht
        exact nomatch ht
      · dsimp only at ht
        rw [Function.update_of_ne htc] at ht
        have hheld := hothers t snap htc ht
        refine ⟨htc, hheld.lr_eq, hheld.sp_eq, ?_⟩
        dsimp only
        rw [Function.update_of_ne htc]
        exact hheld.frame
    · obtain ⟨rest', hframe⟩ := hready.frame
      rw [hstack] at hframe
      obtain ⟨hf, -⟩ := List.cons.inj hframe
      obtain rfl := StackEntry.frame.inj hf
      exact ⟨fun hsame => ⟨hsame.pc_eq, hsame.pstate_eq⟩, fun hplace =>
        ⟨popFrame_pushFrame snap.x, hready.sp_eq, hplace.elr_eq, hplace.spsr_eq⟩⟩
  · exact nomatch h

/-- **The return of the switch**: an interrupted thread gets its state back, if it is in place, and
the others keep theirs. -/
theorem resume_spec {m m' : Machine}
    (hothers : ∀ t snap, t ≠ m.kernel.currentTask → m.interrupted t = some snap →
      Held (m.kernel.tasks t).context.lr (m.kernel.tasks t).context.sp (m.kernelStacks t) P.preempt
        snap)
    (hcurrent : ∀ snap, m.interrupted m.kernel.currentTask = some snap → ReadyToReturn P m snap)
    (h : resume P m = some m') :
    Intact P m' ∧ m'.kernel = m.kernel
      ∧ ∀ snap, m.interrupted m.kernel.currentTask = some snap →
        (SameThread snap m'.cpu ↔ InPlace m.cpu snap) := by
  rw [resume] at h
  split at h
  · obtain ⟨hintact, hk, hsame⟩ := irqReturn_spec hothers h
    exact ⟨hintact, hk, fun snap hs => hsame _ snap (hcurrent snap hs)⟩
  · rename_i hpc
    -- the thread was not interrupted, so nothing is owed to it
    have hnone : ∀ snap, m.interrupted m.kernel.currentTask ≠ some snap := fun snap hs =>
      hpc (hcurrent snap hs).lr_eq
    have haway : ∀ t snap, m.interrupted t = some snap → t ≠ m.kernel.currentTask := by
      rintro t snap ht rfl
      exact hnone snap ht
    split at h
    · split at h
      · obtain rfl := Option.some.inj h
        refine ⟨fun t snap ht => ?_, rfl, fun snap hs => absurd hs (hnone snap)⟩
        have htc := haway t snap ht
        have hheld := hothers t snap htc ht
        refine ⟨htc, hheld.lr_eq, hheld.sp_eq, ?_⟩
        dsimp only
        rw [Function.update_of_ne htc]
        exact hheld.frame
      · exact nomatch h
    · have hintact : ∀ c : Cpu, Intact P { m with cpu := c } := by
        intro c t snap ht
        have htc := haway t snap ht
        exact ⟨htc, hothers t snap htc ht⟩
      split at h
      · obtain rfl := Option.some.inj h
        exact ⟨hintact _, rfl, fun snap hs => absurd hs (hnone snap)⟩
      · split at h
        · obtain rfl := Option.some.inj h
          exact ⟨hintact _, rfl, fun snap hs => absurd hs (hnone snap)⟩
        · exact nomatch h

/-- **The switch** saves one thread and loads another. -/
theorem switch_spec {lr : Word} {junk : Regs} {prev next : ℕ} {m m' : Machine}
    (hnext : next = m.kernel.currentTask) (hne : next ≠ prev)
    (hprev : ∀ snap, m.interrupted prev = some snap →
      Held lr m.cpu.sp (m.kernelStacks prev) P.preempt snap)
    (hrest : ∀ t snap, t ≠ prev → m.interrupted t = some snap →
      Held (m.kernel.tasks t).context.lr (m.kernel.tasks t).context.sp (m.kernelStacks t) P.preempt
        snap)
    (h : resume P (cpuSwitchTo lr junk prev next m) = some m') :
    Intact P m' ∧ m'.kernel.currentTask = m.kernel.currentTask
      ∧ ∀ snap, m.interrupted m.kernel.currentTask = some snap →
        (SameThread snap m'.cpu ↔ InPlace m.cpu snap) := by
  have hspec := resume_spec (P := P) (m := cpuSwitchTo lr junk prev next m) ?_ ?_ h
  · -- the switch leaves the exception registers as they are
    refine ⟨hspec.1, (congrArg Kernel.currentTask hspec.2.1).trans rfl, fun snap hs => ?_⟩
    rw [hspec.2.2 snap hs]
    exact ⟨fun hplace => ⟨hplace.elr_eq, hplace.spsr_eq⟩,
      fun hplace => ⟨hplace.elr_eq, hplace.spsr_eq⟩⟩
  · intro t snap ht hs
    by_cases htp : t = prev
    · have hheld := hprev snap (htp ▸ hs)
      have hctx : ((cpuSwitchTo lr junk prev next m).kernel.tasks t).context
          = saveContext m.cpu lr := by
        rw [htp, cpuSwitchTo]
        dsimp only
        rw [Kernel.modTask_self]
      rw [hctx]
      refine ⟨hheld.lr_eq, hheld.sp_eq, ?_⟩
      rw [htp]
      exact hheld.frame
    · have hheld := hrest t snap htp hs
      have hctx : ((cpuSwitchTo lr junk prev next m).kernel.tasks t) = m.kernel.tasks t := by
        rw [cpuSwitchTo]
        dsimp only
        rw [Kernel.modTask_of_ne _ _ _ htp]
      rw [hctx]
      exact ⟨hheld.lr_eq, hheld.sp_eq, hheld.frame⟩
  · intro snap hs
    have hs' : m.interrupted next = some snap := hnext ▸ hs
    have hheld := hrest next snap hne hs'
    refine ⟨hheld.lr_eq, hheld.sp_eq, ?_⟩
    have hcur : (cpuSwitchTo lr junk prev next m).kernel.currentTask = next := hnext.symm
    rw [hcur]
    exact hheld.frame

/-! ## Steps -/

/-- A thread comes back exactly as its interrupt found it: switched in again, or at once when the
interrupt did not switch. -/
def ResumesExactly (m : Machine) (e : ThreadEvent) (m' : Machine) : Prop :=
  (∀ snap, m.interrupted m'.kernel.currentTask = some snap → SameThread snap m'.cpu)
    ∧ ∀ junk, e = .irq junk → m'.kernel.currentTask = m.kernel.currentTask →
      SameThread m.cpu m'.cpu

/-- The CPU as the step leaves it to `cpu_switch_to`: an interrupt has put the place of the running
thread into the exception registers. -/
def ThreadEvent.enters (m : Machine) : ThreadEvent → Cpu
  | .irq _ => m.cpu.takeException
  | .exec _ _ _ _ | .yield _ | .sleep _ _ _ => m.cpu

/-- A switch to a thread suspended in an interrupt finds the exception registers as that interrupt
left them. -/
def SwitchesInPlace (m : Machine) (e : ThreadEvent) (m' : Machine) : Prop :=
  ∀ snap, m.interrupted m'.kernel.currentTask = some snap → InPlace (e.enters m) snap

theorem contexts_of_resched {k k' : Kernel} (h : Resched k k') (t : ℕ) :
    (k'.tasks t).context = (k.tasks t).context := (h.tasks t).context_eq

/-- The machine once `exception_irq_entry` has pushed its frame. -/
def irqEntered (m : Machine) : Machine :=
  { m with
    cpu := { m.cpu.takeException with sp := m.cpu.sp - frameSize }
    kernelStacks := Function.update m.kernelStacks m.kernel.currentTask
      (.frame (pushFrame m.cpu.x) :: m.kernelStacks m.kernel.currentTask) }

/-- The frame holds what the interrupted thread had. -/
theorem held_irqEntered (m : Machine) : Held P.preempt (irqEntered m).cpu.sp
    ((irqEntered m).kernelStacks m.kernel.currentTask) P.preempt m.cpu := by
  refine ⟨rfl, BitVec.sub_add_cancel _ _, m.kernelStacks m.kernel.currentTask, ?_⟩
  exact Function.update_self _ _ _

/-- The threads that were suspended before are still held. -/
theorem held_suspended {m : Machine} (hI : Intact P m) {k : Kernel}
    (hctx : ∀ t, (k.tasks t).context = (m.kernel.tasks t).context) {t : ℕ} {snap : Cpu}
    (hs : m.interrupted t = some snap) : t ≠ m.kernel.currentTask
      ∧ Held (k.tasks t).context.lr (k.tasks t).context.sp ((irqEntered m).kernelStacks t) P.preempt
        snap := by
  obtain ⟨haway, hold⟩ := hI t snap hs
  have hstack : (irqEntered m).kernelStacks t = m.kernelStacks t :=
    Function.update_of_ne haway _ _
  rw [hctx t, hstack]
  exact ⟨haway, hold⟩

/-- **An interrupt that does not switch** returns to the thread where it found it. -/
theorem irqStay_spec {m m' : Machine} (hI : Intact P m) {k : Kernel}
    (hctx : ∀ t, (k.tasks t).context = (m.kernel.tasks t).context)
    (hcur : k.currentTask = m.kernel.currentTask)
    (h : irqReturn { irqEntered m with kernel := k } = some m') :
    Intact P m' ∧ m'.kernel.currentTask = m.kernel.currentTask ∧ SameThread m.cpu m'.cpu := by
  obtain ⟨hintact, hk, hsame⟩ := irqReturn_spec (P := P) (m := { irqEntered m with kernel := k })
    (fun t snap _ hs => (held_suspended hI hctx hs).2) h
  refine ⟨hintact, (congrArg Kernel.currentTask hk).trans hcur, ?_⟩
  refine (hsame P.preempt m.cpu ?_).mpr ⟨rfl, rfl⟩
  dsimp only
  rw [hcur]
  exact held_irqEntered m

/-- **An interrupt that switches** suspends its thread, and returns to another with the place it has
put into the exception registers itself. -/
theorem irqSwitch_spec {junk : Regs} {m m' : Machine} (hI : Intact P m) {k : Kernel}
    {prev next : ℕ} (hctx : ∀ t, (k.tasks t).context = (m.kernel.tasks t).context)
    (hprev : prev = m.kernel.currentTask) (hnext : next = k.currentTask) (hne : next ≠ prev)
    (h : resume P (cpuSwitchTo P.preempt junk prev next { irqEntered m with
      kernel := k
      interrupted := Function.update m.interrupted prev (some m.cpu) }) = some m') :
    Intact P m' ∧ m'.kernel.currentTask = next ∧ ∀ snap, m.interrupted next = some snap →
      (SameThread snap m'.cpu ↔ InPlace m.cpu.takeException snap) := by
  have hspec := switch_spec (P := P) hnext hne ?_ ?_ h
  · obtain ⟨hintact, hcur, hsame⟩ := hspec
    refine ⟨hintact, hcur.trans hnext.symm, fun snap hs => ?_⟩
    have hplace := hsame snap (by
      dsimp only
      rw [← hnext, Function.update_of_ne hne]
      exact hs)
    exact hplace.trans ⟨fun hin => ⟨hin.elr_eq, hin.spsr_eq⟩,
      fun hin => ⟨hin.elr_eq, hin.spsr_eq⟩⟩
  · intro snap hs
    dsimp only at hs ⊢
    rw [Function.update_self] at hs
    obtain rfl := Option.some.inj hs
    rw [hprev]
    exact held_irqEntered m
  · intro t snap ht hs
    dsimp only at hs ⊢
    rw [Function.update_of_ne ht] at hs
    exact (held_suspended hI hctx hs).2

/-- **The timer interrupt.** -/
theorem exceptionIrqEntry_spec {junk : Regs} {m m' : Machine} (hI : Intact P m)
    (h : exceptionIrqEntry P junk m = some m') :
    Intact P m' ∧ (ResumesExactly m (.irq junk) m' ↔ SwitchesInPlace m (.irq junk) m') := by
  have hctx := contexts_of_resched (preempt_resched m.kernel)
  have hok := preempt_switchOk m.kernel
  rw [exceptionIrqEntry] at h
  dsimp only at h
  split at h
  · rename_i k heq
    rw [heq] at hok hctx
    obtain ⟨hintact, hcur, hback⟩ := irqStay_spec hI hctx hok h
    -- nobody else can come back
    have hnone : ∀ snap, m.interrupted m'.kernel.currentTask ≠ some snap := by
      intro snap hs
      rw [hcur] at hs
      exact (hI _ snap hs).1 rfl
    exact ⟨hintact, fun _ snap hs => absurd hs (hnone snap),
      fun _ => ⟨fun snap hs => absurd hs (hnone snap), fun _ _ _ => hback⟩⟩
  · rename_i k prev next heq
    rw [heq] at hok hctx
    obtain ⟨hprev, hnext, hne⟩ := hok
    obtain ⟨hintact, hcur, hiff⟩ := irqSwitch_spec hI hctx hprev hnext hne h
    refine ⟨hintact, fun hexact snap hs => (hiff snap (hcur ▸ hs)).mp (hexact.1 snap hs),
      fun hplace => ⟨fun snap hs => (hiff snap (hcur ▸ hs)).mpr (hplace snap hs),
        fun _ _ hstay => ?_⟩⟩
    exact absurd (hcur.symm.trans (hstay.trans hprev.symm)) hne
  · exact nomatch h

/-- **A call of the scheduler.** -/
theorem schedulerCall_spec {junk : Regs} {r : Kernel × Switch} {m m' : Machine} (hI : Intact P m)
    (hctx : ∀ t, (r.1.tasks t).context = (m.kernel.tasks t).context) (hok : SwitchOk m.kernel r)
    (h : schedulerCall P junk r m = some m') :
    Intact P m' ∧ ∀ snap, m.interrupted m'.kernel.currentTask = some snap →
      (SameThread snap m'.cpu ↔ InPlace m.cpu snap) := by
  obtain ⟨k, _ | ⟨prev, next⟩ | _⟩ := r
  · obtain rfl := Option.some.inj h
    have hcur : k.currentTask = m.kernel.currentTask := hok
    refine ⟨fun t snap ht => ?_, fun snap hs => ?_⟩
    · obtain ⟨haway, hold⟩ := hI t snap ht
      refine ⟨hcur ▸ haway, ?_⟩
      rw [hctx t]
      exact hold
    · exact absurd hcur (hI _ snap hs).1
  · obtain ⟨hprev, hnext, hne⟩ := hok
    have hspec := switch_spec (P := P) hnext hne ?_ ?_ h
    · obtain ⟨hintact, hcur, hsame⟩ := hspec
      refine ⟨hintact, fun snap hs => hsame snap ?_⟩
      rw [hcur] at hs
      exact hs
    · intro snap hs
      exact absurd hprev (hI prev snap hs).1
    · intro t snap ht hs
      obtain ⟨-, hold⟩ := hI t snap hs
      dsimp only
      rw [hctx t, Function.update_of_ne ht]
      exact hold
  · exact nomatch h

theorem sleepMs_contexts (ms intervalMs : Word) (k : Kernel) (t : ℕ) :
    ((schedulerSleepMs ms intervalMs k).1.tasks t).context = (k.tasks t).context := by
  simp only [schedulerSleepMs]
  split
  · rfl
  · rw [contexts_of_resched (yield_resched _)]
    refine Kernel.modTask_ind k k.currentTask _
      (P := fun i u => u.context = (k.tasks i).context) rfl (fun _ _ => rfl) t

/-- Where only a thread that is switched in can be owed its state, it is exact precisely where the
switch is. -/
theorem resumesExactly_iff {e : ThreadEvent} {m m' : Machine} (hirq : ∀ junk, e ≠ .irq junk)
    (hiff : ∀ snap, m.interrupted m'.kernel.currentTask = some snap →
      (SameThread snap m'.cpu ↔ InPlace (e.enters m) snap)) :
    ResumesExactly m e m' ↔ SwitchesInPlace m e m' :=
  ⟨fun hexact snap hs => (hiff snap hs).mp (hexact.1 snap hs),
    fun hplace => ⟨fun snap hs => (hiff snap hs).mpr (hplace snap hs),
      fun junk he => absurd he (hirq junk)⟩⟩

/-- **One step.** -/
theorem threadStep_spec {e : ThreadEvent} {m m' : Machine} (hI : Intact P m)
    (h : threadStep P m e = some m') :
    Intact P m' ∧ (ResumesExactly m e m' ↔ SwitchesInPlace m e m') := by
  cases e with
  | exec x sp pc pstate =>
    obtain ⟨-, h⟩ := Option.ite_none_right_eq_some.mp h
    obtain rfl := Option.some.inj h
    exact ⟨fun t snap ht => hI t snap ht,
      resumesExactly_iff nofun fun snap hs => absurd rfl (hI _ snap hs).1⟩
  | irq junk =>
    obtain ⟨-, h⟩ := Option.ite_none_right_eq_some.mp h
    exact exceptionIrqEntry_spec hI h
  | yield junk =>
    obtain ⟨hintact, hsame⟩ := schedulerCall_spec hI (contexts_of_resched (yield_resched _))
      (yield_switchOk _) h
    exact ⟨hintact, resumesExactly_iff nofun hsame⟩
  | sleep ms intervalMs junk =>
    obtain ⟨hintact, hsame⟩ := schedulerCall_spec hI (sleepMs_contexts ms intervalMs m.kernel)
      (sleepMs_switchOk _ _ _) h
    exact ⟨hintact, resumesExactly_iff nofun hsame⟩

end Threads

/-! ## Progress

Every thread that is switched out can be switched in: it has not started, or what its return address
needs is on its stack. -/

section Progress

variable {S : Symbols} (P : SwitchPoints S)

def Parked (lr : Word) (stack : List StackEntry) : Prop :=
  (lr = P.preempt ∧ ∃ f rest, stack = .frame f :: rest)
    ∨ (lr = P.yield ∧ ∃ pc rest, stack = .call pc :: rest)
    ∨ lr = S.threadTrampoline ∨ lr = S.idleTask

structure AllParked (m : Machine) : Prop where
  table : TableOk m.kernel
  parked : ∀ t, t ≠ m.kernel.currentTask → (m.kernel.tasks t).state ≠ .unused →
    Parked P (m.kernel.tasks t).context.lr (m.kernelStacks t)

variable {P}

/-- A parked thread is resumed; nothing but the CPU and its own stack changes. -/
theorem resume_isSome {m : Machine}
    (h : Parked P m.cpu.pc (m.kernelStacks m.kernel.currentTask)) :
    ∃ c stack interrupted, resume P m = some
      { m with
        cpu := c
        kernelStacks := Function.update m.kernelStacks m.kernel.currentTask stack
        interrupted := interrupted } := by
  have hd := P.distinct
  simp only [List.nodup_cons, List.mem_cons, List.not_mem_nil, not_or, or_false] at hd
  rw [resume]
  rcases h with ⟨hpc, f, rest, hstack⟩ | ⟨hpc, pc, rest, hstack⟩ | hpc | hpc
  · rw [if_pos hpc, irqReturn, hstack]
    exact ⟨_, _, _, rfl⟩
  · rw [if_neg (by rw [hpc]; exact Ne.symm hd.2.2.1), if_pos hpc, hstack]
    exact ⟨_, _, _, rfl⟩
  · rw [if_neg (by rw [hpc]; exact hd.2.1.1), if_neg (by rw [hpc]; exact hd.2.1.2), if_pos hpc]
    exact ⟨_, m.kernelStacks m.kernel.currentTask, m.interrupted, by rw [Function.update_eq_self]⟩
  · rw [if_neg (by rw [hpc]; exact hd.1.2.1), if_neg (by rw [hpc]; exact hd.1.2.2),
      if_neg (by rw [hpc]; exact hd.1.1), if_pos hpc]
    exact ⟨m.cpu, m.kernelStacks m.kernel.currentTask,
      m.interrupted, by rw [Function.update_eq_self]⟩

/-- **A switch between parked threads** succeeds and leaves threads parked. -/
theorem switch_parked {lr : Word} {junk : Regs} {prev next : ℕ} {m : Machine}
    (htable : TableOk m.kernel) (hnext : next = m.kernel.currentTask) (hne : next ≠ prev)
    (hprev : Parked P lr (m.kernelStacks prev))
    (hrest : ∀ t, t ≠ prev → (m.kernel.tasks t).state ≠ .unused →
      Parked P (m.kernel.tasks t).context.lr (m.kernelStacks t)) :
    ∃ m', resume P (cpuSwitchTo lr junk prev next m) = some m' ∧ AllParked P m' := by
  have hnextUsed : (m.kernel.tasks next).state ≠ .unused := by
    rw [hnext]
    exact htable.current_used
  have hcur : (cpuSwitchTo lr junk prev next m).kernel.currentTask = next := hnext.symm
  obtain ⟨c, stack, interrupted, hresume⟩ := resume_isSome (P := P)
    (m := cpuSwitchTo lr junk prev next m) (by rw [hcur]; exact hrest next hne hnextUsed)
  refine ⟨_, hresume, ?_, fun t ht hu => ?_⟩
  · exact htable.congr (SameTable.modTask m.kernel prev
      (f := fun t => { t with context := saveContext m.cpu lr }) ⟨rfl, rfl, rfl⟩)
  · have htn : t ≠ next := fun h => ht (h.trans hcur.symm)
    rw [hcur] at ht
    dsimp only
    rw [hcur, Function.update_of_ne htn]
    by_cases htp : t = prev
    · rw [htp, cpuSwitchTo]
      dsimp only
      rw [Kernel.modTask_self]
      exact hprev
    · have htask : (cpuSwitchTo lr junk prev next m).kernel.tasks t = m.kernel.tasks t := by
        rw [cpuSwitchTo]
        dsimp only
        rw [Kernel.modTask_of_ne _ _ _ htp]
      dsimp only at hu
      rw [htask] at hu ⊢
      exact hrest t htp hu

/-- What the scheduler leaves of the tasks it does not switch. -/
structure LeavesParked (k : Kernel) (r : Kernel × Switch) : Prop where
  table : TableOk r.1
  not_stuck : r.2 ≠ .stuck
  switch : SwitchOk k r
  used : ∀ t, (r.1.tasks t).state ≠ .unused → (k.tasks t).state ≠ .unused
  context_eq : ∀ t, (r.1.tasks t).context = (k.tasks t).context

theorem yield_leavesParked {k : Kernel} (h : TableOk k) : LeavesParked k (schedulerYield k) where
  table := (tableOk_yield h).1
  not_stuck := (tableOk_yield h).2
  switch := yield_switchOk k
  used t := (not_congr ((yield_resched k).tasks t).unused_iff).mp
  context_eq := contexts_of_resched (yield_resched k)

theorem preempt_leavesParked {k : Kernel} (h : TableOk k) :
    LeavesParked k (schedulerPreempt k) where
  table := (tableOk_preempt h).1
  not_stuck := (tableOk_preempt h).2
  switch := preempt_switchOk k
  used t := (not_congr ((preempt_resched k).tasks t).unused_iff).mp
  context_eq := contexts_of_resched (preempt_resched k)

theorem sleepMs_leavesParked {k : Kernel} (h : TableOk k) (ms intervalMs : Word) :
    LeavesParked k (schedulerSleepMs ms intervalMs k) where
  table := (tableOk_sleepMs h ms intervalMs).1
  not_stuck := (tableOk_sleepMs h ms intervalMs).2
  switch := sleepMs_switchOk ms intervalMs k
  used t := by
    simp only [schedulerSleepMs]
    split
    · exact id
    · intro hu
      have hslept := (not_congr ((yield_resched _).tasks t).unused_iff).mp hu
      by_cases htc : t = k.currentTask
      · rw [htc]
        exact h.current_used
      · rwa [Kernel.modTask_of_ne _ _ _ htc] at hslept
  context_eq := sleepMs_contexts ms intervalMs k

theorem schedulerCall_parked (junk : Regs) {r : Kernel × Switch} {m : Machine} (h : AllParked P m)
    (hr : LeavesParked m.kernel r) :
    ∃ m', schedulerCall P junk r m = some m' ∧ AllParked P m' := by
  obtain ⟨htable, hstuck, hok, hused, hctx⟩ := hr
  obtain ⟨k, _ | ⟨prev, next⟩ | _⟩ := r
  · have hcur : k.currentTask = m.kernel.currentTask := hok
    refine ⟨_, rfl, htable, fun t ht hu => ?_⟩
    dsimp only at ht hu ⊢
    rw [hctx t]
    exact h.parked t (hcur ▸ ht) (hused t hu)
  · obtain ⟨hprev, hnext, hne⟩ := hok
    refine switch_parked (P := P) htable hnext hne ?_ fun t ht hu => ?_
    · dsimp only
      rw [Function.update_self]
      exact .inr (.inl ⟨rfl, _, _, rfl⟩)
    · dsimp only at hu ⊢
      rw [hctx t, Function.update_of_ne ht]
      exact h.parked t (hprev ▸ ht) (hused t hu)
  · exact absurd rfl hstuck

theorem exceptionIrqEntry_parked (junk : Regs) {m : Machine} (h : AllParked P m) :
    ∃ m', exceptionIrqEntry P junk m = some m' ∧ AllParked P m' := by
  obtain ⟨htable, hstuck, hok, hused, hctx⟩ := preempt_leavesParked h.table
  rw [exceptionIrqEntry]
  dsimp only
  generalize schedulerPreempt m.kernel = r at htable hstuck hok hused hctx ⊢
  obtain ⟨k, _ | ⟨prev, next⟩ | _⟩ := r
  · have hcur : k.currentTask = m.kernel.currentTask := hok
    dsimp only
    rw [irqReturn]
    dsimp only
    rw [hcur, Function.update_self]
    refine ⟨_, rfl, htable, fun t ht hu => ?_⟩
    dsimp only at ht hu ⊢
    rw [hctx t, Function.update_of_ne (hcur ▸ ht), Function.update_of_ne (hcur ▸ ht)]
    exact h.parked t (hcur ▸ ht) (hused t hu)
  · obtain ⟨hprev, hnext, hne⟩ := hok
    refine switch_parked (P := P) htable hnext hne ?_ fun t ht hu => ?_
    · dsimp only
      rw [hprev, Function.update_self]
      exact .inl ⟨rfl, _, _, rfl⟩
    · dsimp only at hu ⊢
      rw [hctx t, Function.update_of_ne (hprev ▸ ht)]
      exact h.parked t (hprev ▸ ht) (hused t hu)
  · exact absurd rfl hstuck

/-- The machine can take an interrupt while they are enabled, and any call of the scheduler. -/
structure CanGoOn (P : SwitchPoints S) (m : Machine) : Prop where
  irq : ∀ junk, m.cpu.irqEnabled = true → (threadStep P m (.irq junk)).isSome = true
  yield : ∀ junk, (threadStep P m (.yield junk)).isSome = true
  sleep : ∀ ms intervalMs junk, (threadStep P m (.sleep ms intervalMs junk)).isSome = true

theorem AllParked.canGoOn {m : Machine} (h : AllParked P m) : CanGoOn P m where
  irq junk hirq := by
    obtain ⟨m', hm', -⟩ := exceptionIrqEntry_parked junk h
    rw [threadStep, if_pos hirq, hm']
    rfl
  yield junk := by
    obtain ⟨m', hm', -⟩ := schedulerCall_parked junk h (yield_leavesParked h.table)
    rw [threadStep, hm']
    rfl
  sleep ms intervalMs junk := by
    obtain ⟨m', hm', -⟩ := schedulerCall_parked junk h
      (sleepMs_leavesParked h.table ms intervalMs)
    rw [threadStep, hm']
    rfl

theorem threadStep_parked {e : ThreadEvent} {m m' : Machine} (h : AllParked P m)
    (hstep : threadStep P m e = some m') : AllParked P m' := by
  cases e with
  | exec x sp pc pstate =>
    obtain ⟨-, hstep⟩ := Option.ite_none_right_eq_some.mp hstep
    obtain rfl := Option.some.inj hstep
    exact ⟨h.table, h.parked⟩
  | irq junk =>
    obtain ⟨-, hstep⟩ := Option.ite_none_right_eq_some.mp hstep
    obtain ⟨m₁, hm₁, hparked⟩ := exceptionIrqEntry_parked junk h
    obtain rfl := Option.some.inj (hm₁.symm.trans hstep)
    exact hparked
  | yield junk =>
    obtain ⟨m₁, hm₁, hparked⟩ := schedulerCall_parked junk h (yield_leavesParked h.table)
    obtain rfl := Option.some.inj (hm₁.symm.trans hstep)
    exact hparked
  | sleep ms intervalMs junk =>
    obtain ⟨m₁, hm₁, hparked⟩ := schedulerCall_parked junk h
      (sleepMs_leavesParked h.table ms intervalMs)
    obtain rfl := Option.some.inj (hm₁.symm.trans hstep)
    exact hparked

/-- The threads created before the start are parked at the trampoline. -/
theorem createThreads_spec (S : Symbols) (threads : List (Option String × Word)) (k : Kernel)
    (hentries : ∀ t ∈ threads, t.2 ≠ 0) (hk : TableOk k) (hcur : k.currentTask = 0)
    (hlr : ∀ t, t ≠ 0 → (k.tasks t).state ≠ .unused →
      (k.tasks t).context.lr = S.threadTrampoline) :
    let k' := threads.foldl (fun k t => (schedulerCreateKernelThread S t.1 t.2 k).1) k
    TableOk k' ∧ k'.currentTask = 0 ∧ ∀ t, t ≠ 0 → (k'.tasks t).state ≠ .unused →
      (k'.tasks t).context.lr = S.threadTrampoline := by
  induction threads generalizing k with
  | nil => exact ⟨hk, hcur, hlr⟩
  | cons thread rest ih =>
    obtain ⟨name, entry⟩ := thread
    have hentry : entry ≠ 0 := hentries _ List.mem_cons_self
    refine ih (schedulerCreateKernelThread S name entry k).1
      (fun t ht => hentries t (List.mem_cons_of_mem _ ht))
      (tableOk_createKernelThread S hk name entry) ?_ ?_
    · rw [schedulerCreateKernelThread]
      cases hclaim : claimTaskSlot k with
      | none =>
        rw [schedulerAddTask, hclaim]
        exact hcur
      | some r => exact (addTask_spec S name entry hclaim).2.1.currentTask.trans hcur
    · intro t ht hu
      rw [schedulerCreateKernelThread] at hu ⊢
      cases hclaim : claimTaskSlot k with
      | none =>
        rw [schedulerAddTask, hclaim] at hu ⊢
        exact hlr t ht hu
      | some r =>
        obtain ⟨k', p⟩ := r
        by_cases htp : t = p
        · rw [htp, addTask_context S name hentry hclaim, threadContext,
            if_neg (htp ▸ ht)]
        · rw [(addTask_spec S name entry hclaim).2.1.tasks t htp] at hu ⊢
          exact hlr t ht hu

theorem startMachine_parked (P : SwitchPoints S) (spaces : SpaceStatics)
    {threads : List (Option String × Word)} (hentries : ∀ t ∈ threads, t.2 ≠ 0) :
    AllParked P (startMachine S spaces threads) := by
  obtain ⟨-, hrest, -⟩ := bootKernel_spec S spaces
  obtain ⟨htable, hcur, hlr⟩ := createThreads_spec S threads (bootKernel S spaces) hentries
    (tableOk_boot S spaces) hrest.currentTask fun t ht hu => by
      rw [hrest.tasks t ht] at hu
      exact absurd rfl hu
  refine ⟨tableOk_startThreads htable hcur, fun t ht hu => .inr (.inr (.inl ?_))⟩
  have ht0 : t ≠ 0 := ht
  have htask : (startMachine S spaces threads).kernel.tasks t
      = (threads.foldl (fun k t => (schedulerCreateKernelThread S t.1 t.2 k).1)
        (bootKernel S spaces)).tasks t := by
    rw [startMachine]
    dsimp only [schedulerStartThreads, schedulerSetRunningTask]
    rw [Kernel.modTask_of_ne _ _ _ ht0]
  rw [htask] at hu ⊢
  exact hlr t ht0 hu

/-- **The machine never gets stuck**, whatever the interrupts do to the threads. -/
theorem threads_go_on (P : SwitchPoints S) (spaces : SpaceStatics)
    {threads : List (Option String × Word)} (hentries : ∀ t ∈ threads, t.2 ≠ 0)
    (events : List ThreadEvent) :
    Always (threadStep P) (CanGoOn P) (startMachine S spaces threads) events :=
  Always.of_inv (I := AllParked P) (fun _ _ _ h hstep => threadStep_parked h hstep)
    (fun _ h => h.canGoOn) (startMachine_parked P spaces hentries) events

end Progress

/-! ## Every run -/

/-- **Interrupted threads resume exactly** in precisely the runs whose switches to a thread that is
suspended in an interrupt all find the exception registers as that interrupt left them. -/
theorem resumes_exactly {S : Symbols} (P : SwitchPoints S) (spaces : SpaceStatics)
    (threads : List (Option String × Word)) (events : List ThreadEvent) :
    Along (threadStep P) ResumesExactly (startMachine S spaces threads) events
      ↔ Along (threadStep P) SwitchesInPlace (startMachine S spaces threads) events := by
  refine Along.iff_of_inv (J := Intact P) (fun m e m' hI hstep => ?_) nofun
  obtain ⟨hintact, hiff⟩ := threadStep_spec hI hstep
  exact ⟨hiff, fun _ => hintact⟩

/-- The two return addresses in one image. -/
def imagePoints : SwitchPoints imageSymbols where
  preempt := 0x40086000
  yield := 0x40087000
  distinct := by decide

/-- The idle task is preempted by a thread, and resumes when the thread goes to sleep. -/
theorem resumes_exactly_idle :
    Along (threadStep imagePoints) ResumesExactly
      (startMachine imageSymbols {} [(none, 0x40085000)])
      [.irq (fun _ => 7), .sleep 1000 100 (fun _ => 7)] := by
  refine (resumes_exactly imagePoints {} _ _).mpr fun m hm => ⟨nofun, fun m' hm' => ⟨?_, trivial⟩⟩
  obtain rfl := Option.some.inj hm
  obtain rfl := Option.some.inj hm'
  intro snap hs
  obtain rfl := Option.some.inj hs
  exact ⟨rfl, rfl⟩

/-- **The second of two preemptions moves the first thread**: interrupted at its start, it resumes
where the other thread was. -/
theorem preempted_thread_moved :
    ¬ ∀ events, Along (threadStep imagePoints) ResumesExactly
      (startMachine imageSymbols {} [(none, 0x40085000), (none, 0x40085000)]) events := by
  intro hall
  refine not_along_of_run [.irq fun _ => 0, .irq fun _ => 0,
      .exec (fun _ => 0) 0x40400000 0x40085010 0x345] (.irq fun _ => 0)
    (fun m m' => (m.interrupted m'.kernel.currentTask).any fun snap =>
      decide (m'.cpu.pc ≠ snap.pc)) (by decide +kernel) (fun m m' hbad hC => ?_) (hall _)
  cases hs : m.interrupted m'.kernel.currentTask with
  | none =>
    rw [hs] at hbad
    exact nomatch hbad
  | some snap =>
    rw [hs] at hbad
    exact of_decide_eq_true hbad (hC.1 snap hs).pc_eq

end SaturnOS
