import SaturnOS.Arch.Cpu
import SaturnOS.Machinery.Runs
import SaturnOS.Sched.Effects
import SaturnOS.Sched.System

/-!
# User/Exceptions — exceptions taken from EL0

               ┌ sync ─▸ exception_sync_entry ─▸ syscall, or the session ends ─▸ eret
    EL0 program┤
               └ irq, fiq, serror ─▸ exception_default_handler ─▸ the session ends ─▸ 1: b 1b

Only the synchronous entry of the lower-EL vectors has a stub that returns.  An interrupt taken in
EL0 goes to the default handler, which marks the session faulted and then loops; `el0_served_iff`
says that a program is served as long as nothing but its own synchronous exceptions leaves EL0.
-/

open Machinery

namespace SaturnOS

/-! ## The handlers -/

def esrEcShift : ℕ := 26
def esrEcMask : Word := 0x3F
def esrEcSvc64 : Word := 0x15
def spsrModeMask : Word := 0xF

def exceptionClassValue (esr : Word) : Word := (esr >>> esrEcShift) &&& esrEcMask

def exceptionFromEl0 (spsr : Word) : Bool := spsr &&& spsrModeMask == arm64SpsrModeEl0t

def syscallExit : Word := 2

/-- The writes of `ELR_EL1` and `SPSR_EL1` a handler made, if any. -/
def Cpu.writeReturn (c : Cpu) : Option (Word × Word) → Cpu
  | none => c
  | some (elr, spsr) => { c with elr := elr, spsr := spsr }

/-- `exception_sync_handler`; `none` is a panic.  `effect` is what a syscall other than exit does to
the kernel, with its result. -/
def exceptionSyncHandler (effect : Kernel × Word) (esr : Word) (frame : ExceptionFrame) (c : Cpu)
    (k : Kernel) : Option (Kernel × ExceptionFrame × Cpu) :=
  if exceptionFromEl0 c.spsr = true ∧ exceptionClassValue esr = esrEcSvc64 then
    if popFrame frame 8 = syscallExit then
      some ((userModeHandleExitSyscall (popFrame frame 0) k).1, setFrameX0 frame 0,
        c.writeReturn (userModeHandleExitSyscall (popFrame frame 0) k).2)
    else some (effect.1, setFrameX0 frame effect.2, c)
  else
    match userModeHandleException c.spsr k with
    | (k, some wr) => some (k, frame, c.writeReturn (some wr))
    | (_, none) => none

/-- `exception_sync_entry`. -/
def exceptionSyncEntry (effect : Kernel × Word) (esr : Word) (c : Cpu) (k : Kernel) :
    Option (Kernel × Cpu) :=
  match exceptionSyncHandler effect esr (pushFrame c.x) c k with
  | none => none
  | some (k, frame, c) => some (k, { c with x := popFrame frame }.eret)

/-- Where the CPU is. -/
inductive Control
  | el0
  | el1
  | looping
  | panicked
  deriving DecidableEq

structure El0State where
  kernel : Kernel
  cpu : Cpu
  control : Control

/-- Control after an `eret`. -/
def eretControl (pstate : Word) : Control := if exceptionFromEl0 pstate then .el0 else .el1

/-- An exception taken from EL0, through the vector table. -/
def exceptionFromLower (kind : ExceptionKind) (effect : Kernel × Word) (esr : Word) (s : El0State) :
    El0State :=
  let c := s.cpu.takeException
  match exceptionVector .lowerAArch64 kind with
  | .exceptionSyncEntry =>
    match exceptionSyncEntry effect esr c s.kernel with
    | some (k, c) => ⟨k, c, eretControl c.pstate⟩
    | none => ⟨s.kernel, c, .panicked⟩
  | .exceptionIrqEntry =>
    -- no entry of the lower-EL vectors leads here
    ⟨(schedulerPreempt s.kernel).1, c.eret, eretControl c.spsr⟩
  | .exceptionDefaultHandler =>
    match userModeHandleException c.spsr s.kernel with
    | (k, some wr) => ⟨k, c.writeReturn (some wr), .looping⟩
    | (k, none) => ⟨k, c, .panicked⟩

/-! ## Programs -/

inductive El0Event
  /-- An instruction of the program; it can change the flags. -/
  | instruction (x : Regs) (spEl0 pc pstate : Word)
  | exception (kind : ExceptionKind) (esr : Word) (effect : Kernel × Word)

/-- One step of a program in EL0.  What a syscall, and the tasks that run while it blocks, do to the
kernel is left open, but for the caller's own session, which no other task reaches: `user_session`
is that of the current task. -/
def el0Step (s : El0State) : El0Event → Option El0State
  | .instruction x spEl0 pc pstate =>
    if s.control = .el0 ∧ pstate.setWidth 28 = s.cpu.pstate.setWidth 28 then
      some { s with cpu := { s.cpu with x := x, spEl0 := spEl0, pc := pc, pstate := pstate } }
    else none
  | .exception kind esr effect =>
    if s.control = .el0 ∧ effect.1.userSession = s.kernel.userSession then
      some (exceptionFromLower kind effect esr s)
    else none

/-- The state in which `user_mode_run_task` enters EL0, from the CPU at its call of
`arm64_enter_el0_task`. -/
def el0Entry (k : Kernel) (call : Cpu) : El0State :=
  { kernel := k, cpu := call.arm64EnterEl0Task, control := .el0 }

/-- A session `user_mode_run_task` opened and nothing has closed. -/
structure OpenSession (S : Symbols) (k : Kernel) : Prop where
  active : k.userSession.active = true
  returnPc : k.userSession.returnPc = S.arm64El0TaskReturn
  kernelRoot : k.userSession.kernelRoot ≠ 0
  userRoot : k.userSession.userRoot ≠ 0

theorem OpenSession.congr {S : Symbols} {k k' : Kernel} (h : OpenSession S k)
    (hs : k'.userSession = k.userSession) : OpenSession S k' :=
  ⟨by rw [hs]; exact h.active, by rw [hs]; exact h.returnPc, by rw [hs]; exact h.kernelRoot,
    by rw [hs]; exact h.userRoot⟩

theorem arm64El0TaskReturn_ne_zero (S : Symbols) : S.arm64El0TaskReturn ≠ 0 := by
  have hd := S.distinct
  simp only [List.nodup_cons, List.mem_cons, List.not_mem_nil, not_or, or_false] at hd
  exact Ne.symm hd.1.2.2.2

/-- **A fault ends an open session**: back to EL1, marked faulted. -/
theorem handleException_open {S : Symbols} {k : Kernel} (h : OpenSession S k) {spsr : Word}
    (hmode : exceptionFromEl0 spsr = true) :
    ∃ k', userModeHandleException spsr k = (k', some (S.arm64El0TaskReturn, arm64SpsrEl1h)) := by
  have hspsr : ¬ spsr &&& 0xF ≠ arm64SpsrModeEl0t := by
    simpa [exceptionFromEl0, spsrModeMask] using hmode
  simp only [userModeHandleException]
  rw [h.active, if_neg (by decide), if_neg (not_or.mpr ⟨h.kernelRoot, h.userRoot⟩),
    if_neg (by rw [h.returnPc]; exact arm64El0TaskReturn_ne_zero S), if_neg hspsr]
  refine ⟨_, Prod.ext rfl ?_⟩
  dsimp only
  rw [Kernel.modSession_userSession]
  dsimp only
  rw [Kernel.modSessionTask_userSession, Kernel.switchTtbr0_userSession, h.returnPc]
  exact fun _ => rfl

/-- **…and so does the exit syscall**, not faulted. -/
theorem handleExitSyscall_open {S : Symbols} {k : Kernel} (h : OpenSession S k) (code : Word) :
    (userModeHandleExitSyscall code k).2 = some (S.arm64El0TaskReturn, arm64SpsrEl1h)
      ∧ (userModeHandleExitSyscall code k).1.userSession.faulted = false := by
  have hguard : (!k.userSession.active || k.userSession.returnPc == 0) = false := by
    have hne : (k.userSession.returnPc == 0) = false := by
      rw [h.returnPc]
      exact beq_false_of_ne (arm64El0TaskReturn_ne_zero S)
    rw [h.active, hne]
    rfl
  simp only [userModeHandleExitSyscall]
  rw [hguard, if_neg (by decide), if_pos h.kernelRoot]
  constructor
  · dsimp only
    rw [Kernel.modSession_userSession]
    dsimp only
    rw [Kernel.modSessionTask_userSession, Kernel.switchTtbr0_userSession, h.returnPc]
    exact fun _ => rfl
  · dsimp only
    rw [Kernel.modSession_userSession]

/-! ## Being served -/

/-- What a program in EL0 can rely on: a timer interrupt is counted and the program goes on where it
was; its session is marked faulted for a synchronous exception only; and nothing it does leaves the
CPU in the loop of the default handler. -/
structure Served (s : El0State) (e : El0Event) (s' : El0State) : Prop where
  irq : ∀ esr effect, e = .exception .irq esr effect →
    s'.kernel.schedulerTicks = s.kernel.schedulerTicks + 1 ∧ s'.control = .el0
      ∧ s'.cpu.pc = s.cpu.pc ∧ s'.cpu.pstate = s.cpu.pstate ∧ s'.cpu.spEl0 = s.cpu.spEl0
      ∧ s'.cpu.x = s.cpu.x
  faulted : s.kernel.userSession.faulted = false → s'.kernel.userSession.faulted = true →
    ∃ esr effect, e = .exception .sync esr effect
  no_loop : s'.control ≠ .looping

/-- Every exception taken is synchronous. -/
def Synchronous (e : El0Event) : Prop :=
  ∀ kind esr effect, e = .exception kind esr effect → kind = .sync

/-- A program running in EL0, or no longer there. -/
def InSession (S : Symbols) (s : El0State) : Prop :=
  s.control = .el0 → OpenSession S s.kernel ∧ exceptionFromEl0 s.cpu.pstate = true

/-- The mode is below the flags. -/
theorem exceptionFromEl0_flags {p p' : Word} (h : p'.setWidth 28 = p.setWidth 28) :
    exceptionFromEl0 p' = exceptionFromEl0 p := by
  have hmode : ∀ w : Word, (w &&& spsrModeMask).toNat = w.toNat % 2 ^ 4 := by
    intro w
    rw [BitVec.toNat_and]
    exact Nat.and_two_pow_sub_one_eq_mod w.toNat 4
  have hlow : p'.toNat % 2 ^ 28 = p.toNat % 2 ^ 28 := by
    simpa using congrArg BitVec.toNat h
  have heq : p' &&& spsrModeMask = p &&& spsrModeMask := by
    apply BitVec.eq_of_toNat_eq
    rw [hmode, hmode]
    omega
  rw [exceptionFromEl0, heq, exceptionFromEl0]

/-- After an `eret` the CPU is in no loop. -/
theorem eretControl_ne_looping (pstate : Word) : eretControl pstate ≠ .looping := by
  rw [eretControl]
  split <;> exact nofun

/-- **A synchronous exception is served**: the program goes on, or its session ends. -/
theorem exceptionFromLower_sync {S : Symbols} {s : El0State} {effect : Kernel × Word} (esr : Word)
    (h : OpenSession S s.kernel) (hmode : exceptionFromEl0 s.cpu.pstate = true)
    (heffect : effect.1.userSession = s.kernel.userSession) :
    (exceptionFromLower .sync effect esr s).control ≠ .looping
      ∧ InSession S (exceptionFromLower .sync effect esr s) := by
  have hvector : exceptionVector .lowerAArch64 .sync = .exceptionSyncEntry := rfl
  have hel1 : ¬ exceptionFromEl0 arm64SpsrEl1h = true := by decide
  have hspsr : exceptionFromEl0 s.cpu.takeException.spsr = true := hmode
  simp only [exceptionFromLower, hvector, exceptionSyncEntry, exceptionSyncHandler, hspsr, true_and]
  split
  · rename_i k c heq
    refine ⟨eretControl_ne_looping _, fun hcontrol => ?_⟩
    have hback : exceptionFromEl0 c.pstate = true := by
      by_contra hno
      simp only [eretControl, hno] at hcontrol
      exact nomatch hcontrol
    split at heq
    · exact nomatch heq
    · rename_i k₁ frame c₁ hhandled
      obtain ⟨rfl, rfl⟩ := Prod.mk.inj (Option.some.inj heq)
      split at hhandled
      · split at hhandled
        · -- the exit syscall returns to EL1
          obtain ⟨rfl, hrest⟩ := Prod.mk.inj (Option.some.inj hhandled)
          obtain ⟨-, rfl⟩ := Prod.mk.inj hrest
          rw [(handleExitSyscall_open h _).1] at hback
          exact absurd hback hel1
        · obtain ⟨rfl, hrest⟩ := Prod.mk.inj (Option.some.inj hhandled)
          obtain ⟨-, rfl⟩ := Prod.mk.inj hrest
          exact ⟨h.congr heffect, hmode⟩
      · -- and so does a fault
        obtain ⟨k₂, hfault⟩ := handleException_open h hspsr
        rw [hfault] at hhandled
        obtain ⟨rfl, hrest⟩ := Prod.mk.inj (Option.some.inj hhandled)
        obtain ⟨-, rfl⟩ := Prod.mk.inj hrest
        exact absurd hback hel1
  · exact ⟨nofun, nofun⟩

/-- **Any other exception ends in the loop.** -/
theorem exceptionFromLower_async {S : Symbols} {s : El0State} {kind : ExceptionKind}
    (effect : Kernel × Word) (esr : Word) (hkind : kind ≠ .sync) (h : OpenSession S s.kernel)
    (hmode : exceptionFromEl0 s.cpu.pstate = true) :
    (exceptionFromLower kind effect esr s).control = .looping := by
  have hvector : exceptionVector .lowerAArch64 kind = .exceptionDefaultHandler := by
    cases kind <;> first | exact absurd rfl hkind | rfl
  obtain ⟨k, hfault⟩ := handleException_open h
    (show exceptionFromEl0 s.cpu.takeException.spsr = true from hmode)
  simp only [exceptionFromLower, hvector, hfault]

theorem instruction_synchronous (x : Regs) (spEl0 pc pstate : Word) :
    Synchronous (.instruction x spEl0 pc pstate) := fun _ _ _ heq => El0Event.noConfusion heq

theorem exception_synchronous {kind : ExceptionKind} {esr : Word} {effect : Kernel × Word} :
    Synchronous (.exception kind esr effect) ↔ kind = .sync := by
  constructor
  · exact fun h => h kind esr effect rfl
  · rintro rfl _ _ _ heq
    injection heq with hkind
    exact hkind.symm

/-- **One step is served exactly when it is synchronous.** -/
theorem el0Step_served {S : Symbols} {s s' : El0State} {e : El0Event} (h : InSession S s)
    (hstep : el0Step s e = some s') :
    (Served s e s' ↔ Synchronous e) ∧ (Synchronous e → InSession S s') := by
  cases e with
  | instruction x spEl0 pc pstate =>
    obtain ⟨⟨hcontrol, hflags⟩, hstep⟩ := Option.ite_none_right_eq_some.mp hstep
    obtain ⟨hopen, hmode⟩ := h hcontrol
    have hkernel : s'.kernel = s.kernel := by rw [← Option.some.inj hstep]
    have hcontrol' : s'.control = .el0 := by rw [← Option.some.inj hstep]; exact hcontrol
    have hmode' : exceptionFromEl0 s'.cpu.pstate = true := by
      rw [← Option.some.inj hstep]
      exact (exceptionFromEl0_flags hflags).trans hmode
    refine ⟨iff_of_true ⟨?_, fun hf hf' => ?_, ?_⟩ (instruction_synchronous _ _ _ _),
      fun _ _ => ⟨hkernel ▸ hopen, hmode'⟩⟩
    · exact fun _ _ heq => El0Event.noConfusion heq
    · rw [hkernel, hf] at hf'
      exact nomatch hf'
    · rw [hcontrol']
      exact nofun
  | exception kind esr effect =>
    obtain ⟨⟨hcontrol, heffect⟩, hstep⟩ := Option.ite_none_right_eq_some.mp hstep
    obtain ⟨hopen, hmode⟩ := h hcontrol
    rw [exception_synchronous, ← Option.some.inj hstep]
    by_cases hkind : kind = .sync
    · subst hkind
      obtain ⟨hloop, hin⟩ := exceptionFromLower_sync esr hopen hmode heffect
      refine ⟨iff_of_true ⟨fun esr' effect' heq => ?_, fun _ _ => ⟨esr, effect, rfl⟩, hloop⟩ rfl,
        fun _ => hin⟩
      injection heq with hirq
      exact nomatch hirq
    · have hloop := exceptionFromLower_async effect esr hkind hopen hmode
      exact ⟨iff_of_false (fun hserved => hserved.no_loop hloop) hkind, fun hs => absurd hs hkind⟩

/-! ## Every program -/

/-- **`user_mode_run_task` opens the session it enters EL0 in.** -/
theorem runTaskEnter_open {S : Symbols} {p : ℕ} {k k' : Kernel} {space : AddressSpace}
    (hspace : k.taskSpace p = some space) (hroot : space.kernelRootTable ≠ 0)
    (henter : userModeRunTaskEnter S p k = (k', .ready)) :
    OpenSession S k' ∧ k'.userSession.faulted = false ∧ (k.tasks p).el0.spsr = arm64SpsrEl0t := by
  obtain ⟨status, hne, heq⟩ | ⟨space', hspace', -, -, htarget, hspsr, -, heq⟩ :=
    runTaskEnter_spec S p k
  · exact absurd (Prod.mk.inj (heq.symm.trans henter)).2 hne
  · obtain rfl := Option.some.inj (hspace.symm.trans hspace')
    have hk' := (Prod.mk.inj (heq.symm.trans henter)).1
    have hsession : k'.userSession = openSession S p space k.userSession := by
      rw [← hk', Kernel.modTask_userSession, Kernel.switchTtbr0_userSession,
        Kernel.modSession_userSession]
      rfl
    refine ⟨⟨?_, ?_, ?_, ?_⟩, ?_, hspsr⟩ <;> rw [hsession]
    · rfl
    · rfl
    · exact hroot
    · exact htarget
    · rfl

/-- **A program is served throughout exactly when every exception it takes is synchronous.**  It
starts where `user_mode_run_task` enters EL0, with the task's saved processor state in `x2`. -/
theorem el0_served_iff (S : Symbols) {p : ℕ} {k k' : Kernel} {space : AddressSpace}
    (hspace : k.taskSpace p = some space) (hroot : space.kernelRootTable ≠ 0)
    (henter : userModeRunTaskEnter S p k = (k', .ready)) (call : Cpu)
    (hspsr : call.x 2 = (k.tasks p).el0.spsr) (events : List El0Event) :
    Along el0Step Served (el0Entry k' call) events
      ↔ Along el0Step (fun _ e _ => Synchronous e) (el0Entry k' call) events := by
  refine Along.iff_of_inv (T := el0Step) (C := Served) (D := fun _ e _ => Synchronous e)
    (J := InSession S) (fun s e s' h hstep => el0Step_served h hstep) fun _ => ?_
  obtain ⟨hopen, -, hel0t⟩ := runTaskEnter_open hspace hroot henter
  refine ⟨hopen, ?_⟩
  show exceptionFromEl0 (call.x 2) = true
  rw [hspsr, hel0t]
  decide

/-- The call of `arm64_enter_el0_task` for a task without arguments. -/
def entryCall : Cpu :=
  { x := fun i =>
      if i = 0 then 0x100000 else if i = 1 then 0x40000000 else if i = 30 then 0x40088000 else 0
    sp := 0x40404000
    pstate := arm64SpsrEl1h }

/-- The kernel of a program in EL0. -/
def el0Kernel : Kernel := (userModeRunTaskEnter imageSymbols 1 userKernel).1

theorem userKernel_enters : userKernel.taskSpace 1 = some (userKernel.tasks 1).userAddressSpace
    ∧ (userKernel.tasks 1).userAddressSpace.kernelRootTable ≠ 0
    ∧ userModeRunTaskEnter imageSymbols 1 userKernel = (el0Kernel, .ready) := by
  have hpointer : (userKernel.tasks 1).memory.addressSpace = .user := by decide +kernel
  have hready : (userModeRunTaskEnter imageSymbols 1 userKernel).2 = .ready := by decide +kernel
  refine ⟨?_, by decide +kernel, Prod.ext rfl hready⟩
  rw [Kernel.taskSpace, hpointer]

/-- A program that takes one step and exits is served. -/
theorem el0_served_word :
    Along el0Step Served (el0Entry el0Kernel entryCall)
      [.instruction (fun i => if i = 8 then syscallExit else 0) 0x40000000 0x100004 0,
        .exception .sync (esrEcSvc64 <<< esrEcShift) (el0Kernel, 0)] := by
  obtain ⟨hspace, hroot, henter⟩ := userKernel_enters
  refine (el0_served_iff imageSymbols hspace hroot henter entryCall (by decide +kernel) _).mpr ?_
  refine fun s _ => ⟨instruction_synchronous _ _ _ _, fun s' _ => ⟨?_, trivial⟩⟩
  exact exception_synchronous.mpr rfl

/-- **A timer interrupt in EL0 is not served**: the CPU stays in the loop of the default handler. -/
theorem el0_irq_loops :
    ¬ ∀ events, Along el0Step Served (el0Entry el0Kernel entryCall) events := by
  intro hall
  refine not_along_of_run [] (.exception .irq 0 (el0Kernel, 0))
    (fun _ s' => decide (s'.control = .looping)) (by decide +kernel)
    (fun s s' hbad hserved => ?_) (hall _)
  exact hserved.no_loop (of_decide_eq_true hbad)

end SaturnOS
