import SaturnOS.User.Exceptions
import SaturnOS.User.Sites

/-!
# User/Suspension — a program's registers while its syscall blocks

    svc ──▸ frame: x0 … x30 ──▸ locals: ELR, SPSR ──scheduler──▸ ⋯ ──▸ ELR, SPSR ──▸ pop ──▸ eret

The CPU over the sites of the tasks.  A syscall that blocks leaves the program's general registers
in the frame on its kernel stack and its program counter and processor state in two locals of
`syscall_scheduler_yield` or `syscall_sleep`.  `SP_EL0` stays in the CPU, for the next EL0 entry to
overwrite; and an interrupt between the restored `ELR_EL1` and the `eret` overwrites that.
`syscall_returns_exactly` says that nothing else can go wrong.
-/

open Machinery

namespace SaturnOS

/-! ## The machine -/

structure SyscallMachine where
  sites : SiteState
  cpu : Cpu
  /-- The frame of a task's syscall, on its kernel stack. -/
  frames : ℕ → ExceptionFrame := fun _ _ => 0
  /-- The locals `elr` and `spsr` of a task's blocking syscall; outside one they mean nothing. -/
  saved : ℕ → Option (Word × Word) := fun _ => none
  /-- The CPU at a task's last `SVC`; its `pc` is where the exception returns to. -/
  atSvc : ℕ → Cpu := fun _ => {}

/-- What a step of the kernel asks of the scheduler. -/
def SiteEvent.switch (k : Kernel) : SiteEvent → Switch
  | .yield => (schedulerYield k).2
  | .sleep ms intervalMs => (schedulerSleepMs ms intervalMs k).2
  | .exitTask => (schedulerExitTask k.currentTask k).2
  | .preempt => (schedulerPreempt k).2
  | .call _ | .openSession | .writeRoot | .enter | .svc | .afterYield | .sysReturn _ | .exit _
  | .fault _ | .complete => .stay

/-- The CPU at the call of `arm64_enter_el0_task`. -/
def enterCall (t : Task) (c : Cpu) : Cpu :=
  { c with
    x := fun i => match i.val with
      | 0 => t.el0.pc
      | 1 => t.el0.sp
      | 2 => t.el0.spsr
      | 3 => t.userArgc
      | 4 => t.userArgvAddress
      | 5 => t.userArgLengthsAddress
      | _ => c.x i }

namespace SyscallMachine

variable (m : SyscallMachine)

/-- The running task. -/
def current : ℕ := m.sites.kernel.currentTask

/-- What a step does to the registers and to the running task's stack, up to a switch.  `ELR_EL1`
and `SPSR_EL1` are saved by `syscall_sleep` always, by `syscall_scheduler_yield` if the task has an
active address space.  The end of an interrupt is code of the kernel. -/
def registers : SiteEvent → SyscallMachine
  | .enter =>
    { m with cpu := (enterCall (m.sites.kernel.tasks m.current) m.cpu).arm64EnterEl0Task }
  | .svc =>
    { m with
      cpu := m.cpu.takeException
      frames := Function.update m.frames m.current (pushFrame m.cpu.x)
      atSvc := Function.update m.atSvc m.current m.cpu }
  | .yield =>
    { m with
      saved := Function.update m.saved m.current
        (if (userModeActiveAddressSpace m.sites.kernel).isSome then some (m.cpu.elr, m.cpu.spsr)
        else none) }
  | .sleep _ _ =>
    { m with saved := Function.update m.saved m.current (some (m.cpu.elr, m.cpu.spsr)) }
  | .afterYield => { m with cpu := m.cpu.writeReturn (m.saved m.current) }
  | .sysReturn result =>
    { m with
      cpu := { m.cpu with x := popFrame (setFrameX0 (m.frames m.current) result) }.eret }
  | .exit code =>
    { m with
      cpu := ({ m.cpu with x := popFrame (setFrameX0 (m.frames m.current) 0) }.writeReturn
        (userModeHandleExitSyscall code m.sites.kernel).2).eret }
  | .fault spsr =>
    { m with
      cpu := (m.cpu.takeException.writeReturn
        (userModeHandleException spsr m.sites.kernel).2).eret }
  | .preempt => { m with cpu := m.cpu.takeException }
  | .call _ | .openSession | .writeRoot | .complete | .exitTask => m

/-- `cpu_switch_to`; `junk` is what is in the registers it does not move. -/
def cpuSwitchTo (junk : Regs) : Switch → SyscallMachine
  | .to prev next =>
    { m with
      sites := { m.sites with
        kernel := m.sites.kernel.modTask prev fun t =>
          { t with context := saveContext m.cpu (m.cpu.x 30) } }
      cpu := loadContext (m.sites.kernel.tasks next).context junk m.cpu }
  | .stay | .stuck => m

end SyscallMachine

/-- A site in a syscall. -/
def Site.inSyscall (site : Site) : Prop := site = .handling ∨ site = .suspended

instance : DecidablePred Site.inSyscall := fun _ => inferInstanceAs (Decidable (_ ∨ _))

inductive SyscallEvent
  /-- Code of the kernel.  In a syscall it leaves `ELR_EL1`, `SPSR_EL1` and `SP_EL0` alone. -/
  | kernelCode (c : Cpu)
  /-- An instruction of the program; it can change the flags. -/
  | el0Code (x : Regs) (spEl0 pc pstate : Word)
  | step (e : SiteEvent) (junk : Regs)

def syscallStep (L : Layout) (S : Symbols) (m : SyscallMachine) :
    SyscallEvent → Option SyscallMachine
  | .kernelCode c =>
    if m.sites.here = .el0 then none
    else if m.sites.here.inSyscall then
      some { m with cpu := { c with elr := m.cpu.elr, spsr := m.cpu.spsr, spEl0 := m.cpu.spEl0 } }
    else some { m with cpu := c }
  | .el0Code x spEl0 pc pstate =>
    if m.sites.here = .el0 ∧ pstate.setWidth 28 = m.cpu.pstate.setWidth 28 then
      some { m with cpu := { m.cpu with x := x, spEl0 := spEl0, pc := pc, pstate := pstate } }
    else none
  | .step e junk =>
    (siteStep L S m.sites e).map fun s =>
      { m.registers e with sites := s }.cpuSwitchTo junk (e.switch m.sites.kernel)

def bootSyscalls (S : Symbols) (root : Word) (st : SpaceStatics) (c : Cpu) : SyscallMachine :=
  { sites := bootSites S root st, cpu := c }

/-! ## The invariant -/

/-- What a task in a syscall has on its kernel stack. -/
structure StackOk (m : SyscallMachine) (t : ℕ) : Prop where
  frame : (m.sites.site t).inSyscall → m.frames t = pushFrame (m.atSvc t).x
  saved : m.sites.site t = .suspended → m.saved t = some ((m.atSvc t).pc, (m.atSvc t).pstate)

/-- …and the running one in the CPU. -/
structure CpuOk (m : SyscallMachine) : Prop where
  elr : m.sites.here = .handling → m.cpu.elr = (m.atSvc m.current).pc
  spsr : m.sites.here = .handling → m.cpu.spsr = (m.atSvc m.current).pstate
  spEl0 : m.sites.here.inSyscall → m.cpu.spEl0 = (m.atSvc m.current).spEl0

structure CallersOk (m : SyscallMachine) : Prop where
  sites : SitesOk m.sites
  stack : ∀ t, StackOk m t
  away : ∀ t, t ≠ m.current → m.sites.site t ≠ .handling
  cpu : CpuOk m

/-- The stack of a task a step does not touch. -/
theorem StackOk.congr {m m' : SyscallMachine} {t : ℕ} (h : StackOk m t)
    (hsite : m'.sites.site t = .outside ∨ m'.sites.site t = m.sites.site t)
    (hframe : m'.frames t = m.frames t) (hsaved : m'.saved t = m.saved t)
    (hsvc : m'.atSvc t = m.atSvc t) : StackOk m' t := by
  rcases hsite with hout | hsame
  · constructor
    · rw [hout]
      rintro (hin | hin) <;> exact nomatch hin
    · rw [hout]
      exact nofun
  · constructor
    · rw [hsame, hframe, hsvc]
      exact h.frame
    · rw [hsame, hsaved, hsvc]
      exact h.saved

/-- **The running task takes a step**, and another one may run after it. -/
theorem CallersOk.next {m m' : SyscallMachine} (h : CallersOk m) (hsites : SitesOk m'.sites)
    (hothers : ∀ t, t ≠ m.current → (m'.sites.site t = .outside ∨ m'.sites.site t = m.sites.site t)
      ∧ m'.frames t = m.frames t ∧ m'.saved t = m.saved t ∧ m'.atSvc t = m.atSvc t)
    (hself : StackOk m' m.current)
    (hleft : m'.sites.site m.current = .handling → m'.current = m.current) (hcpu : CpuOk m') :
    CallersOk m' := by
  refine ⟨hsites, fun t => ?_, fun t ht hhandling => ?_, hcpu⟩
  · by_cases htc : t = m.current
    · rw [htc]
      exact hself
    · obtain ⟨hsite, hframe, hsaved, hsvc⟩ := hothers t htc
      exact (h.stack t).congr hsite hframe hsaved hsvc
  · by_cases htc : t = m.current
    · subst htc
      exact ht (hleft hhandling).symm
    · rcases (hothers t htc).1 with hout | hsame
      · rw [hout] at hhandling
        exact nomatch hhandling
      · exact h.away t htc (hsame ▸ hhandling)

/-! ## Steps -/

/-- **The switch** saves a context and moves nobody… -/
theorem SitesOk.cpuSwitchTo {m : SyscallMachine} (h : SitesOk m.sites) (junk : Regs) (sw : Switch) :
    SitesOk (m.cpuSwitchTo junk sw).sites := by
  obtain _ | ⟨prev, next⟩ | _ := sw
  · exact h
  · have hkeeps := KeepsSpace.modTask m.sites.kernel prev (f := fun t =>
      { t with context := saveContext m.cpu (m.cpu.x 30) }) ⟨id, rfl, rfl⟩
    refine ⟨?_, h.kernelKind, fun p hp => (h.session p hp).congr rfl (hkeeps p), h.away⟩
    exact h.table.congr (SameTable.modTask _ _
      (f := fun t => { t with context := saveContext m.cpu (m.cpu.x 30) }) ⟨rfl, rfl, rfl⟩)
  · exact h

/-- …and none of `ELR_EL1`, `SPSR_EL1` and `SP_EL0`. -/
theorem CallersOk.cpuSwitchTo {m : SyscallMachine} (h : CallersOk m) (junk : Regs) (sw : Switch) :
    CallersOk (m.cpuSwitchTo junk sw) := by
  have hsites := h.sites.cpuSwitchTo junk sw
  obtain _ | ⟨prev, next⟩ | _ := sw
  · exact h
  · exact ⟨hsites, fun t => ⟨(h.stack t).frame, (h.stack t).saved⟩, h.away,
      ⟨h.cpu.elr, h.cpu.spsr, h.cpu.spEl0⟩⟩
  · exact h

/-- The task that runs after a step. -/
def SiteEvent.target (k : Kernel) : SiteEvent → ℕ
  | .yield => (schedulerYield k).1.currentTask
  | .sleep ms intervalMs => (schedulerSleepMs ms intervalMs k).1.currentTask
  | .exitTask => (schedulerExitTask k.currentTask k).1.currentTask
  | .preempt => (schedulerPreempt k).1.currentTask
  | .call _ | .openSession | .writeRoot | .enter | .svc | .afterYield | .sysReturn _ | .exit _
  | .fault _ | .complete => k.currentTask

/-- The program is as it was at its `SVC`, with the result in `x0`. -/
structure SameProgramState (svc : Cpu) (result : Word) (c : Cpu) : Prop where
  x_eq : c.x = Function.update svc.x 0 result
  pc_eq : c.pc = svc.pc
  pstate_eq : c.pstate = svc.pstate
  spEl0_eq : c.spEl0 = svc.spEl0

/-- A syscall returns to the state of its `SVC`. -/
def ReturnsExactly (m : SyscallMachine) (e : SyscallEvent) (m' : SyscallMachine) : Prop :=
  ∀ result junk, e = .step (.sysReturn result) junk →
    SameProgramState (m.atSvc m.current) result m'.cpu

/-- A suspended syscall is resumed with `SP_EL0` as its `SVC` left it, and no interrupt is taken in
the handler of a syscall. -/
def ResumesUndisturbed (m : SyscallMachine) : SyscallEvent → Prop
  | .step e _ =>
    (m.sites.site (e.target m.sites.kernel) = .suspended →
      m.cpu.spEl0 = (m.atSvc (e.target m.sites.kernel)).spEl0)
    ∧ (e = .preempt → m.sites.here ≠ .handling)
  | .kernelCode _ | .el0Code _ _ _ _ => True

instance (m : SyscallMachine) : DecidablePred (ResumesUndisturbed m)
  | .step _ _ => inferInstanceAs (Decidable (_ ∧ _))
  | .kernelCode _ | .el0Code _ _ _ _ => inferInstanceAs (Decidable True)

/-- **The running task moves to a site outside syscalls.** -/
theorem CallersOk.moveOut {m : SyscallMachine} (h : CallersOk m) (c : Cpu) {k : Kernel}
    {site : Site}
    (hok : SitesOk (m.sites.moveTo k site)) (hcur : k.currentTask = m.current)
    (hout : ¬ site.inSyscall) : CallersOk { m with cpu := c, sites := m.sites.moveTo k site } := by
  have hhere : (m.sites.moveTo k site).here = site := moveTo_here m.sites site hcur
  have hself : (m.sites.moveTo k site).site m.current = site := Function.update_self _ _ _
  refine h.next hok (fun t ht => ⟨.inr (Function.update_of_ne ht _ _), rfl, rfl, rfl⟩)
    ⟨fun hin => ?_, fun hs => ?_⟩ (fun _ => hcur) ⟨fun hh => ?_, fun hh => ?_, fun hin => ?_⟩
  · exact absurd (hself ▸ hin) hout
  · exact absurd (.inr (hself.symm.trans hs)) hout
  · exact absurd (.inl (hhere.symm.trans hh)) hout
  · exact absurd (.inl (hhere.symm.trans hh)) hout
  · exact absurd (hhere ▸ hin) hout

/-- The CPU of the task that runs after a handover. -/
theorem cpuOk_handover {m m' : SyscallMachine} (h : CallersOk m)
    (hsite : ∀ t, t ≠ m.current → m'.sites.site t = m.sites.site t)
    (hself : m'.sites.site m.current ≠ .handling)
    (hin : m'.sites.site m.current = .suspended → m.sites.here.inSyscall)
    (hsvc : m'.atSvc = m.atSvc) (hsp : m'.cpu.spEl0 = m.cpu.spEl0)
    (hresumes : m.sites.site m'.current = .suspended →
      m.cpu.spEl0 = (m.atSvc m'.current).spEl0) : CpuOk m' := by
  have hnot : m'.sites.here ≠ .handling := by
    by_cases hc : m'.current = m.current
    · have : m'.sites.here = m'.sites.site m.current := by rw [← hc]; rfl
      rw [this]
      exact hself
    · have : m'.sites.here = m.sites.site m'.current := hsite _ hc
      rw [this]
      exact h.away _ hc
  refine ⟨fun hh => absurd hh hnot, fun hh => absurd hh hnot, fun hsys => ?_⟩
  have hsusp : m'.sites.here = .suspended := hsys.resolve_left hnot
  rw [hsp, hsvc]
  by_cases hc : m'.current = m.current
  · have hs : m'.sites.site m.current = .suspended := by rw [← hc]; exact hsusp
    rw [hc]
    exact h.cpu.spEl0 (hin hs)
  · have hs : m.sites.site m'.current = .suspended := (hsite _ hc).symm.trans hsusp
    exact hresumes hs

/-- **A call of the scheduler** in a syscall, with `ELR_EL1` and `SPSR_EL1` saved, or outside
one. -/
theorem CallersOk.schedulerHandover {m : SyscallMachine} {s : SiteState} (h : CallersOk m)
    {r : Kernel × Switch} (hr : HandsOver m.sites.kernel r)
    (hstep : schedulerHandover r m.sites = some s) (locals : Option (Word × Word))
    (hlocals : m.sites.here = .handling → locals = some (m.cpu.elr, m.cpu.spsr))
    (hresumes : m.sites.site r.1.currentTask = .suspended →
      m.cpu.spEl0 = (m.atSvc r.1.currentTask).spEl0) :
    CallersOk { m with sites := s, saved := Function.update m.saved m.current locals } := by
  have hok := h.sites.schedulerHandover hr hstep
  obtain ⟨hk, hsite, hself⟩ := schedulerHandover_spec hstep
  have hnot : s.site m.current ≠ .handling := by
    rcases hself with ⟨-, hs⟩ | ⟨-, hs⟩
    · exact fun hh => nomatch hs.symm.trans hh
    · exact fun hh => nomatch hs.symm.trans hh
  have hin : s.site m.current = .suspended → m.sites.here = .handling := by
    rcases hself with ⟨hh, -⟩ | ⟨-, hs⟩
    · exact fun _ => hh
    · exact fun hh => nomatch hs.symm.trans hh
  refine h.next hok (fun t ht => ⟨.inr (hsite t ht), rfl, Function.update_of_ne ht _ _, rfl⟩)
    ⟨fun hsys => ?_, fun hs => ?_⟩ (fun hh => absurd hh hnot)
    (cpuOk_handover h hsite hnot (fun hs => .inl (hin hs)) rfl rfl ?_)
  · have hs : s.site m.current = .suspended := hsys.resolve_left hnot
    exact (h.stack m.current).frame (.inl (hin hs))
  · have hh := hin hs
    dsimp only
    rw [Function.update_self, hlocals hh, h.cpu.elr hh, h.cpu.spsr hh]
  · show m.sites.site s.kernel.currentTask = .suspended →
      m.cpu.spEl0 = (m.atSvc s.kernel.currentTask).spEl0
    rw [hk]
    exact hresumes

/-- **The timer interrupt**, taken outside the handlers. -/
theorem CallersOk.preempt {m : SyscallMachine} (h : CallersOk m) (hhere : m.sites.here ≠ .el0)
    (hhandling : m.sites.here ≠ .handling)
    (hresumes : m.sites.site (schedulerPreempt m.sites.kernel).1.currentTask = .suspended →
      m.cpu.spEl0 = (m.atSvc (schedulerPreempt m.sites.kernel).1.currentTask).spEl0) :
    CallersOk { m with
      cpu := m.cpu.takeException
      sites := { m.sites with kernel := (schedulerPreempt m.sites.kernel).1 } } := by
  have hok : SitesOk { m.sites with kernel := (schedulerPreempt m.sites.kernel).1 } :=
    h.sites.handover (preempt_handsOver h.sites.table) rfl (fun _ _ => rfl) id hhere
  exact h.next hok (fun t _ => ⟨.inr rfl, rfl, rfl, rfl⟩)
    ⟨(h.stack m.current).frame, (h.stack m.current).saved⟩ (fun hh => absurd hh hhandling)
    (cpuOk_handover h (fun _ _ => rfl) hhandling (fun hs => .inr hs) rfl rfl hresumes)

/-- **A call that stays**, in a syscall or outside. -/
theorem CallersOk.afterCall {m : SyscallMachine} (h : CallersOk m) {k : Kernel}
    (hok : SitesOk (m.sites.afterCall k)) (hcur : k.currentTask = m.current) :
    CallersOk { m with sites := m.sites.afterCall k } := by
  have hsite : ∀ t, (m.sites.afterCall k).site t = .outside
      ∨ (m.sites.afterCall k).site t = m.sites.site t := by
    intro t
    dsimp only [SiteState.afterCall]
    split
    · exact .inl rfl
    · exact .inr rfl
  refine h.next hok (fun t _ => ⟨hsite t, rfl, rfl, rfl⟩)
    ((h.stack m.current).congr (hsite m.current) rfl rfl rfl) (fun _ => hcur) ?_
  have hhere : (m.sites.afterCall k).here = (m.sites.afterCall k).site m.current := by
    rw [← hcur]
    rfl
  have hcurrent : ({ m with sites := m.sites.afterCall k } : SyscallMachine).current = m.current :=
    hcur
  rcases hsite m.current with hout | hsame
  · refine ⟨fun hh => ?_, fun hh => ?_, fun hin => ?_⟩
    · exact nomatch (hhere.trans hout).symm.trans hh
    · exact nomatch (hhere.trans hout).symm.trans hh
    · exact absurd ((hhere.trans hout) ▸ hin) (by decide)
  · have hold : (m.sites.afterCall k).here = m.sites.here := hhere.trans hsame
    refine ⟨fun hh => ?_, fun hh => ?_, fun hin => ?_⟩
    · rw [hcurrent]
      exact h.cpu.elr (hold.symm.trans hh)
    · rw [hcurrent]
      exact h.cpu.spsr (hold.symm.trans hh)
    · rw [hcurrent]
      exact h.cpu.spEl0 (hold ▸ hin)

/-- **The `SVC`** puts the program's registers in the frame and in `ELR_EL1` and `SPSR_EL1`. -/
theorem CallersOk.svc {m : SyscallMachine} (h : CallersOk m)
    (hok : SitesOk (m.sites.moveTo m.sites.kernel .handling)) :
    CallersOk { m.registers .svc with sites := m.sites.moveTo m.sites.kernel .handling } := by
  have hself : (m.sites.moveTo m.sites.kernel .handling).site m.current = .handling :=
    Function.update_self _ _ _
  have hsvc : (m.registers .svc).atSvc m.current = m.cpu := Function.update_self _ _ _
  refine h.next hok (fun t ht => ⟨.inr (Function.update_of_ne ht _ _),
    Function.update_of_ne ht _ _, rfl, Function.update_of_ne ht _ _⟩)
    ⟨fun _ => ?_, fun hs => nomatch hself.symm.trans hs⟩ (fun _ => rfl)
    ⟨fun _ => ?_, fun _ => ?_, fun _ => ?_⟩
  · show Function.update m.frames m.current (pushFrame m.cpu.x) m.current
      = pushFrame ((m.registers .svc).atSvc m.current).x
    rw [Function.update_self, hsvc]
  · show m.cpu.pc = ((m.registers .svc).atSvc m.current).pc
    rw [hsvc]
  · show m.cpu.pstate = ((m.registers .svc).atSvc m.current).pstate
    rw [hsvc]
  · show m.cpu.spEl0 = ((m.registers .svc).atSvc m.current).spEl0
    rw [hsvc]

/-- **Back from the scheduler**, the locals go to `ELR_EL1` and `SPSR_EL1`. -/
theorem CallersOk.afterYield {m : SyscallMachine} (h : CallersOk m)
    (hhere : m.sites.here = .suspended)
    (hok : SitesOk (m.sites.moveTo (reinstallRoot m.sites.kernel) .handling)) :
    CallersOk { m.registers .afterYield with
      sites := m.sites.moveTo (reinstallRoot m.sites.kernel) .handling } := by
  have hcur : (reinstallRoot m.sites.kernel).currentTask = m.current := by
    rw [reinstallRoot]
    split <;> rfl
  have hself : (m.sites.moveTo (reinstallRoot m.sites.kernel) .handling).site m.current
      = .handling := Function.update_self _ _ _
  have hcpu : (m.registers .afterYield).cpu = { m.cpu with
      elr := (m.atSvc m.current).pc
      spsr := (m.atSvc m.current).pstate } := by
    show m.cpu.writeReturn (m.saved m.current) = _
    rw [(h.stack m.current).saved hhere]
    rfl
  refine h.next hok (fun t ht => ⟨.inr (Function.update_of_ne ht _ _), rfl, rfl, rfl⟩)
    ⟨fun _ => (h.stack m.current).frame (.inr hhere), fun hs => by cases hself.symm.trans hs⟩
    (fun _ => hcur) ⟨fun _ => ?_, fun _ => ?_, fun _ => ?_⟩
  · show (m.registers .afterYield).cpu.elr = (m.atSvc (reinstallRoot m.sites.kernel).currentTask).pc
    rw [hcpu, hcur]
  · show (m.registers .afterYield).cpu.spsr
      = (m.atSvc (reinstallRoot m.sites.kernel).currentTask).pstate
    rw [hcpu, hcur]
  · show (m.registers .afterYield).cpu.spEl0
      = (m.atSvc (reinstallRoot m.sites.kernel).currentTask).spEl0
    rw [hcpu, hcur]
    exact h.cpu.spEl0 (.inr hhere)

/-- **One step of the kernel**, up to the switch. -/
theorem callersOk_registers {L : Layout} {S : Symbols} {m : SyscallMachine} {s : SiteState}
    {e : SiteEvent} {junk : Regs} (h : CallersOk m) (hC : ResumesUndisturbed m (.step e junk))
    (hstep : siteStep L S m.sites e = some s) :
    CallersOk { m.registers e with sites := s } := by
  have hok := siteStep_ok h.sites hstep
  obtain ⟨hresumes, hirq⟩ := hC
  cases e with
  | call op =>
    obtain ⟨⟨-, hop⟩, hstep⟩ := Option.ite_none_right_eq_some.mp hstep
    obtain ⟨k, hk, rfl⟩ := Option.map_eq_some_iff.mp hstep
    exact h.afterCall hok (onlyTable_keepsTasks h.sites.table hop hk).currentTask
  | openSession =>
    obtain ⟨-, hstep⟩ := Option.ite_none_right_eq_some.mp hstep
    obtain ⟨k, hopen, rfl⟩ := Option.map_eq_some_iff.mp hstep
    obtain ⟨-, -, rfl⟩ := runTaskOpen_spec h.sites.kernelKind hopen
    exact h.moveOut m.cpu hok rfl (by decide)
  | writeRoot =>
    obtain ⟨-, hstep⟩ := Option.ite_none_right_eq_some.mp hstep
    obtain rfl := Option.some.inj hstep
    exact h.moveOut m.cpu hok rfl (by decide)
  | enter =>
    obtain ⟨-, hstep⟩ := Option.ite_none_right_eq_some.mp hstep
    obtain rfl := Option.some.inj hstep
    exact h.moveOut _ hok rfl (by decide)
  | svc =>
    obtain ⟨-, hstep⟩ := Option.ite_none_right_eq_some.mp hstep
    obtain rfl := Option.some.inj hstep
    exact h.svc hok
  | yield =>
    refine h.schedulerHandover (yield_handsOver h.sites.table) hstep _ (fun hhere => ?_) hresumes
    have hspace := (h.sites.sessionHere hhere nofun).activeSpace h.sites.table
    rw [hspace]
    rfl
  | sleep ms intervalMs =>
    exact h.schedulerHandover (sleepMs_handsOver h.sites.table ms intervalMs) hstep _
      (fun _ => rfl) hresumes
  | afterYield =>
    obtain ⟨hhere, hstep⟩ := Option.ite_none_right_eq_some.mp hstep
    obtain rfl := Option.some.inj hstep
    exact h.afterYield hhere hok
  | sysReturn result =>
    obtain ⟨-, hstep⟩ := Option.ite_none_right_eq_some.mp hstep
    obtain rfl := Option.some.inj hstep
    exact h.moveOut _ hok rfl (by decide)
  | exit code =>
    obtain ⟨-, hstep⟩ := Option.ite_none_right_eq_some.mp hstep
    obtain rfl := leaveEl0_spec hstep
    exact h.moveOut _ hok (handleExitSyscall_closes code m.sites.kernel).currentTask (by decide)
  | fault spsr =>
    obtain ⟨-, hstep⟩ := Option.ite_none_right_eq_some.mp hstep
    obtain rfl := leaveEl0_spec hstep
    exact h.moveOut _ hok (handleException_closes spsr m.sites.kernel).currentTask (by decide)
  | complete =>
    obtain ⟨-, hstep⟩ := Option.ite_none_right_eq_some.mp hstep
    obtain rfl := Option.some.inj hstep
    exact h.moveOut m.cpu hok (runUserTaskReturn_currentTask _ _) (by decide)
  | exitTask =>
    obtain ⟨⟨hhere, h0⟩, hstep⟩ := Option.ite_none_right_eq_some.mp hstep
    have hnext := h.schedulerHandover (exitTask_handsOver h.sites.table h0) hstep
      (m.saved m.current) (fun hh => nomatch hhere.symm.trans hh) hresumes
    rw [Function.update_eq_self] at hnext
    exact hnext
  | preempt =>
    obtain ⟨hhere, hstep⟩ := Option.ite_none_right_eq_some.mp hstep
    obtain rfl := Option.some.inj hstep
    exact h.preempt hhere (hirq rfl) hresumes

/-- **A syscall returns** to the state of its `SVC`. -/
theorem sysReturn_exact {m : SyscallMachine} (h : CallersOk m) (hhere : m.sites.here = .handling)
    (result : Word) :
    SameProgramState (m.atSvc m.current) result (m.registers (.sysReturn result)).cpu where
  x_eq := by
    show popFrame (setFrameX0 (m.frames m.current) result) = _
    rw [popFrame_setFrameX0, (h.stack m.current).frame (.inl hhere), popFrame_pushFrame]
  pc_eq := h.cpu.elr hhere
  pstate_eq := h.cpu.spsr hhere
  spEl0_eq := h.cpu.spEl0 (.inl hhere)

/-- **One step.** -/
theorem syscallStep_spec {L : Layout} {S : Symbols} {m m' : SyscallMachine} {e : SyscallEvent}
    (h : CallersOk m) (hC : ResumesUndisturbed m e) (hstep : syscallStep L S m e = some m') :
    CallersOk m' ∧ ReturnsExactly m e m' := by
  cases e with
  | kernelCode c =>
    rw [syscallStep] at hstep
    split at hstep
    · exact nomatch hstep
    · split at hstep
      · obtain rfl := Option.some.inj hstep
        exact ⟨⟨h.sites, fun t => ⟨(h.stack t).frame, (h.stack t).saved⟩, h.away,
          ⟨h.cpu.elr, h.cpu.spsr, h.cpu.spEl0⟩⟩, nofun⟩
      · rename_i hout
        obtain rfl := Option.some.inj hstep
        exact ⟨⟨h.sites, fun t => ⟨(h.stack t).frame, (h.stack t).saved⟩, h.away,
          ⟨fun hh => absurd (.inl hh) hout, fun hh => absurd (.inl hh) hout,
            fun hin => absurd hin hout⟩⟩, nofun⟩
  | el0Code x spEl0 pc pstate =>
    obtain ⟨⟨hhere, -⟩, hstep⟩ := Option.ite_none_right_eq_some.mp hstep
    obtain rfl := Option.some.inj hstep
    have hout : ¬ m.sites.here.inSyscall := by
      rw [hhere]
      decide
    exact ⟨⟨h.sites, fun t => ⟨(h.stack t).frame, (h.stack t).saved⟩, h.away,
      ⟨fun hh => absurd (.inl hh) hout, fun hh => absurd (.inl hh) hout,
        fun hin => absurd hin hout⟩⟩, nofun⟩
  | step e junk =>
    obtain ⟨s, hs, rfl⟩ := Option.map_eq_some_iff.mp hstep
    refine ⟨(callersOk_registers h hC hs).cpuSwitchTo junk _, ?_⟩
    rintro result junk' heq
    obtain ⟨rfl, rfl⟩ := SyscallEvent.step.inj heq
    obtain ⟨hhere, -⟩ := Option.ite_none_right_eq_some.mp hs
    exact sysReturn_exact h hhere result

theorem callersOk_boot (S : Symbols) (root : Word) (st : SpaceStatics) (c : Cpu) :
    CallersOk (bootSyscalls S root st c) := by
  have hout : ¬ Site.outside.inSyscall := by decide
  exact ⟨sitesOk_boot S root st, fun _ => ⟨fun hin => absurd hin hout, nofun⟩, fun _ _ => nofun,
    ⟨nofun, nofun, fun hin => absurd hin hout⟩⟩

/-! ## Every run -/

/-- **Blocking syscalls return to the state of their `SVC`** in every run that resumes each
suspended one with its own `SP_EL0` and takes no interrupt in a handler. -/
theorem syscall_returns_exactly (L : Layout) (S : Symbols) (root : Word) (st : SpaceStatics)
    (c : Cpu)
    (events : List SyscallEvent)
    (hresumes : Along (syscallStep L S) (fun m e _ => ResumesUndisturbed m e)
      (bootSyscalls S root st c) events) :
    Along (syscallStep L S) ReturnsExactly (bootSyscalls S root st c) events :=
  Along.imp_of_inv (T := syscallStep L S) (C := fun m e _ => ResumesUndisturbed m e)
    (D := ReturnsExactly) (I := CallersOk)
    (fun _ _ _ hI hstep hC => syscallStep_spec hI hC hstep) (callersOk_boot S root st c) hresumes

/-- From the session to EL0. -/
def entry : List SiteEvent := [.openSession, .writeRoot, .enter]

def kernelSteps (es : List SiteEvent) : List SyscallEvent := es.map fun e => .step e fun _ => 0

/-- The first task yields to the second, which enters EL0 and yields back: both stacks start at the
same address, and neither was used. -/
theorem syscall_returns_two_tasks :
    Along (syscallStep bssLayout imageSymbols) ReturnsExactly
      (bootSyscalls imageSymbols (bssLayout.table .vmL1) {} {})
      (kernelSteps (twoTasks ++ entry ++ [.svc, .yield] ++ entry
        ++ [.svc, .yield, .afterYield, .sysReturn 0])) :=
  syscall_returns_exactly bssLayout imageSymbols _ _ _ _ (by decide +kernel)

/-- **A program that has used its stack comes back with the other's stack pointer.** -/
theorem yielded_program_other_stack :
    ¬ ∀ events, Along (syscallStep bssLayout imageSymbols) ReturnsExactly
      (bootSyscalls imageSymbols (bssLayout.table .vmL1) {} {}) events := by
  intro hall
  refine not_along_of_run (kernelSteps (twoTasks ++ entry)
      ++ .el0Code (fun _ => 0) 0x3ffffff0 0x100004 0
        :: kernelSteps ([.svc, .yield] ++ entry ++ [.svc, .yield, .afterYield]))
    (.step (.sysReturn 0) fun _ => 0)
    (fun m m' => decide (m'.cpu.spEl0 ≠ (m.atSvc m.current).spEl0)) (by decide +kernel)
    (fun m m' hbad hC => ?_) (hall _)
  exact of_decide_eq_true hbad (hC 0 _ rfl).spEl0_eq

end SaturnOS
