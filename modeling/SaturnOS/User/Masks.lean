import SaturnOS.User.Entry
import SaturnOS.User.Suspension

/-!
# User/Masks — the interrupt mask a call of the scheduler returns with

    thread ──sleep──▸ idle ──tick, masked──▸ thread, masked

The mask is a bit of `PSTATE`: an exception sets it, an `eret` takes it from `SPSR_EL1`,
`irq_enable` clears it, and `cpu_switch_to` does not touch it.  `thread_trampoline` clears it for a
thread that starts; a thread that waits in a call of its own goes on with the mask of whoever
switches to it.  `call_keeps_mask_iff` says when that is the mask it called with.
-/

open Machinery

namespace SaturnOS

/-! ## The machine -/

/-- Where the `ret` of `cpu_switch_to` takes a task. -/
inductive ParkedAt
  /-- To `thread_trampoline`. -/
  | start
  /-- Back to its call of the scheduler, made with interrupts enabled or not. -/
  | call (enabled : Bool)
  /-- Back to the interrupt that stopped it. -/
  | interrupt
  deriving DecidableEq

/-- A task waits in a call of its own. -/
def ParkedAt.isCall : ParkedAt → Bool
  | .call _ => true
  | .start | .interrupt => false

structure MaskMachine extends SyscallMachine where
  parked : ℕ → ParkedAt := fun _ => .start

namespace MaskMachine

variable (m : MaskMachine)

/-- A call that stays sends to `thread_trampoline` the user task it admits, and whatever is put in a
slot it frees. -/
def parkedAfter (k : Kernel) : SiteEvent → ℕ → ParkedAt
  | .call op => fun p =>
    if (k.tasks p).state = .unused ∨ op = .unblockUserTask p
        ∧ (m.sites.kernel.tasks p).state = .blocked ∧ (k.tasks p).state = .ready then .start
    else m.parked p
  | .openSession | .writeRoot | .enter | .svc | .yield | .sleep _ _ | .afterYield | .sysReturn _
  | .exit _ | .fault _ | .complete | .exitTask | .preempt => m.parked

/-- The running task goes on from where it was parked. -/
def resume : MaskMachine :=
  match m.parked m.current with
  | .start => { m with cpu := m.cpu.irqEnable }
  | .call _ => m
  | .interrupt => { m with cpu := m.cpu.eret }

/-- The end of a step: the switch, if there is one, or the return of the interrupt. -/
def switchTo (e : SiteEvent) (junk : Regs) : Switch → MaskMachine
  | .to prev next =>
    { m with
      toSyscallMachine := m.toSyscallMachine.cpuSwitchTo junk (.to prev next)
      parked := Function.update m.parked prev
        (if e = .preempt then .interrupt else .call m.cpu.irqEnabled) : MaskMachine }.resume
  | .stay => if e = .preempt then { m with cpu := m.cpu.eret } else m
  | .stuck => m

end MaskMachine

/-- Code of the kernel leaves the mask and `SPSR_EL1` to the steps.  An interrupt is taken only
where the mask is clear. -/
def maskStep (L : Layout) (S : Symbols) (m : MaskMachine) : SyscallEvent → Option MaskMachine
  | .kernelCode c =>
    if c.pstate.setWidth 28 = m.cpu.pstate.setWidth 28 ∧ c.spsr = m.cpu.spsr then
      (syscallStep L S m.toSyscallMachine (.kernelCode c)).map fun n =>
        { m with toSyscallMachine := n }
    else none
  | .el0Code x spEl0 pc pstate =>
    (syscallStep L S m.toSyscallMachine (.el0Code x spEl0 pc pstate)).map fun n =>
      { m with toSyscallMachine := n }
  | .step e junk =>
    if e = .preempt ∧ m.cpu.irqEnabled = false then none
    else
      (siteStep L S m.sites e).map fun s =>
        { m with
          toSyscallMachine := { m.registers e with sites := s }
          parked := m.parkedAfter s.kernel e : MaskMachine }.switchTo e junk
            (e.switch m.sites.kernel)

/-- From the `irq_enable` of `kernel_main` on. -/
def bootMasks (S : Symbols) (root : Word) (st : SpaceStatics) (c : Cpu) : MaskMachine :=
  { bootSyscalls S root st c.irqEnable with }

/-! ## What a call promises -/

/-- The calls of `scheduler_yield` and `scheduler_sleep_ms`. -/
def SyscallEvent.callsScheduler : SyscallEvent → Bool
  | .step .yield _ | .step (.sleep _ _) _ => true
  | .step _ _ | .kernelCode _ | .el0Code _ _ _ _ => false

/-- A kernel thread that calls the scheduler with interrupts enabled has them enabled when the call
returns. -/
structure CallKeepsMask (m : MaskMachine) (e : SyscallEvent) (m' : MaskMachine) : Prop where
  stays : e.callsScheduler = true → m'.current = m.current → m.sites.here = .outside →
    m.cpu.irqEnabled = true → m'.cpu.irqEnabled = true
  returns : m'.current ≠ m.current → m'.sites.here = .outside →
    m.parked m'.current = .call true → m'.cpu.irqEnabled = true

/-- A kernel thread that waits in a call of its own is switched to by a call, not by the timer
interrupt; and from a syscall only if that runs with interrupts enabled. -/
def ResumedUnmasked (m : MaskMachine) : SyscallEvent → Prop
  | .step e _ =>
    e.target m.sites.kernel ≠ m.current → m.sites.site (e.target m.sites.kernel) = .outside →
      (m.parked (e.target m.sites.kernel)).isCall = true →
      e ≠ .preempt ∧ (m.sites.here = .handling → m.cpu.irqEnabled = true)
  | .kernelCode _ | .el0Code _ _ _ _ => True

/-! ## The bit -/

/-- The mask bit of a processor state is clear. -/
def irqUnmasked (pstate : Word) : Bool := pstate &&& arm64SpsrDaifIrq == 0

theorem irqUnmasked_iff {pstate : Word} :
    irqUnmasked pstate = true ↔ pstate.getLsbD 7 = false := by
  rw [irqUnmasked, beq_iff_eq]
  constructor
  · intro h
    have hbit := congrArg (fun w : Word => w.getLsbD 7) h
    simpa [arm64SpsrDaifIrq] using hbit
  · intro h
    refine BitVec.eq_of_getLsbD_eq fun i _ => ?_
    by_cases hi : i = 7
    · rw [hi, BitVec.getLsbD_and, h, Bool.false_and]
      rfl
    · have hmask : arm64SpsrDaifIrq.getLsbD i = false := by
        show (BitVec.twoPow 64 7).getLsbD i = false
        rw [BitVec.getLsbD_twoPow]
        simp [Ne.symm hi]
      simp [hmask]

/-- It is below the flags. -/
theorem irqUnmasked_flags {p p' : Word} (h : p'.setWidth 28 = p.setWidth 28) :
    irqUnmasked p' = irqUnmasked p := by
  have hbit := congrArg (fun w : BitVec 28 => w.getLsbD 7) h
  simp only [BitVec.getLsbD_setWidth] at hbit
  rw [Bool.eq_iff_iff, irqUnmasked_iff, irqUnmasked_iff]
  simpa using hbit

theorem irqUnmasked_el0t : irqUnmasked arm64SpsrEl0t = true := by decide

theorem irqUnmasked_el1h : irqUnmasked arm64SpsrEl1h = true := by decide

theorem eret_irqEnabled (c : Cpu) : c.eret.irqEnabled = irqUnmasked c.spsr := rfl

/-- **An exception saves the mask and sets it.** -/
theorem takeException_irqEnabled (c : Cpu) :
    irqUnmasked c.takeException.spsr = c.irqEnabled ∧ c.takeException.irqEnabled = false := by
  refine ⟨rfl, ?_⟩
  show irqUnmasked handlerPstate = false
  decide

theorem irqEnable_irqEnabled (c : Cpu) : c.irqEnable.irqEnabled = true := by
  refine irqUnmasked_iff.mpr ?_
  rw [Cpu.irqEnable, BitVec.getLsbD_and]
  simp [arm64SpsrDaifIrq]

/-! ## The invariant -/

/-- A task that will go on through `SPSR_EL1`. -/
def MaskMachine.Pending (m : MaskMachine) (t : ℕ) : Prop :=
  m.parked t = .interrupt ∨ (m.sites.site t).inSyscall

/-- A site between `user_mode_prepare` and the `eret` into EL0. -/
def Site.entering (site : Site) : Prop := site = .opened ∨ site = .wroteRoot

instance : DecidablePred Site.entering := fun _ => inferInstanceAs (Decidable (_ ∨ _))

structure MasksOk (m : MaskMachine) : Prop where
  sites : SitesOk m.sites
  el0 : ∀ t, (m.sites.site t).entering → (m.sites.kernel.tasks t).el0.spsr = arm64SpsrEl0t
  spsr : ∀ t, m.Pending t → irqUnmasked m.cpu.spsr = true
  saved : ∀ t wr, m.sites.site t = .suspended → m.saved t = some wr → irqUnmasked wr.2 = true
  thread : ¬ m.sites.here.inSyscall → m.cpu.irqEnabled = true
  calls : ∀ t b, t ≠ m.current → ¬ (m.sites.site t).inSyscall → m.parked t = .call b →
    m.sites.site t = .outside ∧ b = true

theorem Site.inSyscall_outside : ¬ Site.outside.inSyscall := by decide

/-- **The running task moves to another site.** -/
theorem MasksOk.moveTo {m m' : MaskMachine} (h : MasksOk m) {k : Kernel} {site : Site}
    (hsites : m'.sites = m.sites.moveTo k site) (hok : SitesOk m'.sites)
    (hcur : k.currentTask = m.current) (hparked : m'.parked = m.parked)
    (hsaved : m'.saved = m.saved)
    (hel0 : ∀ t, t ≠ m.current → (k.tasks t).el0 = (m.sites.kernel.tasks t).el0)
    (hself : site.entering → (k.tasks m.current).el0.spsr = arm64SpsrEl0t)
    (hsusp : site ≠ .suspended)
    (hspsr : irqUnmasked m'.cpu.spsr = true
      ∨ m'.cpu.spsr = m.cpu.spsr ∧ (site.inSyscall → m.sites.here.inSyscall))
    (hthread : ¬ site.inSyscall → m'.cpu.irqEnabled = true) : MasksOk m' := by
  have hhere : m'.sites.site m.current = site := by
    rw [hsites]
    exact Function.update_self _ _ _
  have hothers : ∀ t, t ≠ m.current → m'.sites.site t = m.sites.site t := by
    intro t ht
    rw [hsites]
    exact Function.update_of_ne ht _ _
  have hkernel : m'.sites.kernel = k := by rw [hsites]; rfl
  have hcurrent : m'.current = m.current := by
    rw [SyscallMachine.current, hkernel, hcur]
  refine ⟨hok, fun t ht => ?_, fun t ht => ?_, fun t wr ht hwr => ?_, fun hn => ?_,
    fun t b ht hn hb => ?_⟩
  · rw [hkernel]
    by_cases htc : t = m.current
    · rw [htc] at ht ⊢
      exact hself (hhere ▸ ht)
    · rw [hel0 t htc]
      exact h.el0 t (hothers t htc ▸ ht)
  · rcases hspsr with hclear | ⟨hsame, hin⟩
    · exact hclear
    · rw [hsame]
      refine h.spsr t (ht.imp (fun hp => by rwa [hparked] at hp) fun hs => ?_)
      by_cases htc : t = m.current
      · rw [htc] at hs ⊢
        exact hin (hhere ▸ hs)
      · exact hothers t htc ▸ hs
  · have htc : t ≠ m.current := by
      rintro rfl
      exact hsusp (hhere.symm.trans ht)
    exact h.saved t wr (hothers t htc ▸ ht) (by rwa [hsaved] at hwr)
  · have hsite : m'.sites.here = site := by
      rw [hsites]
      exact moveTo_here m.sites site hcur
    exact hthread (hsite ▸ hn)
  · rw [hcurrent] at ht
    rw [hothers t ht] at hn ⊢
    exact h.calls t b ht hn (by rwa [hparked] at hb)

/-- **A call that stays.** -/
theorem MasksOk.afterCall {m m' : MaskMachine} (h : MasksOk m) {k : Kernel} {op : KernelOp}
    (hsites : m'.sites = m.sites.afterCall k) (hok : SitesOk m'.sites)
    (hcur : k.currentTask = m.current) (hparked : m'.parked = m.parkedAfter k (.call op))
    (hsaved : m'.saved = m.saved) (hcpu : m'.cpu = m.cpu) (hel0 : KeepsEl0 m.sites.kernel k) :
    MasksOk m' := by
  have hkernel : m'.sites.kernel = k := by rw [hsites]; rfl
  have hcurrent : m'.current = m.current := by rw [SyscallMachine.current, hkernel, hcur]
  have hsite : ∀ t, Used k t → m'.sites.site t = m.sites.site t := by
    intro t ht
    rw [hsites]
    exact if_neg ht
  have hused : ∀ t, m'.sites.site t ≠ .outside → Used k t := by
    intro t ht
    rw [← hkernel]
    exact (hok.session t ht).used
  have hcalls : ∀ t pt, m'.parked t = pt → pt ≠ .start → Used k t ∧ m.parked t = pt := by
    intro t pt hpt hne
    rw [hparked] at hpt
    dsimp only [MaskMachine.parkedAfter] at hpt
    split at hpt
    · exact absurd hpt.symm hne
    · rename_i hif
      exact ⟨fun hu => hif (.inl hu), hpt⟩
  have hin : ∀ t, (m'.sites.site t).inSyscall → (m.sites.site t).inSyscall := by
    intro t ht
    have hne : m'.sites.site t ≠ .outside := fun hout => Site.inSyscall_outside (hout ▸ ht)
    rwa [← hsite t (hused t hne)]
  refine ⟨hok, fun t ht => ?_, fun t ht => ?_, fun t wr ht hwr => ?_, fun hn => ?_,
    fun t b ht hn hb => ?_⟩
  · have hne : m'.sites.site t ≠ .outside := by
      rcases ht with ht | ht <;> rw [ht] <;> exact nofun
    have hk := hused t hne
    rw [hsite t hk] at ht hne
    rw [hkernel, hel0 t (h.sites.session t hne).used hk]
    exact h.el0 t ht
  · rw [hcpu]
    exact h.spsr t (ht.imp (fun hp => (hcalls t .interrupt hp nofun).2) (hin t))
  · have hne : m'.sites.site t ≠ .outside := by rw [ht]; exact nofun
    rw [hsite t (hused t hne)] at ht
    exact h.saved t wr ht (by rwa [hsaved] at hwr)
  · rw [hcpu]
    refine h.thread fun hs => hn ?_
    have hcurUsed : Used k m.current := by
      rw [← hcurrent, ← hkernel]
      exact hok.table.current_used
    show (m'.sites.site m'.current).inSyscall
    rw [hcurrent, hsite _ hcurUsed]
    exact hs
  · obtain ⟨hu, hp⟩ := hcalls t _ hb nofun
    rw [hcurrent] at ht
    rw [hsite t hu] at hn ⊢
    exact h.calls t b ht hn hp

/-! ## Switches -/

namespace MaskMachine

variable {m : MaskMachine}

theorem resume_frame (m : MaskMachine) :
    m.resume.sites = m.sites ∧ m.resume.saved = m.saved ∧ m.resume.parked = m.parked
      ∧ m.resume.cpu.spsr = m.cpu.spsr := by
  rw [resume]
  split <;> exact ⟨rfl, rfl, rfl, rfl⟩

/-- **The mask a task goes on with**: its own in a call only if `m` has it. -/
theorem resume_call {b : Bool} (h : m.parked m.current = .call b) :
    m.resume.cpu.irqEnabled = m.cpu.irqEnabled := by
  rw [resume, h]

theorem resume_unmasked (h : ∀ b, m.parked m.current ≠ .call b)
    (hspsr : m.parked m.current = .interrupt → irqUnmasked m.cpu.spsr = true) :
    m.resume.cpu.irqEnabled = true := by
  rw [resume]
  split
  · exact irqEnable_irqEnabled m.cpu
  · rename_i b hb
    exact absurd hb (h b)
  · rename_i hp
    exact (eret_irqEnabled m.cpu).trans (hspsr hp)

end MaskMachine

/-- `n` is `m` where the step `e`, a call of the scheduler or the timer interrupt with the outcome
`r`, is about to switch. -/
structure AtSwitch (m : MaskMachine) (e : SiteEvent) (r : Kernel × Switch) (n : MaskMachine) :
    Prop where
  hands : HandsOver m.sites.kernel r
  not_stuck : r.2 ≠ .stuck
  el0 : ∀ t, (r.1.tasks t).el0 = (m.sites.kernel.tasks t).el0
  sites : SitesOk n.sites
  kernel : n.sites.kernel = r.1
  parked : n.parked = m.parked
  others : ∀ t, t ≠ m.current → n.sites.site t = m.sites.site t ∧ n.saved t = m.saved t
  self : e = .preempt ∧ m.cpu.irqEnabled = true ∧ n.cpu = m.cpu.takeException
      ∧ n.sites.site m.current = m.sites.here ∧ n.saved m.current = m.saved m.current
    ∨ e ≠ .preempt ∧ n.cpu = m.cpu
      ∧ (m.sites.here = .handling ∧ n.sites.site m.current = .suspended
          ∧ (∀ wr, n.saved m.current = some wr → wr.2 = m.cpu.spsr)
        ∨ m.sites.here = .outside ∧ n.sites.site m.current = .outside)

/-- The machine after the loads of `cpu_switch_to`, before the task switched to goes on. -/
structure Loaded (m : MaskMachine) (e : SiteEvent) (n x : MaskMachine) : Prop where
  sites : SitesOk x.sites
  site : x.sites.site = n.sites.site
  el0 : ∀ t, (x.sites.kernel.tasks t).el0 = (n.sites.kernel.tasks t).el0
  saved : x.saved = n.saved
  spsr : x.cpu.spsr = n.cpu.spsr
  irqEnabled : x.cpu.irqEnabled = n.cpu.irqEnabled
  current_ne : x.current ≠ m.current
  parked : x.parked = Function.update n.parked m.current
    (if e = .preempt then .interrupt else .call n.cpu.irqEnabled)

namespace AtSwitch

variable {m n : MaskMachine} {e : SiteEvent} {r : Kernel × Switch}

/-- What a step up to the switch keeps of the invariant. -/
theorem keeps (h : MasksOk m) (ha : AtSwitch m e r n) :
    (∀ t, (n.sites.site t).entering → (n.sites.kernel.tasks t).el0.spsr = arm64SpsrEl0t)
      ∧ (∀ t, n.Pending t → irqUnmasked n.cpu.spsr = true)
      ∧ (∀ t wr, n.sites.site t = .suspended → n.saved t = some wr → irqUnmasked wr.2 = true)
      ∧ (e = .preempt → irqUnmasked n.cpu.spsr = true) := by
  have hpre : e = .preempt → irqUnmasked n.cpu.spsr = true := by
    intro he
    rcases ha.self with ⟨-, hirq, hcpu, -⟩ | ⟨hne, -⟩
    · rw [hcpu]
      exact (takeException_irqEnabled m.cpu).1.trans hirq
    · exact absurd he hne
  refine ⟨fun t ht => ?_, fun t ht => ?_, fun t wr ht hwr => ?_, hpre⟩
  · rw [ha.kernel, ha.el0]
    refine h.el0 t ?_
    by_cases htc : t = m.current
    · subst htc
      rcases ha.self with ⟨-, -, -, hsite, -⟩ | ⟨-, -, ⟨-, hsite, -⟩ | ⟨-, hsite⟩⟩
      · rwa [hsite] at ht
      · rw [hsite] at ht
        rcases ht with ht | ht <;> exact nomatch ht
      · rw [hsite] at ht
        rcases ht with ht | ht <;> exact nomatch ht
    · rwa [(ha.others t htc).1] at ht
  · rcases ha.self with ⟨he, -⟩ | ⟨-, hcpu, hself⟩
    · exact hpre he
    · rw [hcpu]
      refine h.spsr t (ht.imp (fun hp => by rwa [ha.parked] at hp) fun hs => ?_)
      by_cases htc : t = m.current
      · subst htc
        rcases hself with ⟨hhere, -⟩ | ⟨-, hsite⟩
        · exact .inl hhere
        · exact absurd (hsite ▸ hs) Site.inSyscall_outside
      · rwa [(ha.others t htc).1] at hs
  · by_cases htc : t = m.current
    · subst htc
      rcases ha.self with ⟨-, -, -, hsite, hsaved⟩ | ⟨-, -, ⟨hhere, -, hsaved⟩ | ⟨-, hsite⟩⟩
      · exact h.saved _ wr (hsite.symm.trans ht) (hsaved.symm.trans hwr)
      · rw [hsaved wr hwr]
        exact h.spsr m.current (.inr (.inl hhere))
      · exact nomatch hsite.symm.trans ht
    · obtain ⟨hsite, hsaved⟩ := ha.others t htc
      exact h.saved t wr (hsite.symm.trans ht) (hsaved.symm.trans hwr)

/-- **Past the switch**, once the mask of the running task and the calls that wait are right. -/
theorem masksOk {n' : MaskMachine} (h : MasksOk m) (ha : AtSwitch m e r n) (hok : SitesOk n'.sites)
    (hsite : n'.sites.site = n.sites.site)
    (hel0 : ∀ t, (n'.sites.kernel.tasks t).el0 = (n.sites.kernel.tasks t).el0)
    (hsaved : n'.saved = n.saved) (hspsr : n'.cpu.spsr = n.cpu.spsr)
    (hparked : ∀ t, n'.parked t = .interrupt → e = .preempt ∨ n.parked t = .interrupt)
    (hthread : ¬ n'.sites.here.inSyscall → n'.cpu.irqEnabled = true)
    (hcalls : ∀ t b, t ≠ n'.current → ¬ (n'.sites.site t).inSyscall → n'.parked t = .call b →
      n'.sites.site t = .outside ∧ b = true) : MasksOk n' := by
  obtain ⟨hentry, hpending, hlocals, hpre⟩ := ha.keeps h
  refine ⟨hok, fun t ht => ?_, fun t ht => ?_, fun t wr ht hwr => ?_, hthread, hcalls⟩
  · rw [hel0]
    exact hentry t (by rwa [hsite] at ht)
  · rw [hspsr]
    rcases ht with hp | hs
    · exact (hparked t hp).elim hpre fun hp => hpending t (.inl hp)
    · exact hpending t (.inr (by rwa [hsite] at hs))
  · exact hlocals t wr (by rwa [hsite] at ht) (by rwa [hsaved] at hwr)

/-- The waiting calls of the tasks that do not run. -/
theorem calls (h : MasksOk m) (ha : AtSwitch m e r n) {t : ℕ} {b : Bool} (ht : t ≠ m.current)
    (hn : ¬ (n.sites.site t).inSyscall) (hb : n.parked t = .call b) :
    n.sites.site t = .outside ∧ b = true := by
  rw [(ha.others t ht).1] at hn ⊢
  exact h.calls t b ht hn (by rwa [ha.parked] at hb)

/-- **No switch**: the interrupt returns, and a call with the mask it had. -/
theorem stay (h : MasksOk m) (ha : AtSwitch m e r n) (junk : Regs) (hsw : r.2 = .stay) :
    CallKeepsMask m (.step e junk) (n.switchTo e junk .stay)
      ∧ MasksOk (n.switchTo e junk .stay) := by
  have hcur : n.current = m.current := by
    have hswitch := ha.hands.switch
    rw [SwitchOk, hsw] at hswitch
    rw [SyscallMachine.current, ha.kernel]
    exact hswitch
  have hwaiting : ∀ t b, t ≠ n.current → ¬ (n.sites.site t).inSyscall → n.parked t = .call b →
      n.sites.site t = .outside ∧ b = true := fun t b ht hn hb => ha.calls h (hcur ▸ ht) hn hb
  by_cases he : e = .preempt
  · have hstay : n.switchTo e junk .stay = { n with cpu := n.cpu.eret } := if_pos he
    rw [hstay]
    refine ⟨⟨fun hcall => ?_, fun hne => absurd hcur hne⟩,
      ha.masksOk h ha.sites rfl (fun _ => rfl) rfl rfl (fun _ => .inr) (fun _ => ?_) hwaiting⟩
    · subst he
      exact nomatch hcall
    · exact (eret_irqEnabled n.cpu).trans ((ha.keeps h).2.2.2 he)
  · have hstay : n.switchTo e junk .stay = n := if_neg he
    obtain ⟨hp, -⟩ | ⟨-, hcpu, hself⟩ := ha.self
    · exact absurd hp he
    rw [hstay]
    refine ⟨⟨fun _ _ _ hirq => hcpu ▸ hirq, fun hne => absurd hcur hne⟩,
      ha.masksOk h ha.sites rfl (fun _ => rfl) rfl rfl (fun _ => .inr) (fun hn => ?_) hwaiting⟩
    rw [hcpu]
    refine h.thread fun hs => hn ?_
    rcases hself with ⟨-, hsite, -⟩ | ⟨hhere, -⟩
    · show (n.sites.site n.current).inSyscall
      rw [hcur, hsite]
      exact .inr rfl
    · exact absurd (hhere ▸ hs) Site.inSyscall_outside

/-- **The loads.** -/
theorem loaded (ha : AtSwitch m e r n) (junk : Regs) {prev next : ℕ} (hsw : r.2 = .to prev next) :
    ∃ x, n.switchTo e junk (.to prev next) = x.resume ∧ Loaded m e n x
      ∧ x.current = r.1.currentTask := by
  have hswitch := ha.hands.switch
  rw [SwitchOk, hsw] at hswitch
  obtain ⟨rfl, rfl, hne⟩ := hswitch
  have hcur : (n.toSyscallMachine.cpuSwitchTo junk
      (.to m.sites.kernel.currentTask r.1.currentTask)).current = r.1.currentTask := by
    show n.sites.kernel.currentTask = r.1.currentTask
    rw [ha.kernel]
  refine ⟨_, rfl, ⟨ha.sites.cpuSwitchTo junk _, rfl, fun t => ?_, rfl, rfl, rfl, ?_, rfl⟩, hcur⟩
  · show ((n.sites.kernel.modTask m.sites.kernel.currentTask fun t =>
      { t with context := saveContext n.cpu (n.cpu.x 30) }).tasks t).el0 = _
    refine modTask_el0 _ _ (fun _ => ?_) t
    rfl
  · exact fun heq => hne (hcur.symm.trans heq)

end AtSwitch

namespace Loaded

variable {m n : MaskMachine} {e : SiteEvent} {r : Kernel × Switch}

variable {x : MaskMachine} (hx : Loaded m e n x)

include hx

/-- The task switched to is at the site, and in the call, that it was left in. -/
theorem arrives (ha : AtSwitch m e r n) : x.resume.current = x.current
    ∧ x.resume.sites.here = m.sites.site x.current ∧ x.parked x.current = m.parked x.current := by
  obtain ⟨hsites, -⟩ := x.resume_frame
  refine ⟨by rw [SyscallMachine.current, hsites, SyscallMachine.current], ?_, ?_⟩
  · rw [hsites]
    show x.sites.site x.current = _
    rw [hx.site]
    exact (ha.others _ hx.current_ne).1
  · rw [hx.parked, Function.update_of_ne hx.current_ne, ha.parked]

/-- **The mask a call goes on with** is that of the caller of the switch. -/
theorem resumes_with (ha : AtSwitch m e r n) {b : Bool} (hb : m.parked x.current = .call b) :
    x.resume.cpu.irqEnabled = n.cpu.irqEnabled := by
  obtain ⟨-, -, hat⟩ := hx.arrives ha
  exact (MaskMachine.resume_call (hat.trans hb)).trans hx.irqEnabled

variable (h : MasksOk m) (ha : AtSwitch m e r n)

include h ha

/-- A call that has its mask back was switched to with interrupts enabled… -/
theorem unmasked_of_keeps (htarget : x.current = e.target m.sites.kernel) {junk : Regs}
    (hD : CallKeepsMask m (.step e junk) x.resume) : ResumedUnmasked m (.step e junk) := by
  obtain ⟨hcurrent, hsite, -⟩ := hx.arrives ha
  rw [ResumedUnmasked, ← htarget]
  intro hne hout hcall
  obtain ⟨b, hb⟩ : ∃ b, m.parked x.current = .call b := by
    cases hp : m.parked x.current with
    | start => rw [hp] at hcall; exact nomatch hcall
    | call b => exact ⟨b, rfl⟩
    | interrupt => rw [hp] at hcall; exact nomatch hcall
  obtain ⟨-, rfl⟩ := h.calls x.current b hne (hout ▸ Site.inSyscall_outside) hb
  have hirq : n.cpu.irqEnabled = true := by
    rw [← hx.resumes_with ha hb]
    refine hD.returns ?_ (hsite.trans hout) ?_
    · rwa [hcurrent]
    · rwa [hcurrent]
  rcases ha.self with ⟨-, -, hcpu, -⟩ | ⟨he, hcpu, -⟩
  · rw [hcpu, (takeException_irqEnabled m.cpu).2] at hirq
    exact nomatch hirq
  · exact ⟨he, fun _ => hcpu ▸ hirq⟩

/-- …and one that was has it back. -/
theorem keeps_of_unmasked (htarget : x.current = e.target m.sites.kernel) {junk : Regs}
    (hC : ResumedUnmasked m (.step e junk)) : CallKeepsMask m (.step e junk) x.resume := by
  obtain ⟨hcurrent, hsite, -⟩ := hx.arrives ha
  refine ⟨fun _ hsame => absurd (hcurrent.symm.trans hsame) hx.current_ne, fun _ hout hb => ?_⟩
  rw [hcurrent] at hb
  rw [hsite] at hout
  rw [ResumedUnmasked, ← htarget] at hC
  obtain ⟨he, hhandling⟩ := hC hx.current_ne hout (by rw [hb]; rfl)
  rw [hx.resumes_with ha hb]
  rcases ha.self with ⟨hp, -⟩ | ⟨-, hcpu, ⟨hhere, -⟩ | ⟨hhere, -⟩⟩
  · exact absurd hp he
  · rw [hcpu]
    exact hhandling hhere
  · rw [hcpu]
    exact h.thread (hhere ▸ Site.inSyscall_outside)

/-- A thread that is not in a syscall goes on unmasked, if its call has its mask back. -/
theorem resumes_unmasked {junk : Regs} (hD : CallKeepsMask m (.step e junk) x.resume)
    (hn : ¬ x.resume.sites.here.inSyscall) : x.resume.cpu.irqEnabled = true := by
  obtain ⟨hcurrent, hsite, hat⟩ := hx.arrives ha
  rw [hsite] at hn
  by_cases hcall : ∃ b, m.parked x.current = .call b
  · obtain ⟨b, hb⟩ := hcall
    obtain ⟨hout, rfl⟩ := h.calls x.current b hx.current_ne hn hb
    refine hD.returns ?_ (hsite.trans hout) ?_
    · rw [hcurrent]
      exact hx.current_ne
    · rwa [hcurrent]
  · refine MaskMachine.resume_unmasked (fun b hb => hcall ⟨b, hat.symm.trans hb⟩) fun hp => ?_
    rw [hx.spsr]
    exact (ha.keeps h).2.1 x.current (.inl (by rw [ha.parked]; exact hat.symm.trans hp))

/-- The calls that wait: of the task that is left, and of those that did not run. -/
theorem waiting {t : ℕ} {b : Bool} (hn : ¬ (n.sites.site t).inSyscall) (hb : x.parked t = .call b) :
    n.sites.site t = .outside ∧ b = true := by
  rw [hx.parked] at hb
  by_cases htc : t = m.current
  · subst htc
    rw [Function.update_self] at hb
    rcases ha.self with ⟨he, -⟩ | ⟨he, hcpu, ⟨-, hsusp, -⟩ | ⟨hhere, hout⟩⟩
    · rw [if_pos he] at hb
      exact nomatch hb
    · rw [hsusp] at hn
      exact absurd (.inr rfl) hn
    · rw [if_neg he, hcpu, h.thread (hhere ▸ Site.inSyscall_outside)] at hb
      exact ⟨hout, (ParkedAt.call.inj hb).symm⟩
  · rw [Function.update_of_ne htc] at hb
    exact ha.calls h htc hn hb

/-- **The invariant behind a switch.** -/
theorem masksOk {junk : Regs} (hD : CallKeepsMask m (.step e junk) x.resume) :
    MasksOk x.resume := by
  obtain ⟨hsites, hsaved, hparked, hspsr⟩ := x.resume_frame
  refine ha.masksOk h (hsites ▸ hx.sites) (by rw [hsites, hx.site])
    (fun t => by rw [hsites, hx.el0]) (hsaved.trans hx.saved) (hspsr.trans hx.spsr)
    (fun t ht => ?_) (hx.resumes_unmasked h ha hD) (fun t b _ hn hb => ?_)
  · rw [hparked, hx.parked] at ht
    by_cases htc : t = m.current
    · rw [htc, Function.update_self] at ht
      by_cases he : e = .preempt
      · exact .inl he
      · rw [if_neg he] at ht
        exact nomatch ht
    · rw [Function.update_of_ne htc] at ht
      exact .inr ht
  · rw [hsites, hx.site] at hn ⊢
    rw [hparked] at hb
    exact hx.waiting h ha hn hb

/-- **A switch** gives a waiting call its mask precisely under the condition. -/
theorem spec (htarget : x.current = e.target m.sites.kernel) (junk : Regs) :
    (CallKeepsMask m (.step e junk) x.resume ↔ ResumedUnmasked m (.step e junk))
      ∧ (CallKeepsMask m (.step e junk) x.resume → MasksOk x.resume) :=
  ⟨⟨hx.unmasked_of_keeps h ha htarget, hx.keeps_of_unmasked h ha htarget⟩, hx.masksOk h ha⟩

end Loaded

namespace AtSwitch

variable {m n : MaskMachine} {e : SiteEvent} {r : Kernel × Switch}

/-- **The end of a step that may switch.** -/
theorem spec (h : MasksOk m) (ha : AtSwitch m e r n)
    (htarget : r.1.currentTask = e.target m.sites.kernel) (junk : Regs) :
    (CallKeepsMask m (.step e junk) (n.switchTo e junk r.2) ↔ ResumedUnmasked m (.step e junk))
      ∧ (CallKeepsMask m (.step e junk) (n.switchTo e junk r.2) →
        MasksOk (n.switchTo e junk r.2)) := by
  rcases hsw : r.2 with _ | ⟨prev, next⟩ | _
  · obtain ⟨hD, hok⟩ := ha.stay h junk hsw
    have hswitch := ha.hands.switch
    rw [SwitchOk, hsw] at hswitch
    have hC : ResumedUnmasked m (.step e junk) := fun hne =>
      absurd (htarget.symm.trans hswitch) hne
    exact ⟨⟨fun _ => hC, fun _ => hD⟩, fun _ => hok⟩
  · obtain ⟨x, hx, hloaded, hcur⟩ := ha.loaded junk hsw
    rw [hx]
    exact hloaded.spec h ha (hcur.trans htarget) junk
  · exact absurd hsw ha.not_stuck

/-- **A call of the scheduler**, in a syscall with `SPSR_EL1` saved, or outside one. -/
theorem of_handover {s : SiteState} (h : MasksOk m) (hr : HandsOver m.sites.kernel r)
    (hel0 : ∀ t, (r.1.tasks t).el0 = (m.sites.kernel.tasks t).el0) (he : e ≠ .preempt)
    (hstep : schedulerHandover r m.sites = some s) (locals : Option (Word × Word))
    (hlocals : m.sites.here = .handling → ∀ wr, locals = some wr → wr.2 = m.cpu.spsr) :
    AtSwitch m e r { m with
      toSyscallMachine := { m.toSyscallMachine with
        sites := s
        saved := Function.update m.saved m.current locals } } := by
  have hok := h.sites.schedulerHandover hr hstep
  have hstuck : r.2 ≠ .stuck := by
    intro hs
    rw [SaturnOS.schedulerHandover, if_pos hs] at hstep
    cases hstep
  obtain ⟨hk, hsite, hself⟩ := schedulerHandover_spec hstep
  refine ⟨hr, hstuck, hel0, hok, hk, rfl,
    fun t ht => ⟨hsite t ht, Function.update_of_ne ht _ _⟩, .inr ⟨he, rfl, ?_⟩⟩
  rcases hself with ⟨hhere, hsusp⟩ | hout
  · refine .inl ⟨hhere, hsusp, fun wr hwr => hlocals hhere wr ?_⟩
    dsimp only at hwr
    rwa [Function.update_self] at hwr
  · exact .inr hout

theorem preempt_not_stuck (k : Kernel) : (schedulerPreempt k).2 ≠ .stuck := by
  simp only [schedulerPreempt]
  split
  · simp
  · split <;> simp

/-- **The timer interrupt.** -/
theorem of_preempt (h : MasksOk m) (hirq : m.cpu.irqEnabled = true) (hhere : m.sites.here ≠ .el0) :
    AtSwitch m .preempt (schedulerPreempt m.sites.kernel) { m with
      toSyscallMachine := { m.toSyscallMachine with
        sites := { m.sites with kernel := (schedulerPreempt m.sites.kernel).1 }
        cpu := m.cpu.takeException } } where
  hands := preempt_handsOver h.sites.table
  not_stuck := preempt_not_stuck m.sites.kernel
  el0 t := ((preempt_resched m.sites.kernel).tasks t).el0_eq
  sites := h.sites.handover (preempt_handsOver h.sites.table) rfl (fun _ _ => rfl) id hhere
  kernel := rfl
  parked := rfl
  others _ _ := ⟨rfl, rfl⟩
  self := .inl ⟨rfl, hirq, rfl, rfl, rfl⟩

end AtSwitch

/-! ## Steps -/

/-- Code that keeps the mask. -/
theorem MasksOk.code {m m' : MaskMachine} (h : MasksOk m) (hsites : m'.sites = m.sites)
    (hsaved : m'.saved = m.saved) (hparked : m'.parked = m.parked)
    (hspsr : m'.cpu.spsr = m.cpu.spsr) (hirq : m'.cpu.irqEnabled = m.cpu.irqEnabled) :
    MasksOk m' := by
  have hcur : m'.current = m.current := by
    rw [SyscallMachine.current, hsites, SyscallMachine.current]
  refine ⟨hsites ▸ h.sites, fun t => ?_, fun t ht => ?_, fun t wr => ?_, ?_, fun t b => ?_⟩
  · rw [hsites]
    exact h.el0 t
  · rw [hspsr]
    refine h.spsr t ?_
    rwa [MaskMachine.Pending, hsites, hparked] at ht
  · rw [hsites, hsaved]
    exact h.saved t wr
  · rw [hsites, hirq]
    exact h.thread
  · rw [hcur, hsites, hparked]
    exact h.calls t b

/-- Where the running task stays the same, no call of it returns. -/
theorem callKeepsMask_of_same {m m' : MaskMachine} {e : SyscallEvent}
    (hcall : e.callsScheduler = false) (hcur : m'.current = m.current) : CallKeepsMask m e m' :=
  ⟨fun hc => absurd (hcall.symm.trans hc) Bool.false_ne_true, fun hne => absurd hcur hne⟩

/-- **A step that does not switch** returns no call. -/
theorem quiet_spec {m n : MaskMachine} {e : SiteEvent} {junk : Regs} (hn : MasksOk n)
    (hcur : n.current = m.current) (he : e ≠ .preempt)
    (hcall : (SyscallEvent.step e junk).callsScheduler = false)
    (htarget : e.target m.sites.kernel = m.current) :
    (CallKeepsMask m (.step e junk) (n.switchTo e junk .stay) ↔ ResumedUnmasked m (.step e junk))
      ∧ (CallKeepsMask m (.step e junk) (n.switchTo e junk .stay) →
        MasksOk (n.switchTo e junk .stay)) := by
  have hstay : n.switchTo e junk .stay = n := if_neg he
  rw [hstay]
  have hD : CallKeepsMask m (.step e junk) n := callKeepsMask_of_same hcall hcur
  have hC : ResumedUnmasked m (.step e junk) := fun hne => absurd htarget hne
  exact ⟨⟨fun _ => hC, fun _ => hD⟩, fun _ => hn⟩

section Steps

variable {L : Layout} {S : Symbols} {m : MaskMachine} {s : SiteState}

theorem MasksOk.openSession (h : MasksOk m) (hstep : siteStep L S m.sites .openSession = some s) :
    MasksOk { m with toSyscallMachine := { m.toSyscallMachine with sites := s } } := by
  have hok := siteStep_ok h.sites hstep
  obtain ⟨hhere, hstep⟩ := Option.ite_none_right_eq_some.mp hstep
  obtain ⟨k, hopen, rfl⟩ := Option.map_eq_some_iff.mp hstep
  obtain ⟨-, -, rfl⟩ := runTaskOpen_spec h.sites.kernelKind hopen
  refine h.moveTo rfl hok rfl rfl rfl (fun _ _ => rfl) (fun _ => ?_) (by decide)
    (.inr ⟨rfl, fun hs => absurd hs (by decide)⟩)
    (fun _ => h.thread (hhere ▸ Site.inSyscall_outside))
  rw [userModeRunTaskOpen] at hopen
  split at hopen
  · cases hopen
  · rename_i hprepare
    split at hopen
    · cases hopen
    · split at hopen
      · cases hopen
      · rename_i space hspace
        exact (userModePrepare_ready (by simpa using hprepare) hspace).2.2

/-- **The `eret` into EL0.** -/
theorem MasksOk.enter (h : MasksOk m) (hstep : siteStep L S m.sites .enter = some s) :
    MasksOk { m with toSyscallMachine := { m.registers .enter with sites := s } } := by
  have hok := siteStep_ok h.sites hstep
  obtain ⟨hhere, hstep⟩ := Option.ite_none_right_eq_some.mp hstep
  obtain rfl := Option.some.inj hstep
  have hspsr : (m.registers .enter).cpu.spsr = arm64SpsrEl0t := h.el0 m.current (.inr hhere)
  refine h.moveTo rfl hok rfl rfl rfl (fun t _ => ?_) (fun hin => absurd hin (by decide))
    (by decide) (.inl ?_) fun _ => ?_
  · refine modTask_el0 _ _ (fun _ => ?_) t
    rfl
  · show irqUnmasked (m.registers .enter).cpu.spsr = true
    rw [hspsr]
    exact irqUnmasked_el0t
  · show irqUnmasked (m.registers .enter).cpu.spsr = true
    rw [hspsr]
    exact irqUnmasked_el0t

/-- **The `SVC`** saves a clear mask. -/
theorem MasksOk.svc (h : MasksOk m) (hstep : siteStep L S m.sites .svc = some s) :
    MasksOk { m with toSyscallMachine := { m.registers .svc with sites := s } } := by
  have hok := siteStep_ok h.sites hstep
  obtain ⟨hhere, hstep⟩ := Option.ite_none_right_eq_some.mp hstep
  obtain rfl := Option.some.inj hstep
  have hirq : m.cpu.irqEnabled = true := h.thread (hhere ▸ by decide)
  refine h.moveTo rfl hok rfl rfl rfl (fun _ _ => rfl) (fun hin => absurd hin (by decide))
    (by decide) (.inl ?_) fun hn => absurd (.inl rfl) hn
  exact (takeException_irqEnabled m.cpu).1.trans hirq

/-- **Back from the scheduler**, `SPSR_EL1` is what the syscall saved. -/
theorem MasksOk.afterYield (h : MasksOk m) (hstep : siteStep L S m.sites .afterYield = some s) :
    MasksOk { m with toSyscallMachine := { m.registers .afterYield with sites := s } } := by
  have hok := siteStep_ok h.sites hstep
  obtain ⟨hhere, hstep⟩ := Option.ite_none_right_eq_some.mp hstep
  obtain rfl := Option.some.inj hstep
  have hroot : (reinstallRoot m.sites.kernel).tasks = m.sites.kernel.tasks
      ∧ (reinstallRoot m.sites.kernel).currentTask = m.current := by
    rw [reinstallRoot]
    split <;> exact ⟨rfl, rfl⟩
  refine h.moveTo rfl hok hroot.2 rfl rfl (fun t _ => by rw [hroot.1])
    (fun hin => absurd hin (by decide)) (by decide) (.inl ?_) fun hn => absurd (.inl rfl) hn
  show irqUnmasked (m.cpu.writeReturn (m.saved m.current)).spsr = true
  cases hsaved : m.saved m.current with
  | none => exact h.spsr m.current (.inr (.inr hhere))
  | some wr => exact h.saved m.current wr hhere hsaved

/-- **The end of a session**: the program's kernel thread goes on with interrupts enabled. -/
theorem MasksOk.leaveEl0 (h : MasksOk m) {r : Kernel × Option (Word × Word)} {m' : MaskMachine}
    (hstep : SaturnOS.leaveEl0 r m.sites = some s) (hok : SitesOk s)
    (hsites : m'.sites = s) (hparked : m'.parked = m.parked) (hsaved : m'.saved = m.saved)
    (hcur : r.1.currentTask = m.current)
    (hel0 : ∀ t, (r.1.tasks t).el0 = (m.sites.kernel.tasks t).el0)
    (hspsr : ∀ wr, r.2 = some wr → wr.2 = arm64SpsrEl1h) {c : Cpu}
    (hcpu : m'.cpu = (c.writeReturn r.2).eret) : MasksOk m' := by
  obtain ⟨k, _ | wr⟩ := r
  · cases hstep
  · obtain rfl := (Option.some.inj hstep).symm
    have hclear : irqUnmasked m'.cpu.spsr = true := by
      rw [hcpu]
      show irqUnmasked wr.2 = true
      rw [hspsr wr rfl]
      exact irqUnmasked_el1h
    refine h.moveTo hsites (hsites ▸ hok) hcur hparked hsaved (fun t _ => hel0 t)
      (fun hin => absurd hin (by decide)) (by decide) (.inl hclear) fun _ => ?_
    rw [hcpu] at hclear ⊢
    exact hclear

/-- A call of the kernel that stays writes neither masks nor entries. -/
theorem MasksOk.call (h : MasksOk m) {op : KernelOp}
    (hstep : siteStep L S m.sites (.call op) = some s) :
    MasksOk { m with
      toSyscallMachine := { m.registers (.call op) with sites := s }
      parked := m.parkedAfter s.kernel (.call op) } ∧ s.kernel.currentTask = m.current := by
  have hok := siteStep_ok h.sites hstep
  obtain ⟨⟨-, hop⟩, hstep⟩ := Option.ite_none_right_eq_some.mp hstep
  obtain ⟨k, hk, rfl⟩ := Option.map_eq_some_iff.mp hstep
  have hcur := (onlyTable_keepsTasks h.sites.table hop hk).currentTask
  exact ⟨h.afterCall rfl hok hcur rfl rfl rfl (onlyTable_keepsEl0 h.sites.table hop hk), hcur⟩

/-- The write of the root register leaves the thread where it was, its session open. -/
theorem MasksOk.writeRoot (h : MasksOk m) (hstep : siteStep L S m.sites .writeRoot = some s) :
    MasksOk { m with toSyscallMachine := { m.registers .writeRoot with sites := s } }
      ∧ s.kernel.currentTask = m.current := by
  have hok := siteStep_ok h.sites hstep
  obtain ⟨hhere, hstep⟩ := Option.ite_none_right_eq_some.mp hstep
  obtain rfl := Option.some.inj hstep
  refine ⟨h.moveTo rfl hok rfl rfl rfl (fun _ _ => rfl) (fun _ => h.el0 m.current (.inl hhere))
    (by decide) (.inr ⟨rfl, fun hs => absurd hs (by decide)⟩) fun _ => ?_, rfl⟩
  exact h.thread (hhere ▸ by decide)

/-- **The `eret` of a syscall** takes the mask that `SPSR_EL1` has for it. -/
theorem MasksOk.sysReturn (h : MasksOk m) {result : Word}
    (hstep : siteStep L S m.sites (.sysReturn result) = some s) :
    MasksOk { m with toSyscallMachine := { m.registers (.sysReturn result) with sites := s } }
      ∧ s.kernel.currentTask = m.current := by
  have hok := siteStep_ok h.sites hstep
  obtain ⟨hhere, hstep⟩ := Option.ite_none_right_eq_some.mp hstep
  obtain rfl := Option.some.inj hstep
  refine ⟨h.moveTo rfl hok rfl rfl rfl (fun _ _ => rfl) (fun hin => absurd hin (by decide))
    (by decide) (.inr ⟨rfl, fun hs => absurd hs (by decide)⟩) fun _ => ?_, rfl⟩
  exact h.spsr m.current (.inr (.inl hhere))

/-- **The exit syscall** returns to the kernel thread, with the state the session keeps for it… -/
theorem MasksOk.exit (h : MasksOk m) {code : Word}
    (hstep : siteStep L S m.sites (.exit code) = some s) :
    MasksOk { m with toSyscallMachine := { m.registers (.exit code) with sites := s } }
      ∧ s.kernel.currentTask = m.current := by
  have hok := siteStep_ok h.sites hstep
  obtain ⟨-, hstep⟩ := Option.ite_none_right_eq_some.mp hstep
  have hcur := (handleExitSyscall_closes code m.sites.kernel).currentTask
  obtain ⟨hel0, hspsr⟩ := handleExitSyscall_mask code m.sites.kernel
  refine ⟨h.leaveEl0 hstep hok rfl rfl rfl hcur hel0 hspsr rfl, ?_⟩
  obtain rfl := leaveEl0_spec hstep
  exact hcur

/-- …and so does a fault. -/
theorem MasksOk.fault (h : MasksOk m) {spsr : Word}
    (hstep : siteStep L S m.sites (.fault spsr) = some s) :
    MasksOk { m with toSyscallMachine := { m.registers (.fault spsr) with sites := s } }
      ∧ s.kernel.currentTask = m.current := by
  have hok := siteStep_ok h.sites hstep
  obtain ⟨-, hstep⟩ := Option.ite_none_right_eq_some.mp hstep
  have hcur := (handleException_closes spsr m.sites.kernel).currentTask
  obtain ⟨hel0, hspsr⟩ := handleException_mask spsr m.sites.kernel
  refine ⟨h.leaveEl0 hstep hok rfl rfl rfl hcur hel0 hspsr rfl, ?_⟩
  obtain rfl := leaveEl0_spec hstep
  exact hcur

/-- The end of an entry is recorded by its own thread, which goes on. -/
theorem MasksOk.complete (h : MasksOk m) (hstep : siteStep L S m.sites .complete = some s) :
    MasksOk { m with toSyscallMachine := { m.registers .complete with sites := s } }
      ∧ s.kernel.currentTask = m.current := by
  have hok := siteStep_ok h.sites hstep
  obtain ⟨⟨hhere, -⟩, hstep⟩ := Option.ite_none_right_eq_some.mp hstep
  obtain rfl := Option.some.inj hstep
  have hcur := runUserTaskReturn_currentTask m.sites.kernel.currentTask m.sites.kernel
  refine ⟨h.moveTo rfl hok hcur rfl rfl (fun t ht => ?_) (fun hin => absurd hin (by decide))
    (by decide) (.inr ⟨rfl, fun hs => absurd hs Site.inSyscall_outside⟩)
    fun _ => h.thread (hhere ▸ Site.inSyscall_outside), hcur⟩
  obtain ⟨-, hrest⟩ := finishUserTask_rest m.sites.kernel.currentTask
    (userModeRunTaskReturn m.sites.kernel.currentTask m.sites.kernel).2
    (userModeRunTaskReturn m.sites.kernel.currentTask m.sites.kernel).1
  obtain ⟨-, htask⟩ := runTaskReturn_others m.sites.kernel.currentTask m.sites.kernel ht
    (by rw [h.sites.table.userSession_eq.1]; exact ht)
  rw [schedulerRunUserTaskReturn, hrest.tasks t ht, htask]

/-- **One step of the kernel**: it stays with its task, and returns no call, or hands over. -/
theorem siteStep_masks {e : SiteEvent} (h : MasksOk m)
    (hirq : e = .preempt → m.cpu.irqEnabled = true) (hstep : siteStep L S m.sites e = some s)
    {n : MaskMachine} (hn : n = { m with
      toSyscallMachine := { m.registers e with sites := s }
      parked := m.parkedAfter s.kernel e }) (junk : Regs) :
    (CallKeepsMask m (.step e junk) (n.switchTo e junk (e.switch m.sites.kernel))
        ↔ ResumedUnmasked m (.step e junk))
      ∧ (CallKeepsMask m (.step e junk) (n.switchTo e junk (e.switch m.sites.kernel)) →
        MasksOk (n.switchTo e junk (e.switch m.sites.kernel))) := by
  subst hn
  cases e with
  | call op =>
    obtain ⟨hnext, hcur⟩ := h.call hstep
    exact quiet_spec hnext hcur (by simp) rfl rfl
  | openSession =>
    have hnext := h.openSession hstep
    obtain ⟨-, hstep⟩ := Option.ite_none_right_eq_some.mp hstep
    obtain ⟨k, hopen, rfl⟩ := Option.map_eq_some_iff.mp hstep
    obtain ⟨-, -, rfl⟩ := runTaskOpen_spec h.sites.kernelKind hopen
    exact quiet_spec hnext rfl (by simp) rfl rfl
  | writeRoot =>
    obtain ⟨hnext, hcur⟩ := h.writeRoot hstep
    exact quiet_spec hnext hcur (by simp) rfl rfl
  | enter =>
    have hnext := h.enter hstep
    obtain ⟨-, hstep⟩ := Option.ite_none_right_eq_some.mp hstep
    obtain rfl := Option.some.inj hstep
    exact quiet_spec hnext rfl (by simp) rfl rfl
  | svc =>
    have hnext := h.svc hstep
    obtain ⟨-, hstep⟩ := Option.ite_none_right_eq_some.mp hstep
    obtain rfl := Option.some.inj hstep
    exact quiet_spec hnext rfl (by simp) rfl rfl
  | yield =>
    refine AtSwitch.spec h (AtSwitch.of_handover h (yield_handsOver h.sites.table)
      (fun t => ((yield_resched _).tasks t).el0_eq) (e := .yield) (by simp) hstep _
      fun _ wr hwr => ?_) rfl junk
    split at hwr
    · rw [← Option.some.inj hwr]
    · cases hwr
  | sleep ms intervalMs =>
    refine AtSwitch.spec h (AtSwitch.of_handover h (sleepMs_handsOver h.sites.table ms intervalMs)
      (sleepMs_el0 ms intervalMs m.sites.kernel) (e := .sleep ms intervalMs) (by simp) hstep _
      fun _ wr hwr => ?_) rfl junk
    rw [← Option.some.inj hwr]
  | afterYield =>
    have hnext := h.afterYield hstep
    obtain ⟨-, hstep⟩ := Option.ite_none_right_eq_some.mp hstep
    obtain rfl := Option.some.inj hstep
    refine quiet_spec hnext ?_ (by simp) rfl rfl
    show (reinstallRoot m.sites.kernel).currentTask = m.current
    rw [reinstallRoot]
    split <;> rfl
  | sysReturn result =>
    obtain ⟨hnext, hcur⟩ := h.sysReturn hstep
    exact quiet_spec hnext hcur (by simp) rfl rfl
  | exit code =>
    obtain ⟨hnext, hcur⟩ := h.exit hstep
    exact quiet_spec hnext hcur (by simp) rfl rfl
  | fault spsr =>
    obtain ⟨hnext, hcur⟩ := h.fault hstep
    exact quiet_spec hnext hcur (by simp) rfl rfl
  | complete =>
    obtain ⟨hnext, hcur⟩ := h.complete hstep
    exact quiet_spec hnext hcur (by simp) rfl rfl
  | exitTask =>
    obtain ⟨⟨hhere, h0⟩, hstep⟩ := Option.ite_none_right_eq_some.mp hstep
    have ha := AtSwitch.of_handover h (exitTask_handsOver h.sites.table h0)
      (exitTask_el0 _ m.sites.kernel) (e := .exitTask) (by simp) hstep (m.saved m.current)
      fun hh => absurd (hhere.symm.trans hh) (by decide)
    rw [Function.update_eq_self] at ha
    exact AtSwitch.spec h ha rfl junk
  | preempt =>
    obtain ⟨hhere, hstep⟩ := Option.ite_none_right_eq_some.mp hstep
    obtain rfl := Option.some.inj hstep
    exact AtSwitch.spec h (AtSwitch.of_preempt h (hirq rfl) hhere) rfl junk

/-- **One step.** -/
theorem maskStep_spec {m' : MaskMachine} {e : SyscallEvent} (h : MasksOk m)
    (hstep : maskStep L S m e = some m') :
    (CallKeepsMask m e m' ↔ ResumedUnmasked m e) ∧ (CallKeepsMask m e m' → MasksOk m') := by
  cases e with
  | kernelCode c =>
    obtain ⟨⟨hflags, hspsr⟩, hstep⟩ := Option.ite_none_right_eq_some.mp hstep
    obtain ⟨n, hn, rfl⟩ := Option.map_eq_some_iff.mp hstep
    have hirq : c.irqEnabled = m.cpu.irqEnabled := irqUnmasked_flags hflags
    have hcode : n.sites = m.sites ∧ n.saved = m.saved ∧ n.cpu.spsr = m.cpu.spsr
        ∧ n.cpu.irqEnabled = m.cpu.irqEnabled := by
      rw [syscallStep] at hn
      split at hn
      · cases hn
      · split at hn
        · obtain rfl := Option.some.inj hn
          exact ⟨rfl, rfl, rfl, hirq⟩
        · obtain rfl := Option.some.inj hn
          exact ⟨rfl, rfl, hspsr, hirq⟩
    have hcur : n.current = m.current := by
      rw [SyscallMachine.current, hcode.1, SyscallMachine.current]
    exact ⟨⟨fun _ => trivial, fun _ => callKeepsMask_of_same rfl hcur⟩,
      fun _ => h.code hcode.1 hcode.2.1 rfl hcode.2.2.1 hcode.2.2.2⟩
  | el0Code x spEl0 pc pstate =>
    obtain ⟨n, hn, rfl⟩ := Option.map_eq_some_iff.mp hstep
    obtain ⟨⟨-, hflags⟩, hn⟩ := Option.ite_none_right_eq_some.mp hn
    obtain rfl := Option.some.inj hn
    exact ⟨⟨fun _ => trivial, fun _ => callKeepsMask_of_same rfl rfl⟩,
      fun _ => h.code rfl rfl rfl rfl (irqUnmasked_flags hflags)⟩
  | step e junk =>
    rw [maskStep] at hstep
    split at hstep
    · cases hstep
    · rename_i hguard
      obtain ⟨s, hs, rfl⟩ := Option.map_eq_some_iff.mp hstep
      refine siteStep_masks h (fun he => ?_) hs rfl junk
      cases hirq : m.cpu.irqEnabled with
      | false => exact absurd ⟨he, hirq⟩ hguard
      | true => rfl

end Steps

theorem masksOk_boot (S : Symbols) (root : Word) (st : SpaceStatics) (c : Cpu) :
    MasksOk (bootMasks S root st c) where
  sites := sitesOk_boot S root st
  el0 _ hin := absurd hin (by decide : ¬ Site.outside.entering)
  spsr _ hp := by
    rcases hp with hp | hp
    · exact nomatch hp
    · exact absurd hp Site.inSyscall_outside
  saved _ _ := nofun
  thread _ := irqEnable_irqEnabled c
  calls _ _ _ _ := nofun

/-! ## Every run -/

/-- **The mask a call of the scheduler returns with** is the caller's in precisely the runs that
switch to a waiting kernel thread by a call made outside interrupts, with interrupts enabled. -/
theorem call_keeps_mask_iff (L : Layout) (S : Symbols) (root : Word) (st : SpaceStatics) (c : Cpu)
    (events : List SyscallEvent) :
    Along (maskStep L S) CallKeepsMask (bootMasks S root st c) events
      ↔ Along (maskStep L S) (fun m e _ => ResumedUnmasked m e) (bootMasks S root st c) events :=
  (Along.iff_of_inv (T := maskStep L S) (C := fun m e _ => ResumedUnmasked m e)
    (D := CallKeepsMask) (J := MasksOk)
    (fun _ _ _ hJ hstep => ⟨(maskStep_spec hJ hstep).1.symm, (maskStep_spec hJ hstep).2⟩)
    (masksOk_boot S root st c)).symm

/-- …and in those every kernel thread runs with interrupts enabled, in every state. -/
theorem threads_unmasked (L : Layout) (S : Symbols) (root : Word) (st : SpaceStatics) (c : Cpu)
    (events : List SyscallEvent)
    (hC : Along (maskStep L S) (fun m e _ => ResumedUnmasked m e) (bootMasks S root st c) events) :
    Always (maskStep L S) (fun m => m.sites.here = .outside → m.cpu.irqEnabled = true)
      (bootMasks S root st c) events := by
  refine Always.of_along (I := MasksOk) (fun _ _ _ hI hstep hC => ?_) (fun m hI hhere => ?_)
    (masksOk_boot S root st c) hC
  · obtain ⟨hiff, hkeep⟩ := maskStep_spec hI hstep
    exact hkeep (hiff.mpr hC)
  · exact hI.thread (hhere ▸ Site.inSyscall_outside)

/-- **A thread that sleeps with interrupts enabled** wakes up with them masked: the tick that wakes
it switches to it. -/
theorem sleep_returns_masked :
    ¬ ∀ events, Along (maskStep bssLayout imageSymbols) CallKeepsMask
      (bootMasks imageSymbols (bssLayout.table .vmL1) {} {}) events := by
  intro hall
  refine not_along_of_run (kernelSteps [.call (.createKernelThread (some "demo") 0x1000),
      .call .startThreads, .preempt, .sleep 100 100])
    (.step .preempt fun _ => 0)
    (fun m m' => decide (m'.current ≠ m.current) && decide (m'.sites.here = .outside)
      && decide (m.parked m'.current = .call true) && !m'.cpu.irqEnabled) (by decide +kernel)
    (fun m m' hbad hC => ?_) (hall _)
  simp only [Bool.and_eq_true, decide_eq_true_eq, Bool.not_eq_true'] at hbad
  obtain ⟨⟨⟨hne, hout⟩, hcall⟩, hmasked⟩ := hbad
  exact nomatch hmasked.symm.trans (hC.returns hne hout hcall)

end SaturnOS
