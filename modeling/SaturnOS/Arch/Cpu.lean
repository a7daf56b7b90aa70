import SaturnOS.Sched.Task

/-!
# Arch/Cpu — registers, exceptions and the context switch

    thread ──exception──▸ stub: push x0 … x30 ──▸ handler ──▸ pop ──eret──▸ thread

`exception.s`, `context.S` and `user_entry.S` over the registers they move.  `ELR_EL1`, `SPSR_EL1`
and `SP_EL0` exist once: an exception overwrites the first two, an `eret` uses them.  The stubs run
with interrupts masked, so each is one function here; their own program counters are left out.
-/

namespace SaturnOS

instance neZero_regs : NeZero 31 := ⟨by decide⟩

/-- `x0 … x30`. -/
abbrev Regs := Fin 31 → Word

/-- The registers the stubs and the switch move; `sp` is `SP_EL1`. -/
structure Cpu where
  x : Regs := fun _ => 0
  sp : Word := 0
  spEl0 : Word := 0
  pc : Word := 0
  pstate : Word := 0
  elr : Word := 0
  spsr : Word := 0

/-! ## Exceptions -/

def arm64SpsrDaifDebug : Word := 1 <<< 9
def arm64SpsrDaifAsync : Word := 1 <<< 8
def arm64SpsrDaifIrq : Word := 1 <<< 7
def arm64SpsrDaifFiq : Word := 1 <<< 6

/-- The state of the processor in a handler: EL1h, everything masked. -/
def handlerPstate : Word :=
  arm64SpsrModeEl1h ||| arm64SpsrDaifDebug ||| arm64SpsrDaifAsync ||| arm64SpsrDaifIrq
    ||| arm64SpsrDaifFiq

namespace Cpu

variable (c : Cpu)

def irqEnabled : Bool := c.pstate &&& arm64SpsrDaifIrq == 0

/-- `irq_enable`. -/
def irqEnable : Cpu := { c with pstate := c.pstate &&& ~~~arm64SpsrDaifIrq }

/-- What the processor does on an exception to EL1. -/
def takeException : Cpu := { c with elr := c.pc, spsr := c.pstate, pstate := handlerPstate }

def eret : Cpu := { c with pc := c.elr, pstate := c.spsr }

/-- The branch to `x30`. -/
def ret : Cpu := { c with pc := c.x 30 }

/-- `arm64_enter_el0_task`, with its arguments in `x0 … x5`. -/
def arm64EnterEl0Task : Cpu :=
  { c with
    elr := c.x 0
    spEl0 := c.x 1
    spsr := c.x 2
    x := fun i => if i = 0 then c.x 3 else if i = 1 then c.x 4 else if i = 2 then c.x 5 else c.x i
    }.eret

end Cpu

inductive ExceptionSource
  | el1t
  | el1h
  | lowerAArch64
  | lowerAArch32
  deriving DecidableEq

inductive ExceptionKind
  | sync
  | irq
  | fiq
  | serror
  deriving DecidableEq

inductive VectorEntry
  | exceptionDefaultHandler
  | exceptionIrqEntry
  | exceptionSyncEntry
  deriving DecidableEq

/-- `exception_vector`: sixteen entries, two of them with a stub of their own. -/
def exceptionVector : ExceptionSource → ExceptionKind → VectorEntry
  | .el1h, .irq => .exceptionIrqEntry
  | .lowerAArch64, .sync => .exceptionSyncEntry
  | _, _ => .exceptionDefaultHandler

/-! ## The frame

Sixteen pushes from `x0, x1` down to `x30` alone: the words of `struct exception_frame` from the
lowest address up. -/

abbrev ExceptionFrame := Fin 32 → Word

/-- The size of a frame. -/
def frameSize : Word := 256

/-- The word of the frame a register is in. -/
def frameSlot (r : Fin 31) : Fin 32 := ⟨30 - 2 * (r / 2) + r % 2, by omega⟩

/-- The pushes; the word beside `x30` is not written and never read. -/
def pushFrame (x : Regs) : ExceptionFrame := fun i =>
  if h : i = 1 then 0 else x ⟨30 - 2 * (i / 2) + i % 2, by omega⟩

/-- The pops. -/
def popFrame (f : ExceptionFrame) : Regs := fun r => f (frameSlot r)

/-- `frame->x0 = result`. -/
def setFrameX0 (f : ExceptionFrame) (result : Word) : ExceptionFrame :=
  Function.update f (frameSlot 0) result

/-- **Every register comes back.** -/
@[simp] theorem popFrame_pushFrame (x : Regs) : popFrame (pushFrame x) = x := by
  funext r
  have hr : frameSlot r ≠ 1 := by
    intro h
    have := congrArg Fin.val h
    simp only [frameSlot] at this
    omega
  rw [popFrame, pushFrame, dif_neg hr]
  congr 1
  ext
  simp only [frameSlot]
  omega

/-- …but for the result in `x0`. -/
@[simp] theorem popFrame_setFrameX0 (f : ExceptionFrame) (result : Word) :
    popFrame (setFrameX0 f result) = Function.update (popFrame f) 0 result := by
  funext r
  rw [popFrame, setFrameX0]
  by_cases hr : r = 0
  · rw [hr, Function.update_self, Function.update_self]
  · have hslot : frameSlot r ≠ frameSlot 0 := by
      intro h
      have := congrArg Fin.val h
      simp only [frameSlot] at this
      exact hr (by omega)
    rw [Function.update_of_ne hslot, Function.update_of_ne hr]
    rfl

/-! ## The switch -/

/-- The registers `cpu_switch_to` saves. -/
def calleeSaved (r : Fin 31) : Prop := 19 ≤ r.val ∧ r.val ≤ 29

instance : DecidablePred calleeSaved := fun _ => inferInstanceAs (Decidable (_ ∧ _))

/-- The stores of `cpu_switch_to`, called with `x30 = lr`. -/
def saveContext (c : Cpu) (lr : Word) : CpuContext :=
  { x := fun i => c.x ⟨19 + i, by omega⟩, fp := c.x 29, lr := lr, sp := c.sp }

/-- The loads and the `ret`; `junk` is what is in the registers the switch does not move. -/
def loadContext (ctx : CpuContext) (junk : Regs) (c : Cpu) : Cpu :=
  { c with
    x := fun r =>
      if h : 19 ≤ r.val ∧ r.val ≤ 28 then ctx.x ⟨r - 19, by omega⟩
      else if r.val = 29 then ctx.fp
      else if r.val = 30 then ctx.lr
      else junk r
    sp := ctx.sp
    pc := ctx.lr }

/-- **What was saved is loaded.** -/
theorem loadContext_saveContext (c c' : Cpu) (lr : Word) (junk : Regs) :
    (∀ r, calleeSaved r → (loadContext (saveContext c lr) junk c').x r = c.x r)
      ∧ (loadContext (saveContext c lr) junk c').sp = c.sp
      ∧ (loadContext (saveContext c lr) junk c').pc = lr := by
  refine ⟨fun r hr => ?_, rfl, rfl⟩
  obtain ⟨h19, h29⟩ := hr
  simp only [loadContext, saveContext]
  by_cases h28 : r.val ≤ 28
  · rw [dif_pos ⟨h19, h28⟩]
    congr 1
    ext
    dsimp only
    omega
  · rw [dif_neg fun h => h28 h.2, if_pos (by omega)]
    congr 1
    ext
    have : ((29 : Fin 31) : ℕ) = 29 := rfl
    omega

end SaturnOS
