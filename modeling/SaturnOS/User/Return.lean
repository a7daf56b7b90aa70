import SaturnOS.User.Exceptions

/-!
# User/Return — back in the kernel after a program

    bl arm64_enter_el0_task ──eret──▸ EL0 ──exit / fault──▸ frame, handler, pop ──eret──▸ ret

The stub that leaves EL0 for good pops the registers it pushed, and those are the program's: the
`ret` at `arm64_el0_task_return` goes to the program's `x30`, with the program's `x19 … x29`.
`el0_return_iff` says that the kernel resumes after its call exactly when the program left these as
the kernel had them.
-/

namespace SaturnOS

/-- A program at its last exception. -/
structure El0Exit where
  x : Regs
  spEl0 : Word
  pc : Word
  pstate : Word
  esr : Word

/-- The exception is the exit syscall or a fault, taken from EL0. -/
structure El0Exit.Ends (e : El0Exit) : Prop where
  mode : exceptionFromEl0 e.pstate = true
  exit : exceptionClassValue e.esr = esrEcSvc64 → e.x 8 = syscallExit

/-- The CPU in EL0 at that exception.  `SP_EL1` and the kernel's stack are those of the call. -/
def El0Exit.cpu (e : El0Exit) (call : Cpu) : Cpu :=
  { call.arm64EnterEl0Task with x := e.x, spEl0 := e.spEl0, pc := e.pc, pstate := e.pstate }

/-- From the exception to the kernel's next instruction: the stub, and the `ret` it leads to. -/
def kernelAfterEl0 (S : Symbols) (effect : Kernel × Word) (call : Cpu) (e : El0Exit) (k : Kernel) :
    Option (Kernel × Cpu) :=
  match exceptionSyncEntry effect e.esr (e.cpu call).takeException k with
  | some (k, c) => if c.pc = S.arm64El0TaskReturn then some (k, c.ret) else none
  | none => none

/-- The kernel resumes after its call — `x30` held the return address — in EL1, with the registers a
call keeps. -/
def ReturnsFromCall (S : Symbols) (effect : Kernel × Word) (call : Cpu) (e : El0Exit) (k : Kernel) :
    Prop :=
  ∃ k' c, kernelAfterEl0 S effect call e k = some (k', c) ∧ c.pc = call.x 30
    ∧ c.pstate = arm64SpsrEl1h ∧ ∀ r, calleeSaved r → c.x r = call.x r

/-- The program left `x19 … x30` as the kernel had them. -/
def LeavesCallRegs (call : Cpu) (e : El0Exit) : Prop :=
  ∀ r : Fin 31, 19 ≤ r.val → e.x r = call.x r

/-- **What the kernel gets back**: the program's registers, and its `x30` as the next
instruction. -/
theorem kernelAfterEl0_spec {S : Symbols} {k : Kernel} (h : OpenSession S k) {e : El0Exit}
    (he : e.Ends) (effect : Kernel × Word) (call : Cpu) :
    ∃ k' c, kernelAfterEl0 S effect call e k = some (k', c) ∧ c.pc = e.x 30
      ∧ c.pstate = arm64SpsrEl1h ∧ ∀ r : Fin 31, 19 ≤ r.val → c.x r = e.x r := by
  have hspsr : exceptionFromEl0 (e.cpu call).takeException.spsr = true := he.mode
  have hpush : popFrame (pushFrame (e.cpu call).takeException.x) = e.x := popFrame_pushFrame e.x
  simp only [kernelAfterEl0, exceptionSyncEntry, exceptionSyncHandler, hspsr, true_and]
  by_cases hsvc : exceptionClassValue e.esr = esrEcSvc64
  · have hx8 : popFrame (pushFrame (e.cpu call).takeException.x) 8 = syscallExit := by
      rw [hpush]
      exact he.exit hsvc
    obtain ⟨hret, -⟩ := handleExitSyscall_open h
      (popFrame (pushFrame (e.cpu call).takeException.x) 0)
    rw [if_pos hsvc, if_pos hx8, hret]
    dsimp only
    have hpop : popFrame (setFrameX0 (pushFrame (e.cpu call).takeException.x) 0)
        = Function.update e.x 0 0 := by
      rw [popFrame_setFrameX0, hpush]
    refine ⟨_, _, if_pos rfl, ?_, rfl, fun r hr => ?_⟩
    · show popFrame (setFrameX0 (pushFrame (e.cpu call).takeException.x) 0) 30 = e.x 30
      rw [hpop]
      exact Function.update_of_ne (by decide) _ _
    · show popFrame (setFrameX0 (pushFrame (e.cpu call).takeException.x) 0) r = e.x r
      rw [hpop]
      refine Function.update_of_ne ?_ _ _
      rintro rfl
      exact absurd hr (by decide)
  · obtain ⟨k₁, hfault⟩ := handleException_open h hspsr
    rw [if_neg hsvc, hfault]
    dsimp only
    refine ⟨_, _, if_pos rfl, ?_, rfl, fun r _ => ?_⟩
    · exact congrFun hpush 30
    · exact congrFun hpush r

/-- **The kernel resumes after its call exactly when the program left its registers alone.** -/
theorem returnsFromCall_iff {S : Symbols} {k : Kernel} (h : OpenSession S k) {e : El0Exit}
    (he : e.Ends) (effect : Kernel × Word) (call : Cpu) :
    ReturnsFromCall S effect call e k ↔ LeavesCallRegs call e := by
  obtain ⟨k', c, hafter, hpc, hpstate, hx⟩ := kernelAfterEl0_spec h he effect call
  constructor
  · rintro ⟨k₁, c₁, hafter₁, hpc₁, -, hx₁⟩ r hr
    obtain ⟨rfl, rfl⟩ := Prod.mk.inj (Option.some.inj (hafter.symm.trans hafter₁))
    by_cases hr30 : r = 30
    · rw [hr30, ← hpc, hpc₁]
    · have hsaved : calleeSaved r := ⟨hr, by omega⟩
      rw [← hx r hr, hx₁ r hsaved]
  · intro hleaves
    refine ⟨k', c, hafter, ?_, hpstate, fun r hr => ?_⟩
    · rw [hpc, hleaves 30 (by decide)]
    · rw [hx r hr.1, hleaves r hr.1]

/-- **Over two programs** run from one call: the kernel resumes after it, with its registers, in
both exactly when both left `x19 … x30` alone. -/
theorem el0_return_iff {S : Symbols} (call : Cpu) {k k' : Kernel} (hk : OpenSession S k)
    (hk' : OpenSession S k') {e e' : El0Exit} (he : e.Ends) (he' : e'.Ends)
    (effect effect' : Kernel × Word) :
    ReturnsFromCall S effect call e k ∧ ReturnsFromCall S effect' call e' k'
      ↔ LeavesCallRegs call e ∧ LeavesCallRegs call e' :=
  and_congr (returnsFromCall_iff hk he effect call) (returnsFromCall_iff hk' he' effect' call)

/-- A program that exits with the given `x19 … x30`. -/
def exitWith (regs : Regs) : El0Exit :=
  { x := Function.update regs 8 syscallExit
    spEl0 := 0x40000000
    pc := 0x100004
    pstate := arm64SpsrEl0t
    esr := esrEcSvc64 <<< esrEcShift }

theorem exitWith_ends (regs : Regs) : (exitWith regs).Ends where
  mode := show exceptionFromEl0 arm64SpsrEl0t = true by decide
  exit _ := by
    show Function.update regs 8 syscallExit 8 = syscallExit
    rw [Function.update_self]

theorem el0Kernel_open : OpenSession imageSymbols el0Kernel := by
  obtain ⟨hspace, hroot, henter⟩ := userKernel_enters
  exact (runTaskEnter_open hspace hroot henter).1

/-- Two programs that touch no register the kernel relies on. -/
theorem el0_return_untouched :
    ReturnsFromCall imageSymbols (el0Kernel, 0) entryCall (exitWith entryCall.x) el0Kernel
      ∧ ReturnsFromCall imageSymbols (el0Kernel, 0) entryCall
        (exitWith fun r => if r = 0 then 5 else entryCall.x r) el0Kernel := by
  refine (el0_return_iff entryCall el0Kernel_open el0Kernel_open (exitWith_ends _) (exitWith_ends _)
    _ _).mpr ⟨?_, ?_⟩
  · rw [LeavesCallRegs]
    decide
  · rw [LeavesCallRegs]
    decide

/-- **A program that clears its registers sends the kernel to address zero.** -/
theorem el0_return_hijacked :
    ¬ ∀ e e' : El0Exit, e.Ends → e'.Ends →
      ReturnsFromCall imageSymbols (el0Kernel, 0) entryCall e el0Kernel
        ∧ ReturnsFromCall imageSymbols (el0Kernel, 0) entryCall e' el0Kernel := by
  intro hall
  obtain ⟨hreturn, -⟩ := hall (exitWith fun _ => 0) (exitWith fun _ => 0) (exitWith_ends _)
    (exitWith_ends _)
  have hleaves := (returnsFromCall_iff el0Kernel_open (exitWith_ends _) _ _).mp hreturn
  exact absurd (hleaves 30 (by decide)) (by decide)

end SaturnOS
