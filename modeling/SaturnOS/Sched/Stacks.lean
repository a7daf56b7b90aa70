import SaturnOS.Arch.Mmu

/-!
# Sched/Stacks — the kernel stacks and their guard pages

    guard 0 │ stack 0 │ guard 1 │ stack 1 │ ⋯ │ stack 7 │ guard 8

The stack region of `kernel/sched/scheduler.c`: one page of stack per task between guard pages.
`region` is the address of the static array.
-/

namespace SaturnOS

/-- Eight stacks of a page, each above a guard of a page. -/
def schedMaxTasks : ℕ := 8
def schedStackSize : Word := 4096
def schedStackGuardSize : Word := 4096
def schedStackSlotSize : Word := schedStackGuardSize + schedStackSize

variable (region : Word)

/-- The index is clamped to the last guard. -/
def schedulerStackGuardStart (index : Word) : Word :=
  region + (if 8 < index then 8 else index) * schedStackSlotSize

/-- The end of a guard is where its stack starts… -/
def schedulerStackGuardEnd (index : Word) : Word :=
  schedulerStackGuardStart region index + schedStackGuardSize

/-- The index is clamped to the last stack. -/
def schedulerStackStart (index : Word) : Word :=
  schedulerStackGuardEnd region (if 8 ≤ index then 8 - 1 else index)

/-- …and the end of a stack where the next guard does. -/
def schedulerStackEnd (index : Word) : Word := schedulerStackStart region index + schedStackSize

/-- The loop over the nine guards. -/
def schedulerAddressIsStackGuard (address : Word) : Bool :=
  (List.range (schedMaxTasks + 1)).any fun i =>
    decide (schedulerStackGuardStart region (BitVec.ofNat 64 i) ≤ address)
      && decide (address < schedulerStackGuardEnd region (BitVec.ofNat 64 i))

end SaturnOS
