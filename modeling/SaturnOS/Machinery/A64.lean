import Mathlib.Data.BitVec
import Mathlib.Logic.Function.Basic
import SaturnOS.Machinery.Loops

/-!
# Machinery/A64 — programs of a few integer instructions

    pc ──fetch──▸ word ──decode──▸ instruction ──▸ registers, flags, pc
                                        └──▸ trap ──▸ served by the platform, or the end

A fragment of the A64 instruction set, over any platform that can fetch, load and serve traps.  A
program is read off its words once (`Listing`); a stretch of instructions that only compute is one
step (`leaves_block`), and a stretch up to a call of the platform is another (`leaves_call`).
-/

namespace Machinery.A64

/-- `x0 … x30`.  The register 31 is outside the fragment. -/
abbrev Reg := Fin 31

structure Flags where
  n : Bool := false
  z : Bool := false
  c : Bool := false
  v : Bool := false
  deriving DecidableEq

@[ext] structure Core where
  x : Reg → BitVec 64
  pc : BitVec 64
  nzcv : Flags

/-! ## Instructions -/

inductive Instr
  | movz (rd : Reg) (imm : BitVec 16) (hw : BitVec 2)
  /-- `orr rd, xzr, rm`. -/
  | mov (rd rm : Reg)
  | add (rd rn : Reg) (imm : BitVec 12)
  /-- `subs xzr, rn, #imm`. -/
  | cmp (rn : Reg) (imm : BitVec 12)
  | ldr (rt rn : Reg) (imm : BitVec 12)
  | bcond (cond : BitVec 4) (imm : BitVec 19)
  | svc (imm : BitVec 16)
  | brk (imm : BitVec 16)
  deriving DecidableEq

/-- The register in five bits of a word. -/
def regAt (w : BitVec 32) (start : ℕ) : Option Reg :=
  if h : (w.extractLsb' start 5).toNat < 31 then some ⟨_, h⟩ else none

def decode (w : BitVec 32) : Option Instr :=
  if w.extractLsb' 23 9 = 0b110100101 then
    (regAt w 0).map fun rd => .movz rd (w.extractLsb' 5 16) (w.extractLsb' 21 2)
  else if w.extractLsb' 21 11 = 0b10101010000 ∧ w.extractLsb' 5 11 = 0b00000011111 then
    (regAt w 0).bind fun rd => (regAt w 16).map fun rm => .mov rd rm
  else if w.extractLsb' 22 10 = 0b1001000100 then
    (regAt w 0).bind fun rd => (regAt w 5).map fun rn => .add rd rn (w.extractLsb' 10 12)
  else if w.extractLsb' 22 10 = 0b1111000100 ∧ w.extractLsb' 0 5 = 0b11111 then
    (regAt w 5).map fun rn => .cmp rn (w.extractLsb' 10 12)
  else if w.extractLsb' 22 10 = 0b1111100101 then
    (regAt w 0).bind fun rt => (regAt w 5).map fun rn => .ldr rt rn (w.extractLsb' 10 12)
  else if w.extractLsb' 24 8 = 0b01010100 ∧ w.extractLsb' 4 1 = 0 then
    some (.bcond (w.extractLsb' 0 4) (w.extractLsb' 5 19))
  else if w.extractLsb' 21 11 = 0b11010100000 ∧ w.extractLsb' 0 5 = 0b00001 then
    some (.svc (w.extractLsb' 5 16))
  else if w.extractLsb' 21 11 = 0b11010100001 ∧ w.extractLsb' 0 5 = 0 then
    some (.brk (w.extractLsb' 5 16))
  else none

/-! ## What they do -/

/-- The flags of `a - b`. -/
def subFlags (a b : BitVec 64) : Flags where
  n := (a - b).msb
  z := a == b
  c := decide (b ≤ a)
  v := a.msb != b.msb && (a - b).msb != a.msb

def Flags.holds (f : Flags) (cond : BitVec 4) : Bool :=
  let base :=
    match (cond.extractLsb' 1 3).toNat with
    | 0 => f.z
    | 1 => f.c
    | 2 => f.n
    | 3 => f.v
    | 4 => f.c && !f.z
    | 5 => f.n == f.v
    | 6 => f.n == f.v && !f.z
    | _ => true
  if cond.getLsbD 0 && cond != 0b1111 then !base else base

/-- Why a core stops fetching. -/
inductive Trap
  | svc (imm : BitVec 16)
  | brk (imm : BitVec 16)
  | undefined
  | abort
  deriving DecidableEq

namespace Core

variable (c : Core)

def next : Core := { c with pc := c.pc + 4 }

/-- A register is written, and the next instruction is next. -/
def put (r : Reg) (v : BitVec 64) : Core := { c with x := Function.update c.x r v, pc := c.pc + 4 }

end Core

/-- An instruction, where the memory holds `load`.  A call comes back behind itself. -/
def Instr.exec (load : BitVec 64 → Option (BitVec 64)) (c : Core) : Instr → Core × Option Trap
  | .movz rd imm hw => (c.put rd (imm.setWidth 64 <<< (16 * hw.toNat)), none)
  | .mov rd rm => (c.put rd (c.x rm), none)
  | .add rd rn imm => (c.put rd (c.x rn + imm.setWidth 64), none)
  | .cmp rn imm => ({ c.next with nzcv := subFlags (c.x rn) (imm.setWidth 64) }, none)
  | .ldr rt rn imm =>
    match load (c.x rn + (imm.setWidth 64 <<< 3)) with
    | some v => (c.put rt v, none)
    | none => (c, some .abort)
  | .bcond cond imm =>
    (if c.nzcv.holds cond then { c with pc := c.pc + (imm.signExtend 64 <<< 2) } else c.next, none)
  | .svc imm => (c.next, some (.svc imm))
  | .brk imm => (c, some (.brk imm))

/-- What a core runs on: memory to fetch and to load from, and who serves its traps. -/
structure Platform (σ ρ : Type*) where
  fetch : σ → BitVec 64 → Option (BitVec 32)
  load : σ → BitVec 64 → Option (BitVec 64)
  serve : σ → Core → Trap → (σ × Core) ⊕ ρ

namespace Platform

variable {σ ρ : Type*} (M : Platform σ ρ)

/-- One instruction. -/
def turn : σ × Core → (σ × Core) ⊕ ρ
  | (s, c) =>
    match M.fetch s c.pc with
    | none => M.serve s c .abort
    | some w =>
      match decode w with
      | none => M.serve s c .undefined
      | some i =>
        match i.exec (M.load s) c with
        | (c, none) => .inl (s, c)
        | (c, some trap) => M.serve s c trap

/-- The instructions at an address. -/
def Listing (s : σ) : BitVec 64 → List Instr → Prop
  | _, [] => True
  | pc, i :: l => (M.fetch s pc).bind decode = some i ∧ Listing s (pc + 4) l

end Platform

/-! ## Stretches -/

/-- The instructions that do nothing but compute. -/
def Instr.computes : Instr → Bool
  | .movz _ _ _ | .mov _ _ | .add _ _ _ | .cmp _ _ => true
  | .ldr _ _ _ | .bcond _ _ | .svc _ | .brk _ => false

/-- …one after the other. -/
def execAll (c : Core) (block : List Instr) : Core :=
  block.foldl (fun c i => (i.exec (fun _ => none) c).1) c

section Rules

variable {σ ρ : Type*} {M : Platform σ ρ} {s s' : σ} {c c' : Core} {i : Instr}
  {block l : List Instr}
  {pc : BitVec 64} {r r' : ρ} {imm : BitVec 16} {load load' : BitVec 64 → Option (BitVec 64)}

theorem exec_computes (h : i.computes = true) :
    i.exec load c = ((i.exec load' c).1, none) ∧ (i.exec load c).1.pc = c.pc + 4 := by
  cases i with
  | movz | mov | add | cmp => exact ⟨rfl, rfl⟩
  | ldr | bcond | svc | brk => cases h

theorem turn_eq (h : (M.fetch s c.pc).bind decode = some i) :
    M.turn (s, c) =
      match i.exec (M.load s) c with
      | (c, none) => .inl (s, c)
      | (c, some trap) => M.serve s c trap := by
  obtain ⟨w, hw, hi⟩ := Option.bind_eq_some_iff.mp h
  rw [Platform.turn, hw]
  dsimp only
  rw [hi]

/-- An instruction that only computes. -/
theorem leaves_computes (h : (M.fetch s c.pc).bind decode = some i) (hi : i.computes = true) :
    Leaves M.turn (s, c) r ↔ Leaves M.turn (s, (i.exec (fun _ => none) c).1) r := by
  refine leaves_next ?_
  rw [turn_eq h, (exec_computes hi).1]

/-- **A stretch of them.** -/
theorem leaves_block (hblock : block.all Instr.computes = true)
    (h : M.Listing s c.pc (block ++ l)) :
    (Leaves M.turn (s, c) r ↔ Leaves M.turn (s, execAll c block) r) ∧
      M.Listing s (execAll c block).pc l := by
  induction block generalizing c with
  | nil => exact ⟨Iff.rfl, h⟩
  | cons i block ih =>
    obtain ⟨hi, hblock⟩ := Bool.and_eq_true_iff.mp hblock
    obtain ⟨hfetch, hrest⟩ := h
    have hpc := (@exec_computes c i (fun _ => none) (fun _ => none) hi).2
    obtain ⟨hleaves, hlist⟩ := @ih (i.exec (fun _ => none) c).1 hblock (hpc ▸ hrest)
    exact ⟨(leaves_computes hfetch hi).trans hleaves, hlist⟩

/-- **A call**: the platform answers, and the program goes on. -/
theorem leaves_call (hblock : block.all Instr.computes = true)
    (h : M.Listing s c.pc (block ++ .svc imm :: l))
    (hserve : M.serve s (execAll c block).next (.svc imm) = .inl (s', c')) :
    Leaves M.turn (s, c) r ↔ Leaves M.turn (s', c') r := by
  obtain ⟨hleaves, hfetch, -⟩ := leaves_block (r := r) hblock h
  refine hleaves.trans (leaves_next ?_)
  rw [turn_eq hfetch]
  exact hserve

/-- **…or it does not.** -/
theorem leaves_last (hblock : block.all Instr.computes = true)
    (h : M.Listing s c.pc (block ++ .svc imm :: l))
    (hserve : M.serve s (execAll c block).next (.svc imm) = .inr r') :
    Leaves M.turn (s, c) r ↔ r = r' := by
  obtain ⟨hleaves, hfetch, -⟩ := leaves_block (r := r) hblock h
  refine hleaves.trans (leaves_end ?_)
  rw [turn_eq hfetch]
  exact hserve

/-- A breakpoint that ends the run. -/
theorem leaves_brk (h : M.Listing s c.pc (.brk imm :: l))
    (hserve : M.serve s c (.brk imm) = .inr r') : Leaves M.turn (s, c) r ↔ r = r' := by
  refine leaves_end ?_
  rw [turn_eq h.1]
  exact hserve

/-- A load. -/
theorem leaves_ldr {rt rn : Reg} {offset : BitVec 12} {v : BitVec 64}
    (h : M.Listing s c.pc (.ldr rt rn offset :: l))
    (hload : M.load s (c.x rn + (offset.setWidth 64 <<< 3)) = some v) :
    Leaves M.turn (s, c) r ↔ Leaves M.turn (s, c.put rt v) r := by
  refine leaves_next ?_
  rw [turn_eq h.1, Instr.exec, hload]

/-- A branch. -/
theorem leaves_bcond {cond : BitVec 4} {offset : BitVec 19}
    (h : M.Listing s c.pc (.bcond cond offset :: l)) :
    Leaves M.turn (s, c) r ↔ Leaves M.turn
      (s, if c.nzcv.holds cond then { c with pc := c.pc + (offset.signExtend 64 <<< 2) }
        else c.next) r := by
  refine leaves_next ?_
  rw [turn_eq h.1, Instr.exec]

/-- The instructions after the first ones. -/
theorem Listing.drop (h : M.Listing s pc (block ++ l)) :
    M.Listing s (pc + BitVec.ofNat 64 (4 * block.length)) l := by
  induction block generalizing pc with
  | nil =>
    rw [List.length_nil, Nat.mul_zero, show pc + BitVec.ofNat 64 0 = pc from BitVec.add_zero _]
    exact h
  | cons i block ih =>
    have hstep : pc + BitVec.ofNat 64 (4 * (i :: block).length)
        = pc + 4 + BitVec.ofNat 64 (4 * block.length) := by
      rw [List.length_cons, Nat.mul_succ, Nat.add_comm, BitVec.ofNat_add, BitVec.add_assoc]
      rfl
    rw [hstep]
    exact ih h.2

theorem Listing.congr (h : M.Listing s pc l) (hfetch : M.fetch s' = M.fetch s) :
    M.Listing s' pc l := by
  induction l generalizing pc with
  | nil => trivial
  | cons i l ih => exact ⟨hfetch ▸ h.1, ih h.2⟩

/-- Words in memory, one after the other, are a listing of what they stand for. -/
theorem Listing.of_words {words : List (BitVec 32)} (hdecode : words.map decode = l.map some)
    (h : ∀ j (hj : j < words.length),
      M.fetch s (pc + BitVec.ofNat 64 (4 * j)) = some words[j]) : M.Listing s pc l := by
  induction words generalizing pc l with
  | nil =>
    obtain rfl : l = [] := List.map_eq_nil_iff.mp hdecode.symm
    trivial
  | cons w words ih =>
    cases l with
    | nil => cases hdecode
    | cons i l =>
      obtain ⟨hi, hdecode⟩ := List.cons.inj hdecode
      refine ⟨?_, ih hdecode fun j hj => ?_⟩
      · have hfirst := h 0 (Nat.succ_pos _)
        rw [Nat.mul_zero, show pc + BitVec.ofNat 64 0 = pc from BitVec.add_zero _] at hfirst
        rw [hfirst]
        exact hi
      · have hnext := h (j + 1) (Nat.succ_lt_succ hj)
        rw [Nat.mul_succ, Nat.add_comm, BitVec.ofNat_add, ← BitVec.add_assoc] at hnext
        exact hnext

end Rules

end Machinery.A64
