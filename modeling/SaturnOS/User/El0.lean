import SaturnOS.Machinery.A64
import SaturnOS.Memory.Execution
import SaturnOS.Memory.UserRange
import SaturnOS.User.Exceptions
import SaturnOS.User.Streams

/-!
# User/El0 — a program, instruction by instruction

    pc ──fetch──▸ word ──▸ computes, loads, branches
                     └───▸ svc ──syscall_dispatch──▸ x0, and on    exit, fault ──▸ the session ends

A program in EL0 runs on the words of its code page, as the user tables of its task let it fetch and
load.  An `svc` is dispatched with what stands in the registers, and its result comes back in `x0`
alone: this is what the stubs of `exception.s` make of it (`serve_stub`).
-/

open Machinery

namespace SaturnOS

/-! ## The platform -/

/-- Why a program is no longer running. -/
inductive El0End
  /-- The session is closed: the kernel goes on behind `arm64_enter_el0_task`. -/
  | left (o : OsState)
  /-- Another task runs; the call is made again where there is no result. -/
  | switched (o : OsState) (core : A64.Core) (next : Switch) (result : Option ℤ)
  /-- A data abort of the kernel on the memory of the program. -/
  | aborted
  | panicked
  /-- EL0 may fetch there, and it is no page of a user region. -/
  | elsewhere

/-- A translation, if it lets EL0 do what is asked. -/
def el0Walk (L : Layout) (k : Kernel) (allows : Word → Bool) (address : Word) :
    Option Translation :=
  (walk L k.spaces.tables k.ttbr0 address).filter fun t => allows t.descriptor

/-- The instruction word at an address. -/
def el0Fetch (L : Layout) (o : OsState) (pc : Word) : Option (BitVec 32) :=
  if pc.toNat % 4 = 0 then
    (el0Walk L o.kernel (fun d => decide (El0Executable d)) pc).bind fun _ =>
      (userLoadBytes L o.kernel pc 4).map fun bytes => BitVec.ofNat 32 (ofLe bytes)
  else none

/-- The eight bytes at an address. -/
def el0Load (L : Layout) (o : OsState) (address : Word) : Option Word :=
  if (List.range 8).all fun i =>
    (el0Walk L o.kernel arm64MmuDescHasUserAccess (address + BitVec.ofNat 64 i)).isSome then
    (userLoadBytes L o.kernel address 8).map fun bytes => BitVec.ofNat 64 (ofLe bytes)
  else none

section Platform

variable (L : Layout) (S : Symbols) (o : OsState) (c : A64.Core)

/-- A syscall: exit goes its own way, as in `exception_sync_handler`. -/
def serveCall : (OsState × A64.Core) ⊕ El0End :=
  if c.x 8 = syscallExit then
    match userModeHandleExitSyscall (c.x 0) o.kernel with
    | (k, some _) => .inr (.left { o with kernel := k })
    | (k, none) => .inl ({ o with kernel := k }, { c with x := Function.update c.x 0 0 })
  else
    match syscallDispatch L S o (c.x 8) (c.x 0) (c.x 1) (c.x 2) (c.x 3) with
    | (o, .returns result) =>
      .inl (o, { c with x := Function.update c.x 0 (BitVec.ofInt 64 result) })
    | (o, .switches next result) => .inr (.switched o c next result)
    | (_, .aborts) => .inr .aborted

/-- Any other synchronous exception. -/
def serveFault : (OsState × A64.Core) ⊕ El0End :=
  match userModeHandleException arm64SpsrModeEl0t o.kernel with
  | (k, some _) => .inr (.left { o with kernel := k })
  | (_, none) => .inr .panicked

def serve : A64.Trap → (OsState × A64.Core) ⊕ El0End
  | .svc _ => serveCall L S o c
  | .brk _ | .undefined => serveFault o
  | .abort =>
    if (el0Walk L o.kernel (fun d => decide (El0Executable d)) c.pc).isSome
        && (userCell L o.kernel c.pc).isNone then .inr .elsewhere
    else serveFault o

def el0Platform : A64.Platform OsState El0End where
  fetch := el0Fetch L
  load := el0Load L
  serve := serve L S

end Platform

/-! ## The stubs -/

/-- The CPU of a program: its registers and its place. -/
structure OnCpu (c : A64.Core) (cpu : Cpu) : Prop where
  x : cpu.x = c.x
  pc : cpu.pc = c.pc

/-- `ESR_EL1` of an `svc`. -/
def SvcSyndrome (esr : Word) : Prop := exceptionClassValue esr = esrEcSvc64

section Stubs

variable {L : Layout} {S : Symbols} {o o' : OsState} {c c' : A64.Core} {cpu : Cpu} {esr : Word}

/-- A synchronous exception that the handler takes care of. -/
theorem exceptionFromLower_handled {effect : Kernel × Word} {k k' : Kernel}
    {frame : ExceptionFrame} {cpu' : Cpu} {control : Control}
    (h : exceptionSyncHandler effect esr (pushFrame cpu.x) cpu.takeException k
      = some (k', frame, cpu')) :
    exceptionFromLower .sync effect esr ⟨k, cpu, control⟩
      = ⟨k', { cpu' with x := popFrame frame }.eret, eretControl cpu'.spsr⟩ := by
  have hentry : exceptionSyncEntry effect esr cpu.takeException k
      = some (k', { cpu' with x := popFrame frame }.eret) := by
    rw [exceptionSyncEntry, show cpu.takeException.x = cpu.x from rfl, h]
  simp only [exceptionFromLower, exceptionVector, hentry]
  rfl

/-- **A syscall that returns**, through the stub: the program goes on with the result. -/
theorem serve_stub (hcpu : OnCpu c cpu) (hmode : exceptionFromEl0 cpu.pstate = true)
    (hesr : SvcSyndrome esr) (hopen : OpenSession S o.kernel) {imm : BitVec 16}
    (hserve : serve L S o c (.svc imm) = .inl (o', c')) :
    ∃ result : Word, c' = { c with x := Function.update c.x 0 result } ∧
      ∃ cpu', exceptionFromLower .sync (o'.kernel, result) esr ⟨o.kernel, cpu, .el0⟩
          = ⟨o'.kernel, cpu', .el0⟩ ∧ OnCpu c' cpu' ∧ cpu'.pstate = cpu.pstate
        ∧ cpu'.spEl0 = cpu.spEl0 := by
  rw [serve, serveCall] at hserve
  split at hserve
  · -- an open session ends
    have hexit := (handleExitSyscall_open hopen (c.x 0)).1
    split at hserve
    · cases hserve
    · rename_i k heq
      rw [heq] at hexit
      cases hexit
  · rename_i hnot
    split at hserve
    · rename_i o₁ result heq
      obtain ⟨rfl, rfl⟩ := Prod.mk.inj (Sum.inl.inj hserve)
      have hhandler : exceptionSyncHandler (o₁.kernel, BitVec.ofInt 64 result) esr
          (pushFrame cpu.x) cpu.takeException o.kernel
          = some (o₁.kernel, setFrameX0 (pushFrame c.x) (BitVec.ofInt 64 result),
            cpu.takeException) := by
        rw [exceptionSyncHandler, if_pos ⟨hmode, hesr⟩, popFrame_pushFrame, hcpu.x, if_neg hnot]
      have hsync := @exceptionFromLower_handled cpu esr _ _ _ _ _ .el0 hhandler
      rw [popFrame_setFrameX0, popFrame_pushFrame,
        show eretControl cpu.takeException.spsr = .el0 from if_pos hmode] at hsync
      exact ⟨_, rfl, _, hsync, ⟨rfl, hcpu.pc⟩, rfl, rfl⟩
    · cases hserve
    · cases hserve

/-- **…and one that ends the session**, through the stub: the kernel goes on behind
`arm64_enter_el0_task`. -/
theorem leave_stub (hcpu : OnCpu c cpu) (hmode : exceptionFromEl0 cpu.pstate = true)
    (hesr : SvcSyndrome esr) (hopen : OpenSession S o.kernel) {imm : BitVec 16}
    (hserve : serve L S o c (.svc imm) = .inr (.left o')) (effect : Kernel × Word) :
    ∃ cpu', exceptionFromLower .sync effect esr ⟨o.kernel, cpu, .el0⟩ = ⟨o'.kernel, cpu', .el1⟩
      ∧ cpu'.pc = S.arm64El0TaskReturn ∧ o'.kernel.userSession.faulted = false := by
  rw [serve, serveCall] at hserve
  split at hserve
  · rename_i hexit
    obtain ⟨hreturn, hfaulted⟩ := handleExitSyscall_open hopen (c.x 0)
    split at hserve
    · rename_i k wr heq
      obtain rfl := El0End.left.inj (Sum.inr.inj hserve)
      rw [heq] at hreturn hfaulted
      obtain rfl := Option.some.inj hreturn
      have hhandler : exceptionSyncHandler effect esr (pushFrame cpu.x) cpu.takeException o.kernel
          = some (k, setFrameX0 (pushFrame c.x) 0,
            cpu.takeException.writeReturn (some (S.arm64El0TaskReturn, arm64SpsrEl1h))) := by
        rw [exceptionSyncHandler, if_pos ⟨hmode, hesr⟩, popFrame_pushFrame, hcpu.x, if_pos hexit,
          heq]
      have hsync := @exceptionFromLower_handled cpu esr _ _ _ _ _ .el0 hhandler
      rw [show eretControl (cpu.takeException.writeReturn
        (some (S.arm64El0TaskReturn, arm64SpsrEl1h))).spsr = .el1 from
        (by decide : eretControl arm64SpsrEl1h = .el1)] at hsync
      exact ⟨_, hsync, rfl, hfaulted⟩
    · cases hserve
  · split at hserve
    · cases hserve
    · cases hserve
    · cases hserve

end Stubs

/-! ## At home -/

/-- **The caller runs on the pages of a slot**, and may ask for the ranges of its regions. -/
structure Home (L : Layout) (k : Kernel) (slot : Fin 4) : Prop where
  root : k.ttbr0 = L.table (.userL1 slot)
  tables : ∃ k₁ k₂, SlotTables L slot k₁ k₂ k.spaces.tables
  space : ∃ space, syscallAddressSpace k = some space ∧ space.kind = .user
    ∧ space.userRegions = userRegionTable

/-- The bytes at a place of a page. -/
def HoldsAt (page : Page) (a : ℕ) (bytes : List Byte) : Prop :=
  ∀ j (hj : j < bytes.length), ∃ h : a + j < 4096, page ⟨a + j, h⟩ = bytes[j]

/-- An address in the first page of a region. -/
def inRegion (i : Fin 3) (a : ℕ) : Word := (userRegionTable i).start + BitVec.ofNat 64 a

section Pages

variable {page : Page} {a : ℕ} {A bytes C : List Byte}

theorem HoldsAt.of_ofFn (h : List.ofFn page = A ++ bytes ++ C) : HoldsAt page A.length bytes := by
  intro j hj
  have hlen := congrArg List.length h
  rw [List.length_ofFn, List.length_append, List.length_append] at hlen
  have hlt : A.length + j < 4096 := by omega
  refine ⟨hlt, ?_⟩
  have hget : (List.ofFn page)[A.length + j]? = bytes[j]? := by
    rw [h, List.append_assoc, List.getElem?_append_right (Nat.le_add_right _ _),
      Nat.add_sub_cancel_left, List.getElem?_append_left hj]
  rw [List.getElem?_ofFn, dif_pos hlt, List.getElem?_eq_getElem hj] at hget
  exact Option.some.inj hget

theorem HoldsAt.of_take {n : ℕ} (h : ((List.ofFn page).drop a).take n = bytes) :
    HoldsAt page a bytes := by
  intro j hj
  subst h
  have hlt : a + j < 4096 := by
    rw [List.length_take, List.length_drop, List.length_ofFn] at hj
    omega
  refine ⟨hlt, ?_⟩
  rw [List.getElem_take, List.getElem_drop, List.getElem_ofFn]

theorem HoldsAt.head {b : Byte} (h : HoldsAt page a (b :: bytes)) :
    ∃ ha : a < 4096, page ⟨a, ha⟩ = b := h 0 (Nat.succ_pos _)

theorem HoldsAt.tail {b : Byte} (h : HoldsAt page a (b :: bytes)) : HoldsAt page (a + 1) bytes := by
  intro j hj
  obtain ⟨hlt, heq⟩ := h (j + 1) (Nat.succ_lt_succ hj)
  refine ⟨by omega, ?_⟩
  rw [List.getElem_cons_succ] at heq
  rw [← heq]
  exact congrArg page (Fin.ext (by simp only; omega))

/-- A part of what a page holds. -/
theorem HoldsAt.part {n m : ℕ} (h : HoldsAt page a bytes) :
    HoldsAt page (a + n) ((bytes.drop n).take m) := by
  intro j hj
  have hj' : n + j < bytes.length := by
    rw [List.length_take, List.length_drop] at hj
    omega
  obtain ⟨hlt, heq⟩ := h (n + j) hj'
  refine ⟨by omega, ?_⟩
  rw [List.getElem_take, List.getElem_drop, ← heq]
  exact congrArg page (Fin.ext (Nat.add_assoc a n j))

end Pages

section Home

variable {L : Layout} {k k' : Kernel} {slot : Fin 4} {i : Fin 3} {a n : ℕ} {bytes : List Byte}

theorem start_aligned (i : Fin 3) : (userRegionTable i).start.toNat % 4096 = 0
    ∧ (userRegionTable i).start.toNat + 8192 < 2 ^ 64 := by
  revert i
  decide

theorem inRegion_toNat (ha : a ≤ 4096) :
    (inRegion i a).toNat = (userRegionTable i).start.toNat + a := by
  have hstart := (start_aligned i).2
  rw [inRegion, BitVec.toNat_add, BitVec.toNat_ofNat]
  omega

theorem inRegion_add (i : Fin 3) (a n : ℕ) :
    inRegion i a + BitVec.ofNat 64 n = inRegion i (a + n) := by
  rw [inRegion, inRegion, BitVec.add_assoc, BitVec.ofNat_add]

theorem inFirstPage (ha : a < 4096) : InFirstPage i (inRegion i a) := by
  rw [InFirstPage, inRegion_toNat ha.le]
  omega

theorem mem_regionPages (slot : Fin 4) (i : Fin 3) : (slot, i) ∈ regionPages := by
  revert slot i
  decide

/-- A page of a region is stored to where the region is writable. -/
theorem regionAttributes_writable (i : Fin 3) :
    ((userRegionTable i).attributes &&& arm64DescApRoEl1 == 0) = (userRegionTable i).writable := by
  revert i
  decide

/-- The page behind an address in a page of a region. -/
theorem pageAt_region (L : Layout) (slot : Fin 4) (i : Fin 3) (address : Word) :
    pageAt L (L.base (.region slot i) + (address &&& (arm64PageSize - 1))) = some (slot, i) := by
  have hpage : (L.base (.region slot i) + (address &&& (arm64PageSize - 1)))
      &&& ~~~(arm64PageSize - 1) = L.base (.region slot i) := by
    refine BitVec.eq_of_toNat_eq ?_
    have hal := (L.pageAddress (.region slot i)).aligned
    have hbase := page_of_base (L := L) (.region slot i) address
    rw [show arm64PageSize - 1 = BitVec.ofNat 64 (2 ^ 12 - 1) from rfl] at hbase ⊢
    rw [toNat_and_not]
    omega
  have hsome : (pageAt L (L.base (.region slot i) + (address &&& (arm64PageSize - 1)))).isSome
      = true := by
    rw [pageAt, List.find?_isSome, hpage]
    exact ⟨(slot, i), mem_regionPages slot i, beq_self_eq_true _⟩
  obtain ⟨p, hp⟩ := Option.isSome_iff_exists.mp hsome
  have hbase := List.find?_some hp
  rw [hpage, beq_iff_eq] at hbase
  cases L.base_injective hbase
  exact hp

variable (h : Home L k slot)

include h

theorem Home.congr (hview : SameView k k') : Home L k' slot where
  root := hview.ttbr0.trans h.root
  tables := hview.tables ▸ h.tables
  space := hview.space ▸ h.space

theorem Home.walk_eq (ha : a < 4096) : walk L k.spaces.tables k.ttbr0 (inRegion i a)
    = some ⟨L.base (.region slot i) + (inRegion i a &&& (arm64PageSize - 1)), regionDesc L slot i,
      3⟩ := by
  obtain ⟨k₁, k₂, hT⟩ := h.tables
  rw [h.root]
  exact walk_user_firstPage hT (inFirstPage ha)

/-- **The cell behind an address** in the first page of a region. -/
theorem Home.cell (ha : a < 4096) : userCell L k (inRegion i a)
    = some ⟨slot, i, ⟨a, ha⟩, (userRegionTable i).writable⟩ := by
  have hwalk := h.walk_eq (i := i) ha
  have hlow := walk_low hwalk
  have hoffset : Fin.ofNat 4096 (L.base (.region slot i)
      + (inRegion i a &&& (arm64PageSize - 1))).toNat = ⟨a, ha⟩ := by
    refine Fin.ext ?_
    have hstart := (start_aligned i).1
    rw [inRegion_toNat ha.le] at hlow
    exact hlow.trans (show (_ + a) % 4096 = a by omega)
  have hwritable : (regionDesc L slot i &&& arm64DescApRoEl1 == 0)
      = (userRegionTable i).writable := by
    rw [regionDesc, pageDesc_and (L.pageAddress _) (by decide) (by decide)]
    exact regionAttributes_writable i
  rw [userCell, hwalk, Option.bind_some, pageAt_region, Option.map_some, hoffset, hwritable]

theorem Home.userLoad (ha : a < 4096) :
    userLoad L k (inRegion i a) = some (k.spaces.userRegionPages slot i ⟨a, ha⟩) := by
  rw [SaturnOS.userLoad, h.cell ha, Option.map_some]

/-- **What a page holds is loaded.** -/
theorem Home.load (hbytes : HoldsAt (k.spaces.userRegionPages slot i) a bytes) :
    userLoadBytes L k (inRegion i a) bytes.length = some bytes := by
  induction bytes generalizing a with
  | nil => rfl
  | cons b bytes ih =>
    obtain ⟨ha, hb⟩ := hbytes.head
    rw [List.length_cons, userLoadBytes, h.userLoad ha, Option.bind_some,
      show inRegion i a + 1 = inRegion i (a + 1) from inRegion_add i a 1, ih hbytes.tail,
      Option.map_some, hb]

omit h in
theorem inRegion_range (i : Fin 3) (hfits : a + n ≤ 4096) :
    InRegion i (inRegion i a) (BitVec.ofNat 64 n) := by
  have hstop : ∀ i, (userRegionTable i).start.toNat + 4096 ≤ (userRegionTable i).stop.toNat := by
    decide
  have := hstop i
  rw [InRegion, inRegion_toNat (by omega), BitVec.toNat_ofNat]
  omega

omit h in
theorem ofNat_ne_zero (hn : 0 < n) (hfits : a + n ≤ 4096) : BitVec.ofNat 64 n ≠ 0 := by
  intro hzero
  have := congrArg BitVec.toNat hzero
  rw [BitVec.toNat_ofNat, Nat.mod_eq_of_lt (by omega)] at this
  exact absurd this (Nat.pos_iff_ne_zero.mp hn)

theorem Home.readable {o : OsState} (hk : o.kernel = k) (hn : 0 < n) (hfits : a + n ≤ 4096) :
    o.readable (inRegion i a) (BitVec.ofNat 64 n) = true := by
  obtain ⟨space, hspace, hkind, hregions⟩ := h.space
  rw [OsState.readable, hk, hspace, userRangeValid_iff hkind hregions (ofNat_ne_zero hn hfits)]
  exact ⟨i, inRegion_range i hfits⟩

theorem Home.writable {o : OsState} (hk : o.kernel = k) (hn : 0 < n) (hfits : a + n ≤ 4096)
    (hi : (userRegionTable i).writable = true) :
    o.writable (inRegion i a) (BitVec.ofNat 64 n) = true := by
  obtain ⟨space, hspace, hkind, hregions⟩ := h.space
  rw [OsState.writable, hk, hspace,
    userWritableRangeValid_iff hkind hregions (ofNat_ne_zero hn hfits)]
  exact ⟨i, hi, inRegion_range i hfits⟩

/-- **What is stored in a page** stands there, and nothing else is written. -/
theorem Home.store (hi : (userRegionTable i).writable = true) (hfits : a + bytes.length ≤ 4096) :
    userStoreBytes L (inRegion i a) bytes k = some (k.setPages
      (Function.update k.spaces.userRegionPages slot
        (Function.update (k.spaces.userRegionPages slot) i
          (writePage (k.spaces.userRegionPages slot i) a bytes.length
            fun j => bytes.getD j 0)))) := by
  induction bytes generalizing a k with
  | nil =>
    have hsame : writePage (k.spaces.userRegionPages slot i) a 0 (fun j => [].getD j 0)
        = k.spaces.userRegionPages slot i := funext fun j => if_neg fun hj => by omega
    rw [List.length_nil, hsame, Function.update_eq_self, Function.update_eq_self]
    rfl
  | cons b bytes ih =>
    rw [List.length_cons] at hfits
    have ha : a < 4096 := by omega
    have hstore : userStore L k (inRegion i a) b = some (k.setPages
        (setCell k.spaces.userRegionPages ⟨slot, i, ⟨a, ha⟩, (userRegionTable i).writable⟩ b)) := by
      rw [userStore, h.cell ha]
      exact if_pos hi
    rw [userStoreBytes, hstore, Option.bind_some,
      show inRegion i a + 1 = inRegion i (a + 1) from inRegion_add i a 1,
      ih (h.congr (SameView.setPages k _)) (by omega)]
    -- the first byte, and then the others
    have hpage : writePage (Function.update (k.spaces.userRegionPages slot i) ⟨a, ha⟩ b) (a + 1)
        bytes.length (fun j => bytes.getD j 0)
        = writePage (k.spaces.userRegionPages slot i) a (bytes.length + 1)
          fun j => (b :: bytes).getD j 0 := by
      funext j
      rw [writePage, writePage]
      rcases Nat.lt_trichotomy j.val a with hj | hj | hj
      · rw [if_neg (by omega), if_neg (by omega),
          Function.update_of_ne (fun heq => by rw [heq] at hj; exact Nat.lt_irrefl _ hj)]
      · obtain rfl : j = ⟨a, ha⟩ := Fin.ext hj
        rw [if_neg (by omega), if_pos (by simp), Function.update_self, Nat.sub_self]
        rfl
      · by_cases hin : j.val < a + 1 + bytes.length
        · rw [if_pos ⟨hj, hin⟩, if_pos (by omega), show j.val - a = j.val - (a + 1) + 1 by omega,
            List.getD_cons_succ]
        · rw [if_neg (by omega), if_neg (by omega),
            Function.update_of_ne (fun heq => by rw [heq] at hj; exact Nat.lt_irrefl _ hj)]
    rw [Kernel.setPages, Kernel.setPages, Kernel.setPages]
    simp only [setCell, Function.update_self, Function.update_idem, hpage, List.length_cons]

/-! ## Fetching -/

/-- **The words of the code page are fetched.** -/
theorem Home.fetch {o : OsState} (hk : o.kernel = k) {w : BitVec 32}
    (hword : HoldsAt (k.spaces.userRegionPages slot codeRegion) a (toLe 4 w.toNat))
    (ha : a % 4 = 0) : el0Fetch L o (inRegion codeRegion a) = some w := by
  have hlen : (toLe 4 w.toNat).length = 4 := length_toLe 4 w.toNat
  have hlt : a < 4096 := (hword 0 (by rw [hlen]; omega)).1
  have hexec : El0Executable (regionDesc L slot codeRegion) := by
    rw [El0Executable, regionDesc, pageDesc_and (L.pageAddress _) (by decide) (by decide)]
    decide
  have haligned : (inRegion codeRegion a).toNat % 4 = 0 := by
    have hstart := (start_aligned codeRegion).1
    rw [inRegion_toNat hlt.le]
    omega
  have hload := h.load hword
  rw [hlen] at hload
  rw [el0Fetch, if_pos haligned, hk, el0Walk, h.walk_eq hlt, Option.filter_some,
    if_pos (decide_eq_true hexec), Option.bind_some, hload, Option.map_some, ofLe_toLe,
    Nat.mod_eq_of_lt (show w.toNat < 256 ^ 4 from w.isLt), BitVec.ofNat_toNat]
  rfl

/-- **A double word of a page is loaded.** -/
theorem Home.loadWord {o : OsState} (hk : o.kernel = k) {w : Word}
    (hword : HoldsAt (k.spaces.userRegionPages slot i) a (toLe 8 w.toNat)) :
    el0Load L o (inRegion i a) = some w := by
  have hlen : (toLe 8 w.toNat).length = 8 := length_toLe 8 w.toNat
  have hload := h.load hword
  rw [hlen] at hload
  have haccess : ((List.range 8).all fun j => (el0Walk L o.kernel arm64MmuDescHasUserAccess
      (inRegion i a + BitVec.ofNat 64 j)).isSome) = true := by
    refine List.all_eq_true.mpr fun j hj => ?_
    obtain ⟨hlt, -⟩ := hword j (by rw [hlen]; exact List.mem_range.mp hj)
    rw [inRegion_add, el0Walk, hk, h.walk_eq hlt, Option.filter_some,
      if_pos (hasUserAccess_region i)]
    rfl
  rw [el0Load, if_pos haccess, hk, hload, Option.map_some, ofLe_toLe,
    Nat.mod_eq_of_lt (show w.toNat < 256 ^ 8 from w.isLt), BitVec.ofNat_toNat]
  rfl

end Home

end SaturnOS
