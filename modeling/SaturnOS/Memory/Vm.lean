import SaturnOS.Arch.Walk
import SaturnOS.Sched.Stacks

/-!
# Memory/Vm — the kernel's identity map

`build_tables` of `kernel/memory/vm.c`: two regions mapped by 2 MiB blocks, then the block holding
the kernel image split into pages, with the stack guards left out.  A C function that returns `0`
keeps what it had written so far, so each one here returns the state next to its flag.

`KernelMapped` is what every write keeps: an L1 entry is empty or an L2 table, an L2 entry is empty,
a kernel block or the one L3 table, an L3 entry is empty or a kernel page — and an L2 entry is only
used where a region was planned.  Hence a walk from the kernel root never ends in an EL0-accessible
descriptor (`walk_kernel_noUserAccess`) nor outside the plan (`walk_kernel_unplanned`).
-/

namespace SaturnOS

/-! ## Constants and linker symbols -/

/-- The pool of second-level tables. -/
def vmL2TableCapacity : ℕ := 4
def vmDeviceMmioEnd : Word := 0x0a200000
def vmKernelL3Base : Word := 0x40000000

/-- The attributes of memory that is not executed in EL1, nor in EL0… -/
def vmNormalXnMemoryAttr : Word := arm64NormalMemoryAttr ||| arm64DescPxn ||| arm64DescUxn

/-- …that is not written either… -/
def vmNormalRoXnMemoryAttr : Word :=
  (arm64NormalMemoryAttr &&& ~~~arm64DescApMask) ||| arm64DescApRoEl1 ||| arm64DescPxn
    ||| arm64DescUxn

/-- …and of the kernel's text, read-only and left executable. -/
def vmNormalRoExecMemoryAttr : Word :=
  (arm64NormalMemoryAttr &&& ~~~arm64DescApMask) ||| arm64DescApRoEl1

/-- The linker symbols the map depends on, and the scheduler's stack region. -/
structure Image where
  textStart : Word
  textEnd : Word
  rodataStart : Word
  rodataEnd : Word
  taskStackRegion : Word

/-- `struct vm_region`. -/
structure VmRegion where
  virtualStart : Word
  physicalStart : Word
  size : Word
  attributes : Word

/-- The device window. -/
def vmMmio : VmRegion :=
  ⟨0x08000000, 0x08000000, vmDeviceMmioEnd - 0x08000000, arm64DeviceMemoryAttr⟩

/-- The 128 MiB of memory, mapped where they are. -/
def vmRam : VmRegion := ⟨0x40000000, 0x40000000, 0x08000000, vmNormalXnMemoryAttr⟩

/-- `regions`, in the order in which they are mapped. -/
def vmRegions : List VmRegion := [vmMmio, vmRam]

/-- A second-level table of the pool: the entry of the root it was taken for. -/
structure VmL2TableSlot where
  l1Index : Word := 0
  used : Bool := false

/-- The static state of the file. -/
structure VmState where
  tables : Tables
  l2Slots : Fin 4 → VmL2TableSlot := fun _ => {}
  usedL2Tables : ℕ := 0
  kernelL3Mapped : Bool := false
  blocksMapped : Word := 0
  pagesMapped : Word := 0
  guardPages : Word := 0
  execBlocks : Word := 0
  xnBlocks : Word := 0
  execPages : Word := 0
  xnPages : Word := 0
  bytesMapped : Word := 0

/-! ## Page attributes -/

/-- `align_down`, to a power of two… -/
def alignDown (value size : Word) : Word := value &&& ~~~(size - 1)

/-- …and `align_up`. -/
def alignUp (value size : Word) : Word := (value + size - 1) &&& ~~~(size - 1)

/-- `address_in_range`, the end excluded. -/
def addressInRange (address start stop : Word) : Bool :=
  decide (start ≤ address) && decide (address < stop)

def addressInKernelText (img : Image) (address : Word) : Bool :=
  addressInRange address (alignDown img.textStart arm64PageSize) (alignUp img.textEnd arm64PageSize)

def addressInKernelRodata (img : Image) (address : Word) : Bool :=
  addressInRange address (alignDown img.rodataStart arm64PageSize)
    (alignUp img.rodataEnd arm64PageSize)

/-- `kernel_page_attributes`: the text, the constants, and everything else. -/
def kernelPageAttributes (img : Image) (address : Word) : Word :=
  if addressInKernelText img address then vmNormalRoExecMemoryAttr
  else if addressInKernelRodata img address then vmNormalRoXnMemoryAttr
  else vmNormalXnMemoryAttr

/-- `vm_address_is_guard_page`: the guards are those of the task stacks. -/
def vmAddressIsGuardPage (img : Image) (address : Word) : Bool :=
  schedulerAddressIsStackGuard img.taskStackRegion address

/-! ## Building the tables -/

section Build

variable (L : Layout) (img : Image)

def clearTable (T : Tables) (id : TableId) : Tables := Function.update T id fun _ => 0

/-- The L2 table serving an L1 entry, taken from the pool at its first use. -/
def getL2Table (l1Index : Word) (st : VmState) : VmState × Option (Fin 4) :=
  match (List.finRange 4).find? fun slot =>
      decide (slot.val < st.usedL2Tables) && (st.l2Slots slot).used
        && (st.l2Slots slot).l1Index == l1Index with
  | some slot => (st, some slot)
  | none =>
    if h : st.usedL2Tables < vmL2TableCapacity then
      let slot : Fin 4 := ⟨st.usedL2Tables, h⟩
      ({ st with
        usedL2Tables := st.usedL2Tables + 1
        l2Slots := Function.update st.l2Slots slot { l1Index := l1Index, used := true }
        tables := (clearTable st.tables (.vmL2 slot)).set .vmL1 (tableIndex l1Index)
          (arm64MmuTableDesc (L.table (.vmL2 slot))) }, some slot)
    else (st, none)

def regionIsL2Aligned (region : VmRegion) : Bool :=
  region.virtualStart &&& (arm64L2BlockSize - 1) == 0
    && region.physicalStart &&& (arm64L2BlockSize - 1) == 0
    && region.size &&& (arm64L2BlockSize - 1) == 0

/-- Count one block as mapped. -/
def countBlock (descriptor : Word) (st : VmState) : VmState :=
  let st := if arm64MmuDescIsExecuteNever descriptor then { st with xnBlocks := st.xnBlocks + 1 }
    else { st with execBlocks := st.execBlocks + 1 }
  { st with
    blocksMapped := st.blocksMapped + 1
    bytesMapped := st.bytesMapped + arm64L2BlockSize }

/-- One turn of the block loop, once it has its table. -/
def mapBlock (attributes va pa : Word) (slot : Fin 4) (st : VmState) : VmState :=
  countBlock (arm64MmuL2BlockDesc pa attributes) { st with
    tables := st.tables.set (.vmL2 slot) (tableIndex (arm64MmuL2Index va))
      (arm64MmuL2BlockDesc pa attributes) }

/-- The loop of `map_region`, by the number of blocks left: `remaining` starts block-aligned and
loses one block a turn. -/
def mapBlocks (attributes : Word) : ℕ → Word → Word → VmState → VmState × Bool
  | 0, _, _, st => (st, true)
  | n + 1, va, pa, st =>
    match getL2Table L (arm64MmuL1Index va) st with
    | (st, none) => (st, false)
    | (st, some slot) =>
      mapBlocks attributes n (va + arm64L2BlockSize) (pa + arm64L2BlockSize)
        (mapBlock attributes va pa slot st)

/-- `map_region`: a region is mapped in blocks of 2 MiB, if it is aligned to them. -/
def mapRegion (region : VmRegion) (st : VmState) : VmState × Bool :=
  if !regionIsL2Aligned region then (st, false)
  else mapBlocks L region.attributes (region.size.toNat / 2 ^ 21) region.virtualStart
    region.physicalStart st

/-- One turn of the page loop: guards are counted and left unmapped. -/
def mapKernelPage (st : VmState) (i : Fin 512) : VmState :=
  let address := vmKernelL3Base + BitVec.ofNat 64 i.val * arm64PageSize
  if vmAddressIsGuardPage img address then { st with guardPages := st.guardPages + 1 }
  else
    let descriptor := arm64MmuL3PageDesc address (kernelPageAttributes img address)
    let st := { st with tables := st.tables.set .vmKernelL3 i descriptor }
    let st := if arm64MmuDescIsExecuteNever descriptor then { st with xnPages := st.xnPages + 1 }
      else { st with execPages := st.execPages + 1 }
    { st with
      pagesMapped := st.pagesMapped + 1
      bytesMapped := st.bytesMapped + arm64PageSize }

/-- Take the block a table replaces out of the counts. -/
def uncountBlock (descriptor : Word) (st : VmState) : VmState :=
  if arm64MmuDescIsL2Block descriptor then
    let st := if arm64MmuDescIsExecuteNever descriptor then { st with xnBlocks := st.xnBlocks - 1 }
      else { st with execBlocks := st.execBlocks - 1 }
    { st with
      blocksMapped := st.blocksMapped - 1
      bytesMapped := st.bytesMapped - arm64L2BlockSize }
  else st

/-- `map_kernel_l3_block`: the block of the kernel's image is replaced by a table of pages. -/
def mapKernelL3Block (st : VmState) : VmState × Bool :=
  let l2Index := tableIndex (arm64MmuL2Index vmKernelL3Base)
  match getL2Table L (arm64MmuL1Index vmKernelL3Base) st with
  | (st, none) => (st, false)
  | (st, some slot) =>
    let st := { st with tables := clearTable st.tables .vmKernelL3 }
    let st := (List.finRange 512).foldl (mapKernelPage img) st
    let st := uncountBlock (st.tables (.vmL2 slot) l2Index) st
    ({ st with
      tables := st.tables.set (.vmL2 slot) l2Index (arm64MmuTableDesc (L.table .vmKernelL3))
      kernelL3Mapped := true }, true)

/-- The regions in turn, up to the first that fails. -/
def mapRegions : List VmRegion → VmState → VmState × Bool
  | [], st => (st, true)
  | region :: rest, st =>
    match mapRegion L region st with
    | (st, false) => (st, false)
    | (st, true) => mapRegions rest st

/-- The tables of `vm.c`, cleared. -/
def clearVmTables (T : Tables) : Tables :=
  (List.finRange 4).foldl (fun T slot => clearTable T (.vmL2 slot))
    (clearTable (clearTable T .vmL1) .vmKernelL3)

/-- `build_tables`, over whatever the static arrays held. -/
def buildTables (T : Tables) : VmState × Bool :=
  match mapRegions L vmRegions { tables := clearVmTables T } with
  | (st, false) => (st, false)
  | (st, true) => mapKernelL3Block L img st

end Build

def vmRootTable (L : Layout) : Word := L.table .vmL1

/-! ## What every write keeps -/

/-- Attributes of a leaf with no EL0 access. -/
structure KernelOnly (attributes : Word) : Prop where
  leaf : LeafAttr attributes
  access : attributes &&& arm64DescApMask = arm64DescApRwEl1
    ∨ attributes &&& arm64DescApMask = arm64DescApRoEl1

/-- Neither device nor normal memory is EL0's. -/
theorem kernelOnly_device : KernelOnly arm64DeviceMemoryAttr :=
  ⟨⟨by decide, by decide⟩, .inl (by decide)⟩

theorem kernelOnly_normalXn : KernelOnly vmNormalXnMemoryAttr :=
  ⟨⟨by decide, by decide⟩, .inl (by decide)⟩

/-- An entry of a kernel L2: empty, a kernel block, or the kernel's L3. -/
inductive KernelL2Entry (L : Layout) : Word → Prop
  | empty : KernelL2Entry L 0
  | block (p : Word) {attributes : Word} (h : KernelOnly attributes) :
      KernelL2Entry L (arm64MmuL2BlockDesc p attributes)
  | table : KernelL2Entry L (arm64MmuTableDesc (L.table .vmKernelL3))

/-- An entry of the kernel's L3: empty or a kernel page. -/
inductive KernelL3Entry : Word → Prop
  | empty : KernelL3Entry 0
  | page (p : Word) {attributes : Word} (h : KernelOnly attributes) :
      KernelL3Entry (arm64MmuL3PageDesc p attributes)

/-- The L1 and L2 entries the regions use: the device window in the low gigabyte, the RAM in the
next. -/
def planned (l1 l2 : Fin 512) : Bool :=
  (l1 == 0 && decide (64 ≤ l2) && decide (l2 ≤ 80)) || (l1 == 1 && decide (l2 ≤ 63))

/-- **The shape of the kernel's tables while they are built.**  A pool slot in use hangs from the L1
entry it was taken for; one not in use is empty. -/
structure KernelMapped (L : Layout) (st : VmState) : Prop where
  l1 : ∀ i, st.tables .vmL1 i = 0 ∨ ∃ slot, slot.val < st.usedL2Tables
    ∧ tableIndex (st.l2Slots slot).l1Index = i
    ∧ st.tables .vmL1 i = arm64MmuTableDesc (L.table (.vmL2 slot))
  l2 : ∀ slot i, KernelL2Entry L (st.tables (.vmL2 slot) i)
  l2_planned : ∀ slot i, st.tables (.vmL2 slot) i ≠ 0 →
    slot.val < st.usedL2Tables ∧ planned (tableIndex (st.l2Slots slot).l1Index) i
  l3 : ∀ i, KernelL3Entry (st.tables .vmKernelL3 i)

/-- The low gigabyte hangs from some L2. -/
def LowMapped (st : VmState) : Prop := st.tables .vmL1 0 ≠ 0

/-- A step that keeps the kernel's shape, and the low gigabyte mapped once it is. -/
structure Keeps (L : Layout) (st st' : VmState) : Prop where
  shape : KernelMapped L st → KernelMapped L st'
  low : LowMapped st → LowMapped st'

namespace Keeps

variable {L : Layout} {st st' st'' : VmState}

theorem refl (st : VmState) : Keeps L st st := ⟨id, id⟩

theorem trans (h : Keeps L st st') (h' : Keeps L st' st'') : Keeps L st st'' :=
  ⟨h'.shape ∘ h.shape, h'.low ∘ h.low⟩

/-- Only the tables and the pool matter. -/
theorem of_eq (ht : st'.tables = st.tables) (hs : st'.l2Slots = st.l2Slots)
    (hu : st'.usedL2Tables = st.usedL2Tables) : Keeps L st st' := by
  refine ⟨fun h => ⟨?_, ?_, ?_, ?_⟩, fun h => ?_⟩
  · rw [ht, hs, hu]
    exact h.l1
  · rw [ht]
    exact h.l2
  · rw [ht, hs, hu]
    exact h.l2_planned
  · rw [ht]
    exact h.l3
  · rw [LowMapped, ht]
    exact h

/-- A write to the kernel's L3. -/
theorem set_l3 (i : Fin 512) {d : Word} (hd : KernelL3Entry d) :
    Keeps L st { st with tables := st.tables.set .vmKernelL3 i d } := by
  have h1 : st.tables.set .vmKernelL3 i d .vmL1 = st.tables .vmL1 :=
    Tables.set_of_ne _ (by simp) _ _
  have h2 : ∀ slot, st.tables.set .vmKernelL3 i d (.vmL2 slot) = st.tables (.vmL2 slot) :=
    fun slot => Tables.set_of_ne _ (by simp) _ _
  refine ⟨fun h => ⟨?_, ?_, ?_, fun j => ?_⟩, fun h => ?_⟩
  · simpa only [h1] using h.l1
  · simpa only [h2] using h.l2
  · simpa only [h2] using h.l2_planned
  · dsimp only
    by_cases hj : j = i
    · rw [hj, Tables.set_same]
      exact hd
    · rw [Tables.set_index_ne _ _ hj]
      exact h.l3 j
  · simpa only [LowMapped, h1] using h

/-- Clearing the kernel's L3. -/
theorem clear_l3 : Keeps L st { st with tables := clearTable st.tables .vmKernelL3 } := by
  have h1 : clearTable st.tables .vmKernelL3 .vmL1 = st.tables .vmL1 := by simp [clearTable]
  have h2 : ∀ slot, clearTable st.tables .vmKernelL3 (.vmL2 slot) = st.tables (.vmL2 slot) := by
    simp [clearTable]
  refine ⟨fun h => ⟨?_, ?_, ?_, fun j => ?_⟩, fun h => ?_⟩
  · simpa only [h1] using h.l1
  · simpa only [h2] using h.l2
  · simpa only [h2] using h.l2_planned
  · simpa [clearTable] using KernelL3Entry.empty
  · simpa only [LowMapped, h1] using h

/-- **A write to an L2 of the pool**, at a planned entry. -/
theorem set_l2 {slot : Fin 4} {i : Fin 512} {d : Word} (hslot : slot.val < st.usedL2Tables)
    (hplan : planned (tableIndex (st.l2Slots slot).l1Index) i) (hd : KernelL2Entry L d) :
    Keeps L st { st with tables := st.tables.set (.vmL2 slot) i d } := by
  have h1 : st.tables.set (.vmL2 slot) i d .vmL1 = st.tables .vmL1 :=
    Tables.set_of_ne _ (by simp) _ _
  have h3 : st.tables.set (.vmL2 slot) i d .vmKernelL3 = st.tables .vmKernelL3 :=
    Tables.set_of_ne _ (by simp) _ _
  refine ⟨fun h => ⟨?_, fun s j => ?_, fun s j => ?_, ?_⟩, fun h => ?_⟩
  · simpa only [h1] using h.l1
  · dsimp only
    by_cases hs : TableId.vmL2 s = .vmL2 slot
    · rw [hs]
      by_cases hj : j = i
      · rw [hj, Tables.set_same]
        exact hd
      · rw [Tables.set_index_ne _ _ hj]
        exact h.l2 slot j
    · rw [Tables.set_of_ne _ hs]
      exact h.l2 s j
  · dsimp only
    by_cases hs : TableId.vmL2 s = .vmL2 slot
    · obtain rfl := TableId.vmL2.inj hs
      by_cases hj : j = i
      · obtain rfl := hj
        exact fun _ => ⟨hslot, hplan⟩
      · rw [Tables.set_index_ne _ _ hj]
        exact h.l2_planned s j
    · rw [Tables.set_of_ne _ hs]
      exact h.l2_planned s j
  · simpa only [h3] using h.l3
  · simpa only [LowMapped, h1] using h

end Keeps

/-! ## The build, step by step -/

section Steps

variable (L : Layout) (img : Image)

/-- A table descriptor is not the empty one. -/
theorem tableDesc_ne_zero (p : Word) : arm64MmuTableDesc p ≠ 0 := by
  intro h
  have := descIsTable_tableDesc p
  rw [h] at this
  exact absurd this (by decide)

/-- Taking a fresh slot of the pool. -/
theorem takeL2_keeps (l1Index : Word) (st : VmState) (h : st.usedL2Tables < 4) :
    Keeps L st { st with
      usedL2Tables := st.usedL2Tables + 1
      l2Slots := Function.update st.l2Slots ⟨st.usedL2Tables, h⟩
        { l1Index := l1Index, used := true }
      tables := (clearTable st.tables (.vmL2 ⟨st.usedL2Tables, h⟩)).set .vmL1 (tableIndex l1Index)
        (arm64MmuTableDesc (L.table (.vmL2 ⟨st.usedL2Tables, h⟩))) } := by
  set slot : Fin 4 := ⟨st.usedL2Tables, h⟩ with hslot
  set T := (clearTable st.tables (.vmL2 slot)).set .vmL1 (tableIndex l1Index)
    (arm64MmuTableDesc (L.table (.vmL2 slot))) with hT
  have hl1 : ∀ j, j ≠ tableIndex l1Index → T .vmL1 j = st.tables .vmL1 j := by
    intro j hj
    rw [hT, Tables.set_index_ne _ _ hj]
    simp [clearTable]
  have hsame : T .vmL1 (tableIndex l1Index) = arm64MmuTableDesc (L.table (.vmL2 slot)) := by
    rw [hT, Tables.set_same]
  have hl2 : ∀ s, T (.vmL2 s) = if s = slot then fun _ => 0 else st.tables (.vmL2 s) := by
    intro s
    rw [hT, Tables.set_of_ne _ (by simp), clearTable, Function.update_apply]
    simp
  have hl3 : T .vmKernelL3 = st.tables .vmKernelL3 := by
    rw [hT, Tables.set_of_ne _ (by simp)]
    simp [clearTable]
  -- a slot already in use is another one, so it keeps its entry of the pool
  have hother : ∀ s : Fin 4, s.val < st.usedL2Tables → s ≠ slot := by
    rintro s hs rfl
    exact absurd hs (by simp [hslot])
  refine ⟨fun hm => ⟨fun j => ?_, fun s j => ?_, fun s j hne => ?_, fun j => ?_⟩, fun hm => ?_⟩
  · by_cases hj : j = tableIndex l1Index
    · obtain rfl := hj
      exact .inr ⟨slot, by simp [hslot], by simp, hsame⟩
    · rcases hm.l1 j with h0 | ⟨s, hs, hi, hd⟩
      · exact .inl ((hl1 j hj).trans h0)
      · refine .inr ⟨s, Nat.lt_succ_of_lt hs, ?_, (hl1 j hj).trans hd⟩
        dsimp only
        rw [Function.update_of_ne (hother s hs), hi]
  · dsimp only
    rw [hl2]
    split
    · exact .empty
    · exact hm.l2 s j
  · dsimp only at hne ⊢
    have hs : s ≠ slot := by
      rintro rfl
      simp [hl2] at hne
    rw [hl2, if_neg hs] at hne
    obtain ⟨hlt, hplan⟩ := hm.l2_planned s j hne
    refine ⟨Nat.lt_succ_of_lt hlt, ?_⟩
    rw [Function.update_of_ne hs]
    exact hplan
  · dsimp only
    rw [hl3]
    exact hm.l3 j
  · by_cases h0 : (0 : Fin 512) = tableIndex l1Index
    · refine fun hz => tableDesc_ne_zero (L.table (.vmL2 slot)) ?_
      rw [← hsame, ← h0]
      exact hz
    · exact fun hz => hm ((hl1 0 h0).symm.trans hz)

/-- **What `get_l2_table` gives**: a slot in use, taken for the entry asked for; and a pool not yet
touched hangs that entry. -/
theorem getL2Table_spec (l1Index : Word) (st : VmState) :
    Keeps L st (getL2Table L l1Index st).1
      ∧ (∀ slot, (getL2Table L l1Index st).2 = some slot →
        slot.val < (getL2Table L l1Index st).1.usedL2Tables
          ∧ ((getL2Table L l1Index st).1.l2Slots slot).l1Index = l1Index)
      ∧ (st.usedL2Tables = 0 → (getL2Table L l1Index st).2 ≠ none
        ∧ (getL2Table L l1Index st).1.tables .vmL1 (tableIndex l1Index) ≠ 0) := by
  rw [getL2Table]
  split
  · rename_i slot hfind
    have hslot := List.find?_some hfind
    simp only [Bool.and_eq_true, decide_eq_true_eq, beq_iff_eq] at hslot
    refine ⟨Keeps.refl _, ?_, fun h0 => ?_⟩
    · rintro s hs
      obtain rfl := Option.some.inj hs
      exact ⟨hslot.1.1, hslot.2⟩
    · rw [h0] at hslot
      exact absurd hslot.1.1 (Nat.not_lt_zero _)
  · split
    · rename_i h
      refine ⟨takeL2_keeps L l1Index st h, ?_, fun _ => ⟨nofun, ?_⟩⟩
      · rintro s hs
        obtain rfl := Option.some.inj hs
        exact ⟨Nat.lt_succ_self _, by simp⟩
      · simpa only [Tables.set_same] using tableDesc_ne_zero _
    · rename_i h
      exact ⟨Keeps.refl _, nofun, fun h0 => absurd h (by simp [h0, vmL2TableCapacity])⟩

/-- The counters are not looked at. -/
theorem countBlock_keeps (d : Word) (st : VmState) : Keeps L st (countBlock d st) := by
  rw [countBlock]
  split <;> exact Keeps.of_eq rfl rfl rfl

theorem uncountBlock_keeps (d : Word) (st : VmState) : Keeps L st (uncountBlock d st) := by
  rw [uncountBlock]
  split
  · split <;> exact Keeps.of_eq rfl rfl rfl
  · exact Keeps.refl _

/-- The blocks a region covers are planned. -/
def plannedBlocks : ℕ → Word → Bool
  | 0, _ => true
  | n + 1, va => planned (tableIndex (arm64MmuL1Index va)) (tableIndex (arm64MmuL2Index va))
      && plannedBlocks n (va + arm64L2BlockSize)

theorem mapBlock_keeps {attributes va : Word} (pa : Word) (ha : KernelOnly attributes)
    (hva : planned (tableIndex (arm64MmuL1Index va)) (tableIndex (arm64MmuL2Index va)))
    {st st' : VmState} {slot : Fin 4}
    (h : getL2Table L (arm64MmuL1Index va) st = (st', some slot)) :
    Keeps L st (mapBlock attributes va pa slot st') := by
  obtain ⟨hkeeps, hslot, -⟩ := getL2Table_spec L (arm64MmuL1Index va) st
  rw [h] at hkeeps hslot
  obtain ⟨hlt, hl1⟩ := hslot slot rfl
  refine (hkeeps.trans (Keeps.set_l2 hlt ?_ (.block pa ha))).trans (countBlock_keeps L _ _)
  rw [hl1]
  exact hva

/-- **A row of blocks**, by the number that is left. -/
theorem mapBlocks_keeps {attributes : Word} (ha : KernelOnly attributes) :
    ∀ (n : ℕ) (va pa : Word) (st : VmState), plannedBlocks n va = true →
      Keeps L st (mapBlocks L attributes n va pa st).1
  | 0, _, _, st, _ => Keeps.refl _
  | n + 1, va, pa, st, hplan => by
    obtain ⟨hva, hrest⟩ := Bool.and_eq_true_iff.mp hplan
    rw [mapBlocks]
    split
    · rename_i st' heq
      have hget := (getL2Table_spec L (arm64MmuL1Index va) st).1
      rwa [heq] at hget
    · rename_i st' slot heq
      exact (mapBlock_keeps L pa ha hva heq).trans (mapBlocks_keeps ha n _ _ _ hrest)

/-- Mapping from the low gigabyte, with the pool untouched, hangs it. -/
theorem lowMapped_mapBlocks {attributes : Word} (ha : KernelOnly attributes) (n : ℕ) {va : Word}
    (hplan : plannedBlocks (n + 1) va = true) (hva : tableIndex (arm64MmuL1Index va) = 0)
    (pa : Word) {st : VmState} (hst : st.usedL2Tables = 0) :
    LowMapped (mapBlocks L attributes (n + 1) va pa st).1 := by
  obtain ⟨-, -, hfirst⟩ := getL2Table_spec L (arm64MmuL1Index va) st
  obtain ⟨hsome, hlow⟩ := hfirst hst
  have hrest := (Bool.and_eq_true_iff.mp hplan).2
  rw [hva] at hlow
  rw [mapBlocks]
  split
  · rename_i st' heq
    rw [heq] at hsome
    exact absurd rfl hsome
  · rename_i st' slot heq
    rw [heq] at hlow
    refine (mapBlocks_keeps L ha n _ _ _ hrest).low ?_
    refine (countBlock_keeps L _ _).low ?_
    rw [LowMapped]
    dsimp only
    rw [Tables.set_of_ne _ (by simp)]
    exact hlow

theorem mapRegion_eq {region : VmRegion} {n : ℕ} (haligned : regionIsL2Aligned region = true)
    (hn : region.size.toNat / 2 ^ 21 = n) (st : VmState) :
    mapRegion L region st
      = mapBlocks L region.attributes n region.virtualStart region.physicalStart st := by
  rw [mapRegion, haligned, hn]
  rfl

/-- Both regions are rows of blocks: 17 of them… -/
theorem mapMmio_eq (st : VmState) : mapRegion L vmMmio st
    = mapBlocks L arm64DeviceMemoryAttr 17 vmMmio.virtualStart vmMmio.physicalStart st :=
  mapRegion_eq L (by decide) (by decide) st

/-- …and 64. -/
theorem mapRam_eq (st : VmState) : mapRegion L vmRam st
    = mapBlocks L vmNormalXnMemoryAttr 64 vmRam.virtualStart vmRam.physicalStart st :=
  mapRegion_eq L (by decide) (by decide) st

theorem mapMmio_keeps (st : VmState) : Keeps L st (mapRegion L vmMmio st).1 := by
  rw [mapMmio_eq]
  exact mapBlocks_keeps L kernelOnly_device 17 _ _ st (by decide)

theorem mapRam_keeps (st : VmState) : Keeps L st (mapRegion L vmRam st).1 := by
  rw [mapRam_eq]
  exact mapBlocks_keeps L kernelOnly_normalXn 64 _ _ st (by decide)

/-- The RAM and the end of the list, after the device window. -/
theorem mapRam_rest_keeps (st : VmState) : Keeps L st (mapRegions L [vmRam] st).1 := by
  have hram := mapRam_keeps L st
  rw [mapRegions]
  split <;> rename_i st' heq <;> rw [heq] at hram <;> exact hram

/-- No page of the kernel's block is EL0's, whichever part of the image it is in. -/
theorem kernelOnly_kernelPageAttributes (address : Word) :
    KernelOnly (kernelPageAttributes img address) := by
  rw [kernelPageAttributes]
  split
  · exact ⟨⟨by decide, by decide⟩, .inr (by decide)⟩
  · split
    · exact ⟨⟨by decide, by decide⟩, .inr (by decide)⟩
    · exact kernelOnly_normalXn

theorem mapKernelPage_keeps (st : VmState) (i : Fin 512) :
    Keeps L st (mapKernelPage img st i) := by
  set address := vmKernelL3Base + BitVec.ofNat 64 i.val * arm64PageSize with ha
  have hset : Keeps L st { st with
      tables := st.tables.set .vmKernelL3 i
        (arm64MmuL3PageDesc address (kernelPageAttributes img address)) } :=
    Keeps.set_l3 i (.page address (kernelOnly_kernelPageAttributes img address))
  simp only [mapKernelPage, ← ha]
  split
  · exact Keeps.of_eq rfl rfl rfl
  · split <;> exact hset.trans (Keeps.of_eq rfl rfl rfl)

/-- **The 512 pages**, one after the other. -/
theorem foldl_mapKernelPage_keeps (is : List (Fin 512)) (st : VmState) :
    Keeps L st (is.foldl (mapKernelPage img) st)
      ∧ (is.foldl (mapKernelPage img) st).l2Slots = st.l2Slots
      ∧ (is.foldl (mapKernelPage img) st).usedL2Tables = st.usedL2Tables := by
  refine List.foldlRecOn (motive := fun st' => Keeps L st st' ∧ st'.l2Slots = st.l2Slots
    ∧ st'.usedL2Tables = st.usedL2Tables) is _ ⟨Keeps.refl _, rfl, rfl⟩ ?_
  rintro st' ⟨h, hs, hu⟩ i -
  refine ⟨h.trans (mapKernelPage_keeps L img st' i), ?_, ?_⟩ <;> simp only [mapKernelPage]
  · split
    · exact hs
    · split <;> exact hs
  · split
    · exact hu
    · split <;> exact hu

theorem uncountBlock_pool (d : Word) (st : VmState) :
    (uncountBlock d st).l2Slots = st.l2Slots
      ∧ (uncountBlock d st).usedL2Tables = st.usedL2Tables := by
  rw [uncountBlock]
  split
  · split <;> exact ⟨rfl, rfl⟩
  · exact ⟨rfl, rfl⟩

theorem mapKernelL3Block_keeps (st : VmState) : Keeps L st (mapKernelL3Block L img st).1 := by
  obtain ⟨hget, hslot, -⟩ := getL2Table_spec L (arm64MmuL1Index vmKernelL3Base) st
  simp only [mapKernelL3Block]
  split
  · rename_i st' heq
    rwa [heq] at hget
  · rename_i st' slot heq
    rw [heq] at hget hslot
    obtain ⟨hlt, hl1⟩ := hslot slot rfl
    obtain ⟨hfold, hs, hu⟩ := foldl_mapKernelPage_keeps L img (List.finRange 512)
      { st' with tables := clearTable st'.tables .vmKernelL3 }
    set mapped := (List.finRange 512).foldl (mapKernelPage img)
      { st' with tables := clearTable st'.tables .vmKernelL3 }
    set d := mapped.tables (.vmL2 slot) (tableIndex (arm64MmuL2Index vmKernelL3Base))
    obtain ⟨hs', hu'⟩ := uncountBlock_pool d mapped
    have hset : Keeps L (uncountBlock d mapped) { uncountBlock d mapped with
        tables := (uncountBlock d mapped).tables.set (.vmL2 slot)
          (tableIndex (arm64MmuL2Index vmKernelL3Base)) (arm64MmuTableDesc (L.table .vmKernelL3))
          } := by
      refine Keeps.set_l2 (by rw [hu', hu]; exact hlt) ?_ .table
      rw [hs', hs, hl1]
      decide
    exact (((hget.trans Keeps.clear_l3).trans hfold).trans (uncountBlock_keeps L d mapped)).trans
      (hset.trans (Keeps.of_eq rfl rfl rfl))

/-- Cleared tables have the shape. -/
theorem kernelMapped_cleared (T : Tables) : KernelMapped L { tables := clearVmTables T } := by
  have h4 : List.finRange 4 = [0, 1, 2, 3] := by decide
  have hl2 : ∀ slot i, clearVmTables T (.vmL2 slot) i = 0 := by
    intro slot i
    match slot with
    | 0 | 1 | 2 | 3 => simp [clearVmTables, clearTable, h4]
  refine ⟨fun i => .inl ?_, fun slot i => ?_, fun slot i h => ?_, fun i => ?_⟩
  · simp [clearVmTables, clearTable, h4]
  · dsimp only
    rw [hl2]
    exact .empty
  · exact absurd (hl2 slot i) h
  · have h0 : clearVmTables T .vmKernelL3 i = 0 := by simp [clearVmTables, clearTable, h4]
    dsimp only
    rw [h0]
    exact .empty

/-- **The built tables have the kernel's shape, and map the low gigabyte**: the device window comes
first. -/
theorem buildTables_spec (T : Tables) :
    KernelMapped L (buildTables L img T).1 ∧ LowMapped (buildTables L img T).1 := by
  set st₀ : VmState := { tables := clearVmTables T }
  have hdevice : KernelMapped L (mapRegion L vmMmio st₀).1
      ∧ LowMapped (mapRegion L vmMmio st₀).1 := by
    refine ⟨(mapMmio_keeps L st₀).shape (kernelMapped_cleared L T), ?_⟩
    rw [mapMmio_eq]
    exact lowMapped_mapBlocks L kernelOnly_device 16 (by decide) (by decide) _ rfl
  have hregions : KernelMapped L (mapRegions L vmRegions st₀).1
      ∧ LowMapped (mapRegions L vmRegions st₀).1 := by
    rw [vmRegions, mapRegions]
    split <;> rename_i st heq <;> rw [heq] at hdevice
    · exact hdevice
    · exact ⟨(mapRam_rest_keeps L st).shape hdevice.1, (mapRam_rest_keeps L st).low hdevice.2⟩
  unfold buildTables
  split <;> rename_i st heq <;> rw [heq] at hregions
  · exact hregions
  · exact ⟨(mapKernelL3Block_keeps L img st).shape hregions.1,
      (mapKernelL3Block_keeps L img st).low hregions.2⟩

end Steps

/-! ## The kernel's walk

Once built, the pool no longer matters: only the tables are read. -/

/-- **The kernel map**, as the tables alone show it. -/
structure KernelMap (L : Layout) (T : Tables) : Prop where
  l1 : ∀ i, T .vmL1 i = 0 ∨ ∃ slot, T .vmL1 i = arm64MmuTableDesc (L.table (.vmL2 slot))
    ∧ ∀ j, T (.vmL2 slot) j ≠ 0 → planned i j
  l2 : ∀ slot i, KernelL2Entry L (T (.vmL2 slot) i)
  l3 : ∀ i, KernelL3Entry (T .vmKernelL3 i)
  low : T .vmL1 0 ≠ 0

/-- **What `build_tables` leaves** is a map of the kernel, whatever the sections of the image. -/
theorem kernelMap_buildTables (L : Layout) (img : Image) (T : Tables) :
    KernelMap L (buildTables L img T).1.tables := by
  obtain ⟨hm, hlow⟩ := buildTables_spec L img T
  refine ⟨fun i => ?_, hm.l2, hm.l3, hlow⟩
  rcases hm.l1 i with h0 | ⟨slot, -, rfl, hd⟩
  · exact .inl h0
  · exact .inr ⟨slot, hd, fun j hj => (hm.l2_planned slot j hj).2⟩

/-- The map is read at no user table. -/
theorem KernelMap.congr {L : Layout} {T T' : Tables} (h : KernelMap L T)
    (h1 : T' .vmL1 = T .vmL1) (h2 : ∀ s, T' (.vmL2 s) = T (.vmL2 s))
    (h3 : T' .vmKernelL3 = T .vmKernelL3) : KernelMap L T' where
  l1 i := by simpa only [h1, h2] using h.l1 i
  l2 s i := by simpa only [h2] using h.l2 s i
  l3 i := by simpa only [h3] using h.l3 i
  low := by simpa only [h1] using h.low

theorem not_hasUserAccess_of_kernelOnly {d attributes : Word} (h : KernelOnly attributes)
    (hd : d &&& arm64DescApMask = attributes &&& arm64DescApMask) :
    arm64MmuDescHasUserAccess d = false := by
  rw [arm64MmuDescHasUserAccess, hd]
  rcases h.access with h | h <;> rw [h] <;> decide

section Walk

variable {L : Layout} {T : Tables} (hT : KernelMap L T)

include hT

/-- **No walk of the map ends in memory of EL0**: through the kernel's pages… -/
theorem walkL3_kernel_noUserAccess {address : Word} {t : Translation}
    (h : walkL3 L T (L.table .vmKernelL3) address = some t) :
    arm64MmuDescHasUserAccess t.descriptor = false := by
  have hentry := hT.l3 (tableIndex (arm64MmuL3Index address))
  simp only [walkL3, L.read_table] at h
  generalize T .vmKernelL3 (tableIndex (arm64MmuL3Index address)) = d at h hentry
  cases hentry with
  | empty => simp at h
  | page p ha =>
    split at h
    · rw [← Option.some.inj h]
      exact not_hasUserAccess_of_kernelOnly ha (accessBits_l3PageDesc _ _)
    · cases h

/-- …nor through the blocks. -/
theorem walkL2_kernel_noUserAccess {slot : Fin 4} {address : Word} {t : Translation}
    (h : walkL2 L T (L.table (.vmL2 slot)) address = some t) :
    arm64MmuDescHasUserAccess t.descriptor = false := by
  have hentry := hT.l2 slot (tableIndex (arm64MmuL2Index address))
  simp only [walkL2, L.read_table] at h
  generalize T (.vmL2 slot) (tableIndex (arm64MmuL2Index address)) = d at h hentry
  cases hentry with
  | empty => simp at h
  | block p ha =>
    rw [if_pos (descIsL2Block_l2BlockDesc p ha.leaf)] at h
    rw [← Option.some.inj h]
    exact not_hasUserAccess_of_kernelOnly ha (accessBits_l2BlockDesc _ _)
  | table =>
    simp only [descIsL2Block_tableDesc, descIsTable_tableDesc, Bool.false_eq_true, if_false,
      if_true,
      descAddress_tableDesc (L.pageAddress_table _)] at h
    exact walkL3_kernel_noUserAccess hT h

/-- **No walk from the kernel root ends in an EL0-accessible descriptor.** -/
theorem walk_kernel_noUserAccess {address : Word} {t : Translation}
    (h : walk L T (vmRootTable L) address = some t) :
    arm64MmuDescHasUserAccess t.descriptor = false := by
  rcases hT.l1 (tableIndex (arm64MmuL1Index address)) with h0 | ⟨slot, hs, -⟩
  · simp [walk, vmRootTable, h0] at h
  · rw [vmRootTable, walk_of_l1 hs] at h
    exact walkL2_kernel_noUserAccess hT h

/-- **…and outside the plan it maps nothing.** -/
theorem walk_kernel_unplanned {address : Word}
    (h : planned (tableIndex (arm64MmuL1Index address)) (tableIndex (arm64MmuL2Index address))
      = false) : walk L T (vmRootTable L) address = none := by
  rcases hT.l1 (tableIndex (arm64MmuL1Index address)) with h0 | ⟨slot, hs, hplan⟩
  · simp [walk, vmRootTable, h0]
  · rw [vmRootTable, walk_of_l1 hs]
    refine walkL2_of_zero ?_
    by_contra hne
    rw [hplan _ hne] at h
    cases h

end Walk

end SaturnOS
