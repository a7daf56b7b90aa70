import Mathlib.Logic.Function.Basic
import Mathlib.Data.List.FinRange
import SaturnOS.Arch.Mmu

/-!
# Arch/Walk — the static tables and the hardware walk

The kernel's translation tables are page-sized static arrays; a descriptor names one by its
address.  `Layout` places every such page, and `walk` is the three-level lookup the MMU performs
from a root — memory is read through `Layout.read`, which finds the array at an address.
-/

namespace SaturnOS

/-! ## The static pages -/

/-- The 512-entry tables of `vm.c` and `address_space.c`. -/
inductive TableId
  | vmL1
  | vmL2 (slot : Fin 4)
  | vmKernelL3
  | userL1 (slot : Fin 4)
  | userL2 (slot : Fin 4)
  | userL3 (slot : Fin 4) (region : Fin 3)
  deriving DecidableEq

/-- Every page-sized static array: the tables, and the pages backing the user regions. -/
inductive StaticPage
  | table (id : TableId)
  | region (slot : Fin 4) (region : Fin 3)
  deriving DecidableEq

/-- Where the linker puts the static pages: aligned, below `2⁴⁸`, pairwise disjoint, never null. -/
structure Layout where
  base : StaticPage → Word
  pageAddress : ∀ o, PageAddress (base o)
  base_injective : Function.Injective base
  base_ne_zero : ∀ o, base o ≠ 0

abbrev Table := Fin 512 → Word

abbrev Tables := TableId → Table

/-- `table[index] = descriptor`. -/
def Tables.set (T : Tables) (id : TableId) (index : Fin 512) (descriptor : Word) : Tables :=
  Function.update T id (Function.update (T id) index descriptor)

@[simp] theorem Tables.set_same (T : Tables) (id : TableId) (i : Fin 512) (d : Word) :
    T.set id i d id i = d := by simp [Tables.set]

theorem Tables.set_of_ne (T : Tables) {id id' : TableId} (h : id' ≠ id) (i : Fin 512) (d : Word) :
    T.set id i d id' = T id' := by simp [Tables.set, h]

theorem Tables.set_index_ne (T : Tables) (id : TableId) {i j : Fin 512} (h : j ≠ i) (d : Word) :
    T.set id i d id j = T id j := by simp [Tables.set, h]

/-- Every table, for the search by address. -/
def TableId.all : List TableId :=
  [.vmL1, .vmKernelL3] ++ (List.finRange 4).map .vmL2 ++ (List.finRange 4).map .userL1
    ++ (List.finRange 4).map .userL2
    ++ (List.finRange 4).flatMap fun s => (List.finRange 3).map (.userL3 s)

theorem TableId.mem_all (id : TableId) : id ∈ TableId.all := by
  cases id <;> simp [TableId.all]

namespace Layout

variable (L : Layout)

/-- The address of a table. -/
def table (id : TableId) : Word := L.base (.table id)

theorem table_injective : Function.Injective L.table := fun _ _ h =>
  StaticPage.table.inj (L.base_injective h)

theorem pageAddress_table (id : TableId) : PageAddress (L.table id) := L.pageAddress _

theorem table_ne_zero (id : TableId) : L.table id ≠ 0 := L.base_ne_zero _

/-- The table at an address. -/
def tableAt (address : Word) : Option TableId :=
  TableId.all.find? fun id => L.table id == address

/-- **The table at a table's address is that table.** -/
@[simp] theorem tableAt_table (id : TableId) : L.tableAt (L.table id) = some id := by
  cases h : L.tableAt (L.table id) with
  | none =>
    have := List.find?_eq_none.mp h id (TableId.mem_all id)
    simp at this
  | some id' =>
    have := List.find?_some h
    exact congrArg some (L.table_injective (by simpa using this))

/-- `((unsigned long *)address)[index]`; outside the static tables nothing is mapped. -/
def read (T : Tables) (address index : Word) : Word :=
  match L.tableAt address with
  | some id => T id (tableIndex index)
  | none => 0

@[simp] theorem read_table (T : Tables) (id : TableId) (index : Word) :
    L.read T (L.table id) index = T id (tableIndex index) := by simp [read]

@[simp] theorem read_tableDesc (T : Tables) (id : TableId) (index : Word) :
    L.read T (arm64MmuDescAddress (arm64MmuTableDesc (L.table id))) index
      = T id (tableIndex index) := by
  rw [descAddress_tableDesc (L.pageAddress_table id), read_table]

end Layout

/-! ## The walk -/

/-- What a walk ends in. -/
structure Translation where
  physical : Word
  descriptor : Word
  level : Nat
  deriving DecidableEq

/-- The level-3 lookup in the table at `table`. -/
def walkL3 (L : Layout) (T : Tables) (table address : Word) : Option Translation :=
  let descriptor := L.read T table (arm64MmuL3Index address)
  if arm64MmuDescIsL3Page descriptor then
    some ⟨arm64MmuL3PageAddress descriptor + (address &&& (arm64PageSize - 1)), descriptor, 3⟩
  else none

/-- The level-2 lookup in the table at `table`. -/
def walkL2 (L : Layout) (T : Tables) (table address : Word) : Option Translation :=
  let descriptor := L.read T table (arm64MmuL2Index address)
  if arm64MmuDescIsL2Block descriptor then
    some ⟨arm64MmuL2BlockAddress descriptor + (address &&& (arm64L2BlockSize - 1)), descriptor, 2⟩
  else if arm64MmuDescIsTable descriptor then
    walkL3 L T (arm64MmuDescAddress descriptor) address
  else none

/-- The walk the MMU performs from a root.  The kernel writes no level-1 block, but the architecture
reads one as a 1 GiB mapping. -/
def walk (L : Layout) (T : Tables) (root address : Word) : Option Translation :=
  let descriptor := L.read T root (arm64MmuL1Index address)
  if arm64MmuDescIsL2Block descriptor then
    some ⟨(descriptor &&& 0x0000ffffc0000000) + (address &&& 0x3fffffff), descriptor, 1⟩
  else if arm64MmuDescIsTable descriptor then
    walkL2 L T (arm64MmuDescAddress descriptor) address
  else none

@[simp] theorem not_descIsTable_zero : arm64MmuDescIsTable 0#64 = false := by decide
@[simp] theorem not_descIsL2Block_zero : arm64MmuDescIsL2Block 0#64 = false := by decide
@[simp] theorem not_descIsL3Page_zero : arm64MmuDescIsL3Page 0#64 = false := by decide

section Walk

variable {L : Layout} {T : Tables} {root address : Word}

/-- **A walk through a level-1 table entry continues in that table.** -/
theorem walk_of_l1 {id₁ id₂ : TableId} (h : T id₁ (tableIndex (arm64MmuL1Index address))
      = arm64MmuTableDesc (L.table id₂)) :
    walk L T (L.table id₁) address = walkL2 L T (L.table id₂) address := by
  simp only [walk, L.read_table, h, descIsL2Block_tableDesc, descIsTable_tableDesc,
    descAddress_tableDesc (L.pageAddress_table id₂)]
  rfl

/-- …and one through a level-2 table entry in that one. -/
theorem walkL2_of_l2 {id₂ id₃ : TableId} (h : T id₂ (tableIndex (arm64MmuL2Index address))
      = arm64MmuTableDesc (L.table id₃)) :
    walkL2 L T (L.table id₂) address = walkL3 L T (L.table id₃) address := by
  simp only [walkL2, L.read_table, h, descIsL2Block_tableDesc, descIsTable_tableDesc,
    descAddress_tableDesc (L.pageAddress_table id₃)]
  rfl

/-- An empty level-3 entry ends the walk. -/
theorem walkL3_of_zero {id₃ : TableId} (h : T id₃ (tableIndex (arm64MmuL3Index address)) = 0) :
    walkL3 L T (L.table id₃) address = none := by
  simp [walkL3, h]

/-- …and so does an empty level-2 entry. -/
theorem walkL2_of_zero {id₂ : TableId} (h : T id₂ (tableIndex (arm64MmuL2Index address)) = 0) :
    walkL2 L T (L.table id₂) address = none := by
  simp [walkL2, h]

/-- **A page entry maps its page**, at the offset of the address. -/
theorem walkL3_of_page {id₃ : TableId} {p attributes : Word} (hp : PageAddress p)
    (ha : LeafAttr attributes) (h : T id₃ (tableIndex (arm64MmuL3Index address))
      = arm64MmuL3PageDesc p attributes) :
    walkL3 L T (L.table id₃) address
      = some ⟨p + (address &&& (arm64PageSize - 1)), arm64MmuL3PageDesc p attributes, 3⟩ := by
  simp only [walkL3, L.read_table, h, descIsL3Page_l3PageDesc hp ha, if_true,
    l3PageAddress_l3PageDesc hp ha]

end Walk

/-! ## A concrete layout -/

/-- Position of a static page in a contiguous image. -/
def StaticPage.index : StaticPage → ℕ
  | .table .vmL1 => 0
  | .table .vmKernelL3 => 1
  | .table (.vmL2 s) => 2 + s
  | .table (.userL1 s) => 6 + s
  | .table (.userL2 s) => 10 + s
  | .table (.userL3 s r) => 14 + (3 * s + r)
  | .region s r => 26 + (3 * s + r)

theorem StaticPage.index_lt (o : StaticPage) : o.index < 38 := by
  rcases o with id | ⟨s, r⟩
  · cases id <;> simp only [StaticPage.index] <;> omega
  · simp only [StaticPage.index]; omega

theorem StaticPage.index_injective : Function.Injective StaticPage.index := by
  rintro (a | ⟨s, r⟩) (b | ⟨s', r'⟩) h
  · cases a <;> cases b <;> simp only [StaticPage.index] at h <;>
      first
        | rfl
        | omega
        | (congr 2 <;> omega)
  · cases a <;> simp only [StaticPage.index] at h <;> omega
  · cases b <;> simp only [StaticPage.index] at h <;> omega
  · simp only [StaticPage.index] at h
    congr 1 <;> omega

/-- The static pages laid out one after another from `0x40100000`, inside `.bss`. -/
def bssLayout : Layout where
  base o := BitVec.ofNat 64 (0x40100000 + 4096 * o.index)
  pageAddress o := by
    have := o.index_lt
    have hv : (BitVec.ofNat 64 (0x40100000 + 4096 * o.index)).toNat
        = 0x40100000 + 4096 * o.index := by
      rw [BitVec.toNat_ofNat, Nat.mod_eq_of_lt (by omega)]
    exact ⟨by rw [hv]; omega, by rw [hv]; omega⟩
  base_injective := by
    intro o o' h
    have ho := o.index_lt
    have ho' := o'.index_lt
    have := congrArg BitVec.toNat h
    rw [BitVec.toNat_ofNat, BitVec.toNat_ofNat, Nat.mod_eq_of_lt (by omega),
      Nat.mod_eq_of_lt (by omega)] at this
    exact StaticPage.index_injective (by omega)
  base_ne_zero o h := by
    have := o.index_lt
    have := congrArg BitVec.toNat h
    rw [BitVec.toNat_ofNat, Nat.mod_eq_of_lt (by omega)] at this
    simp at this

end SaturnOS
