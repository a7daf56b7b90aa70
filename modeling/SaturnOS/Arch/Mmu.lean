import SaturnOS.Machinery.Bits

/-!
# Arch/Mmu — translation-table descriptors

The descriptor helpers of `arch/arm64/mmu.c` over 64-bit words, bit for bit.  Two facts carry the
rest of the development: a table descriptor gives its table back (`descAddress_tableDesc`), and a
page or block descriptor shows the access bits of its attributes and nothing else
(`accessBits_l3PageDesc`, `accessBits_l2BlockDesc`).
-/

open Machinery

namespace SaturnOS

/-- `unsigned long` on the target. -/
abbrev Word := BitVec 64

/-! ## Constants of `mmu.h` -/

/-- Pages of 4 KiB, the leaves of level 3, and blocks of 2 MiB, those of level 2. -/
def arm64PageSize : Word := 1 <<< 12
def arm64L2BlockSize : Word := 1 <<< 21

/-- The type bits, the address fields by level, the access permissions and the attributes of a
descriptor. -/
def arm64DescValid : Word := 1 <<< 0
def arm64DescTable : Word := 1 <<< 1
def arm64DescAddrMask : Word := 0x0000fffffffff000
def arm64DescL2BlockAddrMask : Word := 0x0000ffffffe00000
def arm64DescL3PageAddrMask : Word := 0x0000fffffffff000
def arm64DescBlock : Word := arm64DescValid
def arm64DescPage : Word := arm64DescValid ||| arm64DescTable
def arm64DescAttrIndex (index : Word) : Word := index <<< 2
def arm64DescApMask : Word := 3 <<< 6
def arm64DescApRwEl1 : Word := 0 <<< 6
def arm64DescApRwEl0 : Word := 1 <<< 6
def arm64DescApRoEl1 : Word := 2 <<< 6
def arm64DescApRoEl0 : Word := 3 <<< 6
def arm64DescShInner : Word := 3 <<< 8
def arm64DescAf : Word := 1 <<< 10
def arm64DescPxn : Word := 1 <<< 53
def arm64DescUxn : Word := 1 <<< 54

/-- The two entries of `MAIR_EL1` that the kernel sets. -/
def arm64AttrIndexNormal : Word := 0
def arm64AttrIndexDevice : Word := 1

/-- Memory that is read, written and executed at EL1: neither execute-never bit is set. -/
def arm64NormalMemoryAttr : Word :=
  arm64DescAttrIndex arm64AttrIndexNormal ||| arm64DescApRwEl1 ||| arm64DescShInner ||| arm64DescAf

/-- Device registers, which nothing executes. -/
def arm64DeviceMemoryAttr : Word :=
  arm64DescAttrIndex arm64AttrIndexDevice ||| arm64DescApRwEl1 ||| arm64DescAf ||| arm64DescPxn
    ||| arm64DescUxn

/-! ## Indices -/

/-- Nine bits of the address for each level, from bit 30, bit 21 and bit 12 on. -/
def arm64MmuL1Index (address : Word) : Word := (address >>> 30) &&& (512 - 1)
def arm64MmuL2Index (address : Word) : Word := (address >>> 21) &&& (512 - 1)
def arm64MmuL3Index (address : Word) : Word := (address >>> 12) &&& (512 - 1)

instance neZero_entries : NeZero 512 := ⟨by decide⟩

/-- A masked index, as a position of a 512-entry table. -/
def tableIndex (index : Word) : Fin 512 := Fin.ofNat 512 index.toNat

/-- **An index is a digit of the address** in base 512, the lowest twelve bits being left out:
of gigabytes… -/
theorem tableIndex_l1 (a : Word) : (tableIndex (arm64MmuL1Index a)).val = a.toNat / 2 ^ 30 % 512 :=
  (congrArg (· % 512) (toNat_field 30 9 a (by decide))).trans (Nat.mod_mod _ _)

/-- …of blocks in a gigabyte… -/
theorem tableIndex_l2 (a : Word) : (tableIndex (arm64MmuL2Index a)).val = a.toNat / 2 ^ 21 % 512 :=
  (congrArg (· % 512) (toNat_field 21 9 a (by decide))).trans (Nat.mod_mod _ _)

/-- …and of pages in a block. -/
theorem tableIndex_l3 (a : Word) : (tableIndex (arm64MmuL3Index a)).val = a.toNat / 2 ^ 12 % 512 :=
  (congrArg (· % 512) (toNat_field 12 9 a (by decide))).trans (Nat.mod_mod _ _)

/-! ## Descriptors -/

/-- The descriptor of a table: its address, page by page, and both type bits. -/
def arm64MmuTableDesc (physical : Word) : Word :=
  (physical &&& ~~~(arm64PageSize - 1)) ||| arm64DescValid ||| arm64DescTable

/-- Both type bits are set: above level 3 that is a table… -/
def arm64MmuDescIsTable (descriptor : Word) : Bool :=
  descriptor &&& (arm64DescValid ||| arm64DescTable) == (arm64DescValid ||| arm64DescTable)

/-- …only the valid bit: a block… -/
def arm64MmuDescIsL2Block (descriptor : Word) : Bool :=
  descriptor &&& (arm64DescValid ||| arm64DescTable) == arm64DescValid

/-- …and at level 3 both are a page. -/
def arm64MmuDescIsL3Page (descriptor : Word) : Bool :=
  descriptor &&& (arm64DescValid ||| arm64DescTable) == (arm64DescValid ||| arm64DescTable)

/-- The address fields: of a table, of a block and of a page. -/
def arm64MmuDescAddress (descriptor : Word) : Word := descriptor &&& arm64DescAddrMask

def arm64MmuL2BlockAddress (descriptor : Word) : Word := descriptor &&& arm64DescL2BlockAddrMask

def arm64MmuL3PageAddress (descriptor : Word) : Word := descriptor &&& arm64DescL3PageAddrMask

/-- One of the two execute-never bits is enough for the source. -/
def arm64MmuDescIsExecuteNever (descriptor : Word) : Bool :=
  descriptor &&& (arm64DescPxn ||| arm64DescUxn) != 0

/-- Read-only for the kernel, and out of reach for EL0. -/
def arm64MmuDescIsReadOnly (descriptor : Word) : Bool :=
  descriptor &&& arm64DescApMask == arm64DescApRoEl1

/-- EL0 may read, or read and write. -/
def arm64MmuDescHasUserAccess (descriptor : Word) : Bool :=
  let access := descriptor &&& arm64DescApMask
  access == arm64DescApRwEl0 || access == arm64DescApRoEl0

/-- A leaf of level 2: the address of the block, the attributes as they are, and its type. -/
def arm64MmuL2BlockDesc (physical attributes : Word) : Word :=
  (physical &&& ~~~(arm64L2BlockSize - 1)) ||| attributes ||| arm64DescBlock

/-- A leaf of level 3. -/
def arm64MmuL3PageDesc (physical attributes : Word) : Word :=
  (physical &&& ~~~(arm64PageSize - 1)) ||| attributes ||| arm64DescPage

/-! ## What a descriptor gives back

A static page is aligned at `2¹²` and below `2⁴⁸`, so the address mask keeps it whole and the low
attribute bits never meet it. -/

/-- An address a descriptor can carry: page-aligned and below `2⁴⁸`. -/
structure PageAddress (p : Word) : Prop where
  aligned : 2 ^ 12 ∣ p.toNat
  below : p.toNat < 2 ^ 48

namespace PageAddress

variable {p : Word} (hp : PageAddress p)

include hp

/-- The address field has room for all of it… -/
theorem and_addrMask : p &&& arm64DescAddrMask = p :=
  and_eq_self_of_aligned hp.aligned hp.below (by decide)

/-- …and there is nothing in it below the page. -/
theorem and_pageMask : p &&& ~~~(arm64PageSize - 1) = p :=
  and_eq_self_of_aligned hp.aligned p.isLt (by decide)

/-- The bits below a page never meet a page address. -/
theorem and_low {m : Word} (hm : m.toNat < 2 ^ 12) : p &&& m = 0 :=
  and_eq_zero_of_aligned hp.aligned hm

end PageAddress

/-- **A table descriptor is a table descriptor**, whatever the address. -/
@[simp] theorem descIsTable_tableDesc (p : Word) : arm64MmuDescIsTable (arm64MmuTableDesc p) := by
  have h : arm64MmuTableDesc p &&& (arm64DescValid ||| arm64DescTable)
      = arm64DescValid ||| arm64DescTable := by
    rw [arm64MmuTableDesc, BitVec.or_assoc, BitVec.and_or_distrib_right, BitVec.and_self,
      BitVec.and_assoc, show ~~~(arm64PageSize - 1) &&& (arm64DescValid ||| arm64DescTable) = 0
        from by decide]
    simp
  simp [arm64MmuDescIsTable, h]

/-- A table descriptor is no block. -/
@[simp] theorem descIsL2Block_tableDesc (p : Word) :
    arm64MmuDescIsL2Block (arm64MmuTableDesc p) = false := by
  have h : arm64MmuTableDesc p &&& (arm64DescValid ||| arm64DescTable)
      = arm64DescValid ||| arm64DescTable := by
    simpa [arm64MmuDescIsTable] using descIsTable_tableDesc p
  rw [arm64MmuDescIsL2Block, h]
  decide

/-- **…and its address field is its table.** -/
theorem descAddress_tableDesc {p : Word} (hp : PageAddress p) :
    arm64MmuDescAddress (arm64MmuTableDesc p) = p := by
  rw [arm64MmuDescAddress, arm64MmuTableDesc, hp.and_pageMask, BitVec.or_assoc,
    BitVec.and_or_distrib_right, hp.and_addrMask,
    show (arm64DescValid ||| arm64DescTable) &&& arm64DescAddrMask = 0 from by decide]
  simp

/-- Attributes a leaf descriptor may carry: they leave the type bits and the address field
alone. -/
structure LeafAttr (attributes : Word) : Prop where
  type_bits : attributes &&& (arm64DescValid ||| arm64DescTable) = 0
  addr_bits : attributes &&& arm64DescAddrMask = 0

section Leaf

variable {p attributes : Word} (hp : PageAddress p) (ha : LeafAttr attributes)

include hp ha

/-- **A page descriptor is a page.** -/
theorem descIsL3Page_l3PageDesc : arm64MmuDescIsL3Page (arm64MmuL3PageDesc p attributes) := by
  have h : arm64MmuL3PageDesc p attributes &&& (arm64DescValid ||| arm64DescTable)
      = arm64DescValid ||| arm64DescTable := by
    rw [arm64MmuL3PageDesc, hp.and_pageMask, BitVec.and_or_distrib_right,
      BitVec.and_or_distrib_right, ha.type_bits, hp.and_low (by decide)]
    simp [arm64DescPage]
  simp [arm64MmuDescIsL3Page, h]

/-- **…carrying its page.** -/
theorem l3PageAddress_l3PageDesc :
    arm64MmuL3PageAddress (arm64MmuL3PageDesc p attributes) = p := by
  rw [arm64MmuL3PageAddress, arm64MmuL3PageDesc, hp.and_pageMask, BitVec.and_or_distrib_right,
    BitVec.and_or_distrib_right, show arm64DescL3PageAddrMask = arm64DescAddrMask from rfl,
    hp.and_addrMask, ha.addr_bits, show arm64DescPage &&& arm64DescAddrMask = 0 from by decide]
  simp

end Leaf

/-- A block descriptor is a block. -/
theorem descIsL2Block_l2BlockDesc (p : Word) {attributes : Word} (ha : LeafAttr attributes) :
    arm64MmuDescIsL2Block (arm64MmuL2BlockDesc p attributes) = true := by
  have h : arm64MmuL2BlockDesc p attributes &&& (arm64DescValid ||| arm64DescTable)
      = arm64DescValid := by
    rw [arm64MmuL2BlockDesc, BitVec.and_or_distrib_right, BitVec.and_or_distrib_right, ha.type_bits,
      BitVec.and_assoc, show ~~~(arm64L2BlockSize - 1) &&& (arm64DescValid ||| arm64DescTable) = 0
        from by decide, show arm64DescBlock &&& (arm64DescValid ||| arm64DescTable) = arm64DescValid
        from by decide]
    simp
  simp [arm64MmuDescIsL2Block, h]

/-- **A page descriptor shows the access bits of its attributes** — its address starts at bit 12. -/
theorem accessBits_l3PageDesc (p attributes : Word) :
    arm64MmuL3PageDesc p attributes &&& arm64DescApMask = attributes &&& arm64DescApMask := by
  rw [arm64MmuL3PageDesc, BitVec.and_or_distrib_right, BitVec.and_or_distrib_right,
    BitVec.and_assoc, show ~~~(arm64PageSize - 1) &&& arm64DescApMask = 0 from by decide,
    show arm64DescPage &&& arm64DescApMask = 0 from by decide]
  simp

/-- **…and so does a block descriptor**, whose address starts at bit 21. -/
theorem accessBits_l2BlockDesc (p attributes : Word) :
    arm64MmuL2BlockDesc p attributes &&& arm64DescApMask = attributes &&& arm64DescApMask := by
  rw [arm64MmuL2BlockDesc, BitVec.and_or_distrib_right, BitVec.and_or_distrib_right,
    BitVec.and_assoc, show ~~~(arm64L2BlockSize - 1) &&& arm64DescApMask = 0 from by decide,
    show arm64DescBlock &&& arm64DescApMask = 0 from by decide]
  simp

end SaturnOS
