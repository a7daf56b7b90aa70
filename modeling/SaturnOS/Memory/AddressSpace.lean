import SaturnOS.Arch.Walk

/-!
# Memory/AddressSpace — user address spaces over recycled table slots

`kernel/memory/address_space.c`.  A user space owns one of four **slots**: an L1, an L2, three L3
tables and three backing pages.  `addressSpaceInitUser` takes a slot, copies the kernel map into
it and hangs one page per region below it; `addressSpaceDestroyUser` clears the slot and gives it
back.

The `struct address_space` a function receives is passed and returned by value; the static arrays
of the file are `SpaceStatics`.
-/

namespace SaturnOS

abbrev Byte := BitVec 8

abbrev Page := Fin 4096 → Byte

/-- What a `const void *` argument points to; a null pointer is `none`. -/
abbrev Buffer := Option (ℕ → Byte)

/-! ## Constants -/

def addressSpaceUserTableSlots : ℕ := 4
def addressSpaceUserRegionCount : ℕ := 3
def addressSpaceUserStart : Word := 0x00010000
def addressSpaceUserEnd : Word := 0x40000000
def addressSpaceUserCodeStart : Word := 0x00100000
def addressSpaceUserCodeEnd : Word := 0x00200000
def addressSpaceUserDataStart : Word := 0x00200000
def addressSpaceUserDataEnd : Word := 0x00300000
def addressSpaceUserStackStart : Word := 0x3fff0000
def addressSpaceUserStackEnd : Word := 0x40000000

/-- Code is read and executed in EL0, and written nowhere… -/
def addressSpaceUserCodeAttr : Word :=
  (arm64NormalMemoryAttr &&& ~~~arm64DescApMask) ||| arm64DescApRoEl0 ||| arm64DescPxn

/-- …data is read and written in both, and executed nowhere. -/
def addressSpaceUserDataAttr : Word :=
  (arm64NormalMemoryAttr &&& ~~~arm64DescApMask) ||| arm64DescApRwEl0 ||| arm64DescPxn
    ||| arm64DescUxn

def addressSpaceUserStackAttr : Word := addressSpaceUserDataAttr

/-! ## The records of `address_space.h` -/

/-- `enum address_space_kind`. -/
inductive AddressSpaceKind
  | kernel
  | user
  deriving DecidableEq

/-- `enum address_space_switch_status`. -/
inductive SwitchStatus
  | active
  | ready
  | blocked
  deriving DecidableEq

/-- `enum address_space_switch_stub_status`. -/
inductive SwitchStubStatus
  | active
  | ready
  | blocked
  deriving DecidableEq

/-- `struct address_space_user_region`; `stop` is its `end`. -/
structure UserRegion where
  name : Option String := none
  start : Word := 0
  stop : Word := 0
  attributes : Word := 0
  userAccess : Bool := false
  writable : Bool := false
  executable : Bool := false
  deriving DecidableEq

/-- `struct address_space`.  The defaults are the zeroed object of static storage. -/
structure AddressSpace where
  name : Option String := none
  kind : AddressSpaceKind := .kernel
  rootTable : Word := 0
  kernelRootTable : Word := 0
  userRootTable : Word := 0
  activeRootTable : Word := 0
  targetRootTable : Word := 0
  userTableSlot : ℕ := 0
  userTableCount : ℕ := 0
  userStart : Word := 0
  userEnd : Word := 0
  userCodeStart : Word := 0
  userCodeEnd : Word := 0
  userDataStart : Word := 0
  userDataEnd : Word := 0
  userStackStart : Word := 0
  userStackEnd : Word := 0
  userImageEntry : Word := 0
  userImageSize : Word := 0
  userImageChecksum : Word := 0
  userMappingCount : ℕ := 0
  userDescriptorCount : ℕ := 0
  userInstalledDescriptorCount : ℕ := 0
  userRegions : Fin 3 → UserRegion := fun _ => {}
  sharedKernelMap : Bool := false
  permissionSplitReady : Bool := false
  kernelEl0Access : Bool := false
  userEl0Access : Bool := false
  userTablesReady : Bool := false
  userDescriptorsReady : Bool := false
  userMappingsReady : Bool := false
  userImageReady : Bool := false
  userExecuteReady : Bool := false
  validationReady : Bool := false
  switchReady : Bool := false
  switchStatus : SwitchStatus := .active
  switchStubStatus : SwitchStubStatus := .active
  validationErrors : ℕ := 0

/-- The static arrays of the file, with every translation table of the kernel. -/
structure SpaceStatics where
  kernelAddressSpace : AddressSpace := {}
  tables : Tables := fun _ _ => 0
  userRegionPages : Fin 4 → Fin 3 → Page := fun _ _ _ => 0
  userTableSlotsUsed : Fin 4 → Bool := fun _ => false

/-! ## Tables and slots -/

/-- `address_space_clear_table`. -/
def addressSpaceClearTable (T : Tables) (id : TableId) : Tables := Function.update T id fun _ => 0

def addressSpaceClearPage : Page := fun _ => 0

/-- `address_space_checksum_bytes`. -/
def addressSpaceChecksumBytes (bytes : List Byte) : Word :=
  bytes.foldl (fun checksum b => (checksum <<< 5) ^^^ (checksum >>> 2) ^^^ b.setWidth 64) 0

/-- The whole table at an address. -/
def Layout.readTable (L : Layout) (T : Tables) (address : Word) : Table :=
  fun i => L.read T address (BitVec.ofNat 64 i)

/-- Copy the kernel's L2 for the low gigabyte and the rest of its L1 into a slot's tables; `none`
is the C function's `0`. -/
def addressSpaceInstallSharedKernelMap (L : Layout) (kernelRootTable : Word) (l1 l2 : TableId)
    (T : Tables) : Option Tables :=
  if kernelRootTable = 0 then none
  else
    let kernelL1Descriptor := L.read T kernelRootTable 0
    if ¬ arm64MmuDescIsTable kernelL1Descriptor then none
    else
      let T : Tables :=
        Function.update T l2 (L.readTable T (arm64MmuDescAddress kernelL1Descriptor))
      let T := T.set l1 0 (arm64MmuTableDesc (L.table l2))
      some (Function.update T l1 fun i =>
        if i = 0 then T l1 0 else L.readTable T kernelRootTable i)

/-- Clear every table and page of a slot. -/
def clearSlot (slot : Fin 4) (st : SpaceStatics) : SpaceStatics :=
  let T := addressSpaceClearTable st.tables (.userL1 slot)
  let T := addressSpaceClearTable T (.userL2 slot)
  { st with
    tables := (List.finRange 3).foldl (fun T i => addressSpaceClearTable T (.userL3 slot i)) T
    userRegionPages := Function.update st.userRegionPages slot fun _ => addressSpaceClearPage }

/-- The lowest slot not in use. -/
def lowestFreeSlot (st : SpaceStatics) : Option (Fin 4) :=
  (List.finRange 4).find? fun slot => !st.userTableSlotsUsed slot

/-- Take the lowest free slot and clear it. -/
def addressSpaceAllocUserTableSlot (st : SpaceStatics) : SpaceStatics × Option (Fin 4) :=
  match lowestFreeSlot st with
  | none => (st, none)
  | some slot =>
    (clearSlot slot { st with
      userTableSlotsUsed := Function.update st.userTableSlotsUsed slot true }, some slot)

/-- One turn of the descriptor loop: hang the region's L3 table and its one page. -/
def installUserDescriptor (L : Layout) (slot : Fin 4) (space : AddressSpace)
    (acc : Tables × ℕ) (i : Fin 3) : Tables × ℕ :=
  if space.userDescriptorCount ≤ i ∨ (space.userRegions i).name = none then acc
  else
    let l2Index := arm64MmuL2Index (space.userRegions i).start
    let l3Index := arm64MmuL3Index (space.userRegions i).start
    let T := addressSpaceClearTable acc.1 (.userL3 slot i)
    let T := T.set (.userL2 slot) (tableIndex l2Index)
      (arm64MmuTableDesc (L.table (.userL3 slot i)))
    let T := T.set (.userL3 slot i) (tableIndex l3Index)
      (arm64MmuL3PageDesc (L.base (.region slot i)) (space.userRegions i).attributes)
    (T, acc.2 + 1)

/-- A slot's L1 and L2 before any region hangs below them, with `shared_kernel_map`. -/
def shareKernelMap (L : Layout) (kernelRootTable : Word) (slot : Fin 4) (T : Tables) :
    Tables × Bool :=
  let T := addressSpaceClearTable (addressSpaceClearTable T (.userL1 slot)) (.userL2 slot)
  match addressSpaceInstallSharedKernelMap L kernelRootTable (.userL1 slot) (.userL2 slot) T with
  | some T => (T, true)
  | none => (T.set (.userL1 slot) 0 (arm64MmuTableDesc (L.table (.userL2 slot))), false)

/-- Build a slot's tables; returns the tables, the descriptor count and `shared_kernel_map`. -/
def addressSpaceInstallUserDescriptors (L : Layout) (space : AddressSpace) (T : Tables) :
    Tables × ℕ × Bool :=
  if h : space.userTableSlot < addressSpaceUserTableSlots then
    let slot : Fin 4 := ⟨space.userTableSlot, h⟩
    let share := shareKernelMap L space.kernelRootTable slot T
    let hung := (List.finRange 3).foldl (installUserDescriptor L slot space) (share.1, 0)
    (hung.1, hung.2, share.2)
  else (T, 0, space.sharedKernelMap)

/-! ## Regions and validation -/

/-- `address_space_set_user_region`. -/
def addressSpaceSetUserRegion (name : String) (start stop attributes : Word)
    (writable executable : Bool) : UserRegion :=
  { name := some name, start := start, stop := stop, attributes := attributes, userAccess := true,
    writable := writable, executable := executable }

/-- The three regions every user space is given. -/
def userRegionTable : Fin 3 → UserRegion
  | 0 => addressSpaceSetUserRegion "code" addressSpaceUserCodeStart addressSpaceUserCodeEnd
      addressSpaceUserCodeAttr false true
  | 1 => addressSpaceSetUserRegion "data" addressSpaceUserDataStart addressSpaceUserDataEnd
      addressSpaceUserDataAttr true false
  | 2 => addressSpaceSetUserRegion "stack" addressSpaceUserStackStart addressSpaceUserStackEnd
      addressSpaceUserStackAttr true false

/-- `address_space_region_is_valid`. -/
def addressSpaceRegionIsValid (region : UserRegion) (wantWritable wantExecutable : Bool) : Bool :=
  region.name.isSome && region.userAccess && decide (region.start < region.stop)
    && region.writable == wantWritable && region.executable == wantExecutable

/-- Does `[address, address + size)` lie in one region?  The sum wraps as `unsigned long` does. -/
def addressSpaceUserRangeValid (space : Option AddressSpace) (address size : Word) : Bool :=
  match space with
  | none => false
  | some space =>
    if space.kind ≠ .user then false
    else if size = 0 then true
    else
      let stop := address + size
      if stop < address then false
      else (List.finRange 3).any fun i =>
        let region := space.userRegions i
        region.name.isSome && region.userAccess
          && decide (region.start ≤ address) && decide (stop ≤ region.stop)

/-- `address_space_user_writable_range_valid`: a range inside one of the regions that are
writable. -/
def addressSpaceUserWritableRangeValid (space : Option AddressSpace) (address size : Word) : Bool :=
  match space with
  | none => false
  | some space =>
    if space.kind ≠ .user ∨ size = 0 then decide (size = 0 ∧ space.kind = .user)
    else
      let stop := address + size
      if stop < address then false
      else (List.finRange 3).any fun i =>
        let region := space.userRegions i
        region.name.isSome && region.userAccess && region.writable
          && decide (region.start ≤ address) && decide (stop ≤ region.stop)

/-- The number of failed checks. -/
def addressSpaceValidateUser (space : AddressSpace) : ℕ :=
  (if !space.permissionSplitReady || space.kernelEl0Access || !space.userEl0Access then 1 else 0)
  + (if !space.userTablesReady || !space.userDescriptorsReady || !space.userMappingsReady
      then 1 else 0)
  + (if space.userRootTable = 0 ∨ addressSpaceUserTableSlots ≤ space.userTableSlot
        ∨ space.userTableCount ≠ 5 then 1 else 0)
  + (if space.userDescriptorCount ≠ addressSpaceUserRegionCount
        ∨ space.userInstalledDescriptorCount ≠ space.userDescriptorCount
        ∨ space.userMappingCount ≠ addressSpaceUserRegionCount then 1 else 0)
  + (if !addressSpaceRegionIsValid (space.userRegions 0) false true
        || !addressSpaceRegionIsValid (space.userRegions 1) true false
        || !addressSpaceRegionIsValid (space.userRegions 2) true false then 1 else 0)
  + (if space.userCodeStart < space.userStart ∨ space.userEnd < space.userStackEnd
        ∨ space.userCodeEnd ≤ space.userCodeStart ∨ space.userDataEnd ≤ space.userDataStart
        ∨ space.userStackEnd ≤ space.userStackStart then 1 else 0)
  + (if !space.userExecuteReady then 1 else 0)

/-! ## The operations -/

/-- `address_space_init`: every slot free, the kernel space over the given root. -/
def addressSpaceInit (kernelRootTable : Word) (st : SpaceStatics) : SpaceStatics :=
  { st with
    userTableSlotsUsed := fun _ => false
    kernelAddressSpace :=
      { name := some "kernel", kind := .kernel, rootTable := kernelRootTable,
        kernelRootTable := kernelRootTable, activeRootTable := kernelRootTable,
        targetRootTable := kernelRootTable, userTableSlot := addressSpaceUserTableSlots,
        sharedKernelMap := true, permissionSplitReady := true, validationReady := true,
        switchReady := true, switchStatus := .active, switchStubStatus := .active } }

/-- `address_space_destroy_user`; a null pointer, a kernel space and a space without a slot are
left alone. -/
def addressSpaceDestroyUser (st : SpaceStatics) (space : AddressSpace) :
    SpaceStatics × AddressSpace :=
  if h : space.kind = .user ∧ space.userTableSlot < addressSpaceUserTableSlots then
    let slot : Fin 4 := ⟨space.userTableSlot, h.2⟩
    let st := clearSlot slot st
    ({ st with userTableSlotsUsed := Function.update st.userTableSlotsUsed slot false },
      { space with
        userTableSlot := addressSpaceUserTableSlots
        userTablesReady := false
        userDescriptorsReady := false
        userMappingsReady := false
        userImageReady := false
        userExecuteReady := false
        validationReady := false
        switchReady := false
        switchStatus := .blocked
        switchStubStatus := .blocked })
  else (st, space)

/-- The fields `address_space_init_user` fixes before it installs any descriptor. -/
def userSpaceScaffold (L : Layout) (name : Option String) (kernelRootTable : Word)
    (slot : Option (Fin 4)) : AddressSpace :=
  { name := some (name.getD "user")
    kind := .user
    rootTable := kernelRootTable
    kernelRootTable := kernelRootTable
    userRootTable := slot.elim 0 fun s => L.table (.userL1 s)
    activeRootTable := kernelRootTable
    targetRootTable := slot.elim kernelRootTable fun s => L.table (.userL1 s)
    userTableSlot := slot.elim addressSpaceUserTableSlots fun s => s
    userTableCount := slot.elim 0 fun _ => 5
    userStart := addressSpaceUserStart
    userEnd := addressSpaceUserEnd
    userCodeStart := addressSpaceUserCodeStart
    userCodeEnd := addressSpaceUserCodeEnd
    userDataStart := addressSpaceUserDataStart
    userDataEnd := addressSpaceUserDataEnd
    userStackStart := addressSpaceUserStackStart
    userStackEnd := addressSpaceUserStackEnd
    userMappingCount := 3
    userDescriptorCount := addressSpaceUserRegionCount
    userRegions := userRegionTable
    permissionSplitReady := true
    userEl0Access := true
    userTablesReady := slot.isSome
    userDescriptorsReady := slot.isSome }

/-- The validation and switching fields, set last. -/
def userSpaceValidated (space : AddressSpace) : AddressSpace :=
  let errors := addressSpaceValidateUser space
  let switchReady := decide (errors = 0 ∧ space.targetRootTable ≠ 0
    ∧ space.targetRootTable ≠ space.activeRootTable)
  { space with
    validationErrors := errors
    validationReady := decide (errors = 0)
    switchReady := switchReady
    switchStatus := if switchReady then .ready else .blocked
    switchStubStatus := if switchReady then .ready else .blocked }

/-- `address_space_init_user`.  Every field of the old object is overwritten, so only the statics
and the arguments matter. -/
def addressSpaceInitUser (L : Layout) (name : Option String) (kernelRootTable : Word)
    (st : SpaceStatics) : SpaceStatics × AddressSpace :=
  let (st, slot) := addressSpaceAllocUserTableSlot st
  let space := userSpaceScaffold L name kernelRootTable slot
  let (T, installed, shared) := addressSpaceInstallUserDescriptors L space st.tables
  ({ st with tables := T },
    userSpaceValidated { space with
      sharedKernelMap := shared
      userInstalledDescriptorCount := installed
      userMappingsReady := decide (installed = space.userDescriptorCount)
      userExecuteReady := decide (installed = space.userDescriptorCount) })

/-- Write `size` bytes of a buffer into a page from `offset`. -/
def writePage (page : Page) (offset size : ℕ) (bytes : ℕ → Byte) : Page := fun i =>
  if offset ≤ i ∧ i < offset + size then bytes (i - offset) else page i

/-- `address_space_load_user_image`, with the pages it fills and whether it did: one page of code
and one of data, the rest of each cleared. -/
def addressSpaceLoadUserImage (st : SpaceStatics) (space : AddressSpace) (code : Buffer)
    (codeSize : Word) (data : Buffer) (dataSize entryOffset : Word) :
    SpaceStatics × AddressSpace × Bool :=
  if h : space.kind = .user ∧ space.userTableSlot < addressSpaceUserTableSlots then
    let slot : Fin 4 := ⟨space.userTableSlot, h.2⟩
    if !space.userMappingsReady || code.isNone || codeSize == 0 || decide (arm64PageSize < codeSize)
        || decide (arm64PageSize < dataSize) || (dataSize != 0 && data.isNone)
        || decide (codeSize ≤ entryOffset) || entryOffset &&& (4 - 1) != 0 then (st, space, false)
    else
      let codePage := writePage addressSpaceClearPage 0 codeSize.toNat (code.getD fun _ => 0)
      let dataPage := writePage addressSpaceClearPage 0 dataSize.toNat (data.getD fun _ => 0)
      let pages := Function.update (st.userRegionPages slot) 0 codePage
      let pages := Function.update pages 1 dataPage
      ({ st with userRegionPages := Function.update st.userRegionPages slot pages },
        { space with
          userImageEntry := space.userCodeStart + entryOffset
          userImageSize := codeSize
          userImageChecksum := addressSpaceChecksumBytes
            ((List.finRange 4096).take codeSize.toNat |>.map codePage)
          userImageReady := true }, true)
  else (st, space, false)

/-- `address_space_write_user_data`: into the data page, at an offset. -/
def addressSpaceWriteUserData (st : SpaceStatics) (space : AddressSpace) (offset : Word)
    (data : Buffer) (size : Word) : SpaceStatics × Bool :=
  if h : space.kind = .user ∧ space.userTableSlot < addressSpaceUserTableSlots then
    let slot : Fin 4 := ⟨space.userTableSlot, h.2⟩
    if (size != 0 && data.isNone) || decide (arm64PageSize < offset)
        || decide (arm64PageSize - offset < size) then (st, false)
    else
      let dataPage := writePage (st.userRegionPages slot 1) offset.toNat size.toNat
        (data.getD fun _ => 0)
      let pages := Function.update (st.userRegionPages slot) 1 dataPage
      ({ st with userRegionPages := Function.update st.userRegionPages slot pages }, true)
  else (st, false)

/-- The bytes of a slot's data page. -/
def dataBytes (st : SpaceStatics) (slot : Fin 4) :
    List Byte := List.ofFn (st.userRegionPages slot 1)

/-- `address_space_switch_stub`: the status it returns; the copy it records in the space is only
printed. -/
def addressSpaceSwitchStub (space : AddressSpace) : SwitchStubStatus :=
  if space.switchStatus = .active then .active
  else if !space.switchReady || space.targetRootTable == 0 || !space.validationReady
      || space.validationErrors != 0 then .blocked
  else .ready

/-! ## The kernel's own space and the slot flags

No operation on user spaces touches the first; only taking and giving back a slot touch the
second. -/

/-- **The kernel's space is nobody else's**: to build, to load, to write and to destroy another
leaves it as it was. -/
@[simp] theorem addressSpaceInitUser_kernel (L : Layout) (name : Option String)
    (kernelRootTable : Word) (st : SpaceStatics) :
    (addressSpaceInitUser L name kernelRootTable st).1.kernelAddressSpace
      = st.kernelAddressSpace := by
  simp only [addressSpaceInitUser, addressSpaceAllocUserTableSlot]
  split <;> rfl

@[simp] theorem addressSpaceLoadUserImage_kernel (st : SpaceStatics) (space : AddressSpace)
    (code data : Buffer) (codeSize dataSize entryOffset : Word) :
    (addressSpaceLoadUserImage st space code codeSize data dataSize
    entryOffset).1.kernelAddressSpace
      = st.kernelAddressSpace := by
  simp only [addressSpaceLoadUserImage]
  split
  · split <;> rfl
  · rfl

@[simp] theorem addressSpaceWriteUserData_kernel (st : SpaceStatics) (space : AddressSpace)
    (offset : Word) (data : Buffer) (size : Word) :
    (addressSpaceWriteUserData st space offset data size).1.kernelAddressSpace
      = st.kernelAddressSpace := by
  simp only [addressSpaceWriteUserData]
  split
  · split <;> rfl
  · rfl

/-- Loading and writing take no slot. -/
@[simp] theorem addressSpaceLoadUserImage_slots (st : SpaceStatics) (space : AddressSpace)
    (code data : Buffer) (codeSize dataSize entryOffset : Word) :
    (addressSpaceLoadUserImage st space code codeSize data dataSize
    entryOffset).1.userTableSlotsUsed
      = st.userTableSlotsUsed := by
  simp only [addressSpaceLoadUserImage]
  split
  · split <;> rfl
  · rfl

@[simp] theorem addressSpaceWriteUserData_slots (st : SpaceStatics) (space : AddressSpace)
    (offset : Word) (data : Buffer) (size : Word) :
    (addressSpaceWriteUserData st space offset data size).1.userTableSlotsUsed
      = st.userTableSlotsUsed := by
  simp only [addressSpaceWriteUserData]
  split
  · split <;> rfl
  · rfl

@[simp] theorem addressSpaceDestroyUser_kernel (st : SpaceStatics) (space : AddressSpace) :
    (addressSpaceDestroyUser st space).1.kernelAddressSpace = st.kernelAddressSpace := by
  rw [addressSpaceDestroyUser]
  split <;> rfl

/-- A destroyed space is still of its kind. -/
@[simp] theorem addressSpaceDestroyUser_kind (st : SpaceStatics) (space : AddressSpace) :
    (addressSpaceDestroyUser st space).2.kind = space.kind := by
  rw [addressSpaceDestroyUser]
  split <;> rfl

end SaturnOS
