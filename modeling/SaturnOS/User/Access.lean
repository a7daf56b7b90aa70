import SaturnOS.Fs.Path
import SaturnOS.Memory.Isolation
import SaturnOS.User.Mode

/-!
# User/Access — user memory, as the kernel loads and stores it

    address ──walk from TTBR0──▸ page of a slot ──▸ byte
                           └───▸ nothing: the kernel takes a data abort

A syscall reads and writes its caller's memory through the caller's own pointers.  Inside the ranges
the validators accept, what is mapped is the page of a user region (`KernelOrOwnPage`); the rest is
not mapped, and an access there does not come back.
-/

namespace SaturnOS

/-! ## Bytes -/

/-- A byte of a page behind a user region. -/
structure UserCell where
  slot : Fin 4
  region : Fin 3
  offset : Fin 4096
  writable : Bool
  deriving DecidableEq

/-- The pages behind the user regions. -/
def regionPages : List (Fin 4 × Fin 3) :=
  (List.finRange 4).flatMap fun slot => (List.finRange 3).map fun region => (slot, region)

/-- The page at a physical address. -/
def pageAt (L : Layout) (physical : Word) : Option (Fin 4 × Fin 3) :=
  regionPages.find? fun p => L.base (.region p.1 p.2) == physical &&& ~~~(arm64PageSize - 1)

/-- Where an address of the caller leads; EL1 may write unless the descriptor is read-only. -/
def userCell (L : Layout) (k : Kernel) (address : Word) : Option UserCell :=
  (walk L k.spaces.tables k.ttbr0 address).bind fun t => (pageAt L t.physical).map fun p =>
    ⟨p.1, p.2, Fin.ofNat 4096 t.physical.toNat, t.descriptor &&& arm64DescApRoEl1 == 0⟩

def userLoad (L : Layout) (k : Kernel) (address : Word) : Option Byte :=
  (userCell L k address).map fun c => k.spaces.userRegionPages c.slot c.region c.offset

def Kernel.setPages (k : Kernel) (pages : Fin 4 → Fin 3 → Page) : Kernel :=
  { k with spaces := { k.spaces with userRegionPages := pages } }

/-- One byte of a page, set. -/
def setCell (pages : Fin 4 → Fin 3 → Page) (c : UserCell) (b : Byte) : Fin 4 → Fin 3 → Page :=
  Function.update pages c.slot (Function.update (pages c.slot) c.region
    (Function.update (pages c.slot c.region) c.offset b))

def userStore (L : Layout) (k : Kernel) (address : Word) (b : Byte) : Option Kernel :=
  match userCell L k address with
  | none => none
  | some c => if c.writable then some (k.setPages (setCell k.spaces.userRegionPages c b)) else none

/-! ## Ranges -/

def userLoadBytes (L : Layout) (k : Kernel) : Word → ℕ → Option (List Byte)
  | _, 0 => some []
  | address, n + 1 =>
    (userLoad L k address).bind fun b => (userLoadBytes L k (address + 1) n).map fun bs => b :: bs

def userStoreBytes (L : Layout) : Word → List Byte → Kernel → Option Kernel
  | _, [], k => some k
  | address, b :: bs, k => (userStore L k address b).bind (userStoreBytes L (address + 1) bs)

/-- A string of `n` characters: those before its first NUL, and whether there is none. -/
def copyString (L : Layout) (k : Kernel) : Word → ℕ → Option (CStr × Bool)
  | _, 0 => some (.nil, true)
  | address, n + 1 =>
    match userLoad L k address with
    | none => none
    | some b =>
      if h : b = 0 then some (.nil, false)
      else (copyString L k (address + 1) n).map fun r => (.cons b h r.1, r.2)

end SaturnOS
