import SaturnOS.Arch.Mmu
import SaturnOS.Machinery.Registers

/-!
# Drivers/VirtioMmio — what a transport asks of a driver

    reset ──▸ acknowledge, driver ──▸ features ──▸ queue ──▸ driver ok
      ▴                                 │            │
      └──────────── give up ────────────┴────────────┘

Thirty-two transports stand in memory one after another, each with the same registers.  A
`Negotiation` is what has been read from a transport and written into it since its last reset;
`mayRead` and `mayWrite` are the rules of initialisation for both versions of the interface, and
`rings` is where the device looks for its queue.

`identify`, `acknowledge`, `negotiateModern`, `negotiateLegacy`, `selectQueue` and `setRings` are
what `drivers/storage/virtio_blk.c` and `drivers/keyboard/keyboard.c` have word for word in common.
-/

open Machinery

namespace SaturnOS

def virtioMmioBase : Word := 0x0a000000
def virtioMmioStride : Word := 0x200
def virtioMmioTransports : ℕ := 32

def virtioMagic : BitVec 32 := 0x74726976
def virtioVersionModern : BitVec 32 := 2
def virtioVersionLegacy : BitVec 32 := 1
def virtioDeviceBlock : BitVec 32 := 2
def virtioDeviceInput : BitVec 32 := 18
def virtioFVersion1High : BitVec 32 := 1
def virtioStatusAcknowledge : BitVec 32 := 1
def virtioStatusDriver : BitVec 32 := 2
def virtioStatusDriverOk : BitVec 32 := 4
def virtioStatusFeaturesOk : BitVec 32 := 8

attribute [simp] virtioVersionModern virtioVersionLegacy virtioFVersion1High
  virtioStatusAcknowledge virtioStatusDriver virtioStatusDriverOk virtioStatusFeaturesOk

/-! ## Registers -/

inductive MmioRegister
  | magicValue | version | deviceId | deviceFeatures | deviceFeaturesSel | driverFeatures
  | driverFeaturesSel | guestPageSize | queueSel | queueNumMax | queueNum | queueAlign | queuePfn
  | queueReady | queueNotify | status | queueDescLow | queueDescHigh | queueDriverLow
  | queueDriverHigh | queueDeviceLow | queueDeviceHigh | config | configHigh
  deriving DecidableEq

namespace MmioRegister

/-- The `VIRTIO_MMIO_` offsets; `configHigh` is the second word of the configuration. -/
def offset : MmioRegister → Word
  | magicValue => 0x000
  | version => 0x004
  | deviceId => 0x008
  | deviceFeatures => 0x010
  | deviceFeaturesSel => 0x014
  | driverFeatures => 0x020
  | driverFeaturesSel => 0x024
  | guestPageSize => 0x028
  | queueSel => 0x030
  | queueNumMax => 0x034
  | queueNum => 0x038
  | queueAlign => 0x03c
  | queuePfn => 0x040
  | queueReady => 0x044
  | queueNotify => 0x050
  | status => 0x070
  | queueDescLow => 0x080
  | queueDescHigh => 0x084
  | queueDriverLow => 0x090
  | queueDriverHigh => 0x094
  | queueDeviceLow => 0x0a0
  | queueDeviceHigh => 0x0a4
  | config => 0x100
  | configHigh => 0x104

def all : List MmioRegister :=
  [magicValue, version, deviceId, deviceFeatures, deviceFeaturesSel, driverFeatures,
    driverFeaturesSel, guestPageSize, queueSel, queueNumMax, queueNum, queueAlign, queuePfn,
    queueReady, queueNotify, status, queueDescLow, queueDescHigh, queueDriverLow, queueDriverHigh,
    queueDeviceLow, queueDeviceHigh, config, configHigh]

end MmioRegister

/-- `VIRTIO_MMIO_BASE + i * VIRTIO_MMIO_STRIDE` -/
def transportBase (i : ℕ) : Word := virtioMmioBase + BitVec.ofNat 64 i * virtioMmioStride

/-- The transport an address is in, and the register of it. -/
def registerPlace (a : Word) : Option (ℕ × MmioRegister) :=
  (MmioRegister.all.find? fun r => r.offset.toNat == (a - virtioMmioBase).toNat % 0x200).map
    fun r => ((a - virtioMmioBase).toNat / 0x200, r)

theorem registerPlace_register {i : ℕ} (hi : i < virtioMmioTransports) (r : MmioRegister) :
    registerPlace (transportBase i + r.offset) = some (i, r) := by
  have hoff : r.offset.toNat < 0x200 := by cases r <;> decide
  have hplace : (transportBase i + r.offset - virtioMmioBase).toNat
      = 0x200 * i + r.offset.toNat := by
    have hshift : transportBase i + r.offset - virtioMmioBase
        = BitVec.ofNat 64 i * virtioMmioStride + r.offset := by
      rw [transportBase]
      bv_omega
    have hi' : i < 32 := hi
    have hstride : virtioMmioStride.toNat = 0x200 := rfl
    rw [hshift, BitVec.toNat_add, BitVec.toNat_mul, BitVec.toNat_ofNat, hstride]
    omega
  have hfind : MmioRegister.all.find? (fun r' => r'.offset.toNat == r.offset.toNat) = some r := by
    cases r <;> rfl
  have hmod : (0x200 * i + r.offset.toNat) % 0x200 = r.offset.toNat := by omega
  have hdiv : (0x200 * i + r.offset.toNat) / 0x200 = i := by omega
  rw [registerPlace, hplace, hmod, hdiv, hfind, Option.map_some]

/-! ## The transport's side -/

/-- What has been read from a transport and written into it, since it was last reset. -/
structure Negotiation where
  /-- Whether its status was ever written. -/
  written : Bool := false
  status : BitVec 32 := 0
  last : MmioRegister → Option (BitVec 32) := fun _ => none
  /-- The features read, by the word selected. -/
  offered : BitVec 32 → BitVec 32 := fun _ => 0
  /-- `FEATURES_OK` was written and has been read back. -/
  agreed : Bool := false
  /-- Notifications that came before `DRIVER_OK`. -/
  early : ℕ := 0

namespace Negotiation

variable (n : Negotiation)

def has (bit : BitVec 32) : Bool := n.status &&& bit != 0

def modern : Bool := n.last .version == some virtioVersionModern

def legacy : Bool := n.last .version == some virtioVersionLegacy

/-- The features are settled. -/
def negotiated : Bool := n.has virtioStatusDriver && (n.legacy || n.modern && n.agreed)

def queueSelected : Bool := n.negotiated && n.last .queueSel == some 0

def isReady : Bool := n.last .queueReady == some 1

/-- An address that is written in two halves. -/
def address (low high : MmioRegister) : Option Word := do
  let l ← n.last low
  let h ← n.last high
  some (h ++ l)

/-- Where the device looks for the descriptors, the available ring and the used ring: at the three
addresses it was given, or after one another from the page it was given. -/
def rings : Option (Word × Word × Word) :=
  if n.modern then
    if n.isReady then do
      let desc ← n.address .queueDescLow .queueDescHigh
      let driver ← n.address .queueDriverLow .queueDriverHigh
      let device ← n.address .queueDeviceLow .queueDeviceHigh
      some (desc, driver, device)
    else none
  else do
    let pfn ← n.last .queuePfn
    let size ← n.last .guestPageSize
    let num ← n.last .queueNum
    let align ← n.last .queueAlign
    let desc := pfn.toNat * size.toNat
    let avail := desc + 16 * num.toNat
    let used := (avail + (6 + 2 * num.toNat) + (align.toNat - 1)) / align.toNat * align.toNat
    some (BitVec.ofNat 64 desc, BitVec.ofNat 64 avail, BitVec.ofNat 64 used)

/-- The driver may set these bits of the status: none is cleared, the features are proposed to a
modern device only, and the device goes live with its features settled and its queue set up. -/
def mayBecome (v : BitVec 32) : Bool :=
  n.status &&& v == n.status
    && (v &&& virtioStatusFeaturesOk == 0 || n.has virtioStatusFeaturesOk || n.modern)
    && (v &&& virtioStatusDriverOk == 0 || n.has virtioStatusDriverOk
      || n.negotiated && n.rings.isSome)

def mayRead : MmioRegister → Bool
  | .magicValue | .version | .deviceId | .status => true
  | .deviceFeatures => n.has virtioStatusDriver && (n.last .deviceFeaturesSel).isSome
  | .queueNumMax => n.queueSelected
  | .config | .configHigh => n.negotiated
  | _ => false

def mayWrite (v : BitVec 32) : MmioRegister → Bool
  | .status => v == 0 || n.mayBecome v
  | .deviceFeaturesSel | .driverFeaturesSel => n.has virtioStatusDriver && n.modern
  | .driverFeatures =>
    n.has virtioStatusDriver && !n.has virtioStatusFeaturesOk
      && v &&& n.offered ((n.last .driverFeaturesSel).getD 0) == v
  | .guestPageSize => n.has virtioStatusDriver && n.legacy
  | .queueSel => n.negotiated
  | .queueNum =>
    n.queueSelected && !n.isReady && v &&& (v - 1) == 0
      && decide (v ≤ (n.last .queueNumMax).getD 0)
  | .queueDescLow | .queueDescHigh | .queueDriverLow | .queueDriverHigh | .queueDeviceLow
  | .queueDeviceHigh => n.queueSelected && n.modern && !n.isReady
  | .queueReady =>
    n.queueSelected && n.modern && (v == 0 || v == 1 && (n.last .queueNum).isSome
      && (n.address .queueDescLow .queueDescHigh).isSome
      && (n.address .queueDriverLow .queueDriverHigh).isSome
      && (n.address .queueDeviceLow .queueDeviceHigh).isSome)
  | .queueAlign => n.queueSelected && n.legacy
  | .queuePfn =>
    n.queueSelected && n.legacy && (n.last .guestPageSize).isSome && (n.last .queueNum).isSome
      && (n.last .queueAlign).isSome
  | .queueNotify => n.queueSelected && n.rings.isSome && v == 0
  | _ => false

/-- A reset leaves what the device is. -/
def reset : Negotiation where
  written := true
  last
    | .magicValue => n.last .magicValue
    | .version => n.last .version
    | .deviceId => n.last .deviceId
    | _ => none

def note (r : MmioRegister) (v : BitVec 32) : Negotiation :=
  { n with last := Function.update n.last r (some v) }

def afterRead (v : BitVec 32) : MmioRegister → Negotiation
  | .status =>
    { n with agreed := n.has virtioStatusFeaturesOk && v &&& virtioStatusFeaturesOk != 0 }
  | .deviceFeatures =>
    { n with
      offered := Function.update n.offered ((n.last .deviceFeaturesSel).getD 0) v }
  | r => n.note r v

def afterWrite (v : BitVec 32) : MmioRegister → Negotiation
  | .status => if v = 0 then n.reset else { n with status := v, written := true }
  | .queueNotify =>
    { n with early := n.early + if n.has virtioStatusDriverOk then 0 else 1 }
  | r => n.note r v

/-- An access that is not allowed is not taken. -/
def step : Access MmioRegister (BitVec 32) → Option Negotiation
  | .read r v => if n.mayRead r then some (n.afterRead v r) else none
  | .write r v => if n.mayWrite v r then some (n.afterWrite v r) else none

attribute [simp] has modern legacy negotiated queueSelected isReady mayBecome mayRead mayWrite note
  afterRead afterWrite

end Negotiation

/-- The rules of the thirty-two transports. -/
abbrev mmioStep : (ℕ → Negotiation) → Access Word (BitVec 32) → Option (ℕ → Negotiation) :=
  Driver.family Negotiation.step registerPlace

/-! ## The driver's side -/

abbrev MmioDriver := Driver MmioRegister (BitVec 32)

def read32 (r : MmioRegister) : MmioDriver (BitVec 32) := .read r .done

def write32 (r : MmioRegister) (v : BitVec 32) : MmioDriver Unit := .write r v (.done ())

/-- `base + r` for every register `r` of a program. -/
abbrev atBase {α : Type} (base : Word) (p : MmioDriver α) : Driver Word (BitVec 32) α :=
  p.placed fun r => base + r.offset

/-- The first test of a probe. -/
def identify (device : BitVec 32) : MmioDriver Bool := do
  let magic ← read32 .magicValue
  if magic ≠ virtioMagic then pure false
  else do
    let id ← read32 .deviceId
    pure (id == device)

/-- A reset, and `status` after it. -/
def acknowledge : MmioDriver (BitVec 32) := do
  write32 .status 0
  let status := virtioStatusAcknowledge ||| virtioStatusDriver
  write32 .status status
  pure status

/-- The features of a modern device, and `status` after them; nothing where it is given up. -/
def negotiateModern (status : BitVec 32) : MmioDriver (Option (BitVec 32)) := do
  write32 .deviceFeaturesSel 1
  let featuresHi ← read32 .deviceFeatures
  if featuresHi &&& virtioFVersion1High = 0 then do
    write32 .status 0
    pure none
  else do
    write32 .driverFeaturesSel 0
    write32 .driverFeatures 0
    write32 .driverFeaturesSel 1
    write32 .driverFeatures virtioFVersion1High
    write32 .status (status ||| virtioStatusFeaturesOk)
    let back ← read32 .status
    if back &&& virtioStatusFeaturesOk = 0 then do
      write32 .status 0
      pure none
    else pure (some (status ||| virtioStatusFeaturesOk))

/-- …and of a legacy one. -/
def negotiateLegacy (align : BitVec 32) : MmioDriver Unit := do
  write32 .driverFeatures 0
  write32 .guestPageSize align

/-- The device has a queue of this size, or is given up. -/
def selectQueue (size : BitVec 32) : MmioDriver Bool := do
  write32 .queueSel 0
  let queueMax ← read32 .queueNumMax
  if queueMax < size then do
    write32 .status 0
    pure false
  else pure true

/-- The addresses of a modern queue, each in two halves, and the queue made ready. -/
def setRings (descriptors available used : Word) : MmioDriver Unit := do
  write32 .queueDescLow (descriptors.setWidth 32)
  write32 .queueDescHigh ((descriptors >>> 32).setWidth 32)
  write32 .queueDriverLow (available.setWidth 32)
  write32 .queueDriverHigh ((available >>> 32).setWidth 32)
  write32 .queueDeviceLow (used.setWidth 32)
  write32 .queueDeviceHigh ((used >>> 32).setWidth 32)
  write32 .queueReady 1

/-- The page of a legacy queue, under a page size of `align`. -/
def setPage (align : BitVec 32) (queue : Word) : MmioDriver Unit := do
  write32 .queueAlign align
  write32 .queuePfn ((queue >>> 12).setWidth 32)

/-! ## The steps obey -/

section Obeying

variable {n : Negotiation} {ok : MmioRegister → BitVec 32 → Prop} {α : Type}
  {Q : α → Negotiation → Prop} {r : MmioRegister} {v version status size : BitVec 32}

theorem obeys_read {k : BitVec 32 → MmioDriver α} (h : n.mayRead r = true)
    (hk : ∀ v, ok r v → (k v).Obeys ok Negotiation.step (n.afterRead v r) Q) :
    (read32 r >>= k).Obeys ok Negotiation.step n Q :=
  fun v hv => ⟨_, if_pos h, hk v hv⟩

theorem obeys_write {k : Unit → MmioDriver α} (h : n.mayWrite v r = true)
    (hk : (k ()).Obeys ok Negotiation.step (n.afterWrite v r) Q) :
    (write32 r v >>= k).Obeys ok Negotiation.step n Q :=
  ⟨_, if_pos h, hk⟩

/-- A device may be given up at any time. -/
theorem obeys_giveUp {k : Unit → MmioDriver α} (hk : (k ()).Obeys ok Negotiation.step n.reset Q) :
    (write32 .status 0 >>= k).Obeys ok Negotiation.step n Q :=
  obeys_write rfl hk

/-- The device may take the one feature. -/
def TakesFeatures (ok : MmioRegister → BitVec 32 → Prop) : Prop :=
  (∃ v, ok .deviceFeatures v ∧ v &&& virtioFVersion1High ≠ 0) ∧
    ∃ v, ok .status v ∧ v &&& virtioStatusFeaturesOk ≠ 0

/-- The answers that let a driver go on to the end. -/
structure Suits (ok : MmioRegister → BitVec 32 → Prop) (device size : BitVec 32) : Prop where
  magic : ok .magicValue virtioMagic
  device : ok .deviceId device
  version : ok .version virtioVersionLegacy ∨ ok .version virtioVersionModern ∧ TakesFeatures ok
  queue : ∃ v, ok .queueNumMax v ∧ size ≤ v

/-- An answer that makes a driver stop. -/
inductive Refusal (ok : MmioRegister → BitVec 32 → Prop) (device size : BitVec 32) : Prop
  | magic {v : BitVec 32} (h : ok .magicValue v) (hne : v ≠ virtioMagic)
  | device {v : BitVec 32} (h : ok .deviceId v) (hne : v ≠ device)
  | version {v : BitVec 32} (h : ok .version v) (hmodern : v ≠ virtioVersionModern)
    (hlegacy : v ≠ virtioVersionLegacy)
  | features {v : BitVec 32} (hv : ok .version virtioVersionModern) (h : ok .deviceFeatures v)
    (hbit : v &&& virtioFVersion1High = 0)
  | status {v : BitVec 32} (hv : ok .version virtioVersionModern) (h : ok .status v)
    (hbit : v &&& virtioStatusFeaturesOk = 0)
  | queue {v : BitVec 32} (h : ok .queueNumMax v) (hsmall : v < size)

/-- What a device is stays. -/
structure SameDevice (n n' : Negotiation) : Prop where
  version : n'.last .version = n.last .version
  deviceId : n'.last .deviceId = n.last .deviceId

/-- A device that was given up. -/
structure GivenUp (n n' : Negotiation) : Prop extends SameDevice n n' where
  written : n'.written = true
  status : n'.status = 0
  early : n'.early = 0

/-- What a device is has been looked up, and nothing else. -/
structure Looked (n n' : Negotiation) : Prop where
  rest : ∃ last, n' = { n with last }
  last : ∀ r, r ≠ .magicValue → r ≠ .deviceId → n'.last r = n.last r

theorem identify_obeys (device size : BitVec 32) :
    (identify device).Obeys ok Negotiation.step n fun found n' => Looked n n' ∧
      if found then ok .magicValue virtioMagic ∧ ok .deviceId device ∧
        n'.last .deviceId = some device
      else Refusal ok device size := by
  refine obeys_read rfl fun magic hmagic => ?_
  split
  · rename_i hne
    exact ⟨⟨⟨_, rfl⟩, fun r hr _ => Function.update_of_ne hr _ _⟩, .magic hmagic hne⟩
  rename_i hmagic'
  obtain rfl := not_not.mp hmagic'
  refine obeys_read rfl fun id hid => ⟨⟨⟨_, rfl⟩, fun r hr hr' => ?_⟩, ?_⟩
  · exact (Function.update_of_ne hr' _ _).trans (Function.update_of_ne hr _ _)
  split
  · rename_i hfound
    rw [← eq_of_beq hfound]
    exact ⟨hmagic, hid, by simp⟩
  · rename_i hfound
    exact .device hid fun h => hfound (beq_iff_eq.mpr h)

/-- After the reset. -/
structure Started (n : Negotiation) : Prop where
  written : n.written = true
  status : n.status = virtioStatusAcknowledge ||| virtioStatusDriver
  notReady : n.isReady = false
  early : n.early = 0

theorem acknowledge_obeys : acknowledge.Obeys ok Negotiation.step n fun status n' =>
    status = virtioStatusAcknowledge ||| virtioStatusDriver ∧ Started n' ∧ SameDevice n n' :=
  obeys_giveUp (obeys_write (by simp [Negotiation.reset])
    ⟨rfl, ⟨rfl, rfl, rfl, rfl⟩, ⟨rfl, rfl⟩⟩)

/-- The features are settled. -/
structure Settled (n : Negotiation) (status : BitVec 32) : Prop where
  written : n.written = true
  status : n.status = status
  negotiated : n.negotiated = true
  notReady : n.isReady = false
  early : n.early = 0

theorem and_comm_of_bit {v : BitVec 32} (h : v &&& virtioFVersion1High ≠ 0) :
    virtioFVersion1High &&& v = virtioFVersion1High := by
  simp only [virtioFVersion1High] at h ⊢
  have hbit : (1#32 &&& v) = 0 ∨ 1#32 &&& v = 1 := by
    rw [BitVec.and_comm, BitVec.and_one_eq_setWidth_ofBool_getLsbD]
    cases v.getLsbD 0 <;> decide
  rw [BitVec.and_comm] at h
  exact hbit.resolve_left h

/-- **A modern device** either takes the one feature or is given up. -/
theorem negotiateModern_obeys (h : Started n) (hv : n.last .version = some virtioVersionModern)
    (hok : ok .version virtioVersionModern) (device size : BitVec 32) :
    (negotiateModern (virtioStatusAcknowledge ||| virtioStatusDriver)).Obeys ok Negotiation.step n
      fun result n' => match result with
        | none => GivenUp n n' ∧ Refusal ok device size
        | some status => status &&& virtioStatusDriverOk = 0 ∧ Settled n' status ∧
          SameDevice n n' ∧ TakesFeatures ok := by
  have hstatus := h.status
  refine obeys_write (by simp [hstatus, hv]) <| obeys_read (by simp [hstatus])
    fun features hfeatures => ?_
  split
  · rename_i hbit
    exact obeys_giveUp ⟨⟨⟨rfl, rfl⟩, rfl, rfl, rfl⟩, .features hok hfeatures hbit⟩
  rename_i hbit
  have hoffered := and_comm_of_bit hbit
  refine obeys_write (by simp [hstatus, hv]) <| obeys_write (by simp [hstatus]) <|
    obeys_write (by simp [hstatus, hv]) <| obeys_write ?_ <| obeys_write (by simp [hstatus, hv]) <|
    obeys_read (by simp) fun back hback => ?_
  · simpa [hstatus] using hoffered
  split
  · rename_i hagreed
    exact obeys_giveUp ⟨⟨⟨rfl, rfl⟩, rfl, rfl, rfl⟩, .status hok hback hagreed⟩
  rename_i hagreed
  exact ⟨rfl, ⟨by simp [h.written], by simp [hstatus], by simpa [hstatus, hv] using hagreed,
    by simpa using h.notReady, by simp [h.early]⟩, ⟨by simp, by simp⟩, ⟨features, hfeatures, hbit⟩,
    back, hback, hagreed⟩

/-- **A legacy device** is offered nothing. -/
theorem negotiateLegacy_obeys (h : Started n) (hv : n.last .version = some virtioVersionLegacy)
    (align : BitVec 32) :
    (negotiateLegacy align).Obeys ok Negotiation.step n fun _ n' =>
      Settled n' (virtioStatusAcknowledge ||| virtioStatusDriver) ∧ SameDevice n n' ∧
        n'.last .guestPageSize = some align := by
  have hstatus := h.status
  exact obeys_write (by simp [hstatus]) <| obeys_write (by simp [hstatus, hv])
    ⟨⟨by simp [h.written], by simp [hstatus], by simp [hstatus, hv], by simpa using h.notReady,
      by simp [h.early]⟩, ⟨by simp, by simp⟩, by simp⟩

/-- The queue is selected, and is large enough. -/
structure Selected (n : Negotiation) (status size : BitVec 32) : Prop extends Settled n status where
  selected : n.last .queueSel = some 0
  fits : size ≤ (n.last .queueNumMax).getD 0

theorem selectQueue_obeys (h : Settled n status) (device size : BitVec 32) :
    (selectQueue size).Obeys ok Negotiation.step n fun found n' =>
      if found then Selected n' status size ∧ SameDevice n n' ∧
        n'.last .guestPageSize = n.last .guestPageSize ∧ ∃ v, ok .queueNumMax v ∧ size ≤ v
      else GivenUp n n' ∧ Refusal ok device size := by
  have hneg := h.negotiated
  have hsel : (n.note .queueSel 0).queueSelected = true := by simpa using hneg
  refine obeys_write hneg <| obeys_read hsel fun queueMax hmax => ?_
  split
  · rename_i hsmall
    exact obeys_giveUp ⟨⟨⟨rfl, rfl⟩, rfl, rfl, rfl⟩, .queue hmax hsmall⟩
  rename_i hfits
  rw [BitVec.not_lt] at hfits
  exact ⟨⟨⟨by simp [h.written], by simp [h.status], by simpa using hneg, by simpa using h.notReady,
    by simp [h.early]⟩, by simp, by simpa using hfits⟩, ⟨by simp, by simp⟩, by simp, queueMax, hmax,
    hfits⟩

/-- The queue has its size, and its addresses may be set. -/
structure Sized (n : Negotiation) (status size : BitVec 32) : Prop where
  written : n.written = true
  status : n.status = status
  selected : n.queueSelected = true
  notReady : n.isReady = false
  num : n.last .queueNum = some size
  early : n.early = 0

theorem Selected.isSelected (h : Selected n status size) : n.queueSelected = true := by
  rw [Negotiation.queueSelected, h.negotiated, h.selected]
  rfl

theorem Selected.mayQueueNum (h : Selected n status size) (hpow : size &&& (size - 1) = 0) :
    n.mayWrite size .queueNum = true := by
  rw [Negotiation.mayWrite, h.isSelected, h.notReady, hpow, decide_eq_true h.fits]
  rfl

theorem Selected.sized (h : Selected n status size) :
    Sized (n.note .queueNum size) status size where
  written := h.written
  status := h.status
  selected := h.isSelected
  notReady := h.notReady
  num := by simp
  early := h.early

theorem mayQueueReady (h : n.queueSelected = true)
    (hv : n.last .version = some virtioVersionModern) : n.mayWrite 0 .queueReady = true := by
  have hmodern : n.modern = true := by simp [hv]
  rw [Negotiation.mayWrite, h, hmodern]
  rfl

theorem Selected.unready (h : Selected n status size) :
    Selected (n.note .queueReady 0) status size where
  written := h.written
  status := h.status
  negotiated := h.negotiated
  notReady := by simp
  early := h.early
  selected := h.selected
  fits := h.fits

theorem Sized.unready (h : Sized n status size) : Sized (n.note .queueReady 0) status size where
  written := h.written
  status := h.status
  selected := h.selected
  notReady := by simp
  num := h.num
  early := h.early

/-- The device knows its queue, and is not live yet. -/
structure QueueSet (n : Negotiation) (status size : BitVec 32) (queue : Word) : Prop where
  written : n.written = true
  status : n.status = status
  selected : n.queueSelected = true
  num : n.last .queueNum = some size
  rings : n.rings = some (queue, queue + 16 * size.setWidth 64, queue + 4096)

/-- Two halves make the address. -/
theorem halves (w : Word) : (w >>> 32).setWidth 32 ++ w.setWidth 32 = w := by
  apply BitVec.eq_of_toNat_eq
  rw [BitVec.toNat_append, BitVec.toNat_setWidth, BitVec.toNat_setWidth, BitVec.toNat_ushiftRight,
    ← Nat.shiftLeft_add_eq_or_of_lt (Nat.mod_lt _ (by decide)), Nat.shiftRight_eq_div_pow,
    Nat.shiftLeft_eq]
  omega

/-- **The queue of a modern device.** -/
theorem setRings_obeys (h : Sized n status size)
    (hv : n.last .version = some virtioVersionModern)
    (queue : Word) :
    (setRings queue (queue + 16 * size.setWidth 64) (queue + 4096)).Obeys ok Negotiation.step n
      fun _ n' => QueueSet n' status size queue ∧ SameDevice n n' ∧ n'.early = 0 := by
  obtain ⟨⟨hdriver, hagreed⟩, hsel⟩ : (¬ n.status &&& 2#32 = 0#32 ∧ n.agreed = true)
      ∧ n.last .queueSel = some 0#32 := by simpa [hv] using h.selected
  have hready : ¬ n.last .queueReady = some 1#32 := by simpa using h.notReady
  rw [setRings]
  refine obeys_write (by simp [hv, hdriver, hagreed, hsel, hready]) <|
    obeys_write (by simp [hv, hdriver, hagreed, hsel, hready]) <|
    obeys_write (by simp [hv, hdriver, hagreed, hsel, hready]) <|
    obeys_write (by simp [hv, hdriver, hagreed, hsel, hready]) <|
    obeys_write (by simp [hv, hdriver, hagreed, hsel, hready]) <|
    obeys_write (by simp [hv, hdriver, hagreed, hsel, hready]) <|
    obeys_write (by simp [hv, hdriver, hagreed, hsel, h.num, Negotiation.address]) ?_
  exact ⟨⟨by simpa using h.written, by simpa using h.status, by simpa using h.selected,
    by simpa using h.num, by simp [Negotiation.rings, hv, Negotiation.address, halves]⟩,
    ⟨by simp, by simp⟩, by simpa using h.early⟩

theorem Negotiation.rings_legacy {pfn page num align : BitVec 32} (hm : n.modern = false)
    (hpfn : n.last .queuePfn = some pfn) (hpage : n.last .guestPageSize = some page)
    (hnum : n.last .queueNum = some num) (halign : n.last .queueAlign = some align) :
    n.rings = some (BitVec.ofNat 64 (pfn.toNat * page.toNat),
      BitVec.ofNat 64 (pfn.toNat * page.toNat + 16 * num.toNat),
      BitVec.ofNat 64 ((pfn.toNat * page.toNat + 16 * num.toNat + (6 + 2 * num.toNat)
        + (align.toNat - 1)) / align.toNat * align.toNat)) := by
  rw [rings, hm, hpfn, hpage, hnum, halign]
  rfl

/-- The used ring is in the next page. -/
theorem used_page {q s : ℕ} (hq : q % 4096 = 0) (hs : s ≤ 128) :
    (q + 16 * s + (6 + 2 * s) + (4096 - 1)) / 4096 * 4096 = q + 4096 := by
  omega

/-- **The queue of a legacy device** is found from its page. -/
theorem setPage_obeys (h : Sized n status size) (hv : n.last .version = some virtioVersionLegacy)
    (hpage : n.last .guestPageSize = some 4096) {queue : Word} (haligned : queue.toNat % 4096 = 0)
    (hlow : queue.toNat < 2 ^ 44) (hsize : size.toNat ≤ 128) :
    (setPage 4096 queue).Obeys ok Negotiation.step n fun _ n' =>
      QueueSet n' status size queue ∧ SameDevice n n' ∧ n'.early = 0 := by
  rw [setPage]
  refine obeys_write (by simpa [hv] using h.selected) <|
    obeys_write (by simpa [hv, h.num, hpage] using h.selected) ?_
  refine ⟨⟨by simpa using h.written, by simpa using h.status, by simpa using h.selected,
    by simpa using h.num, ?_⟩, ⟨by simp, by simp⟩, by simpa using h.early⟩
  have hpfn : ((queue >>> 12).setWidth 32).toNat * 4096 = queue.toNat := by
    rw [BitVec.toNat_setWidth, BitVec.toNat_ushiftRight, Nat.shiftRight_eq_div_pow]
    omega
  have hpage' : (4096 : BitVec 32).toNat = 4096 := rfl
  refine Eq.trans (Negotiation.rings_legacy (by simp [hv]) rfl hpage h.num rfl) ?_
  rw [hpage', hpfn, used_page haligned hsize, BitVec.ofNat_add, BitVec.ofNat_add,
    BitVec.ofNat_toNat, BitVec.ofNat_mul, BitVec.ofNat_toNat, BitVec.setWidth_eq]
  rfl

/-! ## Live devices -/

/-- The device is live, and works on the queue at this address. -/
structure Live (n : Negotiation) (size : BitVec 32) (queue : Word) : Prop where
  live : n.has virtioStatusDriverOk = true
  selected : n.queueSelected = true
  num : n.last .queueNum = some size
  rings : n.rings = some (queue, queue + 16 * size.setWidth 64, queue + 4096)

variable {queue : Word}

theorem QueueSet.mayBecome (h : QueueSet n status size queue) :
    n.mayBecome (status ||| virtioStatusDriverOk) = true := by
  have hkeep : status &&& (status ||| virtioStatusDriverOk) = status := by
    ext i hi
    simp only [BitVec.getElem_and, BitVec.getElem_or]
    cases status[i] <;> simp
  have hfeatures : (status ||| virtioStatusDriverOk) &&& virtioStatusFeaturesOk
      = status &&& virtioStatusFeaturesOk := by
    rw [BitVec.and_or_distrib_right]
    simp
  have hneg : n.negotiated = true := (Bool.and_eq_true_iff.mp h.selected).1
  rw [Negotiation.mayBecome, Negotiation.has, Negotiation.has, h.status, hkeep, hfeatures, hneg,
    h.rings]
  simpa using .inl (Decidable.em _)

/-- **The device goes live.** -/
theorem driverOk_obeys (h : QueueSet n status size queue) :
    (write32 .status (status ||| virtioStatusDriverOk)).Obeys ok Negotiation.step n fun _ n' =>
      Live n' size queue ∧ n'.last = n.last ∧ n'.early = n.early := by
  have hne : status ||| virtioStatusDriverOk ≠ 0 := by simp [BitVec.or_eq_zero_iff]
  have hdriver : ∀ b, status &&& b ≠ 0 → (status ||| virtioStatusDriverOk) &&& b ≠ 0 := by
    intro b hb h0
    rw [BitVec.and_or_distrib_right] at h0
    exact hb (BitVec.or_eq_zero_iff.mp h0).1
  have hset : n.afterWrite (status ||| virtioStatusDriverOk) .status
      = { n with status := status ||| virtioStatusDriverOk, written := true } := if_neg hne
  refine ⟨_, if_pos (Bool.or_eq_true_iff.mpr (.inr h.mayBecome)), ?_⟩
  rw [hset]
  refine ⟨⟨?_, ?_, h.num, h.rings⟩, rfl, rfl⟩
  · simp [BitVec.and_or_distrib_right, BitVec.or_eq_zero_iff]
  · have hsel := h.selected
    rw [Negotiation.queueSelected, Negotiation.negotiated, Bool.and_eq_true, Bool.and_eq_true,
      Negotiation.has, bne_iff_ne] at hsel ⊢
    rw [h.status] at hsel
    exact ⟨⟨hdriver _ hsel.1.1, hsel.1.2⟩, hsel.2⟩

/-- A live device may be notified. -/
theorem Live.notify (h : Live n size queue) :
    n.step (.write .queueNotify 0) = some n := by
  have hmay : n.mayWrite 0 .queueNotify = true := by
    rw [Negotiation.mayWrite, h.selected, h.rings]
    rfl
  rw [Negotiation.step, if_pos hmay, Negotiation.afterWrite, h.live]
  rfl

end Obeying

end SaturnOS
