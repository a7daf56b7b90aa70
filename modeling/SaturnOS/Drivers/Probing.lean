import SaturnOS.Drivers.Keyboard
import SaturnOS.Drivers.VirtioMmio

/-!
# Drivers/Probing — the search for the block device and for the keyboard

`virtio_blk_probe` and `virtio_blk_init` of `drivers/storage/virtio_blk.c`, and
`virtio_keyboard_probe_transport` and `virtio_keyboard_init` of `drivers/keyboard/keyboard.c`, as
programs over the registers of the transports.  What they leave in memory is where the two
protocols of `Drivers/VirtioBlk` and `Drivers/Keyboard` start.

Every probe keeps to the rules, however the devices answer, and ends in one of three ways: the
transport was passed over, it was given up, or it is live.
-/

open Machinery

namespace SaturnOS

/-! ## The block device -/

def virtioBlkQueueSize : BitVec 32 := 8
def virtioBlkQueueAlign : BitVec 32 := 4096

/-- The statics of the driver; `queue_memory` is part of `state`. -/
structure BlkDriver where
  state : BlkState := bootBlk 0
  deviceBase : Word := 0

/-- `queue_memory` is cleared, and `last_used` with it. -/
def BlkState.clearQueue (s : BlkState) : BlkState :=
  { s with
    descriptors := fun _ => {}, availableIdx := 0, availableRing := fun _ => 0, usedIdx := 0
    lastUsed := 0 }

/-- `device_sectors`, from the two words of the configuration. -/
def configSectors (low high : BitVec 32) : Word := low.setWidth 64 ||| high.setWidth 64 <<< 32

/-- The features, by version… -/
def blkFeatures (version status : BitVec 32) : MmioDriver (Option (BitVec 32)) :=
  if version = virtioVersionModern then negotiateModern status
  else do
    negotiateLegacy virtioBlkQueueAlign
    pure (some status)

/-- …and the queue. -/
def blkQueue (version : BitVec 32) (queue : Word) : MmioDriver Unit := do
  write32 .queueNum virtioBlkQueueSize
  if version = virtioVersionModern then do
    write32 .queueReady 0
    setRings queue (queue + 16 * 8) (queue + 4096)
  else setPage virtioBlkQueueAlign queue

/-- `virtio_blk_probe`, with `queue_memory` at `queue`. -/
def virtioBlkProbe (queue base : Word) (d : BlkDriver) :
    Driver Word (BitVec 32) (BlkDriver × Bool) :=
  atBase base do
    if !(← identify virtioDeviceBlock) then pure (d, false)
    else do
      let version ← read32 .version
      if version ≠ virtioVersionModern ∧ version ≠ virtioVersionLegacy then pure (d, false)
      else do
        let status ← acknowledge
        match ← blkFeatures version status with
        | none => pure (d, false)
        | some status =>
          if !(← selectQueue virtioBlkQueueSize) then pure (d, false)
          else do
            blkQueue version queue
            let low ← read32 .config
            let high ← read32 .configHigh
            let sectors := configSectors low high
            write32 .status (status ||| virtioStatusDriverOk)
            let state :=
              { d.state.clearQueue with
                deviceSectors := sectors, deviceReady := decide (0 < sectors) }
            pure ({ state, deviceBase := base }, state.deviceReady)

/-- `virtio_blk_init`: the first transport whose probe succeeds. -/
def virtioBlkInit (queue : Word) (d : BlkDriver) : Driver Word (BitVec 32) (BlkDriver × Bool) :=
  Driver.tryEach (fun i d => virtioBlkProbe queue (transportBase i) d)
    (List.range virtioMmioTransports) { d with state := { d.state with deviceReady := false } }

section Blk

variable {queue base : Word} {d : BlkDriver} {ok : MmioRegister → BitVec 32 → Prop}
  {n : Negotiation} {i : ℕ}

/-- What the configuration said. -/
def Negotiation.capacity (n : Negotiation) : Option Word := do
  let low ← n.last .config
  let high ← n.last .configHigh
  some (configSectors low high)

/-- The ends of a probe. -/
inductive BlkOutcome (ok : MmioRegister → BitVec 32 → Prop) (queue base : Word) (d : BlkDriver)
    (n n' : Negotiation) : BlkDriver × Bool → Prop
  | passed (refusal : Refusal ok virtioDeviceBlock virtioBlkQueueSize)
    (written : n'.written = n.written) (status : n'.status = n.status)
    (early : n'.early = n.early) : BlkOutcome ok queue base d n n' (d, false)
  | givenUp (refusal : Refusal ok virtioDeviceBlock virtioBlkQueueSize)
    (device : ok .deviceId virtioDeviceBlock) (known : n'.last .deviceId = some virtioDeviceBlock)
    (status : n'.status = 0) (early : n'.early = 0) : BlkOutcome ok queue base d n n' (d, false)
  | live (low high : BitVec 32) (suits : Suits ok virtioDeviceBlock virtioBlkQueueSize)
    (known : n'.last .deviceId = some virtioDeviceBlock) (live : Live n' virtioBlkQueueSize queue)
    (hlow : ok .config low) (hhigh : ok .configHigh high)
    (capacity : n'.capacity = some (configSectors low high)) (early : n'.early = 0) :
    BlkOutcome ok queue base d n n'
      (⟨{ d.state.clearQueue with
          deviceSectors := configSectors low high
          deviceReady := decide (0 < configSectors low high) }, base⟩,
        decide (0 < configSectors low high))

/-- The features are settled, or the device is given up. -/
theorem blkFeatures_obeys {version : BitVec 32} (h : Started n)
    (hv : n.last .version = some version) (hok : ok .version version)
    (hversion : version = virtioVersionModern ∨ version = virtioVersionLegacy)
    (device size : BitVec 32) :
    (blkFeatures version (virtioStatusAcknowledge ||| virtioStatusDriver)).Obeys ok
      Negotiation.step n fun result n' => match result with
        | none => GivenUp n n' ∧ Refusal ok device size
        | some status => Settled n' status ∧ SameDevice n n' ∧
          (version = virtioVersionModern ∧ TakesFeatures ok ∨
            version = virtioVersionLegacy ∧ n'.last .guestPageSize = some 4096) := by
  rw [blkFeatures]
  obtain rfl | rfl := hversion
  · rw [if_pos rfl]
    refine (negotiateModern_obeys h hv hok device size).mono fun result n' h' => ?_
    cases result with
    | none => exact h'
    | some status => exact ⟨h'.2.1, h'.2.2.1, .inl ⟨rfl, h'.2.2.2⟩⟩
  · rw [if_neg (by decide)]
    exact (negotiateLegacy_obeys h hv _).bind fun _ n' h' => ⟨h'.1, h'.2.1, .inr ⟨rfl, h'.2.2⟩⟩

/-- The queue gets its size and its addresses. -/
theorem blkQueue_obeys {status version : BitVec 32} (h : Selected n status virtioBlkQueueSize)
    (hv : n.last .version = some version)
    (hversion : version = virtioVersionModern ∧ TakesFeatures ok ∨
      version = virtioVersionLegacy ∧ n.last .guestPageSize = some 4096)
    (haligned : queue.toNat % 4096 = 0) (hlow : queue.toNat < 2 ^ 44) :
    (blkQueue version queue).Obeys ok Negotiation.step n fun _ n' =>
      QueueSet n' status virtioBlkQueueSize queue ∧ SameDevice n n' ∧ n'.early = 0 := by
  refine obeys_write (h.mayQueueNum rfl) ?_
  have hnum := h.sized
  obtain ⟨rfl, -⟩ | ⟨rfl, hpage⟩ := hversion
  · rw [if_pos rfl]
    refine obeys_write (mayQueueReady hnum.selected hv) ?_
    exact (setRings_obeys hnum.unready hv queue).mono fun _ n' h' =>
      ⟨h'.1, ⟨h'.2.1.1, h'.2.1.2⟩, h'.2.2⟩
  · rw [if_neg (by decide)]
    exact (setPage_obeys hnum hv hpage haligned hlow (by decide)).mono fun _ n' h' =>
      ⟨h'.1, ⟨h'.2.1.1, h'.2.1.2⟩, h'.2.2⟩

/-- Reading the configuration changes nothing. -/
theorem QueueSet.readConfig {status size v w : BitVec 32} (h : QueueSet n status size queue) :
    QueueSet ((n.note .config v).note .configHigh w) status size queue :=
  ⟨h.written, h.status, h.selected, h.num, h.rings⟩

/-- **The probe of a transport** keeps to the rules, and has one of the three ends. -/
theorem virtioBlkProbe_obeys {okB : Word → BitVec 32 → Prop} {s : ℕ → Negotiation}
    (hi : i < virtioMmioTransports) (haligned : queue.toNat % 4096 = 0)
    (hlow : queue.toNat < 2 ^ 44) :
    (virtioBlkProbe queue (transportBase i) d).Obeys okB mmioStep s fun y s' =>
      ∃ n', s' = Function.update s i n' ∧
        BlkOutcome (fun r => okB (transportBase i + r.offset)) queue (transportBase i) d (s i) n'
          y := by
  refine Driver.Obeys.placed (registerPlace_register hi) ?_
  refine (identify_obeys _ virtioBlkQueueSize).bind fun found n₁ h₁ => ?_
  obtain ⟨⟨⟨last, hlast⟩, -⟩, hfound⟩ := h₁
  cases found with
  | false => exact .passed hfound (by rw [hlast]) (by rw [hlast]) (by rw [hlast])
  | true =>
  obtain ⟨hmagic, hok, hid⟩ := hfound
  rw [if_neg (by decide)]
  refine obeys_read rfl fun version hversion => ?_
  split
  · rename_i hneither
    have hsame : n₁.written = (s i).written ∧ n₁.status = (s i).status ∧
        n₁.early = (s i).early := by
      rw [hlast]
      exact ⟨rfl, rfl, rfl⟩
    exact .passed (.version hversion hneither.1 hneither.2) hsame.1 hsame.2.1 hsame.2.2
  rename_i hone
  have hone' : version = virtioVersionModern ∨ version = virtioVersionLegacy := by tauto
  refine acknowledge_obeys.bind fun status n₂ h₂ => ?_
  obtain ⟨rfl, hstarted, hsame₂⟩ := h₂
  have hv₂ : n₂.last .version = some version := hsame₂.version.trans (by simp)
  have hid₂ : n₂.last .deviceId = some virtioDeviceBlock := hsame₂.deviceId.trans hid
  refine (blkFeatures_obeys hstarted hv₂ hversion hone' virtioDeviceBlock
    virtioBlkQueueSize).bind fun settled n₃ h₃ => ?_
  cases settled with
  | none => exact .givenUp h₃.2 hok (h₃.1.deviceId.trans hid₂) h₃.1.status h₃.1.early
  | some status =>
  obtain ⟨hsettled, hsame₃, hway⟩ := h₃
  have hid₃ := hsame₃.deviceId.trans hid₂
  refine (selectQueue_obeys hsettled virtioDeviceBlock virtioBlkQueueSize).bind
    fun found n₄ h₄ => ?_
  cases found with
  | false => exact .givenUp h₄.2 hok (h₄.1.deviceId.trans hid₃) h₄.1.status h₄.1.early
  | true =>
  obtain ⟨hselected, hsame₄, hpage₄, hmax⟩ := h₄
  have hv₄ := hsame₄.version.trans (hsame₃.version.trans hv₂)
  refine (blkQueue_obeys hselected hv₄ (by rwa [hpage₄]) haligned hlow).bind fun _ n₅ h₅ => ?_
  obtain ⟨hset, hsame₅, hearly₅⟩ := h₅
  have hid₅ := hsame₅.deviceId.trans (hsame₄.deviceId.trans hid₃)
  have hneg : n₅.negotiated = true := (Bool.and_eq_true_iff.mp hset.selected).1
  refine obeys_read hneg fun low hlow' => obeys_read hneg fun high hhigh' => ?_
  refine (driverOk_obeys hset.readConfig).bind fun _ n₆ h₆ => ?_
  obtain ⟨hlive, hlast₆, hearly⟩ := h₆
  have hway' : okB (transportBase i + MmioRegister.version.offset) virtioVersionLegacy ∨
      okB (transportBase i + MmioRegister.version.offset) virtioVersionModern ∧
        TakesFeatures fun r => okB (transportBase i + r.offset) := by
    obtain ⟨rfl, htakes⟩ | ⟨rfl, -⟩ := hway
    · exact .inr ⟨hversion, htakes⟩
    · exact .inl hversion
  exact .live low high ⟨hmagic, hok, hway', hmax⟩ (by rw [hlast₆]; exact hid₅) hlive hlow' hhigh'
    (by rw [Negotiation.capacity, hlast₆]; rfl) (hearly.trans hearly₅)

end Blk

/-! ## The keyboard -/

def virtioKeyboardQueueAlign : BitVec 32 := 4096

/-- The statics of the driver; `keyboard_queue` and `keyboard_events` are part of `state`. -/
structure KeyboardDriver where
  state : KeyboardState := {}
  base : Word := 0

namespace KeyboardState

/-- `virtio_keyboard_clear_events` -/
def clearEvents (s : KeyboardState) : KeyboardState := { s with events := fun _ => {} }

/-- `virtio_keyboard_setup_queue_memory` -/
def setupQueueMemory (s : KeyboardState) : KeyboardState :=
  { s with
    desc := fun _ => {}, availIdx := 0, availRing := fun _ => 0, usedIdx := 0
    usedRing := fun _ => {} }

end KeyboardState

/-- The loop over `virtio_keyboard_add_buffer`, each with its notification. -/
def addBuffers (A : Word) : List ℕ → KeyboardState → MmioDriver KeyboardState
  | [], s => pure s
  | i :: is, s => do
    write32 .queueNotify 0
    addBuffers A is (s.addBuffer A (BitVec.ofNat 16 i))

/-- The end of `virtio_keyboard_finish_modern` and of `virtio_keyboard_finish_legacy`. -/
def keyboardStart (A base : Word) (status : BitVec 32) (s : KeyboardState) :
    MmioDriver (KeyboardDriver × Bool) := do
  let s ← addBuffers A (List.range virtioKeyboardQueueSize) s
  write32 .status (status ||| virtioStatusDriverOk)
  pure ({ state := { s with ready := true }, base }, true)

/-- `virtio_keyboard_finish_modern`, with `keyboard_events` at `A` and `keyboard_queue` at
`queue`. -/
def virtioKeyboardFinishModern (A queue base : Word) (status : BitVec 32) (d : KeyboardDriver) :
    MmioDriver (KeyboardDriver × Bool) := do
  match ← negotiateModern status with
  | none => pure (d, false)
  | some status =>
    if !(← selectQueue 16) then pure (d, false)
    else do
      let s := { d.state.clearEvents.setupQueueMemory with lastUsed := 0 }
      write32 .queueReady 0
      write32 .queueNum 16
      setRings queue (queue + 16 * 16) (queue + 4096)
      keyboardStart A base status s

def virtioKeyboardFinishLegacy (A queue base : Word) (status : BitVec 32) (d : KeyboardDriver) :
    MmioDriver (KeyboardDriver × Bool) := do
  negotiateLegacy virtioKeyboardQueueAlign
  if !(← selectQueue 16) then pure (d, false)
  else do
    let s := { d.state.clearEvents.setupQueueMemory with lastUsed := 0 }
    write32 .queueNum 16
    setPage virtioKeyboardQueueAlign queue
    keyboardStart A base status s

/-- `virtio_keyboard_probe_transport` -/
def virtioKeyboardProbeTransport (A queue base : Word) (d : KeyboardDriver) :
    Driver Word (BitVec 32) (KeyboardDriver × Bool) :=
  atBase base do
    if !(← identify virtioDeviceInput) then pure (d, false)
    else do
      let version ← read32 .version
      let status ← acknowledge
      if version = virtioVersionModern then virtioKeyboardFinishModern A queue base status d
      else if version = virtioVersionLegacy then virtioKeyboardFinishLegacy A queue base status d
      else do
        write32 .status 0
        pure (d, false)

/-- `virtio_keyboard_init`: the first transport whose probe succeeds. -/
def virtioKeyboardInit (A queue : Word) (d : KeyboardDriver) :
    Driver Word (BitVec 32) (KeyboardDriver × Bool) :=
  Driver.tryEach (fun i d => virtioKeyboardProbeTransport A queue (transportBase i) d)
    (List.range virtioMmioTransports) d

section Keyboard

variable {A queue base : Word} {d : KeyboardDriver} {ok : MmioRegister → BitVec 32 → Prop}
  {n : Negotiation} {i : ℕ} {status : BitVec 32}

/-- The ends of a probe. -/
inductive KeyboardOutcome (ok : MmioRegister → BitVec 32 → Prop) (A queue base : Word)
    (d : KeyboardDriver) (n n' : Negotiation) : KeyboardDriver × Bool → Prop
  | passed (refusal : Refusal ok virtioDeviceInput 16) (looked : Looked n n') :
    KeyboardOutcome ok A queue base d n n' (d, false)
  | givenUp (refusal : Refusal ok virtioDeviceInput 16) (device : ok .deviceId virtioDeviceInput)
    (known : n'.last .deviceId = some virtioDeviceInput) (status : n'.status = 0)
    (early : n'.early = 0) : KeyboardOutcome ok A queue base d n n' (d, false)
  | live (suits : Suits ok virtioDeviceInput 16)
    (known : n'.last .deviceId = some virtioDeviceInput) (live : Live n' 16 queue)
    (early : n'.early = virtioKeyboardQueueSize) :
    KeyboardOutcome ok A queue base d n n' (⟨bootKeyboard A, base⟩, true)

/-- A device that is not live may be notified all the same. -/
theorem QueueSet.notify {size : BitVec 32} (h : QueueSet n status size queue) :
    n.mayWrite 0 .queueNotify = true := by
  rw [Negotiation.mayWrite, h.selected, h.rings]
  rfl

theorem addBuffers_obeys {size : BitVec 32} (h : QueueSet n status size queue)
    (hlive : status &&& virtioStatusDriverOk = 0) (is : List ℕ) (s : KeyboardState) :
    (addBuffers A is s).Obeys ok Negotiation.step n fun s' n' =>
      s' = is.foldl (fun s i => s.addBuffer A (BitVec.ofNat 16 i)) s ∧
        QueueSet n' status size queue ∧ n'.last = n.last ∧ n'.early = n.early + is.length := by
  induction is generalizing n s with
  | nil => exact ⟨rfl, h, rfl, rfl⟩
  | cons i is ih =>
    refine obeys_write h.notify ?_
    have hnot : n.has virtioStatusDriverOk = false := by
      rw [Negotiation.has, h.status, hlive]
      rfl
    rw [Negotiation.afterWrite, hnot]
    have h' : QueueSet { n with early := n.early + 1 } status size queue :=
      ⟨h.written, h.status, h.selected, h.num, h.rings⟩
    refine (ih h' _).mono fun s' n' hs => ⟨hs.1, hs.2.1, hs.2.2.1, ?_⟩
    rw [hs.2.2.2, List.length_cons, Nat.add_comm is.length 1, ← Nat.add_assoc]

/-- **The last steps**: sixteen buffers, and as many notifications that come too early. -/
theorem keyboardStart_obeys (h : QueueSet n status 16 queue)
    (hlive : status &&& virtioStatusDriverOk = 0) (hearly : n.early = 0) :
    (keyboardStart A base status {}).Obeys ok Negotiation.step n fun y n' =>
      y = (⟨bootKeyboard A, base⟩, true) ∧ Live n' 16 queue ∧ n'.last = n.last ∧
        n'.early = virtioKeyboardQueueSize := by
  refine (addBuffers_obeys h hlive _ _).bind fun s n₁ h₁ => ?_
  obtain ⟨rfl, hset, hlast, hcount⟩ := h₁
  refine (driverOk_obeys hset).bind fun _ n₂ h₂ => ⟨rfl, h₂.1, h₂.2.1.trans hlast, ?_⟩
  rw [h₂.2.2, hcount, hearly, List.length_range, Nat.zero_add]

/-- The end of a device that is known to be an input device. -/
theorem keyboardStart_live {n₀ : Negotiation} (h : QueueSet n status 16 queue)
    (hlive : status &&& virtioStatusDriverOk = 0) (hearly : n.early = 0)
    (hok : Suits ok virtioDeviceInput 16) (hid : n.last .deviceId = some virtioDeviceInput) :
    (keyboardStart A base status {}).Obeys ok Negotiation.step n fun y n' =>
      KeyboardOutcome ok A queue base d n₀ n' y := by
  refine (keyboardStart_obeys h hlive hearly).mono fun y n' h' => ?_
  obtain ⟨rfl, hlive, hlast, hcount⟩ := h'
  exact .live hok (by rw [hlast]; exact hid) hlive hcount

theorem finishModern_obeys {n₀ : Negotiation} (h : Started n)
    (hv : n.last .version = some virtioVersionModern) (hversion : ok .version virtioVersionModern)
    (hd : d.state = {}) (hmagic : ok .magicValue virtioMagic) (hok : ok .deviceId virtioDeviceInput)
    (hid : n.last .deviceId = some virtioDeviceInput) :
    (virtioKeyboardFinishModern A queue base (virtioStatusAcknowledge ||| virtioStatusDriver)
      d).Obeys ok Negotiation.step n fun y n' => KeyboardOutcome ok A queue base d n₀ n' y := by
  refine (negotiateModern_obeys h hv hversion virtioDeviceInput 16).bind fun settled n₁ h₁ => ?_
  cases settled with
  | none => exact .givenUp h₁.2 hok (h₁.1.deviceId.trans hid) h₁.1.status h₁.1.early
  | some status =>
  obtain ⟨hlive, hsettled, hsame₁, htakes⟩ := h₁
  refine (selectQueue_obeys hsettled virtioDeviceInput 16).bind fun found n₂ h₂ => ?_
  have hid₁ := hsame₁.deviceId.trans hid
  cases found with
  | false => exact .givenUp h₂.2 hok (h₂.1.deviceId.trans hid₁) h₂.1.status h₂.1.early
  | true =>
  obtain ⟨hselected, hsame₂, -, hmax⟩ := h₂
  have hv₂ := hsame₂.version.trans (hsame₁.version.trans hv)
  have hid₂ := hsame₂.deviceId.trans hid₁
  refine obeys_write (mayQueueReady hselected.isSelected hv₂) ?_
  refine obeys_write (hselected.unready.mayQueueNum rfl) ?_
  refine (setRings_obeys hselected.unready.sized hv₂ queue).bind fun _ n₃ h₃ => ?_
  obtain ⟨hset, hsame₃, hearly⟩ := h₃
  rw [hd]
  exact keyboardStart_live hset hlive hearly ⟨hmagic, hok, .inr ⟨hversion, htakes⟩, hmax⟩
    (hsame₃.deviceId.trans hid₂)

theorem finishLegacy_obeys {n₀ : Negotiation} (h : Started n)
    (hv : n.last .version = some virtioVersionLegacy) (hversion : ok .version virtioVersionLegacy)
    (hd : d.state = {}) (haligned : queue.toNat % 4096 = 0) (hlow : queue.toNat < 2 ^ 44)
    (hmagic : ok .magicValue virtioMagic) (hok : ok .deviceId virtioDeviceInput)
    (hid : n.last .deviceId = some virtioDeviceInput) :
    (virtioKeyboardFinishLegacy A queue base (virtioStatusAcknowledge ||| virtioStatusDriver)
      d).Obeys ok Negotiation.step n fun y n' => KeyboardOutcome ok A queue base d n₀ n' y := by
  refine (negotiateLegacy_obeys h hv _).bind fun _ n₁ h₁ => ?_
  obtain ⟨hsettled, hsame₁, hpage⟩ := h₁
  refine (selectQueue_obeys hsettled virtioDeviceInput 16).bind fun found n₂ h₂ => ?_
  have hid₁ := hsame₁.deviceId.trans hid
  cases found with
  | false => exact .givenUp h₂.2 hok (h₂.1.deviceId.trans hid₁) h₂.1.status h₂.1.early
  | true =>
  obtain ⟨hselected, hsame₂, hpage₂, hmax⟩ := h₂
  have hv₂ := hsame₂.version.trans (hsame₁.version.trans hv)
  have hid₂ := hsame₂.deviceId.trans hid₁
  refine obeys_write (hselected.mayQueueNum rfl) ?_
  refine (setPage_obeys hselected.sized hv₂ (hpage₂.trans hpage) haligned hlow
    (by decide)).bind fun _ n₃ h₃ => ?_
  obtain ⟨hset, hsame₃, hearly⟩ := h₃
  rw [hd]
  exact keyboardStart_live hset rfl hearly ⟨hmagic, hok, .inl hversion, hmax⟩
    (hsame₃.deviceId.trans hid₂)

/-- **The probe of a transport** keeps to the rules, and has one of the three ends. -/
theorem virtioKeyboardProbeTransport_obeys {okB : Word → BitVec 32 → Prop} {s : ℕ → Negotiation}
    (hi : i < virtioMmioTransports) (hd : d.state = {}) (haligned : queue.toNat % 4096 = 0)
    (hlow : queue.toNat < 2 ^ 44) :
    (virtioKeyboardProbeTransport A queue (transportBase i) d).Obeys okB mmioStep s fun y s' =>
      ∃ n', s' = Function.update s i n' ∧
        KeyboardOutcome (fun r => okB (transportBase i + r.offset)) A queue (transportBase i) d
          (s i) n' y := by
  refine Driver.Obeys.placed (registerPlace_register hi) ?_
  refine (identify_obeys _ 16).bind fun found n₁ h₁ => ?_
  obtain ⟨hlooked, hfound⟩ := h₁
  cases found with
  | false => exact .passed hfound hlooked
  | true =>
  obtain ⟨hmagic, hok, hid⟩ := hfound
  rw [if_neg (by decide)]
  refine obeys_read rfl fun version hversion => ?_
  refine acknowledge_obeys.bind fun status n₂ h₂ => ?_
  obtain ⟨rfl, hstarted, hsame⟩ := h₂
  have hv : n₂.last .version = some version := hsame.version.trans (by simp)
  have hid₂ : n₂.last .deviceId = some virtioDeviceInput := hsame.deviceId.trans hid
  split
  · rename_i hmodern
    subst hmodern
    exact finishModern_obeys hstarted hv hversion hd hmagic hok hid₂
  split
  · rename_i hlegacy
    subst hlegacy
    exact finishLegacy_obeys hstarted hv hversion hd haligned hlow hmagic hok hid₂
  · rename_i hmodern hlegacy
    exact obeys_giveUp (.givenUp (.version hversion hmodern hlegacy) hok hid₂ rfl rfl)

end Keyboard

end SaturnOS
