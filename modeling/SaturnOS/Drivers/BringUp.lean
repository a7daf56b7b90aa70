import SaturnOS.Drivers.Probing

/-!
# Drivers/BringUp — the two searches at boot

    virtio_blk_init ──▸ requests of the file system ──▸ virtio_keyboard_init

Both drivers go through the same thirty-two transports.  The first search leaves behind what it
refused and the devices without sectors, and ahead what it never looked at; the second meets all of
this.  What keeps the two apart is the device id, which a transport does not change.

`drivers_brought_up` is about devices that answer in any way; `drivers_found` says which devices are
found where each register of a transport answers with one value.
-/

open Machinery

namespace SaturnOS

/-- The answers that are admitted at a transport. -/
def okAt (ok : Word → BitVec 32 → Prop) (j : ℕ) (r : MmioRegister) : BitVec 32 → Prop :=
  ok (transportBase j + r.offset)

variable {ok : Word → BitVec 32 → Prop} {Q K A : Word} {s s₀ : ℕ → Negotiation} {i j : ℕ}

/-! ## The block device -/

/-- A transport that the search for the block device has left behind. -/
structure BlkBehind (ok : Word → BitVec 32 → Prop) (Q : Word) (j : ℕ) (n : Negotiation) : Prop where
  reason : Refusal (okAt ok j) virtioDeviceBlock virtioBlkQueueSize ∨
    ∃ low high, okAt ok j .config low ∧ okAt ok j .configHigh high ∧ configSectors low high = 0
  early : n.early = 0
  rest : n.written = false ∧ n.status = 0 ∨ okAt ok j .deviceId virtioDeviceBlock ∧
    (n.status = 0 ∨ Live n virtioBlkQueueSize Q ∧ n.capacity = some 0)

/-- What the search for the block device comes to. -/
inductive BlkUp (ok : Word → BitVec 32 → Prop) (Q : Word) (s : ℕ → Negotiation) :
    BlkDriver × Bool → Prop
  | found (i : ℕ) (hi : i < virtioMmioTransports) (low high : BitVec 32)
    (hlow : okAt ok i .config low) (hhigh : okAt ok i .configHigh high)
    (hsectors : configSectors low high ≠ 0)
    (suits : Suits (okAt ok i) virtioDeviceBlock virtioBlkQueueSize)
    (live : Live (s i) virtioBlkQueueSize Q)
    (capacity : (s i).capacity = some (configSectors low high)) (early : (s i).early = 0)
    (behind : ∀ j < i, BlkBehind ok Q j (s j)) (ahead : ∀ j, i < j → s j = {}) :
    BlkUp ok Q s (⟨bootBlk (configSectors low high), transportBase i⟩, true)
  | missing (d : BlkDriver) (hd : d.state = bootBlk 0)
    (behind : ∀ j < virtioMmioTransports, BlkBehind ok Q j (s j))
    (ahead : ∀ j, virtioMmioTransports ≤ j → s j = {}) : BlkUp ok Q s (d, false)

/-- A probe changes nothing that is behind it or ahead of it. -/
theorem behind_update {P : ℕ → Negotiation → Prop} {n : Negotiation} (h : ∀ j < i, P j (s j)) :
    ∀ j < i, P j (Function.update s i n j) := by
  intro j hj
  rw [Function.update_of_ne hj.ne]
  exact h j hj

theorem behind_succ {P : ℕ → Negotiation → Prop} {n : Negotiation} (h : ∀ j < i, P j (s j))
    (hn : P i n) : ∀ j < i + 1, P j (Function.update s i n j) := by
  intro j hj
  rcases Nat.lt_succ_iff_lt_or_eq.mp hj with hlt | rfl
  · exact behind_update h j hlt
  · rwa [Function.update_self]

theorem ahead_succ {n : Negotiation} (h : ∀ j, i ≤ j → s j = s₀ j) :
    ∀ j, i < j → Function.update s i n j = s₀ j := by
  intro j hj
  rw [Function.update_of_ne hj.ne']
  exact h j hj.le

/-- **The search for the block device**, over transports that nobody has touched. -/
theorem virtioBlkInit_obeys (haligned : Q.toNat % 4096 = 0) (hlow : Q.toNat < 2 ^ 44) :
    (virtioBlkInit Q {}).Obeys ok mmioStep (fun _ => {}) fun y s => BlkUp ok Q s y := by
  refine (Driver.Obeys.tryEach
    (fun i d s => d.state = bootBlk 0 ∧ (∀ j < i, BlkBehind ok Q j (s j)) ∧ ∀ j, i ≤ j → s j = {})
    (fun _ d s => BlkUp ok Q s (d, true)) ?_ ?_).mono ?_
  · rintro i d s hi ⟨hd, hbehind, hahead⟩
    refine (virtioBlkProbe_obeys hi haligned hlow).mono ?_
    rintro y _ ⟨n, rfl, hy⟩
    have hfresh : s i = {} := hahead i le_rfl
    have hafter : ∀ j, i < j → Function.update s i n j = {} := ahead_succ hahead
    cases hy with
    | passed refusal written status early =>
      rw [hfresh] at written status early
      exact ⟨hd, behind_succ hbehind ⟨.inl refusal, early, .inl ⟨written, status⟩⟩, hafter⟩
    | givenUp refusal device known status early =>
      exact ⟨hd, behind_succ hbehind ⟨.inl refusal, early, .inr ⟨device, .inl status⟩⟩, hafter⟩
    | live low high suits known live hlow hhigh capacity early =>
      have hstate : { d.state.clearQueue with
          deviceSectors := configSectors low high
          deviceReady := decide (0 < configSectors low high) }
          = bootBlk (configSectors low high) := by
        rw [hd]
        rfl
      rw [hstate]
      by_cases hzero : configSectors low high = 0
      · rw [hzero] at capacity ⊢
        exact ⟨rfl, behind_succ hbehind ⟨.inr ⟨low, high, hlow, hhigh, hzero⟩, early,
          .inr ⟨suits.device, .inr ⟨live, capacity⟩⟩⟩, hafter⟩
      · have hpos : decide (0 < configSectors low high) = true := by
          rw [decide_eq_true_iff]
          bv_omega
        rw [hpos]
        have hself : Function.update s i n i = n := Function.update_self ..
        exact .found i hi low high hlow hhigh hzero suits (by rwa [hself]) (by rwa [hself])
          (by rwa [hself]) (behind_update hbehind) hafter
  · exact ⟨rfl, fun j hj => absurd hj (Nat.not_lt_zero j), fun _ _ => rfl⟩
  · rintro ⟨d, found⟩ s hy
    cases found with
    | true => exact hy.choose_spec.2
    | false => exact .missing d hy.1 hy.2.1 hy.2.2

/-! ## The keyboard -/

/-- A transport that the search for the keyboard has left behind. -/
structure KeyboardBehind (ok : Word → BitVec 32 → Prop) (j : ℕ) (n₀ n : Negotiation) : Prop where
  reason : Refusal (okAt ok j) virtioDeviceInput 16
  rest : Looked n₀ n ∨ okAt ok j .deviceId virtioDeviceInput ∧ n.status = 0 ∧ n.early = 0

/-- What the search for the keyboard comes to. -/
inductive KeyboardUp (ok : Word → BitVec 32 → Prop) (A K : Word) (s₀ s : ℕ → Negotiation) :
    KeyboardDriver × Bool → Prop
  | found (i : ℕ) (hi : i < virtioMmioTransports) (suits : Suits (okAt ok i) virtioDeviceInput 16)
    (live : Live (s i) 16 K) (early : (s i).early = virtioKeyboardQueueSize)
    (behind : ∀ j < i, KeyboardBehind ok j (s₀ j) (s j)) (ahead : ∀ j, i < j → s j = s₀ j) :
    KeyboardUp ok A K s₀ s (⟨bootKeyboard A, transportBase i⟩, true)
  | missing (d : KeyboardDriver) (hd : d.state = {})
    (behind : ∀ j < virtioMmioTransports, KeyboardBehind ok j (s₀ j) (s j))
    (ahead : ∀ j, virtioMmioTransports ≤ j → s j = s₀ j) : KeyboardUp ok A K s₀ s (d, false)

/-- **The search for the keyboard**, over transports in any state. -/
theorem virtioKeyboardInit_obeys (haligned : K.toNat % 4096 = 0) (hlow : K.toNat < 2 ^ 44)
    (s₀ : ℕ → Negotiation) :
    (virtioKeyboardInit A K {}).Obeys ok mmioStep s₀ fun y s => KeyboardUp ok A K s₀ s y := by
  refine (Driver.Obeys.tryEach
    (fun i d s => d.state = {} ∧ (∀ j < i, KeyboardBehind ok j (s₀ j) (s j)) ∧
      ∀ j, i ≤ j → s j = s₀ j)
    (fun _ d s => KeyboardUp ok A K s₀ s (d, true)) ?_ ?_).mono ?_
  · rintro i d s hi ⟨hd, hbehind, hahead⟩
    refine (virtioKeyboardProbeTransport_obeys hi hd haligned hlow).mono ?_
    rintro y _ ⟨n, rfl, hy⟩
    have hsame : s i = s₀ i := hahead i le_rfl
    have hafter := ahead_succ (n := n) hahead
    have hbehind' : ∀ j < i, KeyboardBehind ok j (s₀ j) (Function.update s i n j) :=
      behind_update (P := fun j n => KeyboardBehind ok j (s₀ j) n) hbehind
    have hnext (hn : KeyboardBehind ok i (s₀ i) n) :=
      behind_succ (P := fun j n => KeyboardBehind ok j (s₀ j) n) hbehind hn
    cases hy with
    | passed refusal looked =>
      rw [hsame] at looked
      exact ⟨hd, hnext ⟨refusal, .inl looked⟩, hafter⟩
    | givenUp refusal device known status early =>
      exact ⟨hd, hnext ⟨refusal, .inr ⟨device, status, early⟩⟩, hafter⟩
    | live suits known live early =>
      have hself : Function.update s i n i = n := Function.update_self ..
      exact .found i hi suits (by rwa [hself]) (by rwa [hself]) hbehind' hafter
  · exact ⟨rfl, fun j hj => absurd hj (Nat.not_lt_zero j), fun _ _ => rfl⟩
  · rintro ⟨d, found⟩ s hy
    cases found with
    | true => exact hy.choose_spec.2
    | false => exact .missing d hy.1 hy.2.1 hy.2.2

/-! ## Transport by transport -/

/-- A transport after the search for the block device. -/
theorem BlkUp.at {b : BlkDriver × Bool} (h : BlkUp ok Q s b) (j : ℕ) : (s j).early = 0 ∧
    ((s j).written = false ∧ (s j).status = 0 ∨
      j < virtioMmioTransports ∧ okAt ok j .deviceId virtioDeviceBlock ∧ ((s j).status = 0 ∨
        Live (s j) virtioBlkQueueSize Q ∧ ((s j).capacity = some 0 ∨
          b.2 = true ∧ b.1.deviceBase = transportBase j))) := by
  have hbehind : ∀ {n}, j < virtioMmioTransports → BlkBehind ok Q j n → n.early = 0 ∧
      (n.written = false ∧ n.status = 0 ∨ j < virtioMmioTransports ∧
        okAt ok j .deviceId virtioDeviceBlock ∧ (n.status = 0 ∨ Live n virtioBlkQueueSize Q ∧
          (n.capacity = some 0 ∨ b.2 = true ∧ b.1.deviceBase = transportBase j))) := by
    intro n hj hn
    refine ⟨hn.early, hn.rest.imp_right fun h => ⟨hj, h.1, h.2.imp_right fun h => ⟨h.1, .inl h.2⟩⟩⟩
  cases h with
  | found i hi low high hlow hhigh hsectors suits live capacity early behind ahead =>
    rcases Nat.lt_trichotomy j i with hlt | rfl | hgt
    · exact hbehind (hlt.trans hi) (behind j hlt)
    · exact ⟨early, .inr ⟨hi, suits.device, .inr ⟨live, .inr ⟨rfl, rfl⟩⟩⟩⟩
    · rw [ahead j hgt]
      exact ⟨rfl, .inl ⟨rfl, rfl⟩⟩
  | missing d hd behind ahead =>
    rcases Nat.lt_or_ge j virtioMmioTransports with hlt | hge
    · exact hbehind hlt (behind j hlt)
    · rw [ahead j hge]
      exact ⟨rfl, .inl ⟨rfl, rfl⟩⟩

theorem Looked.refl (n : Negotiation) : Looked n n := ⟨⟨n.last, rfl⟩, fun _ _ _ => rfl⟩

/-- A transport after the search for the keyboard. -/
theorem KeyboardUp.at {k : KeyboardDriver × Bool} (h : KeyboardUp ok A K s₀ s k) (j : ℕ) :
    Looked (s₀ j) (s j) ∨ j < virtioMmioTransports ∧ okAt ok j .deviceId virtioDeviceInput ∧
      ((s j).status = 0 ∨ k.2 = true ∧ k.1.base = transportBase j) := by
  have hbehind : j < virtioMmioTransports → KeyboardBehind ok j (s₀ j) (s j) →
      Looked (s₀ j) (s j) ∨ j < virtioMmioTransports ∧ okAt ok j .deviceId virtioDeviceInput ∧
        ((s j).status = 0 ∨ k.2 = true ∧ k.1.base = transportBase j) :=
    fun hj hn => hn.rest.imp_right fun h => ⟨hj, h.1, .inl h.2.1⟩
  cases h with
  | found i hi suits live early behind ahead =>
    rcases Nat.lt_trichotomy j i with hlt | rfl | hgt
    · exact hbehind (hlt.trans hi) (behind j hlt)
    · exact .inr ⟨hi, suits.device, .inr ⟨rfl, rfl⟩⟩
    · rw [ahead j hgt]
      exact .inl (Looked.refl _)
  | missing d hd behind ahead =>
    rcases Nat.lt_or_ge j virtioMmioTransports with hlt | hge
    · exact hbehind hlt (behind j hlt)
    · rw [ahead j hge]
      exact .inl (Looked.refl _)

/-- A look at what a device is leaves it live. -/
theorem Looked.live {n₀ n : Negotiation} (h : Looked n₀ n) {size : BitVec 32}
    (hlive : Live n₀ size Q) : Live n size Q := by
  obtain ⟨⟨last, rfl⟩, hlast⟩ := h
  have hkeep : ∀ r, r ≠ .magicValue → r ≠ .deviceId → last r = n₀.last r := hlast
  refine ⟨hlive.live, ?_, (hkeep .queueNum (by decide) (by decide)).trans hlive.num, ?_⟩
  · have hsel := hlive.selected
    simp only [Negotiation.queueSelected, Negotiation.negotiated, Negotiation.has,
      Negotiation.legacy, Negotiation.modern, hkeep .version (by decide) (by decide),
      hkeep .queueSel (by decide) (by decide)] at hsel ⊢
    exact hsel
  · have hrings := hlive.rings
    simp only [Negotiation.rings, Negotiation.address, Negotiation.modern, Negotiation.isReady,
      hkeep .version (by decide) (by decide), hkeep .queueReady (by decide) (by decide),
      hkeep .queueDescLow (by decide) (by decide), hkeep .queueDescHigh (by decide) (by decide),
      hkeep .queueDriverLow (by decide) (by decide), hkeep .queueDriverHigh (by decide) (by decide),
      hkeep .queueDeviceLow (by decide) (by decide), hkeep .queueDeviceHigh (by decide) (by decide),
      hkeep .queuePfn (by decide) (by decide), hkeep .guestPageSize (by decide) (by decide),
      hkeep .queueNum (by decide) (by decide), hkeep .queueAlign (by decide) (by decide)]
      at hrings ⊢
    exact hrings

theorem Looked.capacity {n₀ n : Negotiation} (h : Looked n₀ n) : n.capacity = n₀.capacity := by
  rw [Negotiation.capacity, Negotiation.capacity, h.last .config (by decide) (by decide),
    h.last .configHigh (by decide) (by decide)]

/-! ## Both drivers -/

/-- The notifications of so many requests. -/
def notifies (base : Word) : ℕ → Driver Word (BitVec 32) Unit
  | 0 => pure ()
  | n + 1 => .write (base + MmioRegister.queueNotify.offset) 0 (notifies base n)

/-- `virtio_blk_init`, the requests of the file system, and `virtio_keyboard_init`. -/
def driversInit (Q K A : Word) (requests : ℕ) :
    Driver Word (BitVec 32) ((BlkDriver × Bool) × (KeyboardDriver × Bool)) := do
  let b ← virtioBlkInit Q {}
  notifies b.1.deviceBase (if b.2 then requests else 0)
  let k ← virtioKeyboardInit A K {}
  pure (b, k)

/-- A live device is notified. -/
theorem mmioStep_notify {size : BitVec 32} (hi : i < virtioMmioTransports)
    (h : Live (s i) size Q) :
    mmioStep s (.write (transportBase i + MmioRegister.queueNotify.offset) 0) = some s := by
  simp only [mmioStep, Driver.family, registerPlace_register hi, Option.bind_some, h.notify,
    Option.map_some, Function.update_eq_self]

theorem notifies_obeys {size : BitVec 32} (hi : i < virtioMmioTransports)
    (h : Live (s i) size Q) (n : ℕ) :
    (notifies (transportBase i) n).Obeys ok mmioStep s fun _ s' => s' = s := by
  induction n with
  | zero => rfl
  | succ n ih => exact ⟨s, mmioStep_notify hi h, ih⟩

theorem driversInit_obeys (hQ : Q.toNat % 4096 = 0) (hQ' : Q.toNat < 2 ^ 44)
    (hK : K.toNat % 4096 = 0) (hK' : K.toNat < 2 ^ 44) (requests : ℕ) :
    (driversInit Q K A requests).Obeys ok mmioStep (fun _ => {}) fun y s =>
      ∃ s₁, BlkUp ok Q s₁ y.1 ∧ KeyboardUp ok A K s₁ s y.2 := by
  refine (virtioBlkInit_obeys hQ hQ').bind fun b s₁ hb => ?_
  have hnotifies : (notifies b.1.deviceBase (if b.2 then requests else 0)).Obeys ok mmioStep s₁
      fun _ s' => s' = s₁ := by
    cases hb with
    | found i hi low high hlow hhigh hsectors suits live => exact notifies_obeys hi live requests
    | missing => rfl
  refine hnotifies.bind fun _ s' hs' => ?_
  subst hs'
  exact (virtioKeyboardInit_obeys hK hK' s').bind fun k s hk => ⟨s', hb, hk⟩

/-- **What boot has made of the transports**, whose device ids are `ids`. -/
structure DriversUp (ids : ℕ → BitVec 32) (Q K A : Word) (s : ℕ → Negotiation)
    (b : BlkDriver × Bool) (k : KeyboardDriver × Bool) : Prop where
  block : b.1.state = bootBlk b.1.state.deviceSectors ∧ b.2 = b.1.state.deviceReady
  blockLive : b.2 = true → ∃ i < virtioMmioTransports, ids i = virtioDeviceBlock ∧
    b.1.deviceBase = transportBase i ∧ Live (s i) virtioBlkQueueSize Q ∧
    (s i).capacity = some b.1.state.deviceSectors
  keyboard : k.1.state = if k.2 then bootKeyboard A else {}
  keyboardLive : k.2 = true → ∃ i < virtioMmioTransports, ids i = virtioDeviceInput ∧
    k.1.base = transportBase i ∧ Live (s i) 16 K ∧ (s i).early = virtioKeyboardQueueSize
  /-- Of other devices only the id was read. -/
  others : ∀ i, ids i ≠ virtioDeviceBlock → ids i ≠ virtioDeviceInput → (s i).written = false
  /-- The devices that are live are the two, and block devices without sectors. -/
  only : ∀ i, (s i).has virtioStatusDriverOk = true →
    ids i = virtioDeviceBlock ∧ Live (s i) virtioBlkQueueSize Q ∧ (s i).early = 0 ∧
        ((s i).capacity = some 0 ∨ b.2 = true ∧ b.1.deviceBase = transportBase i) ∨
      ids i = virtioDeviceInput ∧ k.2 = true ∧ k.1.base = transportBase i
  /-- The drivers may go on to notify them. -/
  later : ∀ l : List (Access Word (BitVec 32)),
    (∀ e ∈ l, b.2 = true ∧ e = .write (b.1.deviceBase + MmioRegister.queueNotify.offset) 0 ∨
      k.2 = true ∧ e = .write (k.1.base + MmioRegister.queueNotify.offset) 0) →
    run mmioStep s l = some s

section Both

variable {ids : ℕ → BitVec 32} {b : BlkDriver × Bool} {k : KeyboardDriver × Bool}
  {s₁ : ℕ → Negotiation}

/-- The device ids do not change. -/
def SameIds (ids : ℕ → BitVec 32) (a : Word) (v : BitVec 32) : Prop :=
  ∀ i < virtioMmioTransports, a = transportBase i + MmioRegister.deviceId.offset → v = ids i

theorem id_of_sameIds (hj : j < virtioMmioTransports) {v : BitVec 32}
    (h : okAt (SameIds ids) j .deviceId v) : ids j = v :=
  (h j hj rfl).symm

/-- A block device is not one that the second search has written into. -/
theorem looked_block (hk : KeyboardUp (SameIds ids) A K s₁ s k) (hid : ids i = virtioDeviceBlock) :
    Looked (s₁ i) (s i) := by
  have hne : virtioDeviceBlock ≠ virtioDeviceInput := by decide
  exact (hk.at i).resolve_right fun h => hne (hid.symm.trans (id_of_sameIds h.1 h.2.1))

/-- **The block device that was found** is live… -/
theorem live_block (hb : BlkUp (SameIds ids) Q s₁ b) (hk : KeyboardUp (SameIds ids) A K s₁ s k)
    (hfound : b.2 = true) : ∃ i < virtioMmioTransports, ids i = virtioDeviceBlock ∧
      b.1.deviceBase = transportBase i ∧ Live (s i) virtioBlkQueueSize Q ∧
      (s i).capacity = some b.1.state.deviceSectors := by
  cases hb with
  | found i hi low high hlow hhigh hsectors suits live capacity =>
    have hid : ids i = virtioDeviceBlock := id_of_sameIds hi suits.device
    have hlook := looked_block hk hid
    exact ⟨i, hi, hid, rfl, hlook.live live, hlook.capacity.trans capacity⟩
  | missing => cases hfound

/-- …and so is the keyboard. -/
theorem live_keyboard (hk : KeyboardUp (SameIds ids) A K s₁ s k) (hfound : k.2 = true) :
    ∃ i < virtioMmioTransports, ids i = virtioDeviceInput ∧ k.1.base = transportBase i ∧
      Live (s i) 16 K ∧ (s i).early = virtioKeyboardQueueSize := by
  cases hk with
  | found i hi suits live early => exact ⟨i, hi, id_of_sameIds hi suits.device, rfl, live, early⟩
  | missing => cases hfound

/-- **No other device is live**, but for block devices without sectors. -/
theorem live_only (hb : BlkUp (SameIds ids) Q s₁ b) (hk : KeyboardUp (SameIds ids) A K s₁ s k)
    (hlive : (s i).has virtioStatusDriverOk = true) :
    ids i = virtioDeviceBlock ∧ Live (s i) virtioBlkQueueSize Q ∧ (s i).early = 0 ∧
        ((s i).capacity = some 0 ∨ b.2 = true ∧ b.1.deviceBase = transportBase i) ∨
      ids i = virtioDeviceInput ∧ k.2 = true ∧ k.1.base = transportBase i := by
  have hoff : ∀ {n : Negotiation}, n.status = 0 → n.has virtioStatusDriverOk = true → False := by
    intro n h0 h
    rw [Negotiation.has, h0] at h
    exact absurd h (by decide)
  rcases hk.at i with hlook | ⟨hi, hdevice, h0 | hthis⟩
  · have hsame : (s i).status = (s₁ i).status ∧ (s i).early = (s₁ i).early := by
      obtain ⟨⟨last, hlast⟩, -⟩ := hlook
      rw [hlast]
      exact ⟨rfl, rfl⟩
    obtain ⟨hearly₁, ⟨-, h0⟩ | ⟨hi, hdevice, h0 | ⟨hlive₁, hwhich⟩⟩⟩ := hb.at i
    · exact (hoff (hsame.1.trans h0) hlive).elim
    · exact (hoff (hsame.1.trans h0) hlive).elim
    · exact .inl ⟨id_of_sameIds hi hdevice, hlook.live hlive₁, hsame.2.trans hearly₁,
        hwhich.imp_left hlook.capacity.trans⟩
  · exact (hoff h0 hlive).elim
  · exact .inr ⟨id_of_sameIds hi hdevice, hthis⟩

/-- **Notifications of live devices** are allowed, as many as there are. -/
theorem notifies_run {l : List (Access Word (BitVec 32))} (hl : ∀ e ∈ l, mmioStep s e = some s) :
    run mmioStep s l = some s := by
  induction l with
  | nil => rfl
  | cons e l ih =>
    rw [run, hl e List.mem_cons_self]
    exact ih fun e he => hl e (List.mem_cons_of_mem _ he)

/-- **The two searches do not meet.** -/
theorem driversUp (hb : BlkUp (SameIds ids) Q s₁ b) (hk : KeyboardUp (SameIds ids) A K s₁ s k) :
    DriversUp ids Q K A s b k := by
  refine ⟨?_, live_block hb hk, ?_, live_keyboard hk, fun i hi hi' => ?_,
    fun i hlive => live_only hb hk hlive, fun l hl => notifies_run fun e he => ?_⟩
  · cases hb with
    | found i hi low high hlow hhigh hsectors =>
      refine ⟨rfl, (decide_eq_true ?_).symm⟩
      show 0 < configSectors low high
      bv_omega
    | missing d hd =>
      rw [hd]
      exact ⟨rfl, rfl⟩
  · cases hk with
    | found => rfl
    | missing d hd => exact hd
  · have hlook := (hk.at i).resolve_right fun h => hi' (id_of_sameIds h.1 h.2.1)
    obtain ⟨⟨last, hlast⟩, -⟩ := hlook
    rw [hlast]
    exact ((hb.at i).2.resolve_right fun h => hi (id_of_sameIds h.1 h.2.1)).1
  · rcases hl e he with ⟨hfound, rfl⟩ | ⟨hfound, rfl⟩
    · obtain ⟨i, hi, -, hbase, hlive, -⟩ := live_block hb hk hfound
      rw [hbase]
      exact mmioStep_notify hi hlive
    · obtain ⟨i, hi, -, hbase, hlive, -⟩ := live_keyboard hk hfound
      rw [hbase]
      exact mmioStep_notify hi hlive

/-- A device as a driver meets it: its version and its id, one feature, a queue of up to 1024
entries, and 64 sectors where it is a block device. -/
def sampleDevice (version device : BitVec 32) : MmioRegister → BitVec 32
  | .magicValue => virtioMagic
  | .version => version
  | .deviceId => device
  | .deviceFeatures => virtioFVersion1High
  | .status => virtioStatusFeaturesOk
  | .queueNumMax => 1024
  | .config => 64
  | _ => 0

/-- A keyboard and a legacy block device in the last two transports. -/
def sampleDevices (i : ℕ) : MmioRegister → BitVec 32 :=
  if i = 30 then sampleDevice 2 18 else if i = 31 then sampleDevice 1 2 else sampleDevice 2 0

def sampleAnswer (_ : List (Access Word (BitVec 32))) (a : Word) : BitVec 32 :=
  ((registerPlace a).map fun p => sampleDevices p.1 p.2).getD 0

theorem sampleAnswer_register (past : List (Access Word (BitVec 32)))
    (hi : i < virtioMmioTransports) (r : MmioRegister) :
    sampleAnswer past (transportBase i + r.offset) = sampleDevices i r := by
  rw [sampleAnswer, registerPlace_register hi]
  rfl

/-- **Both drivers are brought up** by the rules, however the devices answer: with queues in pages
below 2⁴⁴, and device ids that do not change, every access of the two searches and of the requests
between them is allowed; at most the first device of each kind is left live, besides block devices
without sectors, each with its own queue; the other devices are not written into; and the drivers
are where their protocols start. -/
theorem drivers_brought_up (Q K A : Word) (requests : ℕ) (ids : ℕ → BitVec 32)
    (answer : List (Access Word (BitVec 32)) → Word → BitVec 32)
    (hids : ∀ past, ∀ i < virtioMmioTransports,
      answer past (transportBase i + MmioRegister.deviceId.offset) = ids i)
    (hQ : Q.toNat % 4096 = 0) (hQ' : Q.toNat < 2 ^ 44) (hK : K.toNat % 4096 = 0)
    (hK' : K.toNat < 2 ^ 44) :
    ∃ s, run mmioStep (fun _ => {}) ((driversInit Q K A requests).run answer []).1 = some s ∧
      DriversUp ids Q K A s ((driversInit Q K A requests).run answer []).2.1
        ((driversInit Q K A requests).run answer []).2.2 := by
  have hok : ∀ past a, SameIds ids a (answer past a) := by
    rintro past a i hi rfl
    exact hids past i hi
  have hstart : run mmioStep (fun _ => {}) [] = some fun _ => {} := rfl
  obtain ⟨s, hrun, s₁, hb, hk⟩ := (driversInit_obeys hQ hQ' hK hK' requests).run hok hstart
  exact ⟨s, hrun, driversUp hb hk⟩

theorem drivers_brought_up_last :
    ∃ s, run mmioStep (fun _ => {})
        ((driversInit 0x40100000 0x40110000 0x40120000 3).run sampleAnswer []).1 = some s ∧
      DriversUp (fun i => sampleDevices i .deviceId) 0x40100000 0x40110000 0x40120000 s
        ((driversInit 0x40100000 0x40110000 0x40120000 3).run sampleAnswer []).2.1
        ((driversInit 0x40100000 0x40110000 0x40120000 3).run sampleAnswer []).2.2 :=
  drivers_brought_up 0x40100000 0x40110000 0x40120000 3 _ sampleAnswer
    (fun past _ hi => sampleAnswer_register past hi .deviceId) (by decide) (by decide) (by decide)
    (by decide)

/-! ## Devices whose registers do not change -/

/-- The registers of a device that a driver can use. -/
def Usable (device size : BitVec 32) (f : MmioRegister → BitVec 32) : Prop :=
  f .magicValue = virtioMagic ∧ f .deviceId = device ∧
    (f .version = virtioVersionLegacy ∨ f .version = virtioVersionModern ∧
      f .deviceFeatures &&& virtioFVersion1High ≠ 0 ∧ f .status &&& virtioStatusFeaturesOk ≠ 0) ∧
    size ≤ f .queueNumMax

instance (device size : BitVec 32) (f : MmioRegister → BitVec 32) :
    Decidable (Usable device size f) :=
  inferInstanceAs (Decidable (_ ∧ _ ∧ (_ ∨ _ ∧ _ ∧ _) ∧ _))

/-- …and that has sectors. -/
def BlkUsable (f : MmioRegister → BitVec 32) : Prop :=
  Usable virtioDeviceBlock virtioBlkQueueSize f ∧ configSectors (f .config) (f .configHigh) ≠ 0

instance (f : MmioRegister → BitVec 32) : Decidable (BlkUsable f) :=
  inferInstanceAs (Decidable (_ ∧ _))

/-- Each register answers with one value. -/
def SameAnswers (devices : ℕ → MmioRegister → BitVec 32) (a : Word) (v : BitVec 32) : Prop :=
  ∀ i < virtioMmioTransports, ∀ r : MmioRegister, a = transportBase i + r.offset → v = devices i r

variable {devices : ℕ → MmioRegister → BitVec 32} {device size : BitVec 32}

theorem answer_of_same (hj : j < virtioMmioTransports) {r : MmioRegister} {v : BitVec 32}
    (h : okAt (SameAnswers devices) j r v) : devices j r = v :=
  (h j hj r rfl).symm

theorem Suits.usable (hj : j < virtioMmioTransports)
    (h : Suits (okAt (SameAnswers devices) j) device size) : Usable device size (devices j) := by
  obtain ⟨hmagic, hdevice, hversion, max, hmax, hsize⟩ := h
  refine ⟨answer_of_same hj hmagic, answer_of_same hj hdevice, ?_,
    by rwa [answer_of_same hj hmax]⟩
  rcases hversion with hv | ⟨hv, ⟨features, hf, hbit⟩, back, hb, hagreed⟩
  · exact .inl (answer_of_same hj hv)
  · exact .inr ⟨answer_of_same hj hv, by rwa [answer_of_same hj hf],
      by rwa [answer_of_same hj hb]⟩

theorem Refusal.not_usable (hj : j < virtioMmioTransports)
    (h : Refusal (okAt (SameAnswers devices) j) device size) :
    ¬ Usable device size (devices j) := by
  rintro ⟨hmagic, hdevice, hversion, hsize⟩
  cases h with
  | magic h hne => exact hne ((answer_of_same hj h).symm.trans hmagic)
  | device h hne => exact hne ((answer_of_same hj h).symm.trans hdevice)
  | version h hmodern hlegacy =>
    rw [answer_of_same hj h] at hversion
    exact hversion.elim hlegacy fun h => hmodern h.1
  | features hv h hbit =>
    rw [answer_of_same hj hv, answer_of_same hj h] at hversion
    exact hversion.elim (by decide) fun h => h.2.1 hbit
  | status hv h hbit =>
    rw [answer_of_same hj hv, answer_of_same hj h] at hversion
    exact hversion.elim (by decide) fun h => h.2.2 hbit
  | queue h hsmall =>
    rw [answer_of_same hj h] at hsize
    exact absurd hsmall (BitVec.not_lt.mpr hsize)

theorem BlkBehind.not_usable (hj : j < virtioMmioTransports) {n : Negotiation}
    (h : BlkBehind (SameAnswers devices) Q j n) : ¬ BlkUsable (devices j) := by
  rintro ⟨husable, hsectors⟩
  rcases h.reason with hrefusal | ⟨low, high, hlow, hhigh, hzero⟩
  · exact hrefusal.not_usable hj husable
  · rw [answer_of_same hj hlow, answer_of_same hj hhigh] at hsectors
    exact hsectors hzero

/-- The first of the transports with a property. -/
theorem firstOf_eq {p : ℕ → Prop} [DecidablePred p] (hi : i < virtioMmioTransports) (hp : p i)
    (hbefore : ∀ j < i, ¬ p j) :
    (List.range virtioMmioTransports).find? (fun i => decide (p i)) = some i :=
  List.find?_range_eq_some.mpr ⟨decide_eq_true hp, List.mem_range.mpr hi,
    fun j hj => by rw [decide_eq_false (hbefore j hj)]; rfl⟩

theorem firstOf_none {p : ℕ → Prop} [DecidablePred p]
    (hbefore : ∀ j < virtioMmioTransports, ¬ p j) :
    (List.range virtioMmioTransports).find? (fun i => decide (p i)) = none :=
  List.find?_eq_none.mpr fun j hj => by
    rw [decide_eq_false (hbefore j (List.mem_range.mp hj))]
    exact Bool.false_ne_true

/-- **Which devices are found**, where each register of a transport answers with one value: the
first block device that can be used and has sectors, with its capacity, and the first input device
that can be used; and none where there is none. -/
theorem drivers_found (Q K A : Word) (requests : ℕ) (devices : ℕ → MmioRegister → BitVec 32)
    (answer : List (Access Word (BitVec 32)) → Word → BitVec 32)
    (hanswer : ∀ past, ∀ i < virtioMmioTransports, ∀ r : MmioRegister,
      answer past (transportBase i + r.offset) = devices i r)
    (hQ : Q.toNat % 4096 = 0) (hQ' : Q.toNat < 2 ^ 44) (hK : K.toNat % 4096 = 0)
    (hK' : K.toNat < 2 ^ 44) :
    (match (List.range virtioMmioTransports).find? fun i => decide (BlkUsable (devices i)) with
      | some i => ((driversInit Q K A requests).run answer []).2.1
          = (⟨bootBlk (configSectors (devices i .config) (devices i .configHigh)),
            transportBase i⟩, true)
      | none => ((driversInit Q K A requests).run answer []).2.1.2 = false ∧
          ((driversInit Q K A requests).run answer []).2.1.1.state = bootBlk 0) ∧
    match (List.range virtioMmioTransports).find? fun i =>
        decide (Usable virtioDeviceInput 16 (devices i)) with
      | some i => ((driversInit Q K A requests).run answer []).2.2
          = (⟨bootKeyboard A, transportBase i⟩, true)
      | none => ((driversInit Q K A requests).run answer []).2.2.2 = false ∧
          ((driversInit Q K A requests).run answer []).2.2.1.state = {} := by
  have hok : ∀ past a, SameAnswers devices a (answer past a) := by
    rintro past a i hi r rfl
    exact hanswer past i hi r
  have hstart : run mmioStep (fun _ => {}) [] = some fun _ => {} := rfl
  obtain ⟨s, -, s₁, hb, hk⟩ := (driversInit_obeys hQ hQ' hK hK' requests).run hok hstart
  generalize ((driversInit Q K A requests).run answer []).2 = y at hb hk
  obtain ⟨b, k⟩ := y
  constructor
  · cases hb with
    | found i hi low high hlow hhigh hsectors suits live capacity early behind =>
      have hlow' := answer_of_same hi hlow
      have hhigh' := answer_of_same hi hhigh
      have husable : BlkUsable (devices i) := ⟨suits.usable hi, by rwa [hlow', hhigh']⟩
      rw [firstOf_eq hi husable fun j hj => (behind j hj).not_usable (hj.trans hi)]
      show _ = _
      rw [hlow', hhigh']
    | missing d hd behind =>
      rw [firstOf_none fun j hj => (behind j hj).not_usable hj]
      exact ⟨rfl, hd⟩
  · cases hk with
    | found i hi suits live early behind =>
      rw [firstOf_eq hi (suits.usable hi)
        fun j hj => (behind j hj).reason.not_usable (hj.trans hi)]
    | missing d hd behind =>
      rw [firstOf_none fun j hj => (behind j hj).reason.not_usable hj]
      exact ⟨rfl, hd⟩

theorem drivers_found_last :
    ((driversInit 0x40100000 0x40110000 0x40120000 3).run sampleAnswer []).2
      = ((⟨bootBlk 64, transportBase 31⟩, true),
        (⟨bootKeyboard 0x40120000, transportBase 30⟩, true)) := by
  have hfound := drivers_found 0x40100000 0x40110000 0x40120000 3 sampleDevices sampleAnswer
    (fun past _ hi => sampleAnswer_register past hi) (by decide) (by decide) (by decide) (by decide)
  have hblock : (List.range virtioMmioTransports).find?
      (fun i => decide (BlkUsable (sampleDevices i))) = some 31 := by decide
  have hinput : (List.range virtioMmioTransports).find?
      (fun i => decide (Usable virtioDeviceInput 16 (sampleDevices i))) = some 30 := by decide
  rw [hblock, hinput] at hfound
  exact Prod.ext hfound.1 hfound.2

end Both

end SaturnOS
