import SaturnOS.Drivers.VirtioBlk
import SaturnOS.Machinery.Runs

/-!
# Drivers/Completion — which request a completion belongs to

    published  n+1 ──▸ taken  n+1 ──▸ used  n+1 ──▸ returned
                 one entry on the way at a time

The driver waits for the used count to be one more than the last it saw, and reads the one status
byte.  While every request is waited for, at most one entry is on the way, and a count and a status
are always those of the request waited for (`completion_matches`).  A request that times out leaves
its entry on the way: the next one takes its completion for its own (`late_completion_mistaken`).
-/

open Machinery

namespace SaturnOS

/-! ## What a transfer is promised -/

/-- The chain asks for the transfer: its sectors, its buffer and its direction. -/
structure Chain.Asks (c : Chain) (t : Transfer) : Prop where
  direction : c.header.type = if t.write then virtioBlkTOut else virtioBlkTIn
  sector : c.header.sector = t.sector
  buffer : c.data.addr = t.buffer
  length : c.data.len.toNat = t.count.toNat * 512
  deviceWrites : (c.data.flags &&& virtqDescFWrite ≠ 0) ↔ t.write = false

/-- The device has completed the entry. -/
def Completed (s : BlkState) (entry : ℕ) : Prop := ∃ c ∈ s.completed, c.entry = entry

/-- **The device has completed the entry, it was the transfer, and it went well.** -/
def CompletedOk (s : BlkState) (t : Transfer) (entry : ℕ) : Prop :=
  ∃ c ∈ s.completed, c.entry = entry ∧ c.chain.Asks t ∧ c.status = virtioBlkSOk

/-- **Completions are matched**: a transfer that has returned 1 was completed; a poll does not miss
the completion of its own entry, and a transfer completed well returns 1. -/
structure Matched (s : BlkState) (e : BlkEvent) (s' : BlkState) : Prop where
  sound : ∀ r ∈ s'.returned, r.ok = true → CompletedOk s' r.transfer r.entry
  noticed : ∀ t entry expected turns, s.driver = .polling t entry expected turns → e = .poll →
    Completed s entry → s'.driver = .matched t entry
  succeeds : ∀ t entry, s.driver = .matched t entry → e = .finish → CompletedOk s t entry →
    s'.returned = ⟨t, entry, true⟩ :: s.returned

/-- No transfer starts once one has timed out. -/
def StartsFresh (s : BlkState) : BlkEvent → Prop
  | .start _ => s.timeouts = 0
  | _ => True

/-! ## The invariant -/

/-- The chain of a transfer. -/
def transferChain (A : BlkAddresses) (t : Transfer) : Chain :=
  ⟨transferHeader t, dataDesc t, A.status⟩

theorem transferChain_asks (A : BlkAddresses) {s : BlkState} {t : Transfer}
    (h : transferRejected s t = false) : (transferChain A t).Asks t := by
  simp only [transferRejected, Bool.or_eq_false_iff, decide_eq_false_iff_not] at h
  have hcount := h.2
  rw [BitVec.not_lt, BitVec.le_def, show (0xffffffff / virtioBlkSectorSize : Word).toNat = 8388607
    from by decide] at hcount
  refine ⟨rfl, rfl, rfl, ?_, ?_⟩
  · change ((t.count * virtioBlkSectorSize).setWidth 32).toNat = _
    rw [BitVec.toNat_setWidth, BitVec.toNat_mul, show virtioBlkSectorSize.toNat
      = 512 from by decide]
    omega
  · change ((virtqDescFNext ||| if t.write then 0 else virtqDescFWrite) &&& virtqDescFWrite ≠ 0) ↔ _
    cases t.write <;> decide

/-- The writes of a request that are done. -/
structure Prepared (A : BlkAddresses) (t : Transfer) (done : ℕ) (s : BlkState) : Prop where
  header : 0 < done → s.request = transferHeader t
  desc0 : 2 < done → s.descriptors 0 = headerDesc A
  desc1 : 3 < done → s.descriptors 1 = dataDesc t
  desc2 : 4 < done → s.descriptors 2 = statusDesc A

/-- The device has taken and completed so many entries, and has none in hand. -/
structure Drained (n : ℕ) (s : BlkState) : Prop where
  taken : s.taken = BitVec.ofNat 16 n
  used : s.usedIdx = BitVec.ofNat 16 n
  fetched : s.fetched = n
  inHand : s.inHand = []
  completed : ∀ c ∈ s.completed, c.entry < n

/-- Nothing is on the way. -/
structure AtRest (s : BlkState) : Prop where
  drained : Drained s.published s
  available : s.availableIdx = BitVec.ofNat 16 s.published
  lastUsed : s.lastUsed = BitVec.ofNat 16 s.published
  noTimeout : s.timeouts = 0

/-- The entry is in hand. -/
structure InHand (A : BlkAddresses) (t : Transfer) (n : ℕ) (stage : FlightStage) (s : BlkState) :
    Prop where
  taken : s.taken = BitVec.ofNat 16 (n + 1)
  used : s.usedIdx = BitVec.ofNat 16 n
  fetched : s.fetched = n + 1
  inHand : s.inHand = [⟨n, transferChain A t, stage⟩]
  completed : ∀ c ∈ s.completed, c.entry < n
  status : ∀ status, stage = .reported status → s.requestStatus = status

/-- The entry is the last completed, and the status byte is its. -/
structure Answered (A : BlkAddresses) (t : Transfer) (n : ℕ) (s : BlkState) : Prop where
  drained : Drained (n + 1) s
  last : ∃ rest, s.completed = ⟨n, transferChain A t, s.requestStatus⟩ :: rest
    ∧ ∀ c ∈ rest, c.entry < n

/-- **How far an entry is** while the driver waits for it. -/
inductive Progress (A : BlkAddresses) (t : Transfer) (n : ℕ) (s : BlkState) : Prop
  | waiting (h : Drained n s) (hp : Prepared A t 6 s)
  | inHand (stage : FlightStage) (h : InHand A t n stage s)
  | answered (h : Answered A t n s)

/-- The driver has one entry published that it has not seen used. -/
structure OnTheWay (n : ℕ) (s : BlkState) : Prop where
  published : s.published = n + 1
  available : s.availableIdx = BitVec.ofNat 16 (n + 1)
  noTimeout : s.timeouts = 0

/-- What holds where the driver is. -/
def PhaseOk (A : BlkAddresses) (s : BlkState) : DriverPhase → Prop
  | .idle => s.timeouts = 0 → AtRest s
  | .preparing t done => AtRest s ∧ Prepared A t done s ∧ done ≤ 6 ∧ (transferChain A t).Asks t
  | .polling t n expected _ => OnTheWay n s ∧ Progress A t n s ∧ s.lastUsed = BitVec.ofNat 16 n
      ∧ expected = BitVec.ofNat 16 (n + 1) ∧ (transferChain A t).Asks t
  | .matched t n => OnTheWay n s ∧ Answered A t n s ∧ s.lastUsed = BitVec.ofNat 16 (n + 1)
      ∧ (transferChain A t).Asks t

/-- **The invariant of the driver and the device.** -/
structure BlkOk (A : BlkAddresses) (s : BlkState) : Prop where
  ring : ∀ i, s.availableRing i = 0
  sound : ∀ r ∈ s.returned, r.ok = true → CompletedOk s r.transfer r.entry
  phase : PhaseOk A s s.driver

theorem blkOk_boot (A : BlkAddresses) (sectors : Word) : BlkOk A (bootBlk sectors) where
  ring _ := rfl
  sound _ hr := absurd hr List.not_mem_nil
  phase _ := ⟨⟨rfl, rfl, rfl, rfl, fun _ hc => absurd hc List.not_mem_nil⟩, rfl, rfl, rfl⟩

/-! ## The device's steps -/

section Steps

variable {A : BlkAddresses} {s s' : BlkState} {t : Transfer} {n : ℕ}

theorem ofNat_succ_ne (n : ℕ) : BitVec.ofNat 16 n ≠ BitVec.ofNat 16 (n + 1) := by
  intro h
  have := congrArg BitVec.toNat h
  rw [BitVec.toNat_ofNat, BitVec.toNat_ofNat] at this
  omega

theorem ofNat_succ_eq (n : ℕ) : BitVec.ofNat 16 n + 1 = BitVec.ofNat 16 (n + 1) := by
  rw [BitVec.ofNat_add]
  rfl

/-- **The chain fetched is the one prepared.** -/
theorem fetchChain_prepared (hring : ∀ i, s.availableRing i = 0) (h : Prepared A t 6 s) :
    fetchChain A s = transferChain A t := by
  have h0 : ringIndex 0 = 0 := by decide
  have h1 : ringIndex (headerDesc A).next = 1 := rfl
  have h2 : ringIndex (dataDesc t).next = 2 := rfl
  simp only [fetchChain, hring, h0, h.desc0 (by omega), h1, h.desc1 (by omega), h2,
    h.desc2 (by omega),
    h.header (by omega)]
  rw [if_pos (show (headerDesc A).addr = A.request from rfl)]
  rfl

/-- The events of the device. -/
def BlkEvent.ofDevice : BlkEvent → Bool
  | .fetch | .perform _ _ | .report _ | .complete _ => true
  | _ => false

/-- What the device leaves to the driver. -/
structure DeviceKeeps (s s' : BlkState) : Prop where
  driver : s'.driver = s.driver
  available : s'.availableIdx = s.availableIdx
  ring : s'.availableRing = s.availableRing
  lastUsed : s'.lastUsed = s.lastUsed
  published : s'.published = s.published
  returned : s'.returned = s.returned
  timeouts : s'.timeouts = s.timeouts
  completed : ∀ c ∈ s.completed, c ∈ s'.completed

theorem device_keeps {e : BlkEvent} (he : e.ofDevice = true) (h : blkStep A s e = some s') :
    DeviceKeeps s s' := by
  cases e with
  | start t => cases he
  | prepare => cases he
  | poll => cases he
  | finish => cases he
  | fetch =>
    rw [blkStep] at h
    split at h
    · cases h
    · obtain rfl := Option.some.inj h
      exact ⟨rfl, rfl, rfl, rfl, rfl, rfl, rfl, fun _ hc => hc⟩
  | perform i status =>
    rw [blkStep] at h
    split at h
    · obtain rfl := Option.some.inj h
      exact ⟨rfl, rfl, rfl, rfl, rfl, rfl, rfl, fun _ hc => hc⟩
    · cases h
  | report i =>
    rw [blkStep] at h
    split at h
    · obtain rfl := Option.some.inj h
      rw [writeStatus]
      split <;> exact ⟨rfl, rfl, rfl, rfl, rfl, rfl, rfl, fun _ hc => hc⟩
    · cases h
  | complete i =>
    rw [blkStep] at h
    split at h
    · obtain rfl := Option.some.inj h
      exact ⟨rfl, rfl, rfl, rfl, rfl, rfl, rfl, fun _ hc => List.mem_cons_of_mem _ hc⟩
    · cases h

/-- **A device with nothing to take and nothing in hand does nothing.** -/
theorem device_idle {e : BlkEvent} (he : e.ofDevice = true) (htaken : s.taken = s.availableIdx)
    (hhand : s.inHand = []) : blkStep A s e = none := by
  cases e with
  | start t => cases he
  | prepare => cases he
  | poll => cases he
  | finish => cases he
  | fetch => rw [blkStep, if_pos htaken]
  | perform i status => rw [blkStep, hhand, List.getElem?_nil]
  | report i => rw [blkStep, hhand, List.getElem?_nil]
  | complete i => rw [blkStep, hhand, List.getElem?_nil]

/-- A singleton has one entry in hand. -/
theorem inHand_singleton {f g : Flight} {i : ℕ} (h : [f][i]? = some g) : i = 0 ∧ f = g := by
  cases i with
  | zero => exact ⟨rfl, Option.some.inj h⟩
  | succ i => cases h

/-- The device takes the entry that waits. -/
theorem waiting_device (hring : ∀ i, s.availableRing i = 0)
    (hway : OnTheWay n s) (h : Drained n s) (hp : Prepared A t 6 s) {e : BlkEvent}
    (he : e.ofDevice = true) (hstep : blkStep A s e = some s') : Progress A t n s' := by
  cases e with
  | start t => cases he
  | prepare => cases he
  | poll => cases he
  | finish => cases he
  | fetch =>
    rw [blkStep, if_neg (by rw [h.taken, hway.available]; exact ofNat_succ_ne n),
      fetchChain_prepared hring hp, h.inHand] at hstep
    obtain rfl := Option.some.inj hstep
    refine .inHand .fetched ⟨?_, h.used, ?_, ?_, h.completed, fun _ hs => by cases hs⟩
    · dsimp only
      rw [h.taken, ofNat_succ_eq]
    · dsimp only
      rw [h.fetched]
    · dsimp only
      rw [h.fetched]
      rfl
  | perform i status =>
    rw [blkStep, h.inHand, List.getElem?_nil] at hstep
    cases hstep
  | report i =>
    rw [blkStep, h.inHand, List.getElem?_nil] at hstep
    cases hstep
  | complete i =>
    rw [blkStep, h.inHand, List.getElem?_nil] at hstep
    cases hstep

/-- …goes through its stages, and completes it. -/
theorem inHand_device (hway : OnTheWay n s) {stage : FlightStage} (h : InHand A t n stage s)
    {e : BlkEvent} (he : e.ofDevice = true) (hstep : blkStep A s e = some s') :
    Progress A t n s' := by
  cases e with
  | start t => cases he
  | prepare => cases he
  | poll => cases he
  | finish => cases he
  | fetch =>
    rw [blkStep, if_pos (h.taken.trans hway.available.symm)] at hstep
    cases hstep
  | perform i status =>
    rw [blkStep, h.inHand] at hstep
    split at hstep
    · rename_i entry chain hget
      obtain ⟨rfl, hflight⟩ := inHand_singleton hget
      obtain ⟨rfl, rfl, rfl⟩ := Flight.mk.inj hflight
      obtain rfl := Option.some.inj hstep
      exact .inHand (.performed status) ⟨h.taken, h.used, h.fetched, rfl, h.completed,
        fun _ hs => by cases hs⟩
    · cases hstep
  | report i =>
    rw [blkStep, h.inHand] at hstep
    split at hstep
    · rename_i entry chain status hget
      obtain ⟨rfl, hflight⟩ := inHand_singleton hget
      obtain ⟨rfl, rfl, rfl⟩ := Flight.mk.inj hflight
      obtain rfl := Option.some.inj hstep
      rw [writeStatus, if_pos (show (transferChain A t).status = A.status from rfl)]
      exact .inHand (.reported status) ⟨h.taken, h.used, h.fetched, rfl, h.completed,
        fun _ hs => FlightStage.reported.inj hs⟩
    · cases hstep
  | complete i =>
    rw [blkStep, h.inHand] at hstep
    split at hstep
    · rename_i entry chain status hget
      obtain ⟨rfl, hflight⟩ := inHand_singleton hget
      obtain ⟨rfl, rfl, rfl⟩ := Flight.mk.inj hflight
      obtain rfl := Option.some.inj hstep
      refine .answered ⟨⟨h.taken, ?_, h.fetched, rfl, fun c hc => ?_⟩, s.completed, ?_, h.completed⟩
      · dsimp only
        rw [h.used, ofNat_succ_eq]
      · rcases List.mem_cons.mp hc with rfl | hc
        · exact Nat.lt_succ_self _
        · exact Nat.lt_succ_of_lt (h.completed c hc)
      · dsimp only
        rw [h.status status rfl]
    · cases hstep

/-- **A step of the device keeps the invariant.** -/
theorem blkOk_device (h : BlkOk A s) {e : BlkEvent} (he : e.ofDevice = true)
    (hstep : blkStep A s e = some s') : BlkOk A s' := by
  have hkeeps := device_keeps he hstep
  have hrest : AtRest s → False := by
    intro hr
    have hnone := device_idle (A := A) he (hr.drained.taken.trans hr.available.symm)
      hr.drained.inHand
    rw [hnone] at hstep
    cases hstep
  refine ⟨by rw [hkeeps.ring]; exact h.ring, fun r hr hok => ?_, ?_⟩
  · rw [hkeeps.returned] at hr
    obtain ⟨c, hc, hentry⟩ := h.sound r hr hok
    exact ⟨c, hkeeps.completed c hc, hentry⟩
  have hphase := h.phase
  rw [hkeeps.driver]
  cases hdriver : s.driver with
  | idle =>
    rw [hdriver] at hphase
    exact fun hzero => (hrest (hphase (hkeeps.timeouts.symm.trans hzero))).elim
  | preparing t done =>
    rw [hdriver] at hphase
    exact (hrest hphase.1).elim
  | polling t n expected turns =>
    rw [hdriver] at hphase
    obtain ⟨hway, hprogress, hlast, hexpected, hasks⟩ := hphase
    refine ⟨⟨hkeeps.published.trans hway.published, hkeeps.available.trans hway.available,
      hkeeps.timeouts.trans hway.noTimeout⟩, ?_, hkeeps.lastUsed.trans hlast, hexpected, hasks⟩
    cases hprogress with
    | waiting hd hp => exact waiting_device h.ring hway hd hp he hstep
    | inHand stage hh => exact inHand_device hway hh he hstep
    | answered ha =>
      have hnone := device_idle (A := A) he (ha.drained.taken.trans hway.available.symm)
        ha.drained.inHand
      rw [hnone] at hstep
      cases hstep
  | matched t n =>
    rw [hdriver] at hphase
    obtain ⟨hway, ha, -⟩ := hphase
    have hnone := device_idle (A := A) he (ha.drained.taken.trans hway.available.symm)
      ha.drained.inHand
    rw [hnone] at hstep
    cases hstep

/-! ## The driver's steps -/

/-- Only the counts matter at rest. -/
theorem AtRest.of_eq (h : AtRest s) (htaken : s'.taken = s.taken) (hused : s'.usedIdx = s.usedIdx)
    (hfetched : s'.fetched = s.fetched) (hhand : s'.inHand = s.inHand)
    (hcompleted : s'.completed = s.completed) (hpublished : s'.published = s.published)
    (havailable : s'.availableIdx = s.availableIdx) (hlast : s'.lastUsed = s.lastUsed)
    (htimeouts : s'.timeouts = s.timeouts) : AtRest s' := by
  obtain ⟨hd, ha, hl, ht⟩ := h
  refine ⟨⟨?_, ?_, ?_, ?_, ?_⟩, ?_, ?_, ?_⟩
  · rw [htaken, hpublished, hd.taken]
  · rw [hused, hpublished, hd.used]
  · rw [hfetched, hpublished, hd.fetched]
  · rw [hhand, hd.inHand]
  · rw [hcompleted, hpublished]
    exact hd.completed
  · rw [havailable, hpublished, ha]
  · rw [hlast, hpublished, hl]
  · rw [htimeouts, ht]

/-- The writes before the last change no count. -/
theorem prepareWrite_rest (h : AtRest s) (done : ℕ) (driver : DriverPhase) :
    AtRest { prepareWrite A t s done with driver := driver } := by
  rw [prepareWrite.eq_def]
  split <;> exact h.of_eq rfl rfl rfl rfl rfl rfl rfl rfl rfl

/-- **One more write done.** -/
theorem prepared_succ {done : ℕ} (h : Prepared A t done s) (hdone : done < 6)
    (driver : DriverPhase) :
    Prepared A t (done + 1) { prepareWrite A t s done with driver := driver } := by
  have hcases : done = 0 ∨ done = 1 ∨ done = 2 ∨ done = 3 ∨ done = 4 ∨ done = 5 := by omega
  rcases hcases with rfl | rfl | rfl | rfl | rfl | rfl
  · exact ⟨fun _ => rfl, fun h => by omega, fun h => by omega, fun h => by omega⟩
  · exact ⟨fun _ => h.header (by omega), fun h => by omega, fun h => by omega, fun h => by omega⟩
  · exact ⟨fun _ => h.header (by omega), fun _ => rfl, fun h => by omega, fun h => by omega⟩
  · exact ⟨fun _ => h.header (by omega), fun _ => h.desc0 (by omega), fun _ =>
      rfl, fun h => by omega⟩
  · exact ⟨fun _ => h.header (by omega), fun _ => h.desc0 (by omega), fun _ => h.desc1 (by omega),
      fun _ => rfl⟩
  · exact ⟨fun _ => h.header (by omega), fun _ => h.desc0 (by omega), fun _ => h.desc1 (by omega),
      fun _ => h.desc2 (by omega)⟩

theorem prepareWrite_ring (h : ∀ i, s.availableRing i = 0) (done : ℕ) (i : Fin 8) :
    (prepareWrite A t s done).availableRing i = 0 := by
  rw [prepareWrite.eq_def]
  split
  · exact h i
  · exact h i
  · exact h i
  · exact h i
  · exact h i
  · by_cases hi : i = ringIndex s.availableIdx
    · rw [hi]
      exact Function.update_self _ _ _
    · exact (Function.update_of_ne hi _ _).trans (h i)

theorem prepareWrite_history (done : ℕ) : (prepareWrite A t s done).returned = s.returned
    ∧ (prepareWrite A t s done).completed = s.completed := by
  rw [prepareWrite.eq_def]
  split <;> exact ⟨rfl, rfl⟩

theorem blkOk_start (h : BlkOk A s) (hfresh : s.timeouts = 0)
    (hstep : blkStep A s (.start t) = some s') : BlkOk A s' := by
  have hphase := h.phase
  rw [blkStep] at hstep
  split at hstep
  · rename_i hdriver
    rw [hdriver] at hphase
    split at hstep
    · obtain rfl := Option.some.inj hstep
      exact h
    · rename_i haccepted
      obtain rfl := Option.some.inj hstep
      refine ⟨h.ring, h.sound, (hphase hfresh).of_eq rfl rfl rfl rfl rfl rfl rfl rfl rfl, ?_,
        Nat.zero_le _, transferChain_asks A (by simpa using haccepted)⟩
      exact ⟨fun h => by omega, fun h => by omega, fun h => by omega, fun h => by omega⟩
  · cases hstep

theorem blkOk_prepare (h : BlkOk A s) (hstep : blkStep A s .prepare = some s') : BlkOk A s' := by
  have hphase := h.phase
  rw [blkStep] at hstep
  split at hstep
  · rename_i t done hdriver
    rw [hdriver] at hphase
    obtain ⟨hrest, hprepared, hle, hasks⟩ := hphase
    split at hstep
    · rename_i hdone
      obtain rfl := Option.some.inj hstep
      obtain ⟨hreturned, hcompleted⟩ := @prepareWrite_history A s t done
      refine ⟨prepareWrite_ring h.ring done, ?_, prepareWrite_rest hrest done _,
        prepared_succ hprepared hdone _, hdone, hasks⟩
      dsimp only [CompletedOk]
      rw [hreturned, hcompleted]
      exact h.sound
    · rename_i hdone
      obtain rfl : done = 6 := by omega
      obtain rfl := Option.some.inj hstep
      refine ⟨h.ring, h.sound, ⟨rfl, ?_, hrest.noTimeout⟩, .waiting ⟨hrest.drained.taken,
        hrest.drained.used, hrest.drained.fetched, hrest.drained.inHand, hrest.drained.completed⟩
        ⟨hprepared.header, hprepared.desc0, hprepared.desc1, hprepared.desc2⟩, hrest.lastUsed, ?_,
          hasks⟩
      · change s.availableIdx + 1 = _
        rw [hrest.available, ofNat_succ_eq]
      · rw [hrest.lastUsed, ofNat_succ_eq]
  · cases hstep

/-- **What a poll sees**: the count matches when the entry has been answered, and not before. -/
theorem progress_used (h : Progress A t n s) :
    (s.usedIdx = BitVec.ofNat 16 (n + 1) ∧ Answered A t n s)
      ∨ (s.usedIdx ≠ BitVec.ofNat 16 (n + 1) ∧ ¬ Completed s n) := by
  cases h with
  | waiting hd hp =>
    refine .inr ⟨by rw [hd.used]; exact ofNat_succ_ne n, ?_⟩
    rintro ⟨c, hc, hentry⟩
    have := hd.completed c hc
    omega
  | inHand stage hh =>
    refine .inr ⟨by rw [hh.used]; exact ofNat_succ_ne n, ?_⟩
    rintro ⟨c, hc, hentry⟩
    have := hh.completed c hc
    omega
  | answered ha => exact .inl ⟨ha.drained.used, ha⟩

/-- Where the driver is changes nothing on the way. -/
theorem Progress.driver (h : Progress A t n s) (driver : DriverPhase) :
    Progress A t n { s with driver := driver } := by
  cases h with
  | waiting hd hp =>
    exact .waiting ⟨hd.taken, hd.used, hd.fetched, hd.inHand, hd.completed⟩
      ⟨hp.header, hp.desc0, hp.desc1, hp.desc2⟩
  | inHand stage hh =>
    exact .inHand stage ⟨hh.taken, hh.used, hh.fetched, hh.inHand, hh.completed, hh.status⟩
  | answered ha =>
    obtain ⟨hd, hl⟩ := ha
    exact .answered ⟨⟨hd.taken, hd.used, hd.fetched, hd.inHand, hd.completed⟩, hl⟩

theorem blkOk_poll (h : BlkOk A s) (hstep : blkStep A s .poll = some s') :
    BlkOk A s' ∧ ∀ t n expected turns, s.driver = .polling t n expected turns → Completed s n →
      s'.driver = .matched t n := by
  have hphase := h.phase
  rw [blkStep] at hstep
  split at hstep
  · rename_i t n expected turns hdriver
    rw [hdriver] at hphase
    obtain ⟨hway, hprogress, hlast, hexpected, hasks⟩ := hphase
    obtain rfl := Option.some.inj hstep
    have hway' : ∀ s' : BlkState, s'.published = s.published → s'.availableIdx = s.availableIdx →
        s'.timeouts = s.timeouts → OnTheWay n s' := fun s' hp ha ht =>
      ⟨hp.trans hway.published, ha.trans hway.available, ht.trans hway.noTimeout⟩
    rw [pollUsed, hexpected]
    rcases progress_used hprogress with ⟨hused, ha⟩ | ⟨hused, hnot⟩
    · rw [if_pos hused]
      obtain ⟨hd, hl⟩ := ha
      refine ⟨⟨h.ring, h.sound, hway' _ rfl rfl rfl, ?_, rfl, hasks⟩, fun t' n' _ _ heq _ => ?_⟩
      · exact ⟨⟨hd.taken, hd.used, hd.fetched, hd.inHand, hd.completed⟩, hl⟩
      · obtain ⟨rfl, rfl, -, -⟩ := DriverPhase.polling.inj (hdriver.symm.trans heq)
        rfl
    · rw [if_neg hused]
      have hmissed : ∀ t' n' expected' turns', s.driver = .polling t' n' expected' turns' →
          ¬ Completed s n' := by
        intro t' n' expected' turns' heq
        obtain ⟨rfl, rfl, -, -⟩ := DriverPhase.polling.inj (hdriver.symm.trans heq)
        exact hnot
      split
      · refine ⟨⟨h.ring, h.sound, hway' _ rfl rfl rfl, hprogress.driver _, hlast, rfl, hasks⟩, ?_⟩
        exact fun t' n' e' turns' heq hc => absurd hc (hmissed t' n' e' turns' heq)
      · refine ⟨⟨h.ring, fun r hr hok => ?_, fun hzero => ?_⟩, ?_⟩
        · rcases List.mem_cons.mp hr with rfl | hr
          · cases hok
          · exact h.sound r hr hok
        · cases hzero
        · exact fun t' n' e' turns' heq hc => absurd hc (hmissed t' n' e' turns' heq)
  · cases hstep

theorem blkOk_finish (h : BlkOk A s) (hstep : blkStep A s .finish = some s') :
    BlkOk A s' ∧ ∀ t n, s.driver = .matched t n → CompletedOk s t n →
      s'.returned = ⟨t, n, true⟩ :: s.returned := by
  have hphase := h.phase
  rw [blkStep] at hstep
  split at hstep
  · rename_i t n hdriver
    rw [hdriver] at hphase
    obtain ⟨hway, ⟨hd, rest, hlast, hrest⟩, hseen, hasks⟩ := hphase
    obtain rfl := Option.some.inj hstep
    refine ⟨⟨h.ring, fun r hr hok => ?_, fun _ => ?_⟩, fun t' n' heq hdone => ?_⟩
    · rcases List.mem_cons.mp hr with rfl | hr
      · refine ⟨⟨n, transferChain A t, s.requestStatus⟩, ?_, rfl, hasks, by simpa using hok⟩
        change _ ∈ s.completed
        rw [hlast]
        exact List.mem_cons_self
      · exact h.sound r hr hok
    · have hn := hway.published
      refine ⟨⟨?_, ?_, ?_, hd.inHand, ?_⟩, ?_, ?_, hway.noTimeout⟩ <;> dsimp only <;> rw [hn]
      · exact hd.taken
      · exact hd.used
      · exact hd.fetched
      · exact hd.completed
      · exact hway.available
      · exact hseen
    · obtain ⟨rfl, rfl⟩ := DriverPhase.matched.inj (hdriver.symm.trans heq)
      obtain ⟨c, hc, hentry, -, hstatus⟩ := hdone
      have hok : s.requestStatus = virtioBlkSOk := by
        rw [hlast] at hc
        rcases List.mem_cons.mp hc with rfl | hc
        · exact hstatus
        · have := hrest c hc
          omega
      rw [hok]
      rfl
  · cases hstep

end Steps

/-! ## Runs -/

/-- **A step**, where no transfer starts after a time-out. -/
theorem blkOk_step {A : BlkAddresses} {s s' : BlkState} {e : BlkEvent} (h : BlkOk A s)
    (hstep : blkStep A s e = some s') (hfresh : StartsFresh s e) : BlkOk A s' ∧ Matched s e s' := by
  have hmatched : ∀ hok : BlkOk A s', e ≠ .poll → e ≠ .finish → Matched s e s' := fun hok hp hf =>
    ⟨hok.sound, fun _ _ _ _ _ he => absurd he hp, fun _ _ _ he => absurd he hf⟩
  have hdevice : e.ofDevice = true → e ≠ .poll → e ≠ .finish → BlkOk A s' ∧ Matched s e s' :=
    fun he hp hf => ⟨blkOk_device h he hstep, hmatched (blkOk_device h he hstep) hp hf⟩
  cases e with
  | start t =>
    have hok := blkOk_start h hfresh hstep
    exact ⟨hok, hmatched hok (by simp) (by simp)⟩
  | prepare =>
    have hok := blkOk_prepare h hstep
    exact ⟨hok, hmatched hok (by simp) (by simp)⟩
  | poll =>
    obtain ⟨hok, hnoticed⟩ := blkOk_poll h hstep
    exact ⟨hok, hok.sound, fun t n ex turns hd _ hc => hnoticed t n ex turns hd hc,
      fun _ _ _ he => by cases he⟩
  | finish =>
    obtain ⟨hok, hsucceeds⟩ := blkOk_finish h hstep
    exact ⟨hok, hok.sound, fun _ _ _ _ _
      he => by (cases he), fun t n hd _ hc => hsucceeds t n hd hc⟩
  | fetch => exact hdevice rfl (by simp) (by simp)
  | perform i status => exact hdevice rfl (by simp) (by simp)
  | report i => exact hdevice rfl (by simp) (by simp)
  | complete i => exact hdevice rfl (by simp) (by simp)

/-- **Completions belong to their requests.**  In every order of the driver's and the device's steps
in which no transfer starts once one has timed out: a transfer that returns 1 was completed by the
device, with its sectors, its buffer and its direction, and one that is completed in time is not
missed. -/
theorem completion_matches (A : BlkAddresses) (sectors : Word) (events : List BlkEvent)
    (h : Along (blkStep A) (fun s e _ => StartsFresh s e) (bootBlk sectors) events) :
    Along (blkStep A) Matched (bootBlk sectors) events := by
  refine Along.imp_of_inv (fun s e s' hok hstep hfresh => ?_) (blkOk_boot A sectors) h
  exact blkOk_step hok hstep hfresh

instance (s : BlkState) (e : BlkEvent) : Decidable (StartsFresh s e) :=
  match e with
  | .start _ => inferInstanceAs (Decidable (s.timeouts = 0))
  | .prepare | .poll | .finish | .fetch | .perform _ _ | .report _ | .complete _ => .isTrue trivial

/-- The driver's steps of a transfer, up to the loop. -/
def submit (t : Transfer) : List BlkEvent := .start t :: List.replicate 7 .prepare

/-- The device's, for the first entry in hand. -/
def answer : List BlkEvent := [.perform 0 virtioBlkSOk, .report 0, .complete 0]

def readFirst : Transfer := ⟨0, 0x40300000, 1, false⟩

def writeThird : Transfer := ⟨2, 0x40400000, 1, true⟩

def sampleAddresses : BlkAddresses := ⟨0x40280000, 0x40280010⟩

theorem completion_matches_read : Along (blkStep sampleAddresses) Matched (bootBlk 64)
    (submit readFirst ++ (.poll :: .fetch :: answer ++ [.poll, .finish])) :=
  completion_matches sampleAddresses 64 _ (by decide)

/-! ## A late completion -/

/-- The driver after its last poll. -/
def gaveUp (t : Transfer) (entry : ℕ) (s : BlkState) : BlkState :=
  { s with
    driver := .idle
    returned := ⟨t, entry, false⟩ :: s.returned
    timeouts := s.timeouts + 1 }

/-- **Polls that see nothing end in a time-out.** -/
theorem run_polls {A : BlkAddresses} {t : Transfer} {entry : ℕ} {expected : BitVec 16}
    {s : BlkState}
    (m turns : ℕ) (hdriver : s.driver = .polling t entry expected turns)
    (hused : s.usedIdx ≠ expected)
    (hturns : turns + (m + 1) = virtioBlkTimeout) :
    run (blkStep A) s (List.replicate (m + 1) .poll) = some (gaveUp t entry s) := by
  induction m generalizing s turns with
  | zero =>
    rw [List.replicate_succ, run, blkStep, hdriver]
    dsimp only
    rw [pollUsed, if_neg hused, if_neg (by omega)]
    rfl
  | succ m ih =>
    rw [List.replicate_succ, run, blkStep, hdriver]
    dsimp only
    rw [pollUsed, if_neg hused, if_pos (by omega)]
    exact @ih { s with driver := .polling t entry expected (turns + 1) } (turns + 1) rfl hused
      (by omega)

/-- The device completes the read, which has timed out, while the driver waits for the write. -/
def lateRun : List BlkEvent :=
  (submit readFirst ++ [.fetch]) ++ (List.replicate virtioBlkTimeout .poll
    ++ (submit writeThird ++ answer ++ [.poll, .finish]))

/-- **A late completion taken for another**: the write returns 1, and the device has not taken
it. -/
theorem late_completion_mistaken : ∃ s, run (blkStep sampleAddresses) (bootBlk 64) lateRun = some s
    ∧ ⟨writeThird, 1, true⟩ ∈ s.returned ∧ ¬ Completed s 1 ∧ s.fetched = 1 := by
  obtain ⟨s, hs, hdriver, hused⟩ : ∃ s, run (blkStep sampleAddresses) (bootBlk 64)
      (submit readFirst ++ [.fetch]) = some s ∧ s.driver = .polling readFirst 0 1 0 ∧ s.usedIdx
      = 0 :=
    ⟨_, rfl, rfl, rfl⟩
  have hpolls := run_polls (A := sampleAddresses) (virtioBlkTimeout - 1) 0 hdriver
    (by rw [hused]; decide) rfl
  have hlate : run (blkStep sampleAddresses) (bootBlk 64) lateRun
      = run (blkStep sampleAddresses) (gaveUp readFirst 0 s)
        (submit writeThird ++ answer ++ [.poll, .finish]) := by
    rw [lateRun, run_append, hs, Option.bind_some, run_append]
    exact congrArg (fun o : Option BlkState => o.bind _) hpolls
  have hend : ((run (blkStep sampleAddresses) (bootBlk 64) (submit readFirst ++ [.fetch])).any
    fun s =>
      (run (blkStep sampleAddresses) (gaveUp readFirst 0 s)
        (submit writeThird ++ answer ++ [.poll, .finish])).any fun s' =>
          s'.returned.contains ⟨writeThird, 1, true⟩ && s'.completed.all (fun c => c.entry != 1)
            && s'.fetched == 1) = true := by
    decide
  rw [hs, Option.any_some, ← hlate] at hend
  obtain ⟨s', hs', hcheck⟩ := (Option.any_eq_true _ _).mp hend
  simp only [Bool.and_eq_true, List.contains_iff_mem, List.all_eq_true, beq_iff_eq,
    bne_iff_ne] at hcheck
  obtain ⟨⟨hreturned, hcompleted⟩, hfetched⟩ := hcheck
  refine ⟨s', hs', hreturned, ?_, hfetched⟩
  rintro ⟨c, hc, hentry⟩
  exact hcompleted c hc hentry

end SaturnOS
