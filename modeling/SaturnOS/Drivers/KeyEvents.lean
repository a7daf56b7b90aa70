import SaturnOS.Drivers.Keyboard
import SaturnOS.Machinery.Runs

/-!
# Drivers/KeyEvents — every event is read once, and in order

    offered │ in hand │ put │ unread │ held by the driver       0 … 15, each of them once
            └── device ─────┘└── driver ────────────────┘

A buffer goes around: the driver offers it, the device takes, fills and reports it, and the driver
reads it and offers it again.  At every place it is one of sixteen (`BuffersOwned`), so that no
counter runs over another, and what has been reported is still there when it is read
(`EventsDelivered`).
-/

open Machinery

namespace SaturnOS

/-! ## What is to be returned -/

namespace InputEvent

def isShiftKey (e : InputEvent) : Bool := e.code == keyLeftShift || e.code == keyRightShift

/-- A key that is no shift key is pressed. -/
def isPress (e : InputEvent) : Bool := e.type == evKey && !e.isShiftKey && e.value != 0

end InputEvent

/-- The shift state that an event leaves. -/
def nextShift (shift : Bool) (e : InputEvent) : Bool :=
  if e.type == evKey && e.isShiftKey then e.value != 0 else shift

/-- The shift state that events leave. -/
def shiftAfter (events : List InputEvent) : Bool := events.foldl nextShift false

/-- The character of a press, if the key has one. -/
def pressedChar (shift : Bool) (e : InputEvent) : Option Byte :=
  if e.isPress && keycodeToAscii shift e.code != 0 then some (keycodeToAscii shift e.code) else none

def charactersFrom : Bool → List InputEvent → List Byte
  | _, [] => []
  | shift, e :: events => (pressedChar shift e).toList ++ charactersFrom (nextShift shift e) events

/-- **The characters of events**: those of the presses, each under the shift state that the events
before it have left. -/
def characters (events : List InputEvent) : List Byte := charactersFrom false events

theorem characters_concat (events : List InputEvent) (e : InputEvent) :
    characters (events ++ [e])
      = characters events ++ (pressedChar (shiftAfter events) e).toList := by
  have hfrom : ∀ shift, charactersFrom shift (events ++ [e]) = charactersFrom shift events
      ++ (pressedChar (events.foldl nextShift shift) e).toList := by
    induction events with
    | nil => exact fun shift => List.append_nil _
    | cons e' events ih =>
      intro shift
      rw [List.cons_append, charactersFrom, charactersFrom, ih, List.append_assoc]
      rfl
  exact hfrom false

theorem shiftAfter_concat (events : List InputEvent) (e : InputEvent) :
    shiftAfter (events ++ [e]) = nextShift (shiftAfter events) e := by
  rw [shiftAfter, List.foldl_append]
  rfl

section Turn

variable {e : InputEvent} {shift : Bool}

theorem isShiftKey_iff : e.isShiftKey = true ↔ e.code = keyLeftShift ∨ e.code = keyRightShift := by
  rw [InputEvent.isShiftKey, Bool.or_eq_true, beq_iff_eq, beq_iff_eq]

/-- Only shift keys change the shift state. -/
theorem nextShift_of_ne (h : ¬(e.type = evKey ∧ e.isShiftKey = true)) :
    nextShift shift e = shift := by
  rw [nextShift, if_neg (by simpa using h)]

/-- What is no press has no character. -/
theorem pressedChar_of_not (h : e.isPress = false) : pressedChar shift e = none := by
  rw [pressedChar, h]
  rfl

/-- **The end of a turn** returns the character of the event, if it is one of a press. -/
theorem decode_eq (e : InputEvent) (s : KeyboardState) :
    ∃ phase, (phase = .head ∨ phase = .outside) ∧ s.decode e =
      { s with
        shift := nextShift s.shift e
        returned := s.returned ++ (pressedChar s.shift e).toList
        phase := phase } := by
  have hnone : pressedChar s.shift e = none →
      s.returned ++ (pressedChar s.shift e).toList = s.returned := by
    intro h
    rw [h, Option.toList_none, List.append_nil]
  rw [KeyboardState.decode]
  by_cases htype : e.type = evKey
  swap
  · have hpress : e.isPress = false := by simp [InputEvent.isPress, htype]
    rw [if_pos htype, nextShift_of_ne fun h => htype h.1, hnone (pressedChar_of_not hpress)]
    exact ⟨.head, .inl rfl, rfl⟩
  rw [if_neg (not_not.mpr htype)]
  by_cases hshift : e.code = keyLeftShift ∨ e.code = keyRightShift
  · have hkey := isShiftKey_iff.mpr hshift
    have hpress : e.isPress = false := by simp [InputEvent.isPress, hkey]
    have hnext : nextShift s.shift e = (e.value != 0) := by simp [nextShift, htype, hkey]
    rw [if_pos hshift, hnext, hnone (pressedChar_of_not hpress)]
    exact ⟨.head, .inl rfl, rfl⟩
  have hkey := mt isShiftKey_iff.mp hshift
  rw [if_neg hshift, nextShift_of_ne fun h => hkey h.2]
  by_cases hvalue : e.value = 0
  · have hpress : e.isPress = false := by simp [InputEvent.isPress, hvalue]
    rw [if_pos hvalue, hnone (pressedChar_of_not hpress)]
    exact ⟨.head, .inl rfl, rfl⟩
  have hpress : e.isPress = true := by
    simpa [InputEvent.isPress, htype, hkey] using hvalue
  rw [if_neg hvalue]
  by_cases hchar : keycodeToAscii s.shift e.code = 0
  · have hnochar : pressedChar s.shift e = none := by simp [pressedChar, hchar]
    rw [if_neg (not_not.mpr hchar), hnone hnochar]
    exact ⟨.head, .inl rfl, rfl⟩
  · have hreturn : pressedChar s.shift e = some (keycodeToAscii s.shift e.code) := by
      simpa [pressedChar, hpress] using hchar
    rw [if_pos hchar, hreturn]
    exact ⟨.outside, .inr rfl, rfl⟩

end Turn

/-! ## Who has what -/

/-- The buffer that the driver has taken from the used ring and not yet given back. -/
def KeyboardPhase.holding : KeyboardPhase → List ℕ
  | .readType id | .readCode id _ | .readValue id _ _ => [id.toNat]
  | .describe id _ | .offer id _ | .publish id _ => [id.toNat]
  | .outside | .head | .entry | .decode _ => []

namespace KeyboardState

/-- The available ring, from the position of the device on. -/
def offered (s : KeyboardState) : List ℕ :=
  ringWords (fun j => (s.availRing j).toNat) virtioKeyboardQueueSize s.taken s.availIdx

/-- The used ring, from the position of the driver on. -/
def unread (s : KeyboardState) : List ℕ :=
  ringWords (fun j => (s.usedRing j).id.toNat) virtioKeyboardQueueSize s.lastUsed s.usedIdx

/-- The buffers of the device: those that it is offered, and has in hand, until it reports them. -/
def deviceHas (s : KeyboardState) : List ℕ :=
  s.offered ++ s.held.map (·.id.toNat) ++ s.put.toList.map (·.1.toNat)

/-- The buffers of the driver: those that are reported, until it offers them again. -/
def driverHas (s : KeyboardState) : List ℕ := s.unread ++ s.phase.holding

end KeyboardState

/-- **Every buffer is at one place**, and the counters tell. -/
structure BuffersOwned (A : Word) (s : KeyboardState) : Prop where
  perm : (s.deviceHas ++ s.driverHas).Perm (List.range virtioKeyboardQueueSize)
  desc : ∀ i, i < virtioKeyboardQueueSize → s.desc i = eventDesc A i
  ready : s.ready = true
  lastUsed : s.lastUsed = BitVec.ofNat 16 s.consumed
  usedIdx : s.usedIdx = BitVec.ofNat 16 s.reported.length
  availIdx : s.availIdx + BitVec.ofNat 16 s.phase.holding.length
    = BitVec.ofNat 16 (s.consumed + virtioKeyboardQueueSize)
  /-- What has been written behind the rings, and is about to be counted. -/
  writtenUsed : ∀ id e, s.put = some (id, e) →
    (s.usedRing (queuePlace s.usedIdx)).id.toNat = id.toNat
  writtenAvail : ∀ id e, s.phase = .publish id e →
    (s.availRing (queuePlace s.availIdx)).toNat = id.toNat
  entry : s.phase = .entry → s.unread ≠ []

section Ownership

variable {A : Word} {s s' : KeyboardState} {i : ℕ}

theorem BuffersOwned.length (h : BuffersOwned A s) :
    s.offered.length + s.held.length + s.put.toList.length + s.unread.length
      + s.phase.holding.length = 16 := by
  have hlength := h.perm.length_eq
  rw [List.length_range] at hlength
  simp only [KeyboardState.deviceHas, KeyboardState.driverHas, List.length_append,
    List.length_map] at hlength
  rw [← Nat.add_assoc] at hlength
  exact hlength

theorem BuffersOwned.nodup (h : BuffersOwned A s) : (s.deviceHas ++ s.driverHas).Nodup :=
  h.perm.nodup_iff.mpr List.nodup_range

theorem BuffersOwned.lt (h : BuffersOwned A s) (hi : i ∈ s.deviceHas ++ s.driverHas) :
    i < virtioKeyboardQueueSize :=
  List.mem_range.mp (h.perm.mem_iff.mp hi)

/-- **The next entry of a ring of the queue**, behind the others, where there is room… -/
theorem queue_push {ring : ℕ → ℕ} {head tail : BitVec 16}
    (h : (ringWords ring virtioKeyboardQueueSize head tail).length < 16) :
    ringWords ring virtioKeyboardQueueSize head (tail + 1)
      = ringWords ring virtioKeyboardQueueSize head tail ++ [ring (queuePlace tail)] :=
  ringWords_push (by decide) (by decide) (by rwa [length_ringWords] at h)

/-- …which may be written before. -/
theorem queue_write {ring : ℕ → ℕ} {head tail : BitVec 16} {a : ℕ}
    (h : (ringWords ring virtioKeyboardQueueSize head tail).length < 16) :
    ringWords (Function.update ring (queuePlace tail) a) virtioKeyboardQueueSize head tail
      = ringWords ring virtioKeyboardQueueSize head tail :=
  ringWords_write (by decide) (by rwa [length_ringWords] at h)

/-- The first one is taken. -/
theorem queue_pop {ring : ℕ → ℕ} {head tail : BitVec 16} (h : head ≠ tail) :
    ringWords ring virtioKeyboardQueueSize head tail
      = ring (queuePlace head) :: ringWords ring virtioKeyboardQueueSize (head + 1) tail :=
  ringWords_pop (by decide) h

/-- **The device takes a buffer.** -/
theorem BuffersOwned.take (h : BuffersOwned A s) (hne : s.taken ≠ s.availIdx) :
    BuffersOwned A { s with
      taken := s.taken + 1
      held := s.held ++ [⟨s.availRing (queuePlace s.taken), none⟩] } := by
  refine ⟨?_, h.desc, h.ready, h.lastUsed, h.usedIdx, h.availIdx, h.writtenUsed, h.writtenAvail,
    h.entry⟩
  refine List.Perm.trans (List.perm_iff_count.mpr fun b => ?_) h.perm
  have hoffered : s.offered = _ := queue_pop hne
  simp only [KeyboardState.deviceHas, KeyboardState.driverHas, hoffered, List.map_append,
    List.count_append]
  simp only [KeyboardState.offered, KeyboardState.unread, List.map_cons, List.map_nil,
    List.count_cons, List.count_nil]
  omega

/-- While it has one in hand or has put one, the used ring has room… -/
theorem BuffersOwned.used_room (h : BuffersOwned A s) (hhas : s.held ≠ [] ∨ s.put ≠ none) :
    s.unread.length < 16 := by
  have hlength := h.length
  rcases hhas with hheld | hput
  · have := List.length_pos_of_ne_nil hheld
    omega
  · obtain ⟨p, hp⟩ := Option.ne_none_iff_exists'.mp hput
    rw [hp, Option.toList_some, List.length_singleton] at hlength
    omega

/-- …where it may write behind the entries that are not read yet… -/
theorem unread_write (h : s.unread.length < 16) (u : VirtqUsedElem) :
    ringWords (fun j => (Function.update s.usedRing (queuePlace s.usedIdx) u j).id.toNat)
      virtioKeyboardQueueSize s.lastUsed s.usedIdx = s.unread := by
  rw [KeyboardState.unread, ← queue_write h]
  exact congrArg (ringWords · _ _ _) (funext fun j =>
    Function.apply_update (fun _ (u : VirtqUsedElem) => u.id.toNat) _ _ _ j)

/-- …and count what it has written. -/
theorem BuffersOwned.unread_report (h : BuffersOwned A s) {id : BitVec 16} {e : InputEvent}
    (hput : s.put = some (id, e)) :
    ringWords (fun j => (s.usedRing j).id.toNat) virtioKeyboardQueueSize s.lastUsed (s.usedIdx + 1)
      = s.unread ++ [id.toNat] := by
  have hunread := queue_push (h.used_room (.inr (by rw [hput]; exact Option.some_ne_none _)))
  rw [h.writtenUsed id e hput] at hunread
  exact hunread

/-- **It writes into the used ring.** -/
theorem BuffersOwned.put_step (h : BuffersOwned A s) {f : Filling} {e : InputEvent}
    (hf : s.held[i]? = some f) (hput : s.put = none) : BuffersOwned A { s with
      usedRing := Function.update s.usedRing (queuePlace s.usedIdx) ⟨f.id.setWidth 32, 8⟩
      held := s.held.eraseIdx i
      put := some (f.id, e) } := by
  obtain ⟨hi, hget⟩ := List.getElem?_eq_some_iff.mp hf
  have hid : (f.id.setWidth 32).toNat = f.id.toNat := by
    rw [BitVec.toNat_setWidth, Nat.mod_eq_of_lt (by have := f.id.isLt; omega)]
  have hheld : s.held ≠ [] := List.ne_nil_of_mem (List.mem_of_getElem? hf)
  have hunread := unread_write (h.used_room (.inl hheld)) ⟨f.id.setWidth 32, 8⟩
  refine ⟨?_, h.desc, h.ready, h.lastUsed, h.usedIdx, h.availIdx, ?_, h.writtenAvail, ?_⟩
  · refine List.Perm.trans (List.perm_iff_count.mpr fun b => ?_) h.perm
    have herase := ((List.getElem_cons_eraseIdx_perm hi).map (·.id.toNat)).count_eq b
    rw [hget] at herase
    simp only [KeyboardState.deviceHas, KeyboardState.driverHas, List.count_append, hput,
      KeyboardState.offered, Option.toList_some, Option.toList_none, List.map_cons, List.map_nil,
      List.count_cons, List.count_nil, KeyboardState.unread] at herase ⊢
    rw [hunread, KeyboardState.unread]
    omega
  · rintro id e' heq
    obtain ⟨rfl, rfl⟩ := Prod.mk.inj (Option.some.inj heq)
    dsimp only
    rw [Function.update_self, hid]
  · intro hentry
    rw [KeyboardState.unread, hunread]
    exact h.entry hentry

/-- **It counts what it has written there.** -/
theorem BuffersOwned.report (h : BuffersOwned A s) {id : BitVec 16} {e : InputEvent}
    (hput : s.put = some (id, e)) : BuffersOwned A { s with
      usedIdx := s.usedIdx + 1
      reported := s.reported ++ [e]
      put := none } := by
  have hunread := h.unread_report hput
  refine ⟨?_, h.desc, h.ready, h.lastUsed, ?_, h.availIdx, ?_, h.writtenAvail, ?_⟩
  · refine List.Perm.trans (List.perm_iff_count.mpr fun b => ?_) h.perm
    simp only [KeyboardState.deviceHas, KeyboardState.driverHas, List.count_append, hput,
      KeyboardState.offered, Option.toList_some, Option.toList_none, List.map_cons, List.map_nil,
      List.count_cons, List.count_nil]
    rw [KeyboardState.unread, hunread]
    simp only [KeyboardState.unread, List.count_append, List.count_cons, List.count_nil]
    omega
  · dsimp only
    rw [h.usedIdx, List.length_append, List.length_singleton, BitVec.ofNat_add]
    rfl
  · rintro _ _ ⟨⟩
  · intro _
    rw [KeyboardState.unread, hunread]
    exact List.append_ne_nil_of_right_ne_nil _ (List.cons_ne_nil _ _)

/-- **The driver goes on** with the buffers that it has. -/
theorem BuffersOwned.move (h : BuffersOwned A s) {phase : KeyboardPhase} {shift : Bool}
    {returned : List Byte} (hholding : phase.holding = s.phase.holding)
    (hpublish : ∀ id e, phase ≠ .publish id e) (hentry : phase = .entry → s.unread ≠ []) :
    BuffersOwned A { s with phase := phase, shift := shift, returned := returned } := by
  refine ⟨?_, h.desc, h.ready, h.lastUsed, h.usedIdx, ?_, h.writtenUsed,
    fun id e heq => absurd heq (hpublish id e), hentry⟩
  · have hperm := h.perm
    rw [KeyboardState.driverHas, ← hholding] at hperm
    exact hperm
  · have havail := h.availIdx
    rw [← hholding] at havail
    exact havail

theorem unread_ne_nil (h : s.lastUsed ≠ s.usedIdx) : s.unread ≠ [] := by
  rw [KeyboardState.unread, queue_pop h]
  exact List.cons_ne_nil _ _

/-- **It takes the first of the used ring.** -/
theorem BuffersOwned.entry_step (h : BuffersOwned A s) (hphase : s.phase = .entry) :
    ∃ id, id.toNat < virtioKeyboardQueueSize ∧ s.drive A = { s with
        lastUsed := s.lastUsed + 1
        consumed := s.consumed + 1
        phase := .readType id } ∧
      s.unread = id.toNat :: ({ s with lastUsed := s.lastUsed + 1 } : KeyboardState).unread := by
  have hne : s.lastUsed ≠ s.usedIdx := by
    intro heq
    refine h.entry hphase ?_
    rw [KeyboardState.unread, heq, ringWords_self]
  have hunread : s.unread = _ := queue_pop hne
  have hlt : (s.usedRing (queuePlace s.lastUsed)).id.toNat < virtioKeyboardQueueSize := by
    refine h.lt (List.mem_append_right _ (List.mem_append_left _ ?_))
    rw [hunread]
    exact List.mem_cons_self
  refine ⟨_, hlt, ?_, hunread⟩
  rw [KeyboardState.drive, hphase]
  dsimp only
  rw [if_neg (Nat.not_le.mpr hlt)]

theorem BuffersOwned.read_entry (h : BuffersOwned A s) (hphase : s.phase = .entry) {id : BitVec 32}
    (hunread : s.unread
      = id.toNat :: ({ s with lastUsed := s.lastUsed + 1 } : KeyboardState).unread) :
    BuffersOwned A { s with
      lastUsed := s.lastUsed + 1
      consumed := s.consumed + 1
      phase := .readType id } := by
  have havail := h.availIdx
  rw [hphase] at havail
  refine ⟨?_, h.desc, h.ready, ?_, h.usedIdx, ?_, h.writtenUsed, by rintro _ _ ⟨⟩, by rintro ⟨⟩⟩
  · refine List.Perm.trans (List.perm_iff_count.mpr fun b => ?_) h.perm
    rw [KeyboardState.driverHas, KeyboardState.driverHas, hunread, hphase]
    simp only [KeyboardState.deviceHas, List.count_append, KeyboardState.offered,
      KeyboardState.unread, KeyboardPhase.holding, List.count_cons, List.count_nil]
    omega
  · dsimp only
    rw [h.lastUsed, BitVec.ofNat_add]
    rfl
  · dsimp only [KeyboardPhase.holding, List.length_nil, List.length_singleton] at havail ⊢
    have hnext : BitVec.ofNat 16 (s.consumed + virtioKeyboardQueueSize + 1)
        = BitVec.ofNat 16 (s.consumed + virtioKeyboardQueueSize) + 1#16 := BitVec.ofNat_add _ 1
    rw [Nat.add_right_comm, hnext, ← havail, BitVec.add_zero]

/-- A buffer that the driver holds is one of the sixteen… -/
theorem BuffersOwned.holding_lt (h : BuffersOwned A s) {id : ℕ} (hid : id ∈ s.phase.holding) :
    id < virtioKeyboardQueueSize :=
  h.lt (List.mem_append_right _ (List.mem_append_right _ hid))

theorem toNat_index {id : BitVec 32} (h : id.toNat < virtioKeyboardQueueSize) :
    (id.setWidth 16).toNat = id.toNat := by
  rw [BitVec.toNat_setWidth, Nat.mod_eq_of_lt (Nat.lt_trans h (by decide))]

/-- …and its descriptor is written as it is already. -/
theorem BuffersOwned.writeDesc (h : BuffersOwned A s) {index : BitVec 16}
    (hindex : index.toNat < virtioKeyboardQueueSize) : s.writeDesc A index = s := by
  rw [KeyboardState.writeDesc, ← h.desc _ hindex, Function.update_eq_self]

/-- **It is written into the available ring**, behind those that are offered… -/
theorem BuffersOwned.offer (h : BuffersOwned A s) {id : BitVec 32} {e : InputEvent}
    (hphase : s.phase = .offer id e) :
    BuffersOwned A { s.writeAvail (id.setWidth 16) with phase := .publish id e } := by
  have hid := toNat_index (h.holding_lt (by rw [hphase]; exact List.mem_singleton_self _))
  have hlength := h.length
  have hperm := h.perm
  have havail := h.availIdx
  rw [KeyboardState.driverHas, hphase] at hperm
  rw [hphase] at havail hlength
  dsimp only [KeyboardPhase.holding, List.length_singleton] at hlength
  have hroom : s.offered.length < 16 := by omega
  have hoffered : ringWords (fun j => (Function.update s.availRing (queuePlace s.availIdx)
      (id.setWidth 16) j).toNat) virtioKeyboardQueueSize s.taken s.availIdx = s.offered := by
    rw [KeyboardState.offered, ← queue_write hroom]
    exact congrArg (ringWords · _ _ _) (funext fun j =>
      Function.apply_update (fun _ (a : BitVec 16) => a.toNat) _ _ _ j)
  refine ⟨?_, h.desc, h.ready, h.lastUsed, h.usedIdx, havail, h.writtenUsed, ?_, by rintro ⟨⟩⟩
  · rw [KeyboardState.deviceHas, ← hoffered] at hperm
    exact hperm
  · rintro id' e' heq
    obtain ⟨rfl, -⟩ := KeyboardPhase.publish.inj heq
    show (Function.update s.availRing (queuePlace s.availIdx) (id.setWidth 16)
      (queuePlace s.availIdx)).toNat = _
    rw [Function.update_self, hid]

/-- **…and counted there.** -/
theorem BuffersOwned.publish_step (h : BuffersOwned A s) {id : BitVec 32} {e : InputEvent}
    (hphase : s.phase = .publish id e) :
    BuffersOwned A { s with availIdx := s.availIdx + 1, phase := .decode e } := by
  have hlength := h.length
  have havail := h.availIdx
  rw [hphase] at havail hlength
  dsimp only [KeyboardPhase.holding, List.length_singleton] at hlength
  have hroom : s.offered.length < 16 := by omega
  have hoffered := queue_push hroom
  rw [h.writtenAvail id e hphase] at hoffered
  refine ⟨?_, h.desc, h.ready, h.lastUsed, h.usedIdx, ?_, h.writtenUsed, by rintro _ _ ⟨⟩,
    by rintro ⟨⟩⟩
  · refine List.Perm.trans (List.perm_iff_count.mpr fun b => ?_) h.perm
    simp only [KeyboardState.deviceHas, KeyboardState.driverHas, List.count_append, hphase]
    rw [KeyboardState.offered, hoffered]
    simp only [KeyboardState.offered, KeyboardState.unread, KeyboardPhase.holding,
      List.count_append, List.count_cons, List.count_nil]
    omega
  · dsimp only [KeyboardPhase.holding, List.length_nil, List.length_singleton] at havail ⊢
    rw [← havail, BitVec.add_zero]
    rfl

/-- **The device writes events into what it has in hand.** -/
theorem BuffersOwned.fill (h : BuffersOwned A s) {f : Filling} {addr : Word} {e : InputEvent}
    (hf : s.held[i]? = some f) : BuffersOwned A
      { s.writeEvent A addr e with held := s.held.set i ⟨f.id, some e⟩ } := by
  have hids : (s.held.set i ⟨f.id, some e⟩).map (·.id.toNat) = s.held.map (·.id.toNat) := by
    refine List.ext_getElem? fun j => ?_
    rw [List.getElem?_map, List.getElem?_map, List.getElem?_set]
    split
    · rename_i heq
      obtain ⟨hi, -⟩ := List.getElem?_eq_some_iff.mp hf
      rw [← heq, hf, if_pos hi]
      rfl
    · rfl
  refine ⟨?_, h.desc, h.ready, h.lastUsed, h.usedIdx, h.availIdx, h.writtenUsed, h.writtenAvail,
    h.entry⟩
  have hperm := h.perm
  rw [KeyboardState.deviceHas, ← hids] at hperm
  exact hperm

end Ownership

/-! ## What is in the buffers -/

/-- The events that are being read: none, or the one in the buffer that the driver holds. -/
def KeyboardPhase.Reading (events : ℕ → InputEvent) : KeyboardPhase → List InputEvent → Prop
  | .outside, current | .head, current | .entry, current => current = []
  | .readType id, current => current = [events id.toNat]
  | .readCode id type, current => current = [events id.toNat] ∧ type = (events id.toNat).type
  | .readValue id type code, current => current = [events id.toNat] ∧
    type = (events id.toNat).type ∧ code = (events id.toNat).code
  | .describe _ event, current | .offer _ event, current => current = [event]
  | .publish _ event, current | .decode event, current => current = [event]

/-- **What is reported stays in its buffer** until it has been read, and what has been read is
returned. -/
structure EventsDelivered (s : KeyboardState) : Prop where
  filled : ∀ (i : ℕ) (f : Filling), s.held[i]? = some f → ∀ e, f.event = some e →
    s.events f.id.toNat = e
  put : ∀ id e, s.put = some (id, e) → s.events id.toNat = e
  unread : s.unread.map s.events = s.reported.drop s.consumed
  consumed : s.consumed ≤ s.reported.length
  returned : ∃ done current, s.reported.take s.consumed = done ++ current ∧
    s.returned = characters done ∧ s.shift = shiftAfter done ∧ s.phase.Reading s.events current

section Delivery

variable {A : Word} {s s' : KeyboardState} {i : ℕ}

theorem EventsDelivered.take (h : EventsDelivered s) : EventsDelivered { s with
    taken := s.taken + 1
    held := s.held ++ [⟨s.availRing (queuePlace s.taken), none⟩] } := by
  refine ⟨fun i f hf e he => ?_, h.put, h.unread, h.consumed, h.returned⟩
  rcases List.mem_append.mp (List.mem_of_getElem? hf) with hmem | hmem
  · obtain ⟨j, hj⟩ := List.getElem?_of_mem hmem
    exact h.filled j f hj e he
  · obtain rfl := List.mem_singleton.mp hmem
    cases he

theorem EventsDelivered.put_step (h : EventsDelivered s) (howned : BuffersOwned A s) {f : Filling}
    {e : InputEvent} (hf : s.held[i]? = some f) (he : f.event = some e) : EventsDelivered { s with
      usedRing := Function.update s.usedRing (queuePlace s.usedIdx) ⟨f.id.setWidth 32, 8⟩
      held := s.held.eraseIdx i
      put := some (f.id, e) } := by
  have hheld : s.held ≠ [] := List.ne_nil_of_mem (List.mem_of_getElem? hf)
  have hunread := unread_write (howned.used_room (.inl hheld)) ⟨f.id.setWidth 32, 8⟩
  refine ⟨fun j g hg e' he' => ?_, ?_, ?_, h.consumed, h.returned⟩
  · have hmem := List.mem_of_mem_eraseIdx (List.mem_of_getElem? hg)
    obtain ⟨j', hj'⟩ := List.getElem?_of_mem hmem
    exact h.filled j' g hj' e' he'
  · rintro id e' heq
    obtain ⟨rfl, rfl⟩ := Prod.mk.inj (Option.some.inj heq)
    exact h.filled i f hf _ he
  · rw [KeyboardState.unread, hunread]
    exact h.unread

theorem EventsDelivered.report (h : EventsDelivered s) (howned : BuffersOwned A s)
    {id : BitVec 16} {e : InputEvent} (hput : s.put = some (id, e)) : EventsDelivered { s with
      usedIdx := s.usedIdx + 1
      reported := s.reported ++ [e]
      put := none } := by
  obtain ⟨done, current, htake, hreturned, hshift, hreading⟩ := h.returned
  refine ⟨h.filled, by rintro _ _ ⟨⟩, ?_, ?_, done, current, ?_, hreturned, hshift, hreading⟩
  · rw [KeyboardState.unread, howned.unread_report hput, List.map_append, h.unread]
    dsimp only
    rw [List.drop_append_of_le_length h.consumed, List.map_singleton, h.put id e hput]
  · dsimp only
    rw [List.length_append]
    exact Nat.le_add_right_of_le h.consumed
  · dsimp only
    rw [List.take_append_of_le_length h.consumed, htake]

theorem eventAddress_inj {i j : ℕ} (hi : i < virtioKeyboardQueueSize)
    (hj : j < virtioKeyboardQueueSize) (h : eventAddress A i = eventAddress A j) : i = j := by
  rw [virtioKeyboardQueueSize] at hi hj
  rw [eventAddress, eventAddress] at h
  bv_omega

/-- The event goes into the buffer that the descriptor is of. -/
theorem writeEvent_eq {index : ℕ} (e : InputEvent) (h : index < virtioKeyboardQueueSize) :
    s.writeEvent A (eventAddress A index) e
      = { s with events := Function.update s.events index e } := by
  rw [KeyboardState.writeEvent]
  congr 1
  funext i
  by_cases hi : i = index
  · rw [hi, Function.update_self, if_pos ⟨h, rfl⟩]
  · rw [Function.update_of_ne hi, if_neg fun hand => hi (eventAddress_inj hand.1 h hand.2)]

/-- The buffer in hand is no other one. -/
structure BufferApart (s : KeyboardState) (i : ℕ) (id : ℕ) : Prop where
  held : ∀ (j : ℕ) (g : Filling), s.held[j]? = some g → j ≠ i → g.id.toNat ≠ id
  put : ∀ id' e, s.put = some (id', e) → id'.toNat ≠ id
  driver : ∀ id' ∈ s.driverHas, id' ≠ id

theorem BuffersOwned.apart (h : BuffersOwned A s) {f : Filling} (hf : s.held[i]? = some f) :
    BufferApart s i f.id.toNat := by
  obtain ⟨hdevice, -, hdriver⟩ := List.nodup_append.mp h.nodup
  rw [KeyboardState.deviceHas] at hdevice
  obtain ⟨hoffered, -, hput⟩ := List.nodup_append.mp hdevice
  obtain ⟨-, hheld, -⟩ := List.nodup_append.mp hoffered
  have hmem : f.id.toNat ∈ s.held.map (·.id.toNat) :=
    List.mem_map_of_mem (List.mem_of_getElem? hf)
  refine ⟨fun j g hg hne heq => hne ?_, fun id' e hput' heq => ?_, fun id' hid' heq => ?_⟩
  · have hj : j < (s.held.map (·.id.toNat)).length := by
      rw [List.length_map]
      exact (List.getElem?_eq_some_iff.mp hg).1
    refine (List.getElem?_inj hj hheld).mp ?_
    rw [List.getElem?_map, List.getElem?_map, hg, hf]
    exact congrArg some heq
  · refine hput _ (List.mem_append_right _ hmem) id'.toNat ?_ heq.symm
    rw [hput']
    exact List.mem_singleton_self _
  · exact hdriver _ (List.mem_append_left _ (List.mem_append_right _ hmem)) id' hid' heq.symm

/-- What is being read is in the buffer that the driver holds. -/
theorem KeyboardPhase.Reading.congr {phase : KeyboardPhase} {events events' : ℕ → InputEvent}
    {current : List InputEvent} (h : phase.Reading events current)
    (hsame : ∀ id ∈ phase.holding, events' id = events id) : phase.Reading events' current := by
  cases phase with
  | readType id | readCode id type | readValue id type code =>
    rw [Reading, hsame _ (List.mem_singleton_self _)]
    exact h
  | _ => exact h

/-- **Writing an event into a buffer in hand** touches no other. -/
theorem EventsDelivered.fill (h : EventsDelivered s) (howned : BuffersOwned A s) {f : Filling}
    {e : InputEvent} (hf : s.held[i]? = some f) : EventsDelivered
      { s.writeEvent A (s.desc f.id.toNat).addr e with held := s.held.set i ⟨f.id, some e⟩ } := by
  obtain ⟨done, current, htake, hreturned, hshift, hreading⟩ := h.returned
  have hapart := howned.apart hf
  have hmem : f.id.toNat ∈ s.deviceHas ++ s.driverHas := List.mem_append_left _
    (List.mem_append_left _ (List.mem_append_right _
      (List.mem_map_of_mem (List.mem_of_getElem? hf))))
  have hlt := howned.lt hmem
  rw [howned.desc _ hlt, show (eventDesc A f.id.toNat).addr = eventAddress A f.id.toNat from rfl,
    writeEvent_eq e hlt]
  refine ⟨fun j g hg e' he' => ?_, fun id e' hput => ?_, ?_, h.consumed,
    done, current, htake, hreturned, hshift, ?_⟩
  · by_cases hj : j = i
    · subst hj
      have hset : (s.held.set j ⟨f.id, some e⟩)[j]? = some ⟨f.id, some e⟩ := by
        rw [List.getElem?_set_self (List.getElem?_eq_some_iff.mp hf).1]
      obtain rfl := Option.some.inj (hset.symm.trans hg)
      obtain rfl := Option.some.inj he'
      exact Function.update_self _ _ _
    · have hget : s.held[j]? = some g := by
        rw [← hg]
        exact (List.getElem?_set_ne (Ne.symm hj)).symm
      exact (Function.update_of_ne (hapart.held j g hget hj) _ _).trans (h.filled j g hget e' he')
  · exact (Function.update_of_ne (hapart.put id e' hput) _ _).trans (h.put id e' hput)
  · rw [← h.unread]
    refine List.map_congr_left fun id hid => Function.update_of_ne ?_ _ _
    exact hapart.driver id (List.mem_append_left _ hid)
  · refine hreading.congr fun id hid => Function.update_of_ne ?_ _ _
    exact hapart.driver id (List.mem_append_right _ hid)

/-- **The driver goes on**, with the same events. -/
theorem EventsDelivered.move (h : EventsDelivered s) {phase : KeyboardPhase} {availIdx : BitVec 16}
    {availRing : ℕ → BitVec 16}
    (hreading : ∀ current, s.phase.Reading s.events current → phase.Reading s.events current) :
    EventsDelivered { s with availIdx := availIdx, availRing := availRing, phase := phase } := by
  obtain ⟨done, current, htake, hreturned, hshift, hcurrent⟩ := h.returned
  exact ⟨h.filled, h.put, h.unread, h.consumed, done, current, htake, hreturned, hshift,
    hreading current hcurrent⟩

/-- **It takes the first of the used ring**, with the first event that is not read yet. -/
theorem EventsDelivered.read_entry (h : EventsDelivered s) (hphase : s.phase = .entry)
    {id : BitVec 32} (hunread : s.unread
      = id.toNat :: ({ s with lastUsed := s.lastUsed + 1 } : KeyboardState).unread) :
    EventsDelivered { s with
      lastUsed := s.lastUsed + 1
      consumed := s.consumed + 1
      phase := .readType id } := by
  obtain ⟨done, current, htake, hreturned, hshift, hreading⟩ := h.returned
  rw [hphase] at hreading
  obtain rfl : current = [] := hreading
  have hrest := h.unread
  rw [hunread, List.map_cons] at hrest
  have hlt : s.consumed < s.reported.length := by
    refine Nat.lt_of_not_le fun hle => ?_
    rw [List.drop_eq_nil_of_le hle] at hrest
    cases hrest
  rw [List.drop_eq_getElem_cons hlt] at hrest
  obtain ⟨hfirst, hothers⟩ := List.cons.inj hrest
  refine ⟨h.filled, h.put, hothers, hlt, done, [s.events id.toNat], ?_, hreturned, hshift, rfl⟩
  dsimp only
  rw [List.take_succ_eq_append_getElem hlt, htake, List.append_nil, hfirst]

/-- **The end of a turn** returns what is to be returned. -/
theorem EventsDelivered.decode (h : EventsDelivered s) {e : InputEvent}
    (hphase : s.phase = .decode e) {phase : KeyboardPhase}
    (hnext : phase = .head ∨ phase = .outside) : EventsDelivered { s with
      shift := nextShift s.shift e
      returned := s.returned ++ (pressedChar s.shift e).toList
      phase := phase } := by
  obtain ⟨done, current, htake, hreturned, hshift, hreading⟩ := h.returned
  rw [hphase] at hreading
  obtain rfl : current = [e] := hreading
  refine ⟨h.filled, h.put, h.unread, h.consumed, done ++ [e], [], ?_, ?_, ?_, ?_⟩
  · rw [List.append_nil, htake]
  · rw [characters_concat, ← hreturned, ← hshift]
  · rw [shiftAfter_concat, ← hshift]
  · rcases hnext with rfl | rfl
    · rfl
    · rfl

end Delivery

/-! ## Runs -/

/-- Buffers and events are where they are to be. -/
structure KeyboardOk (A : Word) (s : KeyboardState) : Prop
  extends BuffersOwned A s, EventsDelivered s

section Runs

variable {A : Word} {s s' : KeyboardState}

/-- The driver goes on by itself, from one place to another. -/
theorem KeyboardOk.move (h : KeyboardOk A s) {phase phase' : KeyboardPhase}
    (hphase : s.phase = phase) (hholding : phase'.holding = phase.holding)
    (hpublish : ∀ id e, phase' ≠ .publish id e) (hentry : phase' = .entry → s.unread ≠ [])
    (hreading : ∀ current, phase.Reading s.events current → phase'.Reading s.events current) :
    KeyboardOk A { s with phase := phase' } := by
  subst hphase
  exact ⟨h.toBuffersOwned.move hholding hpublish hentry, h.toEventsDelivered.move hreading⟩

/-- **What the driver does next**: one case for each place where it can be. -/
theorem KeyboardOk.drive (h : KeyboardOk A s) : KeyboardOk A (s.drive A) := by
  cases hphase : s.phase with
  | outside =>
    rw [KeyboardState.drive, hphase]
    exact h
  | head =>
    rw [KeyboardState.drive, hphase]
    dsimp only
    split
    · rename_i hmore
      exact h.move hphase rfl (by rintro _ _ ⟨⟩) (fun _ => unread_ne_nil hmore.2)
        fun _ hcurrent => hcurrent
    · exact h.move hphase rfl (by rintro _ _ ⟨⟩) (by rintro ⟨⟩) fun _ hcurrent => hcurrent
  | entry =>
    obtain ⟨id, hlt, hdrive, hunread⟩ := h.toBuffersOwned.entry_step hphase
    rw [hdrive]
    exact ⟨h.toBuffersOwned.read_entry hphase hunread,
      h.toEventsDelivered.read_entry hphase hunread⟩
  | readType id =>
    rw [KeyboardState.drive, hphase]
    exact h.move hphase rfl (by rintro _ _ ⟨⟩) (by rintro ⟨⟩) fun _ hcurrent => ⟨hcurrent, rfl⟩
  | readCode id type =>
    rw [KeyboardState.drive, hphase]
    exact h.move hphase rfl (by rintro _ _ ⟨⟩) (by rintro ⟨⟩)
      fun _ hcurrent => ⟨hcurrent.1, hcurrent.2, rfl⟩
  | readValue id type code =>
    rw [KeyboardState.drive, hphase]
    refine h.move hphase rfl (by rintro _ _ ⟨⟩) (by rintro ⟨⟩) ?_
    rintro _ ⟨rfl, rfl, rfl⟩
    rfl
  | describe id e =>
    have hid : id.toNat ∈ s.phase.holding := by
      rw [hphase]
      exact List.mem_singleton_self _
    have hlt := h.toBuffersOwned.holding_lt hid
    rw [KeyboardState.drive, hphase]
    dsimp only
    rw [h.toBuffersOwned.writeDesc (by rwa [toNat_index hlt])]
    exact h.move hphase rfl (by rintro _ _ ⟨⟩) (by rintro ⟨⟩) fun _ hcurrent => hcurrent
  | offer id e =>
    rw [KeyboardState.drive, hphase]
    refine ⟨h.toBuffersOwned.offer hphase, h.toEventsDelivered.move ?_⟩
    rw [hphase]
    exact fun _ hcurrent => hcurrent
  | publish id e =>
    rw [KeyboardState.drive, hphase]
    refine ⟨h.toBuffersOwned.publish_step hphase, h.toEventsDelivered.move ?_⟩
    rw [hphase]
    exact fun _ hcurrent => hcurrent
  | decode e =>
    obtain ⟨phase, hnext, hdecode⟩ := decode_eq e s
    rw [KeyboardState.drive, hphase]
    dsimp only
    rw [hdecode]
    refine ⟨h.toBuffersOwned.move ?_ ?_ ?_, h.toEventsDelivered.decode hphase hnext⟩
    · rw [hphase]
      rcases hnext with rfl | rfl
      · rfl
      · rfl
    · rcases hnext with rfl | rfl
      · rintro _ _ ⟨⟩
      · rintro _ _ ⟨⟩
    · rcases hnext with rfl | rfl
      · rintro ⟨⟩
      · rintro ⟨⟩

/-- **Every step** of the two parties. -/
theorem KeyboardOk.step (h : KeyboardOk A s) {action : KeyboardAction}
    (hstep : keyboardStep A s action = some s') : KeyboardOk A s' := by
  cases action with
  | call =>
    rw [keyboardStep] at hstep
    split at hstep
    · rename_i hphase
      obtain rfl := Option.some.inj hstep
      exact h.move hphase rfl (by rintro _ _ ⟨⟩) (by rintro ⟨⟩) fun _ hcurrent => hcurrent
    · cases hstep
  | drive =>
    rw [keyboardStep] at hstep
    split at hstep
    · cases hstep
    · obtain rfl := Option.some.inj hstep
      exact h.drive
  | take =>
    rw [keyboardStep] at hstep
    split at hstep
    · cases hstep
    · obtain rfl := Option.some.inj hstep
      exact ⟨h.toBuffersOwned.take ‹_›, h.toEventsDelivered.take⟩
  | fill i e =>
    rw [keyboardStep] at hstep
    split at hstep
    · rename_i f hf
      dsimp only at hstep
      split at hstep
      · obtain rfl := Option.some.inj hstep
        exact ⟨h.toBuffersOwned.fill hf, h.toEventsDelivered.fill h.toBuffersOwned hf⟩
      · cases hstep
    · cases hstep
  | put i =>
    rw [keyboardStep] at hstep
    split at hstep
    · rename_i hput hf
      obtain rfl := Option.some.inj hstep
      exact ⟨h.toBuffersOwned.put_step hf hput,
        h.toEventsDelivered.put_step h.toBuffersOwned hf rfl⟩
    · cases hstep
  | report =>
    rw [keyboardStep] at hstep
    split at hstep
    · rename_i hput
      obtain rfl := Option.some.inj hstep
      exact ⟨h.toBuffersOwned.report hput, h.toEventsDelivered.report h.toBuffersOwned hput⟩
    · cases hstep

/-- So many buffers have been added. -/
theorem added_eq (A : Word) {n : ℕ} (hn : n ≤ virtioKeyboardQueueSize) :
    (List.range n).foldl (fun s i => KeyboardState.addBuffer A (BitVec.ofNat 16 i) s) {}
      = { desc := fun i => if i < n then eventDesc A i else {}
          availIdx := BitVec.ofNat 16 n
          availRing := fun i => if i < n then BitVec.ofNat 16 i else 0 } := by
  induction n with
  | zero => rfl
  | succ n ih =>
    have hlt : n < 16 := hn
    have hindex : (BitVec.ofNat 16 n).toNat = n := by
      rw [BitVec.toNat_ofNat, Nat.mod_eq_of_lt (by omega)]
    have hplace : queuePlace (BitVec.ofNat 16 n) = n := by
      rw [queuePlace, hindex]
      exact Nat.mod_eq_of_lt hlt
    -- what is written at `n` is what the range goes on with
    have hwrite : ∀ {α : Type} (f : ℕ → α) (a : α), Function.update
        (fun i => if i < n then f i else a) n (f n) = fun i => if i < n + 1 then f i else a := by
      intro α f a
      funext i
      rcases Nat.lt_trichotomy i n with hi | rfl | hi
      · rw [Function.update_of_ne (Nat.ne_of_lt hi), if_pos hi, if_pos (Nat.lt_succ_of_lt hi)]
      · rw [Function.update_self, if_pos (Nat.lt_succ_self i)]
      · rw [Function.update_of_ne (Nat.ne_of_gt hi), if_neg (Nat.lt_asymm hi), if_neg (by omega)]
    rw [List.range_succ, List.foldl_append, ih (Nat.le_of_succ_le hn), List.foldl_cons,
      List.foldl_nil, KeyboardState.addBuffer, KeyboardState.writeDesc, KeyboardState.writeAvail]
    dsimp only
    rw [hindex, hplace, hwrite, hwrite (BitVec.ofNat 16), BitVec.ofNat_add n 1]
    rfl

/-- **The queue that is set up**: every buffer is offered. -/
theorem keyboardOk_boot (A : Word) : KeyboardOk A (bootKeyboard A) := by
  rw [bootKeyboard, added_eq A (Nat.le_refl _)]
  have hoffered : ringWords (fun j => (if j < 16 then BitVec.ofNat 16 j else 0).toNat) 16 0#16 16#16
      = List.range 16 := by decide
  refine ⟨⟨List.Perm.of_eq ?_, fun i hi => if_pos hi, rfl, rfl, rfl, rfl, ?_, ?_, ?_⟩,
    ⟨?_, ?_, ?_, Nat.le_refl 0, [], [], rfl, rfl, rfl, rfl⟩⟩
  · rw [KeyboardState.deviceHas, KeyboardState.driverHas, KeyboardState.unread, ringWords_self]
    exact congrArg (· ++ [] ++ [] ++ []) hoffered
  · rintro _ _ ⟨⟩
  · rintro _ _ ⟨⟩
  · rintro ⟨⟩
  · rintro _ _ ⟨⟩
  · rintro _ _ ⟨⟩
  · rw [KeyboardState.unread, ringWords_self]
    rfl

end Runs

/-! ## The queue is kept -/

/-- Between two turns of the loop, or two calls. -/
def KeyboardPhase.between : KeyboardPhase → Bool
  | .outside | .head => true
  | _ => false

/-- The buffer that is read next. -/
def KeyboardPhase.reads : KeyboardPhase → Option ℕ
  | .readType id | .readCode id _ | .readValue id _ _ => some id.toNat
  | _ => none

/-- **The queue of the keyboard is kept.** -/
structure QueueKept (s : KeyboardState) : Prop where
  /-- Each buffer is of one side, and listed there once. -/
  owner : s.phase.between = true → (s.deviceHas ++ s.unread).Nodup ∧
    ∀ b, b < virtioKeyboardQueueSize → Xor (b ∈ s.deviceHas) (b ∈ s.unread)
  availIdx : s.phase.between = true →
    s.availIdx = BitVec.ofNat 16 (s.consumed + virtioKeyboardQueueSize)
  lastUsed : s.lastUsed = BitVec.ofNat 16 s.consumed
  usedIdx : s.usedIdx = BitVec.ofNat 16 s.reported.length
  /-- The comparison of the loop tells whether all that is reported has been consumed. -/
  consumed : s.consumed ≤ s.reported.length ∧
    (s.lastUsed = s.usedIdx ↔ s.consumed = s.reported.length)
  /-- The characters of the events that are consumed have been returned. -/
  returned : s.phase.between = true → s.returned = characters (s.reported.take s.consumed)
  /-- A buffer that is read is the driver's, and holds the event that was consumed last. -/
  reads : ∀ b, s.phase.reads = some b → b ∈ s.driverHas ∧ b ∉ s.deviceHas ∧
    (s.reported.take s.consumed).getLast? = some (s.events b)

section Kept

variable {A : Word} {s : KeyboardState}

theorem KeyboardOk.holding_nil (hbetween : s.phase.between = true) : s.phase.holding = [] := by
  cases hphase : s.phase with
  | outside => rfl
  | head => rfl
  | _ =>
    rw [hphase] at hbetween
    cases hbetween

theorem KeyboardOk.owner (h : KeyboardOk A s) (hbetween : s.phase.between = true) :
    (s.deviceHas ++ s.unread).Nodup ∧
      ∀ b, b < virtioKeyboardQueueSize → Xor (b ∈ s.deviceHas) (b ∈ s.unread) := by
  have hdriver : s.driverHas = s.unread := by
    rw [KeyboardState.driverHas, KeyboardOk.holding_nil hbetween, List.append_nil]
  have hnodup := h.toBuffersOwned.nodup
  have hperm := h.perm
  rw [hdriver] at hnodup hperm
  refine ⟨hnodup, fun b hb => ?_⟩
  have hmem := List.mem_append.mp (hperm.mem_iff.mpr (List.mem_range.mpr hb))
  have hapart := (List.nodup_append.mp hnodup).2.2
  rcases hmem with hdevice | hunread
  · exact .inl ⟨hdevice, fun hunread => hapart b hdevice b hunread rfl⟩
  · exact .inr ⟨hunread, fun hdevice => hapart b hdevice b hunread rfl⟩

/-- The distance of the counters is the number of events that are not consumed. -/
theorem KeyboardOk.pending (h : KeyboardOk A s) :
    s.lastUsed = s.usedIdx ↔ s.consumed = s.reported.length := by
  have hlength := congrArg List.length h.unread
  rw [List.length_map, List.length_drop] at hlength
  have hle := h.consumed
  constructor
  · intro heq
    rw [KeyboardState.unread, heq, ringWords_self] at hlength
    rw [List.length_nil] at hlength
    omega
  · intro heq
    rw [h.lastUsed, h.usedIdx, heq]

theorem KeyboardOk.returned_between (h : KeyboardOk A s) (hbetween : s.phase.between = true) :
    s.returned = characters (s.reported.take s.consumed) := by
  obtain ⟨done, current, htake, hreturned, -, hreading⟩ := h.returned
  have hnone : current = [] := by
    cases hphase : s.phase with
    | outside | head =>
      rw [hphase] at hreading
      exact hreading
    | _ =>
      rw [hphase] at hbetween
      cases hbetween
  rw [htake, hnone, List.append_nil, hreturned]

theorem KeyboardOk.reads (h : KeyboardOk A s) {b : ℕ} (hreads : s.phase.reads = some b) :
    b ∈ s.driverHas ∧ b ∉ s.deviceHas ∧
      (s.reported.take s.consumed).getLast? = some (s.events b) := by
  obtain ⟨done, current, htake, -, -, hreading⟩ := h.returned
  have hholds : b ∈ s.phase.holding ∧ current = [s.events b] := by
    cases hphase : s.phase with
    | readType id =>
      rw [hphase] at hreads hreading
      obtain rfl := Option.some.inj hreads
      exact ⟨List.mem_singleton_self _, hreading⟩
    | readCode id type | readValue id type code =>
      rw [hphase] at hreads hreading
      obtain rfl := Option.some.inj hreads
      exact ⟨List.mem_singleton_self _, hreading.1⟩
    | _ =>
      rw [hphase] at hreads
      cases hreads
  have hdriver : b ∈ s.driverHas := List.mem_append_right _ hholds.1
  refine ⟨hdriver, fun hdevice => ?_, ?_⟩
  · exact (List.nodup_append.mp h.toBuffersOwned.nodup).2.2 b hdevice b hdriver rfl
  · rw [htake, hholds.2, List.getLast?_append]
    rfl

theorem KeyboardOk.kept (h : KeyboardOk A s) : QueueKept s where
  owner := h.owner
  availIdx hbetween := by
    have havail := h.availIdx
    rwa [KeyboardOk.holding_nil hbetween, List.length_nil, BitVec.add_zero] at havail
  lastUsed := h.lastUsed
  usedIdx := h.usedIdx
  consumed := ⟨h.consumed, h.pending⟩
  returned := h.returned_between
  reads _ := h.reads

end Kept

/-- **No event is lost, doubled, or read too late**, in whatever order the driver and a device that
conforms go on: in every state, the queue is kept. -/
theorem keyboard_queue_kept (A : Word) (actions : List KeyboardAction) :
    Always (keyboardStep A) QueueKept (bootKeyboard A) actions :=
  Always.of_inv (I := KeyboardOk A) (fun _ _ _ h hstep => h.step hstep) (fun _ h => h.kept)
    (keyboardOk_boot A) actions

/-- A shift key is pressed, and then `a`. -/
example : (run (keyboardStep 0x40280000) (bootKeyboard 0x40280000)
    ([.take, .take, .fill 0 ⟨evKey, keyLeftShift, 1⟩, .fill 1 ⟨evKey, 30, 1⟩, .put 0, .report,
      .put 0, .report, .call] ++ List.replicate 18 .drive)).map (·.returned)
        = some (ascii "A") := by
  decide

end SaturnOS
