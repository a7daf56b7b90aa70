import SaturnOS.Drivers.VirtioBlk
import SaturnOS.Memory.AddressSpace
import SaturnOS.Machinery.Bytes
import SaturnOS.Machinery.Rings

/-!
# Drivers/Keyboard — sixteen buffers, given and taken back

             ┌── available ring: ids of empty buffers ──▸┐
    driver ──┤                                           ├── device
             └◂── used ring: ids of buffers with events ─┘

`virtio_keyboard_read_char` of `drivers/keyboard/keyboard.c` as a party of a protocol: its accesses
to the queue and to the events one by one.  The device is any that conforms: it takes the buffers of
the available ring in order, fills those it has in hand, in as many writes as it likes, and reports
each once through the used ring; the two parties go on in any order.

What `keyboard_read_char` does after the loop, with the UART, does not touch this state.
-/

open Machinery

namespace SaturnOS

def virtioKeyboardQueueSize : ℕ := 16

def evKey : BitVec 16 := 0x01
def keyBackspace : BitVec 16 := 14
def keyTab : BitVec 16 := 15
def keyEnter : BitVec 16 := 28
def keyLeftShift : BitVec 16 := 42
def keyRightShift : BitVec 16 := 54
def keySpace : BitVec 16 := 57
def keyHome : BitVec 16 := 102
def keyUp : BitVec 16 := 103
def keyLeft : BitVec 16 := 105
def keyRight : BitVec 16 := 106
def keyEnd : BitVec 16 := 107
def keyDown : BitVec 16 := 108
def keyDelete : BitVec 16 := 111

/-! ## Keys -/

/-- The table `normal`… -/
def normalKeys : List Byte :=
  [0, 0] ++ ascii "1234567890-=" ++ [0, 0] ++ ascii "qwertyuiop[]" ++ [0, 0] ++
    ascii "asdfghjkl;'`" ++ [0] ++ ascii "\\zxcvbnm,./"

/-- …and `shifted`. -/
def shiftedKeys : List Byte :=
  [0, 0] ++ ascii "!@#$%^&*()_+" ++ [0, 0] ++ ascii "QWERTYUIOP\x7b\x7d" ++ [0, 0] ++
    ascii "ASDFGHJKL:\"~" ++ [0] ++ ascii "|ZXCVBNM<>?"

/-- `keycode_to_ascii`, under a state of `keyboard_shift`. -/
def keycodeToAscii (shift : Bool) (code : BitVec 16) : Byte :=
  if code = keyEnter then 0x0a
  else if code = keyBackspace then 0x08
  else if code = keyTab then 0x09
  else if code = keySpace then 0x20
  else if code = keyHome then 0x01
  else if code = keyUp then 0x03
  else if code = keyLeft then 0x02
  else if code = keyDelete then 0x04
  else if code = keyEnd then 0x05
  else if code = keyDown then 0x0e
  else if code = keyRight then 0x06
  else if normalKeys.length ≤ code.toNat then 0
  else (if shift then shiftedKeys else normalKeys).getD code.toNat 0

/-- `struct virtio_input_event` -/
structure InputEvent where
  type : BitVec 16 := 0
  code : BitVec 16 := 0
  value : BitVec 32 := 0
  deriving DecidableEq

/-! ## The parties -/

structure VirtqUsedElem where
  id : BitVec 32 := 0
  len : BitVec 32 := 0
  deriving DecidableEq

/-- Where the driver is in `virtio_keyboard_read_char`, with its locals. -/
inductive KeyboardPhase
  | outside
  /-- The condition of the loop is next. -/
  | head
  | entry
  | readType (id : BitVec 32)
  | readCode (id : BitVec 32) (type : BitVec 16)
  | readValue (id : BitVec 32) (type code : BitVec 16)
  /-- The writes of `virtio_keyboard_add_buffer`: the descriptor, the ring, the index. -/
  | describe (id : BitVec 32) (event : InputEvent)
  | offer (id : BitVec 32) (event : InputEvent)
  | publish (id : BitVec 32) (event : InputEvent)
  | decode (event : InputEvent)

/-- A buffer that the device has in hand, and the event that it has put there. -/
structure Filling where
  id : BitVec 16
  event : Option InputEvent

/-- The shared memory, the two parties, and what has happened so far. -/
structure KeyboardState where
  desc : ℕ → VirtqDesc := fun _ => {}
  availIdx : BitVec 16 := 0
  availRing : ℕ → BitVec 16 := fun _ => 0
  usedIdx : BitVec 16 := 0
  usedRing : ℕ → VirtqUsedElem := fun _ => {}
  events : ℕ → InputEvent := fun _ => {}
  ready : Bool := false
  lastUsed : BitVec 16 := 0
  shift : Bool := false
  phase : KeyboardPhase := .outside
  /-- The position of the device in the available ring. -/
  taken : BitVec 16 := 0
  held : List Filling := []
  /-- Written into the used ring, and not yet counted there. -/
  put : Option (BitVec 16 × InputEvent) := none
  /-- How many used entries the driver has consumed. -/
  consumed : ℕ := 0
  reported : List InputEvent := []
  returned : List Byte := []

/-! ## The driver -/

/-- `i % VIRTIO_KEYBOARD_QUEUE_SIZE` -/
def queuePlace (i : BitVec 16) : ℕ := i.toNat % virtioKeyboardQueueSize

/-- `&keyboard_events[index]`, the array being at `A`. -/
def eventAddress (A : Word) (index : ℕ) : Word := A + 8 * BitVec.ofNat 64 index

/-- The descriptor of a buffer. -/
def eventDesc (A : Word) (index : ℕ) : VirtqDesc :=
  { addr := eventAddress A index, len := 8, flags := virtqDescFWrite, next := 0 }

namespace KeyboardState

def writeDesc (A : Word) (index : BitVec 16) (s : KeyboardState) : KeyboardState :=
  { s with desc := Function.update s.desc index.toNat (eventDesc A index.toNat) }

def writeAvail (index : BitVec 16) (s : KeyboardState) : KeyboardState :=
  { s with availRing := Function.update s.availRing (queuePlace s.availIdx) index }

/-- `virtio_keyboard_add_buffer`; the notification is for the device, which may go on at any
time. -/
def addBuffer (A : Word) (index : BitVec 16) (s : KeyboardState) : KeyboardState :=
  let s := (s.writeDesc A index).writeAvail index
  { s with availIdx := s.availIdx + 1 }

/-- The rest of a turn, after the buffer has been handed back. -/
def decode (event : InputEvent) (s : KeyboardState) : KeyboardState :=
  if event.type ≠ evKey then { s with phase := .head }
  else if event.code = keyLeftShift ∨ event.code = keyRightShift then
    { s with shift := event.value != 0, phase := .head }
  else if event.value = 0 then { s with phase := .head }
  else
    let c := keycodeToAscii s.shift event.code
    if c ≠ 0 then { s with returned := s.returned ++ [c], phase := .outside }
    else { s with phase := .head }

/-- What the driver does next. -/
def drive (A : Word) (s : KeyboardState) : KeyboardState :=
  match s.phase with
  | .outside => s
  | .head =>
    { s with phase := if s.ready ∧ s.lastUsed ≠ s.usedIdx then .entry else .outside }
  | .entry =>
    let id := (s.usedRing (queuePlace s.lastUsed)).id
    { s with
      lastUsed := s.lastUsed + 1
      consumed := s.consumed + 1
      phase := if virtioKeyboardQueueSize ≤ id.toNat then .head else .readType id }
  | .readType id => { s with phase := .readCode id (s.events id.toNat).type }
  | .readCode id type => { s with phase := .readValue id type (s.events id.toNat).code }
  | .readValue id type code =>
    { s with phase := .describe id ⟨type, code, (s.events id.toNat).value⟩ }
  | .describe id event => { s.writeDesc A (id.setWidth 16) with phase := .offer id event }
  | .offer id event => { s.writeAvail (id.setWidth 16) with phase := .publish id event }
  | .publish _ event => { s with availIdx := s.availIdx + 1, phase := .decode event }
  | .decode event => s.decode event

/-! ## The device -/

/-- An event is written where a descriptor says. -/
def writeEvent (A : Word) (addr : Word) (event : InputEvent) (s : KeyboardState) :
    KeyboardState :=
  { s with
    events := fun i =>
      if i < virtioKeyboardQueueSize ∧ eventAddress A i = addr then event else s.events i }

end KeyboardState

/-! ## Steps -/

inductive KeyboardAction
  /-- A call of `virtio_keyboard_read_char`. -/
  | call
  | drive
  /-- The device takes the next buffer of the available ring… -/
  | take
  /-- …writes an event into one that it has in hand… -/
  | fill (i : ℕ) (event : InputEvent)
  /-- …writes one that is filled into the used ring… -/
  | put (i : ℕ)
  /-- …and counts it there. -/
  | report

def keyboardStep (A : Word) (s : KeyboardState) : KeyboardAction → Option KeyboardState
  | .call =>
    match s.phase with
    | .outside => some { s with phase := .head }
    | _ => none
  | .drive =>
    match s.phase with
    | .outside => none
    | _ => some (s.drive A)
  | .take =>
    if s.taken = s.availIdx then none
    else
      some { s with
        taken := s.taken + 1
        held := s.held ++ [⟨s.availRing (queuePlace s.taken), none⟩] }
  | .fill i event =>
    match s.held[i]? with
    | some f =>
      let d := s.desc f.id.toNat
      if d.flags &&& virtqDescFWrite ≠ 0 ∧ 8#32 ≤ d.len then
        some { s.writeEvent A d.addr event with held := s.held.set i ⟨f.id, some event⟩ }
      else none
    | none => none
  | .put i =>
    match s.put, s.held[i]? with
    | none, some ⟨id, some event⟩ =>
      some { s with
        usedRing := Function.update s.usedRing (queuePlace s.usedIdx) ⟨id.setWidth 32, 8⟩
        held := s.held.eraseIdx i
        put := some (id, event) }
    | _, _ => none
  | .report =>
    match s.put with
    | some (_, event) =>
      some { s with usedIdx := s.usedIdx + 1, reported := s.reported ++ [event], put := none }
    | none => none

/-- The queue as `virtio_keyboard_finish_modern` and `virtio_keyboard_finish_legacy` leave it: the
memory cleared, and a buffer added for each index. -/
def bootKeyboard (A : Word) : KeyboardState :=
  let s := (List.range virtioKeyboardQueueSize).foldl
    (fun s i => KeyboardState.addBuffer A (BitVec.ofNat 16 i) s) {}
  { s with ready := true }

end SaturnOS
