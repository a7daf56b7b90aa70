import SaturnOS.Arch.Mmu

/-!
# Drivers/VirtioBlk — one request at a time, over shared memory

    driver ──request, descriptors, available──▸ device
           ◂──status byte, used──────────────

`virtio_blk_transfer` of `drivers/storage/virtio_blk.c` as a party of a protocol: its writes to the
queue one by one, its polls, its return.  The device is any that conforms: it takes the entries of
the available ring in order, fetches the chain an entry stands for, performs it, writes the status
byte and counts the entry as used; it may have several entries in hand, and the two parties go on in
any order.

The request header, the status byte and the three descriptors are the same for every request.
-/

namespace SaturnOS

def virtqDescFNext : BitVec 16 := 1
def virtqDescFWrite : BitVec 16 := 2
def virtioBlkTIn : BitVec 32 := 0
def virtioBlkTOut : BitVec 32 := 1
def virtioBlkSOk : BitVec 8 := 0
def virtioBlkSectorSize : Word := 512
def virtioBlkTimeout : ℕ := 10000000

/-! ## Shared memory -/

structure VirtqDesc where
  addr : Word := 0
  len : BitVec 32 := 0
  flags : BitVec 16 := 0
  next : BitVec 16 := 0
  deriving DecidableEq

structure VirtioBlkRequest where
  type : BitVec 32 := 0
  reserved : BitVec 32 := 0
  sector : Word := 0
  deriving DecidableEq

/-- The arguments of `virtio_blk_transfer`. -/
structure Transfer where
  sector : Word
  buffer : Word
  count : Word
  write : Bool
  deriving DecidableEq

/-- What a device reads of an entry: the header its first descriptor points to, the descriptor of
the data, and where the status goes. -/
structure Chain where
  header : VirtioBlkRequest
  data : VirtqDesc
  status : Word
  deriving DecidableEq

/-- Where `request` and `request_status` are. -/
structure BlkAddresses where
  request : Word
  status : Word

/-! ## The parties -/

/-- Where the driver is in `virtio_blk_transfer`. -/
inductive DriverPhase
  | idle
  /-- So many of its seven writes are done. -/
  | preparing (t : Transfer) (done : ℕ)
  /-- In the loop, with the local `expected` and the turns so far. -/
  | polling (t : Transfer) (entry : ℕ) (expected : BitVec 16) (turns : ℕ)
  /-- The count has matched; the status is read next. -/
  | matched (t : Transfer) (entry : ℕ)
  deriving DecidableEq

/-- How far the device is with an entry in hand. -/
inductive FlightStage
  | fetched
  | performed (status : BitVec 8)
  | reported (status : BitVec 8)
  deriving DecidableEq

/-- An entry in hand. -/
structure Flight where
  entry : ℕ
  chain : Chain
  stage : FlightStage
  deriving DecidableEq

/-- An entry the device has counted as used. -/
structure Completion where
  entry : ℕ
  chain : Chain
  status : BitVec 8
  deriving DecidableEq

/-- A transfer that has returned, with the entry it was. -/
structure TransferReturn where
  transfer : Transfer
  entry : ℕ
  ok : Bool
  deriving DecidableEq

/-- The shared memory, the two parties, and what has happened so far. -/
structure BlkState where
  descriptors : Fin 8 → VirtqDesc := fun _ => {}
  availableIdx : BitVec 16 := 0
  availableRing : Fin 8 → BitVec 16 := fun _ => 0
  usedIdx : BitVec 16 := 0
  request : VirtioBlkRequest := {}
  requestStatus : BitVec 8 := 0
  deviceReady : Bool
  deviceSectors : Word
  lastUsed : BitVec 16 := 0
  driver : DriverPhase := .idle
  /-- The position of the device in the available ring. -/
  taken : BitVec 16 := 0
  inHand : List Flight := []
  published : ℕ := 0
  fetched : ℕ := 0
  completed : List Completion := []
  returned : List TransferReturn := []
  timeouts : ℕ := 0

/-- The state after a probe that succeeded. -/
def bootBlk (sectors : Word) : BlkState :=
  { deviceReady := decide (0 < sectors), deviceSectors := sectors }

/-! ## The driver -/

def ringIndex (i : BitVec 16) : Fin 8 := Fin.ofNat 8 i.toNat

/-- The checks of `virtio_blk_transfer`. -/
def transferRejected (s : BlkState) (t : Transfer) : Bool :=
  !s.deviceReady || t.buffer == 0 || t.count == 0 || decide (s.deviceSectors ≤ t.sector)
    || decide (s.deviceSectors - t.sector < t.count)
    || decide (0xffffffff / virtioBlkSectorSize < t.count)

def transferHeader (t : Transfer) : VirtioBlkRequest :=
  { type := if t.write then virtioBlkTOut else virtioBlkTIn, reserved := 0, sector := t.sector }

def headerDesc (A : BlkAddresses) : VirtqDesc :=
  { addr := A.request, len := 16, flags := virtqDescFNext, next := 1 }

def dataDesc (t : Transfer) : VirtqDesc :=
  { addr := t.buffer
    len := (t.count * virtioBlkSectorSize).setWidth 32
    flags := virtqDescFNext ||| if t.write then 0 else virtqDescFWrite
    next := 2 }

def statusDesc (A : BlkAddresses) : VirtqDesc :=
  { addr := A.status, len := 1, flags := virtqDescFWrite, next := 0 }

/-- `descriptors[i] = d`. -/
def BlkState.setDesc (s : BlkState) (i : Fin 8) (d : VirtqDesc) : BlkState :=
  { s with descriptors := Function.update s.descriptors i d }

/-- The next of the writes that hand a request over: the header, the status, three descriptors, the
ring, and the index that publishes them. -/
def prepareWrite (A : BlkAddresses) (t : Transfer) (s : BlkState) : ℕ → BlkState
  | 0 => { s with request := transferHeader t }
  | 1 => { s with requestStatus := 0xff }
  | 2 => s.setDesc 0 (headerDesc A)
  | 3 => s.setDesc 1 (dataDesc t)
  | 4 => s.setDesc 2 (statusDesc A)
  | _ => { s with availableRing := Function.update s.availableRing (ringIndex s.availableIdx) 0 }

/-- `available->idx++`, and into the loop. -/
def publish (t : Transfer) (s : BlkState) : BlkState :=
  { s with
    availableIdx := s.availableIdx + 1
    published := s.published + 1
    driver := .polling t s.published (s.lastUsed + 1) 0 }

/-- A turn of the loop: match, go on, or give up after the last. -/
def pollUsed (t : Transfer) (entry : ℕ) (expected : BitVec 16) (turns : ℕ) (s : BlkState) :
    BlkState :=
  if s.usedIdx = expected then { s with lastUsed := expected, driver := .matched t entry }
  else if turns + 1 < virtioBlkTimeout then { s with
    driver := .polling t entry expected (turns + 1) }
  else
    { s with
      driver := .idle
      returned := ⟨t, entry, false⟩ :: s.returned
      timeouts := s.timeouts + 1 }

/-! ## The device -/

/-- The chain of the entry at the device's position. -/
def fetchChain (A : BlkAddresses) (s : BlkState) : Chain :=
  let head := s.descriptors (ringIndex (s.availableRing (ringIndex s.taken)))
  let data := s.descriptors (ringIndex head.next)
  let status := s.descriptors (ringIndex data.next)
  { header := if head.addr = A.request then s.request else {}
    data := data
    status := status.addr }

/-- Write the status byte where the chain says. -/
def writeStatus (A : BlkAddresses) (chain : Chain) (status : BitVec 8) (s : BlkState) : BlkState :=
  if chain.status = A.status then { s with requestStatus := status } else s

/-! ## Steps -/

inductive BlkEvent
  /-- A call of `virtio_blk_read` or `virtio_blk_write`. -/
  | start (t : Transfer)
  /-- The driver's next write. -/
  | prepare
  | poll
  /-- Read the status and return. -/
  | finish
  | fetch
  /-- The device is done with the `i`-th entry in hand, with a status. -/
  | perform (i : ℕ) (status : BitVec 8)
  | report (i : ℕ)
  | complete (i : ℕ)

def blkStep (A : BlkAddresses) (s : BlkState) : BlkEvent → Option BlkState
  | .start t =>
    match s.driver with
    | .idle => if transferRejected s t then some s else some { s with driver := .preparing t 0 }
    | _ => none
  | .prepare =>
    match s.driver with
    | .preparing t done =>
      if done < 6 then some { prepareWrite A t s done with driver := .preparing t (done + 1) }
      else some (publish t s)
    | _ => none
  | .poll =>
    match s.driver with
    | .polling t entry expected turns => some (pollUsed t entry expected turns s)
    | _ => none
  | .finish =>
    match s.driver with
    | .matched t entry =>
      some { s with
        driver := .idle
        returned := ⟨t, entry, s.requestStatus == virtioBlkSOk⟩ :: s.returned }
    | _ => none
  | .fetch =>
    if s.taken = s.availableIdx then none
    else
      some { s with
        taken := s.taken + 1
        fetched := s.fetched + 1
        inHand := s.inHand ++ [⟨s.fetched, fetchChain A s, .fetched⟩] }
  | .perform i status =>
    match s.inHand[i]? with
    | some ⟨entry, chain, .fetched⟩ =>
      some { s with inHand := s.inHand.set i ⟨entry, chain, .performed status⟩ }
    | _ => none
  | .report i =>
    match s.inHand[i]? with
    | some ⟨entry, chain, .performed status⟩ =>
      some { writeStatus A chain status s with
        inHand := s.inHand.set i ⟨entry, chain, .reported status⟩ }
    | _ => none
  | .complete i =>
    match s.inHand[i]? with
    | some ⟨entry, chain, .reported status⟩ =>
      some { s with
        inHand := s.inHand.eraseIdx i
        usedIdx := s.usedIdx + 1
        completed := ⟨entry, chain, status⟩ :: s.completed }
    | _ => none

end SaturnOS
