import TcpipCourse.L03.Ipv4
import TcpipCourse.L06.Segment
import TcpipCourse.L07.Reassembly
import TcpipCourse.L11.Route
import TcpipCourse.Lib.Machine
import TcpipCourse.Lib.Scan

/-!
# Linux lab 03: the userspace mini-stack

One simulated transfer: the payload is cut into chunks, each transmission takes the next action of a fault
script, and what is not dropped waits in an event table for its due time on a virtual clock.

* `Scenario`, `Result`, `Status` : what the caller passes and gets back;
* `buildFrame`, `enqueue`, `nextEvent`, `deliver` : the helpers;
* `State`, `Phase` : the variables of `tcpip_linux_l03_run` and its control points; `step` : from one control
  point to the next; `run` : from the entry, with one kernel answer for each step.

The socket pair is a queue of datagrams, each delivered once, in order and unchanged; a `send` or a `recv` may
still fail. Times and counters are natural numbers: the source guards every sum of times, and no run takes
enough steps to wrap a counter (`counters_le`). The spans of a scenario are separate lists, so they do not
overlap `result`. The lesson 12 report of the last frame is only recorded, so its format is a parameter `ρ`.
-/

namespace TcpipCourse.LinuxL03
open Lib L07

def maxFaultActions : Nat := 32

def maxPayload : Nat := 1024

def chunkPayload : Nat := 256

def maxChunks : Nat := (maxPayload + chunkPayload - 1) / chunkPayload

def maxEvents : Nat := maxFaultActions + maxChunks

def maxFrame : Nat := 14 + 20 + 20 + chunkPayload

def ethernetHeaderLength : Nat := 14

def ipv4HeaderLength : Nat := 20

inductive Status where
  | ok
  | invalidArgument
  | malformed
  | capacity
  | routeNotFound
  | retryExhausted
  | systemError
  deriving DecidableEq, Repr

inductive FaultAction where
  | deliver
  | drop
  | delay
  | reorder
  deriving DecidableEq, Repr

structure Fault where
  action : FaultAction
  delayMs : UInt64
  deriving DecidableEq

/-- `tcpip_linux_l03_scenario`; `output` is the caller's buffer as it is before the call. -/
structure Scenario where
  payload : Bytes
  output : Bytes
  routes : List L11.Route
  sourceIpv4 : Ipv4Address
  destinationIpv4 : Ipv4Address
  sourcePort : UInt16
  destinationPort : UInt16
  senderInitialSeq : UInt32
  receiverInitialSeq : UInt32
  initialRtoMs : UInt64
  maxAttempts : Nat
  faults : List Fault
  deriving DecidableEq

/-- `tcpip_linux_l03_result`; `finalFrame` is the report of the last delivered frame, if there was one. -/
structure Result (ρ : Type) where
  routeIndex : Nat
  virtualElapsedMs : Nat
  attempts : Nat
  retransmits : Nat
  finalState : TcpState
  reassembledLength : Nat
  finalFrame : Option ρ
  deriving DecidableEq

/-- The result as `tcpip_linux_l03_validate` clears it. -/
def Result.zero {ρ : Type} : Result ρ := ⟨sizeMax, 0, 0, 0, .closed, 0, none⟩

/-- The fault actions are in range by their type. -/
def validate (scenario : Scenario) : Status :=
  if scenario.payload.length = 0 ∨ scenario.payload.length > maxPayload ∨
      scenario.faults.length > maxFaultActions ∨ scenario.maxAttempts = 0 ∨ scenario.initialRtoMs = 0 ∨
      scenario.sourcePort = 0 ∨ scenario.destinationPort = 0 then .malformed
  else if scenario.output.length < scenario.payload.length then .capacity
  else .ok

/-! ## Frames -/

/-- The words of `tcpip_linux_l03_checksum`: an odd last byte is added without the fold. -/
def sumWords : UInt32 → Bytes → UInt32
  | sum, [] => sum
  | sum, [a] => sum + (a.toUInt32 <<< 8)
  | sum, a :: b :: rest => sumWords (addWord sum (be16 a b)) rest

def checksum (bytes : Bytes) : UInt16 := finish (sumWords 0 bytes)

/-- Destination, source and the type of IPv4. -/
def ethernetHeader : Bytes :=
  [0x02, 0x00, 0x00, 0x00, 0x00, 0x02] ++ [0x02, 0x00, 0x00, 0x00, 0x00, 0x01] ++ be16Bytes 0x0800

def chunkLength (scenario : Scenario) (chunkIndex : Nat) : Nat :=
  let remaining := scenario.payload.length - chunkIndex * chunkPayload
  if remaining < chunkPayload then remaining else chunkPayload

def chunkBytes (scenario : Scenario) (chunkIndex : Nat) : Bytes :=
  slice scenario.payload (chunkIndex * chunkPayload) (chunkLength scenario chunkIndex)

def segmentFields (scenario : Scenario) (chunkIndex : Nat) : L06.SegmentFields where
  sourceIpv4 := scenario.sourceIpv4.toList
  destinationIpv4 := scenario.destinationIpv4.toList
  sourcePort := scenario.sourcePort
  destinationPort := scenario.destinationPort
  sequenceNumber := scenario.senderInitialSeq + UInt32.ofNat (chunkIndex * chunkPayload)
  acknowledgmentNumber := scenario.receiverInitialSeq
  flags := L06.flagAck ||| L06.flagPsh
  window := 4096
  urgentPointer := 0
  options := []

def ipv4Fields (scenario : Scenario) (chunkIndex : Nat) : L03.HeaderFields where
  dscpEcn := 0
  identification := UInt16.ofNat chunkIndex
  flagsFragment := 0x4000
  ttl := 64
  protocol := 6
  source := scenario.sourceIpv4
  destination := scenario.destinationIpv4
  options := []

/-- The total length and then the checksum stored over those of a built header. -/
def patchHeader (header : Bytes) (ipv4Length : Nat) : Bytes :=
  let ipv4 := overwrite header 2 (be16Bytes (UInt16.ofNat ipv4Length))
  let ipv4 := overwrite ipv4 10 [0, 0]
  overwrite ipv4 10 (be16Bytes (checksum ipv4))

/-- The first `*frame_length` bytes of `frame`: the Ethernet header and behind it the regions `ipv4` and `tcp`. -/
def buildFrame (scenario : Scenario) (chunkIndex : Nat) : Except Status Bytes :=
  match L06.buildSegment (segmentFields scenario chunkIndex) (chunkBytes scenario chunkIndex)
      (maxFrame - ethernetHeaderLength - ipv4HeaderLength) with
  | .error _ => .error .malformed
  | .ok tcp =>
    match L03.buildHeader (ipv4Fields scenario chunkIndex) ipv4HeaderLength with
    | .error _ => .error .malformed
    | .ok header =>
      if header.length ≠ ipv4HeaderLength then .error .malformed
      else
        let ipv4 := patchHeader header (ipv4HeaderLength + tcp.length)
        match L03.parseIpv4 (ipv4 ++ tcp) with
        | .error _ => .error .malformed
        | .ok parsed =>
          if parsed.payloadLength ≠ tcp.length then .error .malformed
          else .ok (ethernetHeader ++ ipv4 ++ tcp)

/-! ## The event table -/

/-- `tcpip_linux_l03_event`; `frame` holds `frame_length` bytes. -/
structure Event where
  frame : Bytes
  chunkIndex : Nat
  dueMs : Nat
  order : Nat
  deriving DecidableEq

/-- `events[MAX_EVENTS]`; a slot with `used == 0` is `none`. -/
structure EventTable where
  slots : List (Option Event)
  length_slots : slots.length = maxEvents
  deriving DecidableEq

/-- `memset(events, 0, sizeof(events))` -/
def EventTable.empty : EventTable := ⟨List.replicate maxEvents none, List.length_replicate⟩

def EventTable.set (events : EventTable) (index : Nat) (slot : Option Event) : EventTable :=
  ⟨events.slots.set index slot, by rw [List.length_set, events.length_slots]⟩

/-- The first free slot takes the frame of the chunk. -/
def enqueue (events : EventTable) (scenario : Scenario) (chunkIndex dueMs order : Nat) :
    Except Status EventTable :=
  match events.slots.findIdx? Option.isNone with
  | none => .error .capacity
  | some index =>
    match buildFrame scenario chunkIndex with
    | .error status => .error status
    | .ok frame => .ok (events.set index (some ⟨frame, chunkIndex, dueMs, order⟩))

def isEarlier (candidate best : Event) : Bool :=
  candidate.dueMs < best.dueMs || (candidate.dueMs = best.dueMs && candidate.order < best.order)

/-- The event that is due first, and before the deadline, with its slot; `none` stands for `SIZE_MAX`. -/
def nextEvent (events : EventTable) (deadline : Nat) : Option (Nat × Event) :=
  scanBest (fun slot => slot.filter fun event => event.dueMs < deadline) isEarlier events.slots

/-! ## The state of a run -/

/-- The control points of `tcpip_linux_l03_run`: the head of the attempt loop, of the chunk loop and of the
event loop, and the code behind the event loop. -/
inductive Phase where
  | attempt
  | transmit (chunk : Nat)
  | drain
  | check
  deriving DecidableEq

/-- The local variables, the datagrams in flight, and the caller's `output` and `result`. -/
structure State (ρ : Type) where
  phase : Phase
  events : EventTable
  acknowledged : Bytes
  reassembly : Reassembly
  state : TcpState
  faultIndex : Nat
  eventOrder : Nat
  now : Nat
  rto : Nat
  deadline : Nat
  attempt : Nat
  pair : List Bytes
  output : Bytes
  result : Result ρ
  deriving DecidableEq

/-- A run has returned, or it is at a control point. -/
inductive Config (ρ : Type) where
  | running (s : State ρ)
  | returned (status : Status) (result : Result ρ) (output : Bytes)
  deriving DecidableEq

def chunkCount (scenario : Scenario) : Nat := (scenario.payload.length + chunkPayload - 1) / chunkPayload

/-! ## Delivery -/

/-- How the `send` and the `recv` of one delivery end. An `EINTR` is retried and moves nothing, so these are the
answers after the last one. -/
structure PairTurn where
  sendOk : Bool
  recvOk : Bool
  deriving DecidableEq

def sendDatagram (pair : List Bytes) (data : Bytes) (ok : Bool) : Option Nat × List Bytes :=
  if ok then (some data.length, pair ++ [data]) else (none, pair)

/-- The oldest datagram, cut to the buffer. The stack receives only after a successful send, so there is one. -/
def receiveDatagram (pair : List Bytes) (bufferLength : Nat) (ok : Bool) : Option Bytes × List Bytes :=
  match pair with
  | [] => (none, [])
  | datagram :: rest => if ok then (some (datagram.take bufferLength), rest) else (none, pair)

/-- The checks of `tcpip_linux_l03_deliver` on a received frame: the TCP fields and the bytes of the segment, or
`none` for `MALFORMED`. -/
def receiveSegment (scenario : Scenario) (received : Bytes) : Option (L06.Segment × Bytes) :=
  let ipv4Bytes := received.drop ethernetHeaderLength
  match L03.parseIpv4 ipv4Bytes with
  | .error _ => none
  | .ok ipv4 =>
    let tcpBytes := slice ipv4Bytes ipv4.payloadOffset ipv4.payloadLength
    match L06.parseSegment tcpBytes with
    | .error _ => none
    | .ok tcp =>
      match L06.ipv4Checksum scenario.sourceIpv4.toList scenario.destinationIpv4.toList tcpBytes with
      | .error _ => none
      | .ok transportChecksum => if transportChecksum ≠ 0 then none else some (tcp, tcpBytes)

section Run
variable {ρ : Type} (scenario : Scenario) (diagnose : Bytes → ρ)

/-- The part of `tcpip_linux_l03_deliver` behind the datagram calls. -/
def acceptFrame (received : Bytes) (index : Nat) (event : Event) (s : State ρ) : Status × State ρ :=
  match receiveSegment scenario received with
  | none => (.malformed, s)
  | some (tcp, tcpBytes) =>
    let duplicate := s.acknowledged.getD event.chunkIndex 0 ≠ 0
    let push := reassemblyPush s.reassembly tcp.sequenceNumber
      (slice tcpBytes tcp.payloadOffset tcp.payloadLength)
    let s := { s with reassembly := push.ctx }
    if push.status ≠ .ok ∨ (duplicate ∧ push.accepted ≠ 0) ∨ (¬ duplicate ∧ push.accepted ≠ tcp.payloadLength) then
      (.malformed, s)
    else (.ok,
      { s with
        acknowledged := s.acknowledged.set event.chunkIndex 1
        result := { s.result with finalFrame := some (diagnose received) }
        events := s.events.set index none })

def deliver (turn : PairTurn) (index : Nat) (event : Event) (s : State ρ) : Status × State ρ :=
  match sendDatagram s.pair event.frame turn.sendOk with
  | (none, pair) => (.systemError, { s with pair := pair })
  | (some sent, pair) =>
    if sent ≠ event.frame.length then (.systemError, { s with pair := pair })
    else match receiveDatagram pair maxFrame turn.recvOk with
      | (none, pair) => (.systemError, { s with pair := pair })
      | (some received, pair) =>
        if received.length ≠ event.frame.length then (.systemError, { s with pair := pair })
        else acceptFrame scenario diagnose received index event { s with pair := pair }

def allAcknowledged (acknowledged : Bytes) (count : Nat) : Bool :=
  (List.range count).all fun index => acknowledged.getD index 0 ≠ 0

/-! ## The run -/

/-- `UINT64_MAX - now < rto ? UINT64_MAX : now + rto` -/
def deadlineAfter (now rto : Nat) : Nat := if uint64Max - now < rto then uint64Max else now + rto

/-- `rto <= UINT64_MAX / 2 ? rto * 2 : UINT64_MAX` -/
def backoff (rto : Nat) : Nat := if rto ≤ uint64Max / 2 then rto * 2 else uint64Max

/-- When a transmission that is not dropped is due; `none` when that is past `UINT64_MAX`. -/
def dueTime (fault : Fault) (now rto : Nat) : Option Nat :=
  match fault.action with
  | .delay => if uint64Max - now < fault.delayMs.toNat then none else some (now + fault.delayMs.toNat)
  | .reorder =>
    let offset := if rto > 1 then rto / 2 else 1
    if uint64Max - now < offset then none else some (now + offset)
  | .deliver | .drop => some now

/-- Once the script is used up, every transmission is a `DELIVER`. -/
def faultAt (faultIndex : Nat) : Fault := scenario.faults.getD faultIndex ⟨.deliver, 0⟩

/-- The head of the attempt loop, and `RETRY_EXHAUSTED` behind it. -/
def stepAttempt (s : State ρ) : Config ρ :=
  if s.attempt < scenario.maxAttempts then
    .running
      { s with
        deadline := deadlineAfter s.now s.rto
        result := { s.result with attempts := s.attempt + 1 }
        phase := .transmit 0 }
  else
    .returned .retryExhausted { s.result with virtualElapsedMs := s.now, finalState := s.state } s.output

/-- The chunk loop: one transmission, or none if the chunk is acknowledged. -/
def stepTransmit (chunk : Nat) (s : State ρ) : Config ρ :=
  if chunk < chunkCount scenario then
    if s.acknowledged.getD chunk 0 ≠ 0 then .running { s with phase := .transmit (chunk + 1) }
    else
      let fault := faultAt scenario s.faultIndex
      let retransmits := if s.attempt ≠ 0 then s.result.retransmits + 1 else s.result.retransmits
      let s := { s with
        result := { s.result with retransmits := retransmits }
        faultIndex := s.faultIndex + 1 }
      if fault.action = .drop then .running { s with phase := .transmit (chunk + 1) }
      else match dueTime fault s.now s.rto with
        | none => .returned .capacity s.result s.output
        | some due =>
          match enqueue s.events scenario chunk due s.eventOrder with
          | .error status => .returned status s.result s.output
          | .ok events =>
            .running { s with events := events, eventOrder := s.eventOrder + 1, phase := .transmit (chunk + 1) }
  else .running { s with phase := .drain }

/-- The event loop: one delivery. -/
def stepDrain (turn : PairTurn) (s : State ρ) : Config ρ :=
  match nextEvent s.events s.deadline with
  | none => .running { s with phase := .check }
  | some (index, event) =>
    let (status, s) := deliver scenario diagnose turn index event { s with now := event.dueMs }
    if status ≠ .ok then .returned status s.result s.output else .running s

/-- The code behind the event loop: the final read, or the next attempt. -/
def stepCheck (s : State ρ) : Config ρ :=
  if allAcknowledged s.acknowledged (chunkCount scenario) then
    let read := reassemblyRead s.reassembly s.output.length
    let output := overwrite s.output 0 read.produced
    if read.status ≠ .ok ∨ read.produced.length ≠ scenario.payload.length then
      .returned .malformed s.result output
    else
      .returned .ok
        { s.result with
          reassembledLength := read.produced.length
          virtualElapsedMs := s.now
          finalState := s.state } output
  else
    .running { s with now := s.deadline, rto := backoff s.rto, attempt := s.attempt + 1, phase := .attempt }

def step (turn : PairTurn) : Config ρ → Config ρ
  | .returned status result output => .returned status result output
  | .running s =>
    match s.phase with
    | .attempt => stepAttempt scenario s
    | .transmit chunk => stepTransmit scenario chunk s
    | .drain => stepDrain scenario diagnose turn s
    | .check => stepCheck scenario s

/-- What is there before the run: whether `socketpair` succeeds, and the bytes of the uninitialized
`reassembly_data`. -/
structure Environment where
  paired : Bool
  scratch : Nat → UInt8

/-- The code in front of the attempt loop. -/
def start (env : Environment) : Config ρ :=
  if validate scenario ≠ .ok then .returned (validate scenario) .zero scenario.output
  else match L11.longestPrefix scenario.routes scenario.destinationIpv4 with
    | .error .truncated => .returned .routeNotFound .zero scenario.output
    | .error .invalidArgument => .returned .invalidArgument .zero scenario.output
    | .error _ => .returned .malformed .zero scenario.output
    | .ok routeIndex =>
      match transition .closed .activeOpen >>= fun state => transition state .receiveSynAck with
      | .error _ => .returned .malformed { Result.zero with routeIndex := routeIndex } scenario.output
      | .ok state =>
        let result := { Result.zero with routeIndex := routeIndex, finalState := state }
        match reassemblyInit scenario.senderInitialSeq
            ((List.range scenario.payload.length).map env.scratch) with
        | .error _ => .returned .malformed result scenario.output
        | .ok reassembly =>
          if !env.paired then .returned .systemError result scenario.output
          else .running
            { phase := .attempt
              events := .empty
              acknowledged := List.replicate maxChunks 0
              reassembly := reassembly
              state := state
              faultIndex := 0
              eventOrder := 0
              now := 0
              rto := scenario.initialRtoMs.toNat
              deadline := 0
              attempt := 0
              pair := []
              output := scenario.output
              result := result }

/-- The run of a scenario as a machine that takes a kernel answer for each step; only a delivery looks at it. -/
def miniStack : Machine (Config ρ) PairTurn Unit := ⟨fun c turn => (step scenario diagnose turn c, ())⟩

/-- `tcpip_linux_l03_run`, as far as the answers go. -/
def run (env : Environment) (turns : List PairTurn) : Config ρ :=
  (miniStack scenario diagnose).run (start scenario env) turns

end Run

end TcpipCourse.LinuxL03
