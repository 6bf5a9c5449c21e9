import TcpipCourse.Descriptor
import TcpipCourse.Lib.Machine

/-!
# Linux lab 01: the epoll echo loop

`tcpip_linux_l01_echo` runs from one system call to the next. A state is what it holds while a call is pending,
with the kernel's side of the descriptor; a step takes the kernel's answer and runs on to the next call.

* `Transfer` : the buffer with its pending bytes, and the two directions of the stream;
* `Pc` : the pending call;
* `Echo.pass`, `Echo.endPass` : the inner loop around its `send` and its `recv`;
* `echoMachine` : the whole function as a machine over the kernel's answers.

The value that `epoll_wait` gets as a timeout is computed as in the source; what it does with it is the kernel's
choice, as everything else in an `Answer`.
-/

namespace TcpipCourse.LinuxL01
open Lib

def bufferSize : Nat := 16384

inductive Trigger where
  | level
  | edge
  deriving DecidableEq, Repr

structure Stats where
  readinessEvents : UInt64
  readCalls : UInt64
  writeCalls : UInt64
  bytesRead : UInt64
  bytesWritten : UInt64
  readEagain : UInt64
  writeEagain : UInt64
  drainPasses : UInt64
  deriving DecidableEq, Repr

def Stats.zero : Stats := ⟨0, 0, 0, 0, 0, 0, 0, 0⟩

/-! ## Time -/

def compareTime (left right : Timespec) : Int :=
  if left.tvSec ≠ right.tvSec then if left.tvSec < right.tvSec then -1 else 1
  else if left.tvNsec ≠ right.tvNsec then if left.tvNsec < right.tvNsec then -1 else 1
  else 0

def deadline (now : Timespec) (timeoutMs : Int) : Timespec :=
  let tvSec := now.tvSec + timeoutMs.tdiv 1000
  let tvNsec := now.tvNsec + timeoutMs.tmod 1000 * nsPerMs
  if tvNsec ≥ nsPerS then ⟨tvSec + 1, tvNsec - nsPerS⟩ else ⟨tvSec, tvNsec⟩

/-- `-1` when the clock cannot be read. -/
def remainingMs (deadline : Timespec) (clock : Option Timespec) : Int :=
  match clock with
  | none => -1
  | some now =>
    if compareTime now deadline ≥ 0 then 0
    else
      let borrow := deadline.tvNsec - now.tvNsec < 0
      let seconds := if borrow then deadline.tvSec - now.tvSec - 1 else deadline.tvSec - now.tvSec
      let nanoseconds := if borrow then deadline.tvNsec - now.tvNsec + nsPerS else deadline.tvNsec - now.tvNsec
      if seconds > intMax.tdiv 1000 then intMax
      else
        let milliseconds := seconds * 1000 + (nanoseconds + 999999).tdiv 1000000
        if milliseconds > intMax then intMax else milliseconds

/-! ## The buffer -/

/-- The buffer and its indices; `inbound` is what the peer has sent, or will send, before it closes, as far as
it has not been received, and `outbound` is what has been sent back. -/
structure Transfer where
  buffer : Bytes
  pendingOffset : Nat
  pendingLength : Nat
  totalRead : Nat
  totalWritten : Nat
  eofSeen : Bool
  inbound : Bytes
  outbound : Bytes
  buffer_length : buffer.length = bufferSize
  deriving DecidableEq

/-- The kernel has taken `amount` of the pending bytes. -/
def Transfer.sent (t : Transfer) (amount : Nat) : Transfer :=
  { t with
    pendingOffset := if t.pendingLength - amount = 0 then 0 else t.pendingOffset + amount
    pendingLength := t.pendingLength - amount
    totalWritten := t.totalWritten + amount
    outbound := t.outbound ++ slice t.buffer t.pendingOffset amount }

/-- `memmove` of the pending bytes to the front once they touch the end of the buffer. -/
def Transfer.compact (t : Transfer) : Transfer :=
  if t.pendingOffset ≠ 0 ∧ t.pendingOffset + t.pendingLength = bufferSize then
    { t with
      buffer := overwrite t.buffer 0 (slice t.buffer t.pendingOffset t.pendingLength)
      pendingOffset := 0
      buffer_length := by rw [length_overwrite, t.buffer_length] }
  else t

/-- How many bytes the next `recv` asks for. -/
def Transfer.capacity (t : Transfer) (expectedBytes : Nat) : Nat :=
  let capacity := bufferSize - (t.pendingOffset + t.pendingLength)
  if capacity > expectedBytes - t.totalRead then expectedBytes - t.totalRead else capacity

/-- `recv` has stored `data` behind the pending bytes; nothing means that the stream has ended. -/
def Transfer.received (t : Transfer) (data : Bytes) : Transfer :=
  if data.length > 0 then
    { t with
      buffer := overwrite t.buffer (t.pendingOffset + t.pendingLength) data
      pendingLength := t.pendingLength + data.length
      totalRead := t.totalRead + data.length
      inbound := t.inbound.drop data.length
      buffer_length := by rw [length_overwrite, t.buffer_length] }
  else { t with eofSeen := true }

/-- What a `recv` of `capacity` bytes stores: a request for none gets none. -/
def recvData (inbound : Bytes) (capacity count : Nat) : Bytes := (received inbound capacity count).take capacity

/-! ## States and answers -/

inductive Pc where
  | getFlags
  | setFlags
  | startClock
  | create
  | register
  | remaining
  | wait (waitMs : Int)
  | socketError
  | send
  | recv (capacity : Nat)
  | modify
  | restore
  | returned (status : Status)
  deriving DecidableEq, Repr

/-- The arguments, the locals, the flags and the interest set that the kernel keeps, and the pending call. -/
structure Echo where
  trigger : Trigger
  expectedBytes : Nat
  timeoutMs : Int
  transfer : Transfer
  originalFlags : UInt32
  flagsChanged : Bool
  deadline : Timespec
  status : Status
  readBudget : Int
  writeBudget : Int
  progressed : Bool
  stats : Stats
  fdFlags : UInt32
  interest : UInt32
  pc : Pc
  deriving DecidableEq

/-- What `epoll_wait` with room for one event returns; `err` is the `EPOLLERR` bit. -/
inductive EpollResult where
  | ready (err : Bool)
  | expired
  | failed (errno : Errno)
  deriving DecidableEq, Repr

/-- What the kernel says to one call. Only the field of the pending call is read: `fcntl` and `epoll` hold the
`errno` of a call that fails, `socketError` is set when `getsockopt` fails or finds an error. -/
structure Answer where
  fcntl : Option Errno
  clock : Option Timespec
  epoll : Option Errno
  wait : Int → EpollResult
  socketError : Bool
  send : SendOutcome
  recv : RecvOutcome

/-! ## The code between the calls -/

/-- `EPOLLIN | EPOLLRDHUP`, with `EPOLLOUT` and `EPOLLET` as needed. -/
def interestMask (trigger : Trigger) (wantsWrite : Bool) : UInt32 :=
  (0x1 ||| 0x2000) ||| (if wantsWrite then 0x4 else 0) ||| (if trigger = .edge then 0x80000000 else 0)

namespace Echo

/-- `goto cleanup` with a status: the epoll descriptor is closed, and the flags are put back if need be. -/
def cleanup (s : Echo) (status : Status) : Echo :=
  if s.flagsChanged then { s with status := status, pc := .restore }
  else { s with status := status, pc := .returned status }

def wantsSend (s : Echo) : Bool := s.transfer.pendingLength ≠ 0 && s.writeBudget > 0

def wantsRecv (s : Echo) : Bool :=
  !s.transfer.eofSeen && s.transfer.totalRead < s.expectedBytes && s.readBudget > 0 &&
    s.transfer.pendingLength < bufferSize

def callSend (s : Echo) : Echo :=
  { s with stats := { s.stats with writeCalls := s.stats.writeCalls + 1 }, pc := .send }

def callRecv (s : Echo) : Echo :=
  { s with
    transfer := s.transfer.compact
    stats := { s.stats with readCalls := s.stats.readCalls + 1 }
    pc := .recv (s.transfer.compact.capacity s.expectedBytes) }

/-- The end of a pass of the inner loop; `again` is its next pass. -/
def endPass (again : Echo → Echo) (s : Echo) : Echo :=
  let s := if s.trigger = .edge then { s with stats := { s.stats with drainPasses := s.stats.drainPasses + 1 } }
    else s
  if s.transfer.totalWritten = s.expectedBytes then s.cleanup .ok
  else if s.transfer.eofSeen && s.transfer.pendingLength = 0 then
    s.cleanup (if s.transfer.totalRead = 0 then .eof else .truncated)
  else if s.trigger = .level || !s.progressed then { s with pc := .modify }
  else again s

/-- Where the end of a pass leads to, apart from the count of drain passes. -/
theorem endPass_cases (s : Echo) (again : Echo → Echo) :
    ∃ s1 : Echo, (∃ n, s1 = { s with stats := { s.stats with drainPasses := n } }) ∧
      ((s.transfer.totalWritten = s.expectedBytes ∧ s.endPass again = s1.cleanup .ok) ∨
        (s.transfer.eofSeen = true ∧ s.transfer.pendingLength = 0 ∧
          s.endPass again = s1.cleanup (if s.transfer.totalRead = 0 then .eof else .truncated)) ∨
        (s.transfer.totalWritten ≠ s.expectedBytes ∧ ¬ (s.transfer.eofSeen = true ∧ s.transfer.pendingLength = 0) ∧
          (s.trigger = .level ∨ s.progressed = false) ∧ s.endPass again = { s1 with pc := .modify }) ∨
        (s.progressed = true ∧ s.endPass again = again s1)) := by
  unfold endPass
  generalize hs1 : (if s.trigger = .edge then
    { s with stats := { s.stats with drainPasses := s.stats.drainPasses + 1 } } else s : Echo) = s1
  have hsame : ∃ n, s1 = { s with stats := { s.stats with drainPasses := n } } := by
    rw [← hs1]
    split
    · exact ⟨_, rfl⟩
    · exact ⟨s.stats.drainPasses, rfl⟩
  obtain ⟨n, rfl⟩ := hsame
  refine ⟨_, ⟨n, rfl⟩, ?_⟩
  dsimp only
  split
  · next hall => exact .inl ⟨hall, rfl⟩
  · next hall =>
    split
    · next hended =>
      rw [Bool.and_eq_true, decide_eq_true_eq] at hended
      exact .inr (.inl ⟨hended.1, hended.2, rfl⟩)
    · next hopen =>
      rw [Bool.and_eq_true, decide_eq_true_eq] at hopen
      split
      · next hstop =>
        rw [Bool.or_eq_true, decide_eq_true_eq, Bool.not_eq_true'] at hstop
        exact .inr (.inr (.inl ⟨hall, hopen, hstop, rfl⟩))
      · next hgo =>
        rw [Bool.or_eq_true, not_or, Bool.not_eq_true', Bool.not_eq_false] at hgo
        exact .inr (.inr (.inr ⟨hgo.2, rfl⟩))

/-- Without progress the loop ends, whatever its next pass would be. -/
theorem endPass_idle {s : Echo} (h : s.progressed = false) (again again' : Echo → Echo) :
    s.endPass again = s.endPass again' := by
  unfold endPass
  dsimp only
  split <;> simp only [h, Bool.not_false, Bool.or_true, if_true]

/-- A pass of the inner loop up to its first call. A pass without any call has not progressed, so the loop ends
behind it (`endPass_idle`). -/
def pass (s : Echo) : Echo :=
  let s := { s with progressed := false }
  if s.wantsSend then s.callSend
  else if s.wantsRecv then s.callRecv
  else s.endPass id

/-- The rest of a pass behind its `send`. -/
def afterSend (s : Echo) : Echo := if s.wantsRecv then s.callRecv else s.endPass pass

def handle (s : Echo) : Echo :=
  let budget := if s.trigger = .edge then intMax else 1
  { s with readBudget := budget, writeBudget := budget }.pass

end Echo

def echoStep (s : Echo) (a : Answer) : Echo :=
  match s.pc with
  | .getFlags =>
    match a.fcntl with
    | some .eintr => s
    | some _ => { s with pc := .returned .system }
    | none =>
      let s := { s with originalFlags := s.fdFlags }
      if s.expectedBytes = 0 then { s with pc := .returned .ok }
      else if s.fdFlags &&& oNonblock = 0 then { s with pc := .setFlags }
      else { s with pc := .startClock }
  | .setFlags =>
    match a.fcntl with
    | some .eintr => s
    | some _ => { s with pc := .returned .system }
    | none => { s with fdFlags := s.originalFlags ||| oNonblock, flagsChanged := true, pc := .startClock }
  | .startClock =>
    match a.clock with
    | none => s.cleanup .system
    | some now => { s with deadline := LinuxL01.deadline now s.timeoutMs, pc := .create }
  | .create =>
    match a.epoll with
    | some _ => s.cleanup .system
    | none => { s with pc := .register }
  | .register =>
    match a.epoll with
    | some _ => s.cleanup .system
    | none => { s with interest := interestMask s.trigger false, pc := .remaining }
  | .remaining =>
    let waitMs := remainingMs s.deadline a.clock
    if waitMs < 0 then s.cleanup .system else { s with pc := .wait waitMs }
  | .wait waitMs =>
    match a.wait waitMs with
    | .failed .eintr => { s with pc := .remaining }
    | .failed _ => s.cleanup .system
    | .expired => s.cleanup .timeout
    | .ready err =>
      let s := { s with stats := { s.stats with readinessEvents := s.stats.readinessEvents + 1 } }
      if err then { s with pc := .socketError } else s.handle
  | .socketError => if a.socketError then s.cleanup .system else s.handle
  | .send =>
    match a.send with
    | .takes count =>
      let amount := transfer count s.transfer.pendingLength
      { s with
        transfer := s.transfer.sent amount
        writeBudget := s.writeBudget - 1
        progressed := true
        stats := { s.stats with bytesWritten := s.stats.bytesWritten + UInt64.ofNat amount } }.afterSend
    | .failed .eagain | .failed .ewouldblock =>
      { s with
        writeBudget := s.writeBudget - 1
        stats := { s.stats with writeEagain := s.stats.writeEagain + 1 } }.afterSend
    -- the budget is given back, and `continue` starts the pass anew
    | .failed .eintr => s.pass
    | .zero | .failed .other => s.cleanup .system
  | .recv capacity =>
    match a.recv with
    | .takes count =>
      let data := recvData s.transfer.inbound capacity count
      { s with
        transfer := s.transfer.received data
        readBudget := s.readBudget - 1
        progressed := s.progressed || data.length > 0
        stats := { s.stats with bytesRead := s.stats.bytesRead + UInt64.ofNat data.length } }.endPass Echo.pass
    | .failed .eagain | .failed .ewouldblock =>
      { s with
        readBudget := s.readBudget - 1
        stats := { s.stats with readEagain := s.stats.readEagain + 1 } }.endPass Echo.pass
    | .failed .eintr => s.pass
    | .failed .other => s.cleanup .system
  | .modify =>
    match a.epoll with
    | some _ => s.cleanup .system
    | none =>
      { s with interest := interestMask s.trigger (s.transfer.pendingLength ≠ 0), pc := .remaining }
  | .restore =>
    match a.fcntl with
    | some .eintr => s
    | some _ => { s with status := .system, pc := .returned .system }
    | none => { s with fdFlags := s.originalFlags, pc := .returned s.status }
  | .returned _ => s

def echoMachine : Machine Echo Answer Unit := ⟨fun s a => (echoStep s a, ())⟩

/-- The buffer is not initialized; `stream` is what the peer sends before it closes. -/
def Echo.start (trigger : Trigger) (expectedBytes : Nat) (timeoutMs : Int) (buffer : Vector UInt8 bufferSize)
    (fdFlags : UInt32) (stream : Bytes) : Echo where
  trigger := trigger
  expectedBytes := expectedBytes
  timeoutMs := timeoutMs
  transfer := ⟨buffer.toList, 0, 0, 0, 0, false, stream, [], buffer.length_toList⟩
  originalFlags := 0
  flagsChanged := false
  deadline := ⟨0, 0⟩
  status := .system
  readBudget := 0
  writeBudget := 0
  progressed := false
  stats := .zero
  fdFlags := fdFlags
  interest := 0
  pc := .getFlags

/-- `tcpip_linux_l01_echo` up to its first system call. -/
def echo (fd : Int) (trigger : Trigger) (expectedBytes : Nat) (timeoutMs : Int) (buffer : Vector UInt8 bufferSize)
    (fdFlags : UInt32) (stream : Bytes) : Echo :=
  let s := Echo.start trigger expectedBytes timeoutMs buffer fdFlags stream
  if fd < 0 ∨ timeoutMs < 0 then { s with pc := .returned .invalidArgument } else s

end TcpipCourse.LinuxL01
