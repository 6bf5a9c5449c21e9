import TcpipCourse.Socket
import TcpipCourse.Lib.Words

/-!
# Lesson 08: stream sockets with a deadline

The helpers of the lesson that share one absolute deadline. A loop runs against a script; `none` means that
the script ends while the loop still waits or transfers. `MSG_NOSIGNAL` is there on the targets of the course,
so `tcpip_l08_prepare_send` has nothing to do; `SIZE_MAX < UINT32_MAX` does not hold on them.

* `makeDeadline`, `remainingMs`, `wait` : the deadline;
* `sendAllUntil`, `recvExactUntil` : transfers of a given length;
* `sendFrameUntil`, `recvFrameUntil` : frames behind a four-byte length.
-/

namespace TcpipCourse.L08
open Lib

def makeDeadline (timeoutMs : Int) (clock : Option Timespec) : Except Status Timespec :=
  if timeoutMs < 0 then .error .invalidArgument
  else match clock with
    | none => .error .system
    | some now =>
      let nanoseconds := now.tvNsec + timeoutMs * nsPerMs
      .ok { tvSec := now.tvSec + nanoseconds.tdiv nsPerS, tvNsec := nanoseconds.tmod nsPerS }

/-- The milliseconds to the deadline, rounded up. -/
def remainingMs (deadline : Timespec) (clock : Option Timespec) : Except Status Int :=
  match clock with
  | none => .error .system
  | some now =>
    let borrow := deadline.tvNsec - now.tvNsec < 0
    let seconds := if borrow then deadline.tvSec - now.tvSec - 1 else deadline.tvSec - now.tvSec
    let nanoseconds := if borrow then deadline.tvNsec - now.tvNsec + nsPerS else deadline.tvNsec - now.tvNsec
    if seconds < 0 ∨ (seconds = 0 ∧ nanoseconds ≤ 0) then .ok 0
    else if seconds > intMax.tdiv 1000 then .ok intMax
    else
      let milliseconds := seconds * 1000 + (nanoseconds + nsPerMs - 1).tdiv nsPerMs
      if milliseconds > intMax then .ok intMax else .ok milliseconds

def wait (deadline : Timespec) : List WaitTurn → Option Status
  | [] => none
  | turn :: rest =>
    match remainingMs deadline turn.clock with
    | .error status => some status
    | .ok remaining =>
      match turn.poll remaining with
      | .ready revents =>
        if revents.nval then some .system
        else if revents.requested || revents.err || revents.hup then some .ok
        else wait deadline rest
      | .expired => some .timeout
      | .failed errno => if errno ≠ .eintr then some .system else wait deadline rest

/-- How a send ends: what is on the wire by then, and the script that is left. -/
structure SendResult where
  status : Status
  wire : Bytes
  rest : List SendTurn

/-- `offset` bytes of `data` have been accepted; `wire` is everything accepted so far. -/
def sendAllUntil (deadline : Timespec) (data : Bytes) :
    List SendTurn → (offset : Nat) → (wire : Bytes) → Option SendResult
  | [], offset, wire => if offset < data.length then none else some ⟨.ok, wire, []⟩
  | turn :: rest, offset, wire =>
    if offset < data.length then
      match wait deadline turn.waits with
      | none => none
      | some .ok =>
        match turn.outcome with
        | .takes count =>
          let sent := transfer count (data.length - offset)
          sendAllUntil deadline data rest (offset + sent) (wire ++ slice data offset sent)
        | .zero => some ⟨if offset = 0 then .eof else .truncated, wire, rest⟩
        | .failed errno =>
          if errno.isTransient then sendAllUntil deadline data rest offset wire else some ⟨.system, wire, rest⟩
      | some status => some ⟨status, wire, rest⟩
    else some ⟨.ok, wire, turn :: rest⟩

/-- How a receive ends: the output buffer, what is left of the stream, and the script that is left. -/
structure RecvResult where
  status : Status
  out : Bytes
  stream : Bytes
  rest : List RecvTurn

/-- `offset` of the `len` bytes are in `out`; `stream` is what the peer has sent, or will send, behind them
before it closes. -/
def recvExactUntil (deadline : Timespec) (len : Nat) :
    List RecvTurn → (offset : Nat) → (out stream : Bytes) → Option RecvResult
  | [], offset, out, stream => if offset < len then none else some ⟨.ok, out, stream, []⟩
  | turn :: rest, offset, out, stream =>
    if offset < len then
      match wait deadline turn.waits with
      | none => none
      | some .ok =>
        match turn.outcome with
        | .takes count =>
          let data := received stream (len - offset) count
          if data.length > 0 then
            recvExactUntil deadline len rest (offset + data.length) (overwrite out offset data)
              (stream.drop data.length)
          else some ⟨if offset = 0 then .eof else .truncated, out, stream, rest⟩
        | .failed errno =>
          if errno.isTransient then recvExactUntil deadline len rest offset out stream
          else some ⟨.system, out, stream, rest⟩
      | some status => some ⟨status, out, stream, rest⟩
    else some ⟨.ok, out, stream, turn :: rest⟩

def sendFrameUntil (deadline : Timespec) (data : Bytes) (turns : List SendTurn) (wire : Bytes) :
    Option SendResult :=
  let wireLength := UInt32.ofNat data.length
  match sendAllUntil deadline (be32Bytes wireLength) turns 0 wire with
  | none => none
  | some result =>
    if result.status ≠ .ok then some result else sendAllUntil deadline data result.rest 0 result.wire

structure FrameResult where
  status : Status
  out : Bytes
  outLen : Nat
  stream : Bytes
  rest : List RecvTurn

/-- `out` is the payload buffer, with its capacity as length; `outLen` is what `*out_len` holds before. -/
def recvFrameUntil (deadline : Timespec) (out : Bytes) (outLen : Nat) (turns : List RecvTurn) (stream : Bytes) :
    Option FrameResult :=
  match recvExactUntil deadline 4 turns 0 [0, 0, 0, 0] stream with
  | none => none
  | some header =>
    if header.status ≠ .ok then some ⟨header.status, out, outLen, header.stream, header.rest⟩
    else
      let wireLength :=
        be32 (header.out.getD 0 0) (header.out.getD 1 0) (header.out.getD 2 0) (header.out.getD 3 0)
      let length := wireLength.toNat
      if length > out.length then some ⟨.capacity, out, outLen, header.stream, header.rest⟩
      else match recvExactUntil deadline length header.rest 0 out header.stream with
        | none => none
        | some payload =>
          if payload.status ≠ .ok then some ⟨payload.status, payload.out, outLen, payload.stream, payload.rest⟩
          else some ⟨.ok, payload.out, length, payload.stream, payload.rest⟩

end TcpipCourse.L08
