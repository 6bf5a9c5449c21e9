import TcpipCourse.Common
import TcpipCourse.Lib.Span

/-!
# Lesson 07: TCP states and stream reassembly

* `TcpState`, `TcpEvent`, `transition` : the focused connection state machine;
* `Reassembly` : a receive window over two byte arrays of `capacity` bytes; the lengths are part of the
  type, as the C context is only ever bound to arrays of that size;
* `reassemblyInit`, `reassemblyPush`, `reassemblyRead` : the three operations.

The overlap checks compare addresses of distinct caller-owned arrays, which separate lists never share.
-/

namespace TcpipCourse.L07
open Lib

inductive TcpState where
  | closed
  | listen
  | synSent
  | synReceived
  | established
  | finWait1
  | finWait2
  | closeWait
  | lastAck
  | timeWait
  deriving DecidableEq, Repr

inductive TcpEvent where
  | passiveOpen
  | activeOpen
  | receiveSyn
  | receiveSynAck
  | receiveAck
  | appClose
  | receiveFin
  | receiveFinAck
  | timeout
  deriving DecidableEq, Repr

/-- On an error `*out_state` is `CLOSED`. The enum range checks are the types of the arguments. -/
def transition : TcpState → TcpEvent → Except Status TcpState
  | .closed, .passiveOpen => .ok .listen
  | .closed, .activeOpen => .ok .synSent
  | .listen, .receiveSyn => .ok .synReceived
  | .listen, .appClose => .ok .closed
  | .synSent, .receiveSyn => .ok .synReceived
  | .synSent, .receiveSynAck => .ok .established
  | .synReceived, .receiveAck => .ok .established
  | .established, .appClose => .ok .finWait1
  | .established, .receiveFin => .ok .closeWait
  | .finWait1, .receiveAck => .ok .finWait2
  | .finWait1, .receiveFinAck => .ok .timeWait
  | .finWait2, .receiveFin => .ok .timeWait
  | .closeWait, .appClose => .ok .lastAck
  | .lastAck, .receiveAck => .ok .closed
  | .timeWait, .timeout => .ok .closed
  | _, _ => .error .malformed

structure Reassembly where
  initialSeq : UInt32
  data : Bytes
  present : Bytes
  capacity : Nat
  readOffset : Nat
  data_length : data.length = capacity
  present_length : present.length = capacity
  deriving DecidableEq

def reassemblyIsValid (ctx : Reassembly) : Bool :=
  ctx.capacity ≤ uint32Max && ctx.readOffset ≤ ctx.capacity

/-- Binds a window to a data array of `capacity` bytes and to a zeroed bitmap of the same size. -/
def reassemblyInit (initialSeq : UInt32) (data : Bytes) : Except Status Reassembly :=
  if data.length > uint32Max then .error .invalidArgument
  else .ok ⟨initialSeq, data, List.replicate data.length 0, data.length, 0, rfl, List.length_replicate⟩

/-- The scan of `tcpip_l07_reassembly_push`: the number of new bytes, or `none` at a present byte that
differs from the input. -/
def scanOverlap (ctx : Reassembly) : Nat → Bytes → Nat → Option Nat
  | _, [], newBytes => some newBytes
  | destination, byte :: input, newBytes =>
    if ctx.present.getD destination 0 ≠ 0 then
      if ctx.data.getD destination 0 ≠ byte then none
      else scanOverlap ctx (destination + 1) input newBytes
    else scanOverlap ctx (destination + 1) input (newBytes + 1)

/-- `memmove` of the input and `memset` of its bitmap. -/
def Reassembly.write (ctx : Reassembly) (offset : Nat) (input : Bytes) : Reassembly :=
  { ctx with
    data := overwrite ctx.data offset input
    present := overwrite ctx.present offset (List.replicate input.length 1)
    data_length := by rw [length_overwrite, ctx.data_length]
    present_length := by rw [length_overwrite, ctx.present_length] }

/-- The status, `*accepted` and the window afterwards. -/
structure PushReply where
  status : Status
  accepted : Nat
  ctx : Reassembly
  deriving DecidableEq

def reassemblyPush (ctx : Reassembly) (seq : UInt32) (input : Bytes) : PushReply :=
  if !reassemblyIsValid ctx then ⟨.invalidArgument, 0, ctx⟩
  else if input.length = 0 then ⟨.ok, 0, ctx⟩
  else
    let offset := (seq - ctx.initialSeq).toNat
    if offset > ctx.capacity then ⟨.capacity, 0, ctx⟩
    else if input.length > ctx.capacity - offset then ⟨.capacity, 0, ctx⟩
    else match scanOverlap ctx offset input 0 with
      | none => ⟨.malformed, 0, ctx⟩
      | some newBytes => ⟨.ok, newBytes, ctx.write offset input⟩

/-- The length of the contiguous unread run. -/
def Reassembly.available (ctx : Reassembly) : Nat :=
  ((ctx.present.drop ctx.readOffset).takeWhile (· ≠ 0)).length

/-- The status, the `*produced` bytes stored to `out`, and the window afterwards. -/
structure ReadReply where
  status : Status
  produced : Bytes
  ctx : Reassembly
  deriving DecidableEq

def reassemblyRead (ctx : Reassembly) (outCapacity : Nat) : ReadReply :=
  if !reassemblyIsValid ctx then ⟨.invalidArgument, [], ctx⟩
  else if ctx.available > outCapacity then ⟨.truncated, [], ctx⟩
  else ⟨.ok, slice ctx.data ctx.readOffset ctx.available,
    { ctx with readOffset := ctx.readOffset + ctx.available }⟩

end TcpipCourse.L07
