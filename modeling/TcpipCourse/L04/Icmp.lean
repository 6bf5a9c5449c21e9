import TcpipCourse.Common
import TcpipCourse.Lib.OnesComplement
import TcpipCourse.Lib.Span

/-!
# Lesson 04: ICMP messages

* `checksum` : every word folded in at once, and a last loop;
* `parseMessage` : any ICMP message whose checksum verifies;
* `buildEcho`, `makeEchoReply` : echo messages, stored through pointers into one memory.
-/

namespace TcpipCourse.L04
open Lib

def headerLength : Nat := 4

def echoHeaderLength : Nat := 8

def echoReply : UInt8 := 0

def echoRequest : UInt8 := 8

def readBe16 (data : Bytes) (offset : Nat) : UInt16 := be16 (data.getD offset 0) (data.getD (offset + 1) 0)

/-- `tcpip_l04_checksum`; the fold of an odd last byte is the fold of `addBytes`. -/
def checksum (data : Bytes) : UInt16 := finish (addBytes 0 data)

/-! ## The parser -/

structure Message where
  type : UInt8
  code : UInt8
  checksum : UInt16
  bodyOffset : Nat
  bodyLength : Nat
  deriving DecidableEq

/-- On an error the output message is zeroed. -/
def parseMessage (message : Bytes) : Except Status Message :=
  if message.length < headerLength then .error .truncated
  else if checksum message ≠ 0 then .error .malformed
  else .ok
    { type := message.getD 0 0
      code := message.getD 1 0
      checksum := readBe16 message 2
      bodyOffset := headerLength
      bodyLength := message.length - headerLength }

/-! ## The builders

The pointers of a call are offsets into one memory: the spans they point to may be apart, the same, or
overlap in part. -/

/-- The status, the output length and the memory after a call. -/
structure Stored where
  status : Status
  length : Nat
  memory : Bytes
  deriving DecidableEq

def Stored.fail (memory : Bytes) (status : Status) : Stored := ⟨status, 0, memory⟩

def buildEcho (memory : Bytes) (type : UInt8) (identifier sequence : UInt16)
    (payload payloadLength destination destinationCapacity : Nat) : Stored :=
  if type ≠ echoRequest ∧ type ≠ echoReply then .fail memory .malformed
  else if payloadLength > uint16Max - echoHeaderLength then .fail memory .malformed
  else
    let messageLength := echoHeaderLength + payloadLength
    if destinationCapacity < messageLength then .fail memory .capacity
    else
      -- `memmove`, which reads the payload before it stores it
      let memory := overwrite memory (destination + echoHeaderLength) (slice memory payload payloadLength)
      let memory := overwrite memory destination [type, 0, 0, 0]
      let memory := overwrite memory (destination + 4) (be16Bytes identifier)
      let memory := overwrite memory (destination + 6) (be16Bytes sequence)
      let checksum := checksum (slice memory destination messageLength)
      ⟨.ok, messageLength, overwrite memory (destination + 2) (be16Bytes checksum)⟩

def makeEchoReply (memory : Bytes) (request requestLength destination destinationCapacity : Nat) : Stored :=
  match parseMessage (slice memory request requestLength) with
  | .error status => .fail memory status
  | .ok parsed =>
    if parsed.type ≠ echoRequest ∨ parsed.code ≠ 0 ∨ parsed.bodyLength < 4 then .fail memory .malformed
    else if destinationCapacity < requestLength then .fail memory .capacity
    else
      let identifier := readBe16 memory (request + 4)
      let sequence := readBe16 memory (request + 6)
      buildEcho memory echoReply identifier sequence (request + echoHeaderLength)
        (requestLength - echoHeaderLength) destination destinationCapacity

end TcpipCourse.L04
