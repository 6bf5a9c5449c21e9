import TcpipCourse.Common
import TcpipCourse.Lib.OnesComplement
import TcpipCourse.Lib.Span

/-!
# Lesson 12: the report and its helpers

* `Report` : what the diagnoser collects; `addLayer`, `truncated`, `malformed`, `recordChecksum` : the only
  ways in which layers, errors and checksums enter it;
* `checksumAdd`, `checksumFinish` : the Internet checksum with all carries left to the end;
* `httpPrefix`, `httpHeadersComplete` : the two tests on an HTTP message.

A pointer is the list of all bytes from it to the end of the capture, and its length argument stands beside it.
-/

namespace TcpipCourse.L12
open Lib

def maxLayers : Nat := 4

def ethernetHeader : Nat := 14

def ipv4MinHeader : Nat := 20

def arpFixedHeader : Nat := 8

def udpHeader : Nat := 8

def dnsHeader : Nat := 12

def icmpHeader : Nat := 8

def tcpMinHeader : Nat := 20

def dnsMaxWireName : Nat := 255

def dnsMaxPointerHops : Nat := 128

def readU16 (data : Bytes) (offset : Nat) : UInt16 := be16 (data.getD offset 0) (data.getD (offset + 1) 0)

def readU32 (data : Bytes) (offset : Nat) : UInt32 :=
  be32 (data.getD offset 0) (data.getD (offset + 1) 0) (data.getD (offset + 2) 0) (data.getD (offset + 3) 0)

theorem readU16_drop (data : Bytes) (k offset : Nat) : readU16 (data.drop k) offset = readU16 data (k + offset) := by
  unfold readU16
  rw [getD_drop, getD_drop, Nat.add_assoc]

/-! ## The report -/

inductive Layer where
  | ethernet
  | arp
  | ipv4
  | icmp
  | udp
  | dns
  | tcp
  | http
  deriving DecidableEq, Repr

/-- `tcpip_l12_diagnostic` without `NONE`. -/
inductive Diagnostic where
  | truncated
  | unsupported
  | malformed
  | checksumMismatch
  | ipv4Checksum
  | transportChecksum
  deriving DecidableEq, Repr

def Diagnostic.bit : Diagnostic → UInt32
  | truncated => (1 : UInt32) <<< 0
  | unsupported => (1 : UInt32) <<< 1
  | malformed => (1 : UInt32) <<< 2
  | checksumMismatch => (1 : UInt32) <<< 3
  | ipv4Checksum => (1 : UInt32) <<< 4
  | transportChecksum => (1 : UInt32) <<< 5

/-- `tcpip_l12_report`; `layers` holds the first `layer_count` entries. -/
structure Report where
  layers : List Layer
  diagnostics : UInt32
  frameLength : Nat
  parsedLength : Nat
  payloadLength : Nat
  etherType : UInt16
  arpOpcode : UInt16
  ipProtocol : UInt8
  sourceIpv4 : UInt32
  destinationIpv4 : UInt32
  sourcePort : UInt16
  destinationPort : UInt16
  icmpType : UInt8
  dnsIdentifier : UInt16
  dnsQuestionCount : UInt16
  tcpFlags : UInt8
  httpMessageLength : Nat
  checksumsChecked : Nat
  checksumsValid : Nat
  deriving DecidableEq, Repr

def Report.zero : Report := ⟨[], 0, 0, 0, 0, 0, 0, 0, 0, 0, 0, 0, 0, 0, 0, 0, 0, 0, 0⟩

/-- `(report->diagnostics & diagnostic) != 0` -/
def Report.has (report : Report) (diagnostic : Diagnostic) : Bool := report.diagnostics &&& diagnostic.bit != 0

def Report.raise (report : Report) (diagnostic : Diagnostic) : Report :=
  { report with diagnostics := report.diagnostics ||| diagnostic.bit }

/-- Each bit is one bit, and no two are the same. -/
theorem bit_and_bit (d e : Diagnostic) : d.bit &&& e.bit = if e = d then e.bit else 0 := by
  cases d <;> cases e <;> decide

theorem bit_ne_zero (d : Diagnostic) : d.bit ≠ 0 := by
  cases d <;> decide

theorem has_raise (report : Report) (d e : Diagnostic) :
    (report.raise d).has e = true ↔ e = d ∨ report.has e = true := by
  have hdistrib : (report.diagnostics ||| d.bit) &&& e.bit = (report.diagnostics &&& e.bit) ||| (d.bit &&& e.bit) := by
    apply UInt32.toBitVec_inj.mp
    exact BitVec.and_or_distrib_right
  unfold Report.has Report.raise
  rw [bne_iff_ne, bne_iff_ne, hdistrib, bit_and_bit]
  by_cases hd : e = d
  · simp [hd, bit_ne_zero]
  · simp [hd]

def addLayer (report : Report) (layer : Layer) : Report :=
  if report.layers.length < maxLayers then { report with layers := report.layers ++ [layer] } else report

theorem addLayer_layers (report : Report) (layer : Layer) : (addLayer report layer).layers =
    if report.layers.length < maxLayers then report.layers ++ [layer] else report.layers := by
  unfold addLayer
  split <;> rfl

def truncated (report : Report) (parsed : Nat) : Status × Report :=
  (.truncated, { report.raise .truncated with parsedLength := parsed })

def malformed (report : Report) (parsed : Nat) : Status × Report :=
  (.malformed, { report.raise .malformed with parsedLength := parsed })

/-- `report->parsed_length = parsed; return TCPIP_L12_OK;` -/
def completed (report : Report) (parsed : Nat) : Status × Report := (.ok, { report with parsedLength := parsed })

def recordChecksum (report : Report) (valid : Bool) (targetedDiagnostic : Diagnostic) : Report :=
  let report := { report with checksumsChecked := report.checksumsChecked + 1 }
  if valid then { report with checksumsValid := report.checksumsValid + 1 }
  else (report.raise .checksumMismatch).raise targetedDiagnostic

theorem recordChecksum_checked (report : Report) (valid : Bool) (d : Diagnostic) :
    (recordChecksum report valid d).checksumsChecked = report.checksumsChecked + 1 := by
  cases valid <;> rfl

theorem recordChecksum_fields (report : Report) (valid : Bool) (d : Diagnostic) :
    (recordChecksum report valid d).sourcePort = report.sourcePort ∧
      (recordChecksum report valid d).destinationPort = report.destinationPort ∧
      (recordChecksum report valid d).tcpFlags = report.tcpFlags ∧
      (recordChecksum report valid d).ipProtocol = report.ipProtocol ∧
      (recordChecksum report valid d).payloadLength = report.payloadLength ∧
      (recordChecksum report valid d).layers = report.layers := by
  cases valid <;> exact ⟨rfl, rfl, rfl, rfl, rfl, rfl⟩

theorem has_recordChecksum (report : Report) (valid : Bool) (d e : Diagnostic) :
    (recordChecksum report valid d).has e = true ↔
      valid = false ∧ (e = d ∨ e = .checksumMismatch) ∨ report.has e = true := by
  cases valid with
  | true =>
    show report.has e = true ↔ _
    simp
  | false =>
    show ((Report.raise { report with checksumsChecked := report.checksumsChecked + 1 } .checksumMismatch).raise
      d).has e = true ↔ _
    rw [has_raise, has_raise, ← or_assoc]
    simp only [true_and]
    rfl

/-! ## Header fields -/

/-- The report on entry. -/
def Report.start (len : Nat) : Report := addLayer { Report.zero with frameLength := len } .ethernet

def Report.withEthernetHeader (report : Report) (data : Bytes) : Report :=
  { report with etherType := readU16 data 12, parsedLength := ethernetHeader }

def Report.withPayloadLength (report : Report) (payloadLength : Nat) : Report :=
  { report with payloadLength := payloadLength }

/-- The ports stand in the same place in UDP and in TCP. -/
def Report.withPorts (report : Report) (segment : Bytes) : Report :=
  { report with sourcePort := readU16 segment 0, destinationPort := readU16 segment 2 }

def Report.withTcpFlags (report : Report) (tcp : Bytes) : Report := { report with tcpFlags := tcp.getD 13 0 }

def Report.withIpv4Fields (report : Report) (ipv4 : Bytes) : Report :=
  { report with
    ipProtocol := ipv4.getD 9 0
    sourceIpv4 := readU32 ipv4 12
    destinationIpv4 := readU32 ipv4 16 }

def Report.withDnsHeader (report : Report) (dns : Bytes) : Report :=
  { report with dnsIdentifier := readU16 dns 0, dnsQuestionCount := readU16 dns 4 }

/-! ## Checksums -/

/-- The words of the first `len` bytes, with no fold in between. -/
def checksumAdd : (sum : UInt32) → (data : Bytes) → (len : Nat) → UInt32
  | sum, data, len + 2 => checksumAdd (sum + (readU16 data 0).toUInt32) (data.drop 2) len
  | sum, data, 1 => sum + ((data.getD 0 0).toUInt32 <<< 8)
  | sum, _, 0 => sum

def checksumFinish (sum : UInt32) : UInt16 := (foldCarries sum).toUInt16

def checksumValid (data : Bytes) (len : Nat) : Bool := checksumFinish (checksumAdd 0 data len) == 0xffff

def transportChecksumValid (ipv4 : Bytes) (protocol : UInt8) (segment : Bytes) (segmentLen : Nat) : Bool :=
  let sum := checksumAdd 0 (ipv4.drop 12) 8
  let sum := sum + protocol.toUInt32
  let sum := sum + UInt32.ofNat segmentLen
  let sum := checksumAdd sum segment segmentLen
  checksumFinish sum == 0xffff

/-! ## HTTP -/

def httpPrefixes : List Bytes :=
  ["GET ", "HEAD ", "POST ", "PUT ", "DELETE ", "OPTIONS ", "HTTP/"].map fun text =>
    text.toList.map fun c => UInt8.ofNat c.toNat

def httpPrefix (data : Bytes) (len : Nat) : Bool :=
  httpPrefixes.any fun text => text.length ≤ len && data.take text.length == text

/-- `\r\n\r\n` at some index up to `len - 4`. -/
def httpHeadersComplete (data : Bytes) (len : Nat) : Bool :=
  if len < 4 then false
  else (List.range (len - 3)).any fun index =>
    data.getD index 0 == 13 && data.getD (index + 1) 0 == 10 && data.getD (index + 2) 0 == 13 &&
      data.getD (index + 3) 0 == 10

end TcpipCourse.L12
