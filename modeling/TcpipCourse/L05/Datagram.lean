import TcpipCourse.Common
import TcpipCourse.Lib.OnesComplement
import TcpipCourse.Lib.Span

/-!
# Lesson 05: UDP datagrams

* `checksumUnchecked`, `ipv4Checksum` : the checksum over the IPv4 pseudo-header and the datagram;
* `parseDatagram` : the structural parser, which takes the length field literally;
* `buildDatagram` : the builder; `datagramBytes` : the layout of a datagram;
* `parseDatagram_datagramBytes`, `checksum_datagramBytes` : what is built parses back and verifies.
-/

namespace TcpipCourse.L05
open Lib

def udpHeaderLength : Nat := 8

def udpProtocol : UInt16 := 17

def readU16 (bytes : Bytes) (offset : Nat) : UInt16 := be16 (bytes.getD offset 0) (bytes.getD (offset + 1) 0)

def validIpv4Span (address : Bytes) : Bool := address.length = 4

/-! ## The checksum -/

/-- The pseudo-header: both addresses, the protocol and the length of the datagram. -/
def pseudoHeader (sourceIpv4 destinationIpv4 : Bytes) (datagramLength : Nat) : UInt32 :=
  addWord (addWord (addBytes (addBytes 0 sourceIpv4) destinationIpv4) udpProtocol) (UInt16.ofNat datagramLength)

def checksumUnchecked (sourceIpv4 destinationIpv4 datagram : Bytes) : UInt16 :=
  finish (addBytes (pseudoHeader sourceIpv4 destinationIpv4 datagram.length) datagram)

def ipv4Checksum (sourceIpv4 destinationIpv4 datagram : Bytes) : Except Status UInt16 :=
  if !validIpv4Span sourceIpv4 || !validIpv4Span destinationIpv4 then .error .invalidArgument
  else if datagram.length > uint16Max then .error .malformed
  else .ok (checksumUnchecked sourceIpv4 destinationIpv4 datagram)

/-! ## The parser -/

structure Datagram where
  sourcePort : UInt16
  destinationPort : UInt16
  length : UInt16
  checksum : UInt16
  payloadOffset : Nat
  payloadLength : Nat
  deriving DecidableEq, Repr

/-- On an error the output datagram is zeroed. -/
def parseDatagram (datagram : Bytes) : Except Status Datagram :=
  if datagram.length < udpHeaderLength then .error .truncated
  else
    let declaredLength := readU16 datagram 4
    if declaredLength.toNat < udpHeaderLength then .error .malformed
    else if datagram.length < declaredLength.toNat then .error .truncated
    else if datagram.length ≠ declaredLength.toNat then .error .malformed
    else .ok
      { sourcePort := readU16 datagram 0
        destinationPort := readU16 datagram 2
        length := declaredLength
        checksum := readU16 datagram 6
        payloadOffset := udpHeaderLength
        payloadLength := datagram.length - udpHeaderLength }

/-! ## The builder -/

/-- The header and payload of a datagram, with a given checksum. -/
def datagramBytes (sourcePort destinationPort : UInt16) (payload : Bytes) (checksum : UInt16) : Bytes :=
  be16Bytes sourcePort ++ be16Bytes destinationPort ++ be16Bytes (UInt16.ofNat (udpHeaderLength + payload.length)) ++
    be16Bytes checksum ++ payload

/-- A computed zero is sent as all ones, since zero on the wire means that there is no checksum. -/
def sentChecksum (checksum : UInt16) : UInt16 := if checksum = 0 then 0xffff else checksum

/-- The `*out_datagram_length` bytes stored to `destination`. -/
def buildDatagram (sourceIpv4 destinationIpv4 : Bytes) (sourcePort destinationPort : UInt16) (payload : Bytes)
    (destinationCapacity : Nat) : Except Status Bytes :=
  if !validIpv4Span sourceIpv4 || !validIpv4Span destinationIpv4 then .error .invalidArgument
  else if payload.length > uint16Max - udpHeaderLength then .error .malformed
  else if destinationCapacity < udpHeaderLength + payload.length then .error .capacity
  else
    let checksum := checksumUnchecked sourceIpv4 destinationIpv4 (datagramBytes sourcePort destinationPort payload 0)
    .ok (datagramBytes sourcePort destinationPort payload (sentChecksum checksum))

/-! ## Reading a datagram back -/

theorem buildDatagram_eq {sourceIpv4 destinationIpv4 payload : Bytes} (hsource : sourceIpv4.length = 4)
    (hdestination : destinationIpv4.length = 4) (hpayload : udpHeaderLength + payload.length ≤ uint16Max)
    {destinationCapacity : Nat} (hcap : udpHeaderLength + payload.length ≤ destinationCapacity)
    (sourcePort destinationPort : UInt16) :
    buildDatagram sourceIpv4 destinationIpv4 sourcePort destinationPort payload destinationCapacity =
      .ok (datagramBytes sourcePort destinationPort payload (sentChecksum (checksumUnchecked sourceIpv4 destinationIpv4
        (datagramBytes sourcePort destinationPort payload 0)))) := by
  have hspans : ¬ (!validIpv4Span sourceIpv4 || !validIpv4Span destinationIpv4) = true := by
    simp [validIpv4Span, hsource, hdestination]
  unfold buildDatagram
  rw [if_neg hspans, if_neg (by omega), if_neg (by omega)]

section Layout
variable (sourcePort destinationPort : UInt16) (payload : Bytes) (checksum : UInt16)

@[simp] theorem length_datagramBytes :
    (datagramBytes sourcePort destinationPort payload checksum).length = udpHeaderLength + payload.length := by
  simp [datagramBytes, udpHeaderLength]
  omega

theorem readU16_datagramBytes :
    readU16 (datagramBytes sourcePort destinationPort payload checksum) 0 = sourcePort ∧
      readU16 (datagramBytes sourcePort destinationPort payload checksum) 2 = destinationPort ∧
      readU16 (datagramBytes sourcePort destinationPort payload checksum) 4 =
        UInt16.ofNat (udpHeaderLength + payload.length) ∧
      readU16 (datagramBytes sourcePort destinationPort payload checksum) 6 = checksum :=
  ⟨be16_be16Bytes sourcePort, be16_be16Bytes destinationPort, be16_be16Bytes _, be16_be16Bytes checksum⟩

/-- **Datagram round trip.** -/
theorem parseDatagram_datagramBytes (hpayload : udpHeaderLength + payload.length ≤ uint16Max) :
    parseDatagram (datagramBytes sourcePort destinationPort payload checksum) = .ok
      { sourcePort := sourcePort
        destinationPort := destinationPort
        length := UInt16.ofNat (udpHeaderLength + payload.length)
        checksum := checksum
        payloadOffset := udpHeaderLength
        payloadLength := payload.length } := by
  obtain ⟨h0, h2, h4, h6⟩ := readU16_datagramBytes sourcePort destinationPort payload checksum
  have hmax : uint16Max = 65535 := rfl
  have hlength : (UInt16.ofNat (udpHeaderLength + payload.length)).toNat = udpHeaderLength + payload.length :=
    toNat_length16 hpayload
  unfold parseDatagram
  simp only [h0, h2, h4, h6, hlength, length_datagramBytes]
  rw [if_neg (by omega), if_neg (by omega), if_neg (by omega), if_neg (by omega), Nat.add_sub_cancel_left]

theorem wordSum_datagramBytes :
    wordSum (datagramBytes sourcePort destinationPort payload checksum) =
      sourcePort.toNat + destinationPort.toNat + (UInt16.ofNat (udpHeaderLength + payload.length)).toNat +
        wordSum payload + checksum.toNat := by
  unfold datagramBytes
  rw [wordSum_insert (by simp), wordSum_append (by simp), wordSum_append (by simp), wordSum_be16Bytes,
    wordSum_be16Bytes, wordSum_be16Bytes]

end Layout

theorem toNat_checksumUnchecked (sourceIpv4 destinationIpv4 : Bytes) {datagram : Bytes}
    (hlen : datagram.length ≤ uint16Max) :
    (checksumUnchecked sourceIpv4 destinationIpv4 datagram).toNat = 65535 -
      endAround (wordSum sourceIpv4 + wordSum destinationIpv4 + 17 + datagram.length + wordSum datagram) :=
  toNat_finish_pseudoHeader sourceIpv4 destinationIpv4 datagram udpProtocol hlen

theorem checksumUnchecked_eq_zero_iff (sourceIpv4 destinationIpv4 : Bytes) {datagram : Bytes}
    (hlen : datagram.length ≤ uint16Max) :
    checksumUnchecked sourceIpv4 destinationIpv4 datagram = 0 ↔
      endAround (wordSum sourceIpv4 + wordSum destinationIpv4 + 17 + datagram.length + wordSum datagram) = 65535 := by
  have hle := endAround_le (wordSum sourceIpv4 + wordSum destinationIpv4 + 17 + datagram.length + wordSum datagram)
  rw [← UInt16.toNat_inj, toNat_checksumUnchecked _ _ hlen, show UInt16.toNat 0 = 0 from rfl]
  omega

theorem sentChecksum_ne_zero (checksum : UInt16) : sentChecksum checksum ≠ 0 := by
  unfold sentChecksum
  split
  · decide
  · assumption

/-- **Verification.** The datagram with the checksum that is sent has checksum zero. -/
theorem checksum_datagramBytes (sourceIpv4 destinationIpv4 : Bytes) (sourcePort destinationPort : UInt16)
    {payload : Bytes} (hpayload : udpHeaderLength + payload.length ≤ uint16Max) :
    checksumUnchecked sourceIpv4 destinationIpv4 (datagramBytes sourcePort destinationPort payload
      (sentChecksum (checksumUnchecked sourceIpv4 destinationIpv4
        (datagramBytes sourcePort destinationPort payload 0)))) = 0 := by
  have hlen : ∀ c, (datagramBytes sourcePort destinationPort payload c).length ≤ uint16Max := by
    intro c
    rwa [length_datagramBytes]
  have hzero := toNat_checksumUnchecked sourceIpv4 destinationIpv4 (hlen 0)
  rw [checksumUnchecked_eq_zero_iff _ _ (hlen _)]
  generalize checksumUnchecked sourceIpv4 destinationIpv4
    (datagramBytes sourcePort destinationPort payload 0) = c at hzero ⊢
  rw [length_datagramBytes, wordSum_datagramBytes] at hzero ⊢
  rw [show UInt16.toNat 0 = 0 from rfl, Nat.add_zero] at hzero
  rw [← Nat.add_assoc]
  generalize wordSum sourceIpv4 + wordSum destinationIpv4 + 17 + (udpHeaderLength + payload.length) +
    (sourcePort.toNat + destinationPort.toNat + (UInt16.ofNat (udpHeaderLength + payload.length)).toNat +
      wordSum payload) = total at hzero ⊢
  unfold sentChecksum
  split
  · next hc =>
    have hle := endAround_le total
    rw [hc, show UInt16.toNat 0 = 0 from rfl] at hzero
    have hfull : endAround total = endAround 65535 := by
      rw [show endAround 65535 = 65535 from rfl]
      omega
    rw [endAround_add_congr hfull]
    rfl
  · rw [hzero]
    exact endAround_add_complement total

end TcpipCourse.L05
