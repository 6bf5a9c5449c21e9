import TcpipCourse.Common
import TcpipCourse.Lib.OnesComplement
import TcpipCourse.Lib.Span

/-!
# Lesson 06: TCP segments

* `checksumUnchecked`, `ipv4Checksum` : the checksum over the IPv4 pseudo-header and the segment;
* `parseSegment` : the structural parser, which does not look at the checksum;
* `SegmentFields`, `buildSegment` : the builder; `segmentBytes` : the layout of a segment;
* `parseSegment_segmentBytes`, `checksum_segmentBytes` : what is built parses back and verifies.
-/

namespace TcpipCourse.L06
open Lib

def tcpMinHeaderLength : Nat := 20

def tcpMaxOptionsLength : Nat := 40

def tcpProtocol : UInt16 := 6

def flagPsh : UInt16 := 0x008

def flagAck : UInt16 := 0x010

def readU16 (bytes : Bytes) (offset : Nat) : UInt16 := be16 (bytes.getD offset 0) (bytes.getD (offset + 1) 0)

def readU32 (bytes : Bytes) (offset : Nat) : UInt32 :=
  be32 (bytes.getD offset 0) (bytes.getD (offset + 1) 0) (bytes.getD (offset + 2) 0) (bytes.getD (offset + 3) 0)

def validIpv4Span (address : Bytes) : Bool := address.length = 4

/-! ## The checksum -/

/-- The pseudo-header: both addresses, the protocol and the length of the segment. -/
def pseudoHeader (sourceIpv4 destinationIpv4 : Bytes) (segmentLength : Nat) : UInt32 :=
  addWord (addWord (addBytes (addBytes 0 sourceIpv4) destinationIpv4) tcpProtocol) (UInt16.ofNat segmentLength)

def checksumUnchecked (sourceIpv4 destinationIpv4 segment : Bytes) : UInt16 :=
  finish (addBytes (pseudoHeader sourceIpv4 destinationIpv4 segment.length) segment)

def ipv4Checksum (sourceIpv4 destinationIpv4 segment : Bytes) : Except Status UInt16 :=
  if !validIpv4Span sourceIpv4 || !validIpv4Span destinationIpv4 then .error .invalidArgument
  else if segment.length > uint16Max then .error .malformed
  else .ok (checksumUnchecked sourceIpv4 destinationIpv4 segment)

/-! ## The parser -/

structure Segment where
  sourcePort : UInt16
  destinationPort : UInt16
  sequenceNumber : UInt32
  acknowledgmentNumber : UInt32
  dataOffset : UInt8
  flags : UInt16
  window : UInt16
  checksum : UInt16
  urgentPointer : UInt16
  optionsOffset : Nat
  optionsLength : Nat
  payloadOffset : Nat
  payloadLength : Nat
  deriving DecidableEq

/-- On an error the output segment is zeroed. -/
def parseSegment (segment : Bytes) : Except Status Segment :=
  if segment.length < tcpMinHeaderLength then .error .truncated
  else
    let dataOffset := segment.getD 12 0 >>> 4
    if dataOffset < 5 ∨ segment.getD 12 0 &&& 0x0e ≠ 0 then .error .malformed
    else
      let headerLength := dataOffset.toNat * 4
      if segment.length < headerLength then .error .truncated
      else .ok
        { sourcePort := readU16 segment 0
          destinationPort := readU16 segment 2
          sequenceNumber := readU32 segment 4
          acknowledgmentNumber := readU32 segment 8
          dataOffset := dataOffset
          flags := ((segment.getD 12 0 &&& 0x01).toUInt16 <<< 8) ||| (segment.getD 13 0).toUInt16
          window := readU16 segment 14
          checksum := readU16 segment 16
          urgentPointer := readU16 segment 18
          optionsOffset := tcpMinHeaderLength
          optionsLength := headerLength - tcpMinHeaderLength
          payloadOffset := headerLength
          payloadLength := segment.length - headerLength }

/-! ## The builder -/

structure SegmentFields where
  sourceIpv4 : Bytes
  destinationIpv4 : Bytes
  sourcePort : UInt16
  destinationPort : UInt16
  sequenceNumber : UInt32
  acknowledgmentNumber : UInt32
  flags : UInt16
  window : UInt16
  urgentPointer : UInt16
  options : Bytes
  deriving DecidableEq

def SegmentFields.headerLength (fields : SegmentFields) : Nat := tcpMinHeaderLength + fields.options.length

/-- `(header_length / 4) << 4 | (flags >> 8) & 1` -/
def offsetAndNs (headerLength : Nat) (flags : UInt16) : UInt8 :=
  (UInt8.ofNat (headerLength / 4) <<< 4) ||| ((flags >>> 8) &&& 0x0001).toUInt8

/-- The header and payload of a segment, with a given checksum. -/
def segmentBytes (fields : SegmentFields) (payload : Bytes) (checksum : UInt16) : Bytes :=
  be16Bytes fields.sourcePort ++ be16Bytes fields.destinationPort ++ be32Bytes fields.sequenceNumber ++
    be32Bytes fields.acknowledgmentNumber ++ [offsetAndNs fields.headerLength fields.flags, fields.flags.toUInt8] ++
    be16Bytes fields.window ++ be16Bytes checksum ++ be16Bytes fields.urgentPointer ++ fields.options ++ payload

/-- The `*out_segment_length` bytes stored to `destination`. -/
def buildSegment (fields : SegmentFields) (payload : Bytes) (destinationCapacity : Nat) : Except Status Bytes :=
  if !validIpv4Span fields.sourceIpv4 || !validIpv4Span fields.destinationIpv4 then .error .invalidArgument
  else if fields.options.length > tcpMaxOptionsLength ∨ fields.options.length % 4 ≠ 0 ∨ fields.flags > 0x01ff then
    .error .malformed
  else if payload.length > uint16Max - fields.headerLength then .error .malformed
  else if destinationCapacity < fields.headerLength + payload.length then .error .capacity
  else .ok (segmentBytes fields payload
    (checksumUnchecked fields.sourceIpv4 fields.destinationIpv4 (segmentBytes fields payload 0)))

/-! ## Reading a segment back -/

/-- The fields that `tcpip_l06_build_segment` accepts. -/
structure SegmentFields.Valid (fields : SegmentFields) : Prop where
  source : fields.sourceIpv4.length = 4
  destination : fields.destinationIpv4.length = 4
  options_le : fields.options.length ≤ tcpMaxOptionsLength
  options_aligned : fields.options.length % 4 = 0
  flags_le : fields.flags ≤ 0x01ff

theorem buildSegment_eq {fields : SegmentFields} (h : fields.Valid) {payload : Bytes}
    (hpayload : fields.headerLength + payload.length ≤ uint16Max) {destinationCapacity : Nat}
    (hcap : fields.headerLength + payload.length ≤ destinationCapacity) :
    buildSegment fields payload destinationCapacity = .ok (segmentBytes fields payload
      (checksumUnchecked fields.sourceIpv4 fields.destinationIpv4 (segmentBytes fields payload 0))) := by
  have hspans : ¬ (!validIpv4Span fields.sourceIpv4 || !validIpv4Span fields.destinationIpv4) = true := by
    simp [validIpv4Span, h.source, h.destination]
  have hok : ¬ (fields.options.length > tcpMaxOptionsLength ∨ fields.options.length % 4 ≠ 0 ∨
      fields.flags > 0x01ff) := by
    rintro (hgt | halign | hflags)
    · exact absurd h.options_le (by omega)
    · exact halign h.options_aligned
    · exact UInt16.not_lt.mpr h.flags_le hflags
  unfold buildSegment
  rw [if_neg hspans, if_neg hok, if_neg (by omega), if_neg (by omega)]

@[simp] theorem length_segmentBytes (fields : SegmentFields) (payload : Bytes) (checksum : UInt16) :
    (segmentBytes fields payload checksum).length = fields.headerLength + payload.length := by
  simp [segmentBytes, SegmentFields.headerLength, tcpMinHeaderLength]
  omega

theorem segmentBytes_append (fields : SegmentFields) (payload : Bytes) (checksum : UInt16) :
    segmentBytes fields payload checksum = segmentBytes fields [] checksum ++ payload := by
  simp only [segmentBytes, List.append_nil]

theorem slice_segmentBytes (fields : SegmentFields) (payload : Bytes) (checksum : UInt16) :
    slice (segmentBytes fields payload checksum) fields.headerLength payload.length = payload := by
  have hlen : (segmentBytes fields [] checksum).length = fields.headerLength := length_segmentBytes fields [] checksum
  rw [segmentBytes_append, slice, ← hlen, List.drop_left, List.take_length]

theorem pseudoHeader_lt (sourceIpv4 destinationIpv4 : Bytes) (segmentLength : Nat) :
    (pseudoHeader sourceIpv4 destinationIpv4 segmentLength).toNat < 131072 :=
  (pseudoHeader_spec sourceIpv4 destinationIpv4 tcpProtocol (UInt16.ofNat segmentLength)).1

theorem checksumUnchecked_eq_zero_iff (sourceIpv4 destinationIpv4 : Bytes) {segment : Bytes}
    (hlen : segment.length ≤ uint16Max) :
    checksumUnchecked sourceIpv4 destinationIpv4 segment = 0 ↔
      endAround (wordSum sourceIpv4 + wordSum destinationIpv4 + 6 + segment.length + wordSum segment) = 65535 := by
  have hle := endAround_le (wordSum sourceIpv4 + wordSum destinationIpv4 + 6 + segment.length + wordSum segment)
  have hval : (checksumUnchecked sourceIpv4 destinationIpv4 segment).toNat = 65535 -
      endAround (wordSum sourceIpv4 + wordSum destinationIpv4 + 6 + segment.length + wordSum segment) :=
    toNat_finish_pseudoHeader sourceIpv4 destinationIpv4 segment tcpProtocol hlen
  rw [← UInt16.toNat_inj, hval, show UInt16.toNat 0 = 0 from rfl]
  omega

/-- The checksum stands between sixteen bytes and the rest, and nothing else depends on it. -/
theorem segmentBytes_split (fields : SegmentFields) (payload : Bytes) :
    ∃ pre post : Bytes, pre.length = 16 ∧ ∀ c, segmentBytes fields payload c = pre ++ be16Bytes c ++ post := by
  refine ⟨be16Bytes fields.sourcePort ++ be16Bytes fields.destinationPort ++ be32Bytes fields.sequenceNumber ++
      be32Bytes fields.acknowledgmentNumber ++
      [offsetAndNs fields.headerLength fields.flags, fields.flags.toUInt8] ++ be16Bytes fields.window,
    be16Bytes fields.urgentPointer ++ fields.options ++ payload, rfl, fun c => ?_⟩
  simp only [segmentBytes, List.append_assoc]

/-- **Verification.** The segment with the checksum of its zeroed form has checksum zero. -/
theorem checksum_segmentBytes (sourceIpv4 destinationIpv4 : Bytes) (fields : SegmentFields) (payload : Bytes) :
    checksumUnchecked sourceIpv4 destinationIpv4 (segmentBytes fields payload
      (checksumUnchecked sourceIpv4 destinationIpv4 (segmentBytes fields payload 0))) = 0 := by
  obtain ⟨pre, post, hpre, hsplit⟩ := segmentBytes_split fields payload
  unfold checksumUnchecked
  rw [length_segmentBytes, length_segmentBytes, hsplit, hsplit]
  exact finish_addBytes_insert (pseudoHeader_lt _ _ _) (by omega)

theorem toNat_ns (flags : UInt16) : ((flags >>> 8) &&& 0x0001).toNat = flags.toNat / 256 % 2 := by
  rw [UInt16.toNat_and, show UInt16.toNat 0x0001 = 2 ^ 1 - 1 from rfl, Nat.and_two_pow_sub_one_eq_mod,
    UInt16.toNat_shiftRight]
  exact congrArg (· % 2) (Nat.shiftRight_eq_div_pow _ 8)

/-- The data offset and the NS flag share a byte; the reserved bits between them are clear. -/
theorem offsetAndNs_spec {headerLength : Nat} (h5 : 20 ≤ headerLength) (h15 : headerLength ≤ 60) (flags : UInt16) :
    offsetAndNs headerLength flags >>> 4 = UInt8.ofNat (headerLength / 4) ∧
      offsetAndNs headerLength flags &&& 0x0e = 0 ∧
      offsetAndNs headerLength flags &&& (0x01 : UInt8) = ((flags >>> 8) &&& 0x0001).toUInt8 := by
  have hcases : ∀ k : Fin 16, ∀ b : Fin 2,
      ((UInt8.ofNat k <<< 4) ||| UInt8.ofNat b) >>> 4 = UInt8.ofNat k ∧
      ((UInt8.ofNat k <<< 4) ||| UInt8.ofNat b) &&& 0x0e = 0 ∧
      ((UInt8.ofNat k <<< 4) ||| UInt8.ofNat b) &&& 0x01 = UInt8.ofNat b := by decide
  have hbit : ((flags >>> 8) &&& 0x0001).toNat < 2 := by
    rw [toNat_ns]
    omega
  have hns : ((flags >>> 8) &&& 0x0001).toUInt8 = UInt8.ofNat ((flags >>> 8) &&& 0x0001).toNat := by
    apply UInt8.toNat_inj.mp
    rw [UInt16.toNat_toUInt8, UInt8.toNat_ofNat']
  unfold offsetAndNs
  rw [hns]
  exact hcases ⟨headerLength / 4, by omega⟩ ⟨_, hbit⟩

theorem flags_split {flags : UInt16} (h : flags ≤ 0x01ff) :
    (((flags >>> 8) &&& 0x0001).toUInt8.toUInt16 <<< 8) ||| flags.toUInt8.toUInt16 = flags := by
  have hle : flags.toNat ≤ 511 := UInt16.le_iff_toNat_le.mp h
  have hbyte := toNat_be16 ((flags >>> 8) &&& 0x0001).toUInt8 flags.toUInt8
  apply UInt16.toNat_inj.mp
  rw [UInt16.toNat_toUInt8, UInt16.toNat_toUInt8, toNat_ns] at hbyte
  calc _ = flags.toNat / 256 % 2 % 2 ^ 8 * 256 + flags.toNat % 2 ^ 8 := hbyte
    _ = flags.toNat := by omega

/-- **Segment round trip.** A segment built from valid fields is accepted, and its fields are read back. -/
theorem parseSegment_segmentBytes {fields : SegmentFields} (h : fields.Valid) (payload : Bytes) (checksum : UInt16) :
    parseSegment (segmentBytes fields payload checksum) = .ok
      { sourcePort := fields.sourcePort
        destinationPort := fields.destinationPort
        sequenceNumber := fields.sequenceNumber
        acknowledgmentNumber := fields.acknowledgmentNumber
        dataOffset := UInt8.ofNat (fields.headerLength / 4)
        flags := fields.flags
        window := fields.window
        checksum := checksum
        urgentPointer := fields.urgentPointer
        optionsOffset := tcpMinHeaderLength
        optionsLength := fields.options.length
        payloadOffset := fields.headerLength
        payloadLength := payload.length } := by
  generalize hs : segmentBytes fields payload checksum = segment
  have h1 := h.options_le
  have h2 := h.options_aligned
  have hlength : fields.headerLength = 20 + fields.options.length := rfl
  have hmax : tcpMaxOptionsLength = 40 := rfl
  have hmin : tcpMinHeaderLength = 20 := rfl
  have hlen : segment.length = fields.headerLength + payload.length := by rw [← hs, length_segmentBytes]
  obtain ⟨hoffset, hreserved, hns⟩ := @offsetAndNs_spec fields.headerLength (by omega) (by omega) fields.flags
  have hwords : (UInt8.ofNat (fields.headerLength / 4)).toNat * 4 = fields.headerLength :=
    toNat_wordCount (by omega) (by omega)
  have hlt : ¬ UInt8.ofNat (fields.headerLength / 4) < 5 :=
    not_wordCount_lt (by show 5 * 4 ≤ _; omega) (by omega)
  have hsource : readU16 segment 0 = fields.sourcePort := by
    rw [← hs]
    exact be16_be16Bytes fields.sourcePort
  have hdestination : readU16 segment 2 = fields.destinationPort := by
    rw [← hs]
    exact be16_be16Bytes fields.destinationPort
  have hseq : readU32 segment 4 = fields.sequenceNumber := by
    rw [← hs]
    exact be32_be32Bytes fields.sequenceNumber
  have hack : readU32 segment 8 = fields.acknowledgmentNumber := by
    rw [← hs]
    exact be32_be32Bytes fields.acknowledgmentNumber
  have h12 : segment.getD 12 0 = offsetAndNs fields.headerLength fields.flags := by
    rw [← hs]
    rfl
  have h13 : segment.getD 13 0 = fields.flags.toUInt8 := by
    rw [← hs]
    rfl
  have hwindow : readU16 segment 14 = fields.window := by
    rw [← hs]
    exact be16_be16Bytes fields.window
  have hsum : readU16 segment 16 = checksum := by
    rw [← hs]
    exact be16_be16Bytes checksum
  have hurgent : readU16 segment 18 = fields.urgentPointer := by
    rw [← hs]
    exact be16_be16Bytes fields.urgentPointer
  unfold parseSegment
  simp only [h12, h13, hoffset, hreserved, hns, hwords, hlen, hsource, hdestination, hseq, hack, hwindow,
    hsum, hurgent, flags_split h.flags_le]
  rw [if_neg (by omega), if_neg (by simp [hlt]), if_neg (by omega), Nat.add_sub_cancel_left, hlength, hmin,
    Nat.add_sub_cancel_left]

end TcpipCourse.L06
