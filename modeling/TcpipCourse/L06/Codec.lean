import TcpipCourse.L06.Segment

/-!
# Lesson 06: building, parsing and verifying agree

* `buildSegment_parses` : what is built is parsed back whole and verifies;
* `Segment.toFields` : the builder's arguments that a parsed segment stands for;
* `segmentBytes_of_parseSegment` : an accepted segment is the layout of its own fields;
* `checksum_complete` : which checksums verify;
* `parseSegment_builds` : an accepted segment is built again, up to the two zeros of ones' complement.
-/

namespace TcpipCourse.L06
open Lib

/-! ## Build, then parse -/

theorem slice_options_segmentBytes (fields : SegmentFields) (payload : Bytes) (checksum : UInt16) :
    slice (segmentBytes fields payload checksum) tcpMinHeaderLength fields.options.length = fields.options := by
  have hsplit : segmentBytes fields payload checksum =
      (be16Bytes fields.sourcePort ++ be16Bytes fields.destinationPort ++ be32Bytes fields.sequenceNumber ++
        be32Bytes fields.acknowledgmentNumber ++
        [offsetAndNs fields.headerLength fields.flags, fields.flags.toUInt8] ++ be16Bytes fields.window ++
        be16Bytes checksum ++ be16Bytes fields.urgentPointer) ++ (fields.options ++ payload) := by
    simp only [segmentBytes, List.append_assoc]
  rw [hsplit, slice, List.drop_left' (by rfl), List.take_left]

theorem ipv4Checksum_eq {sourceIpv4 destinationIpv4 segment : Bytes} (hsource : sourceIpv4.length = 4)
    (hdestination : destinationIpv4.length = 4) (hlen : segment.length ≤ uint16Max) :
    ipv4Checksum sourceIpv4 destinationIpv4 segment =
      .ok (checksumUnchecked sourceIpv4 destinationIpv4 segment) := by
  have hspans : ¬ (!validIpv4Span sourceIpv4 || !validIpv4Span destinationIpv4) = true := by
    simp [validIpv4Span, hsource, hdestination]
  unfold ipv4Checksum
  rw [if_neg hspans, if_neg (by omega)]

/-- **Build, parse, verify.** For fields that fit the format and a payload that fits a segment, the builder
succeeds whenever the destination is large enough; the parser gives back every field, the options and the
payload; and the checksum over the result is zero. -/
theorem buildSegment_parses {fields : SegmentFields} (h : fields.Valid) {payload : Bytes}
    (hpayload : 20 + fields.options.length + payload.length ≤ 65535) {destinationCapacity : Nat}
    (hcap : 20 + fields.options.length + payload.length ≤ destinationCapacity) :
    ∃ segment parsed, buildSegment fields payload destinationCapacity = .ok segment ∧
      segment.length = 20 + fields.options.length + payload.length ∧
      parseSegment segment = .ok parsed ∧
      parsed.sourcePort = fields.sourcePort ∧ parsed.destinationPort = fields.destinationPort ∧
      parsed.sequenceNumber = fields.sequenceNumber ∧ parsed.acknowledgmentNumber = fields.acknowledgmentNumber ∧
      parsed.dataOffset.toNat * 4 = 20 + fields.options.length ∧
      parsed.flags = fields.flags ∧ parsed.window = fields.window ∧ parsed.urgentPointer = fields.urgentPointer ∧
      parsed.optionsLength = fields.options.length ∧
      slice segment parsed.optionsOffset parsed.optionsLength = fields.options ∧
      parsed.payloadLength = payload.length ∧
      slice segment parsed.payloadOffset parsed.payloadLength = payload ∧
      ipv4Checksum fields.sourceIpv4 fields.destinationIpv4 segment = .ok 0 := by
  have hoptions := h.options_le
  have halign := h.options_aligned
  have hmax : tcpMaxOptionsLength = 40 := rfl
  have hlen : ∀ c, (segmentBytes fields payload c).length = 20 + fields.options.length + payload.length :=
    length_segmentBytes fields payload
  have hbuild := buildSegment_eq h hpayload hcap
  refine ⟨_, _, hbuild, hlen _, parseSegment_segmentBytes h _ _, rfl, rfl, rfl, rfl, ?_, rfl, rfl, rfl, rfl,
    slice_options_segmentBytes _ _ _, rfl, slice_segmentBytes _ _ _, ?_⟩
  · exact toNat_wordCount (show (20 + fields.options.length) % 4 = 0 by omega)
      (show 20 + fields.options.length < 1024 by omega)
  · rw [ipv4Checksum_eq h.source h.destination (by rw [hlen]; exact hpayload), checksum_segmentBytes]

/-- An odd payload, four bytes of options and every flag. -/
theorem buildSegment_parses_example :
    let fields : SegmentFields := ⟨[10, 0, 0, 1], [10, 0, 0, 2], 80, 443, 1, 2, 0x1ff, 5, 6, [2, 4, 5, 180]⟩
    ∃ segment parsed, buildSegment fields [7, 8, 9] 27 = .ok segment ∧ parseSegment segment = .ok parsed ∧
      parsed.flags = 0x1ff ∧ slice segment parsed.payloadOffset parsed.payloadLength = [7, 8, 9] := by
  intro fields
  obtain ⟨segment, parsed, hbuild, -, hparse, -, -, -, -, -, hflags, -, -, -, -, -, hpayload, -⟩ :=
    @buildSegment_parses fields ⟨rfl, rfl, by decide, by decide, by decide⟩ [7, 8, 9] (by decide) 27 (by decide)
  exact ⟨segment, parsed, hbuild, hparse, hflags, hpayload⟩

/-! ## Parse, then build -/

/-- The fields and the options span of a parsed segment, as arguments of the builder. -/
def Segment.toFields (parsed : Segment) (sourceIpv4 destinationIpv4 segment : Bytes) : SegmentFields where
  sourceIpv4 := sourceIpv4
  destinationIpv4 := destinationIpv4
  sourcePort := parsed.sourcePort
  destinationPort := parsed.destinationPort
  sequenceNumber := parsed.sequenceNumber
  acknowledgmentNumber := parsed.acknowledgmentNumber
  flags := parsed.flags
  window := parsed.window
  urgentPointer := parsed.urgentPointer
  options := slice segment parsed.optionsOffset parsed.optionsLength

def Segment.payload (parsed : Segment) (segment : Bytes) : Bytes :=
  slice segment parsed.payloadOffset parsed.payloadLength

/-- The offset byte is rebuilt from its nibble and its NS bit when the reserved bits are clear. -/
theorem offsetByte_rebuilt {b : UInt8} (hreserved : b &&& 0x0e = 0) :
    (UInt8.ofNat (b >>> 4).toNat <<< 4) ||| (b &&& 0x01) = b := by
  have hall : ∀ n : Fin 256, UInt8.ofNat n.val &&& 0x0e = 0 →
      (UInt8.ofNat (UInt8.ofNat n.val >>> 4).toNat <<< 4) ||| (UInt8.ofNat n.val &&& 0x01) = UInt8.ofNat n.val := by
    decide +kernel
  have h := hall ⟨b.toNat, b.toNat_lt⟩
  rw [UInt8.ofNat_toNat] at h
  exact h hreserved

theorem flags_join {ns low : UInt8} (hns : ns.toNat < 2) :
    (((ns.toUInt16 <<< 8) ||| low.toUInt16) >>> 8 &&& 0x0001).toUInt8 = ns ∧
      ((ns.toUInt16 <<< 8) ||| low.toUInt16).toUInt8 = low ∧ (ns.toUInt16 <<< 8) ||| low.toUInt16 ≤ 0x01ff := by
  have hlow := low.toNat_lt
  have hval : ((ns.toUInt16 <<< 8) ||| low.toUInt16).toNat = ns.toNat * 256 + low.toNat := toNat_be16 ns low
  refine ⟨?_, ?_, ?_⟩
  · apply UInt8.toNat_inj.mp
    rw [UInt16.toNat_toUInt8, toNat_ns, hval]
    omega
  · apply UInt8.toNat_inj.mp
    rw [UInt16.toNat_toUInt8, hval]
    omega
  · rw [UInt16.le_iff_toNat_le, hval, show UInt16.toNat 0x01ff = 511 from rfl]
    omega

/-- The record that an accepted segment is read into. -/
def readSegment (segment : Bytes) : Segment :=
  let headerLength := (segment.getD 12 0 >>> 4).toNat * 4
  { sourcePort := readU16 segment 0
    destinationPort := readU16 segment 2
    sequenceNumber := readU32 segment 4
    acknowledgmentNumber := readU32 segment 8
    dataOffset := segment.getD 12 0 >>> 4
    flags := ((segment.getD 12 0 &&& 0x01).toUInt16 <<< 8) ||| (segment.getD 13 0).toUInt16
    window := readU16 segment 14
    checksum := readU16 segment 16
    urgentPointer := readU16 segment 18
    optionsOffset := tcpMinHeaderLength
    optionsLength := headerLength - tcpMinHeaderLength
    payloadOffset := headerLength
    payloadLength := segment.length - headerLength }

theorem parseSegment_ok {segment : Bytes} {parsed : Segment} (h : parseSegment segment = .ok parsed) :
    5 ≤ (segment.getD 12 0 >>> 4).toNat ∧ segment.getD 12 0 &&& 0x0e = 0 ∧
      (segment.getD 12 0 >>> 4).toNat * 4 ≤ segment.length ∧ parsed = readSegment segment := by
  unfold parseSegment at h
  split at h
  · cases h
  · dsimp only at h
    split at h
    · cases h
    · next hcheck =>
      split at h
      · cases h
      · next hheader =>
        rw [not_or, not_not, UInt8.not_lt, UInt8.le_iff_toNat_le] at hcheck
        cases h
        exact ⟨hcheck.1, hcheck.2, Nat.le_of_not_lt hheader, rfl⟩

section Accepted
variable {segment : Bytes}

theorem toNat_offsetNibble_le (b : UInt8) : (b >>> 4).toNat ≤ 15 := by
  have hb := b.toNat_lt
  have hshift : (b >>> 4).toNat = b.toNat / 2 ^ 4 := Nat.shiftRight_eq_div_pow _ 4
  omega

theorem toNat_ns_lt (b : UInt8) : (b &&& 0x01).toNat < 2 := by
  rw [UInt8.toNat_and, show UInt8.toNat 0x01 = 2 ^ 1 - 1 from rfl, Nat.and_two_pow_sub_one_eq_mod]
  omega

theorem toFields_headerLength (h5 : 5 ≤ (segment.getD 12 0 >>> 4).toNat)
    (hlen : (segment.getD 12 0 >>> 4).toNat * 4 ≤ segment.length) (sourceIpv4 destinationIpv4 : Bytes) :
    ((readSegment segment).toFields sourceIpv4 destinationIpv4 segment).headerLength =
      (segment.getD 12 0 >>> 4).toNat * 4 := by
  have hoptions : (slice segment 20 ((segment.getD 12 0 >>> 4).toNat * 4 - 20)).length =
      (segment.getD 12 0 >>> 4).toNat * 4 - 20 := length_slice (by omega)
  show 20 + (slice segment 20 ((segment.getD 12 0 >>> 4).toNat * 4 - 20)).length = _
  omega

theorem toFields_valid {parsed : Segment} (h : parseSegment segment = .ok parsed)
    {sourceIpv4 destinationIpv4 : Bytes} (hsource : sourceIpv4.length = 4)
    (hdestination : destinationIpv4.length = 4) : (parsed.toFields sourceIpv4 destinationIpv4 segment).Valid := by
  obtain ⟨h5, -, hlen, rfl⟩ := parseSegment_ok h
  have h15 := toNat_offsetNibble_le (segment.getD 12 0)
  have hheader : 20 + ((readSegment segment).toFields sourceIpv4 destinationIpv4 segment).options.length = _ :=
    toFields_headerLength h5 hlen sourceIpv4 destinationIpv4
  refine ⟨hsource, hdestination, ?_, ?_, (flags_join (toNat_ns_lt _)).2.2⟩
  · show _ ≤ 40
    omega
  · omega

/-- **Nothing is lost.** An accepted segment is the layout of its own fields, payload and checksum. -/
theorem segmentBytes_of_parseSegment {parsed : Segment} (h : parseSegment segment = .ok parsed)
    (sourceIpv4 destinationIpv4 : Bytes) :
    segmentBytes (parsed.toFields sourceIpv4 destinationIpv4 segment) (parsed.payload segment) parsed.checksum =
      segment := by
  obtain ⟨h5, hreserved, hlen, rfl⟩ := parseSegment_ok h
  have hheader := toFields_headerLength h5 hlen sourceIpv4 destinationIpv4
  obtain ⟨hns, hlow, -⟩ := @flags_join (segment.getD 12 0 &&& 0x01) (segment.getD 13 0) (toNat_ns_lt _)
  have hoffset : offsetAndNs ((segment.getD 12 0 >>> 4).toNat * 4) (readSegment segment).flags =
      segment.getD 12 0 := by
    unfold offsetAndNs
    rw [Nat.mul_div_cancel _ (by omega : 0 < 4)]
    exact (congrArg _ hns).trans (offsetByte_rebuilt hreserved)
  have hbytes : [offsetAndNs ((segment.getD 12 0 >>> 4).toNat * 4) (readSegment segment).flags,
      (readSegment segment).flags.toUInt8] = slice segment 12 2 := by
    rw [hoffset, slice_succ (by omega) 1 0, slice_succ (by omega) 0 0]
    exact congrArg (fun b => [segment.getD 12 0, b]) hlow
  have hfixed : be16Bytes (readU16 segment 0) ++ be16Bytes (readU16 segment 2) ++ be32Bytes (readU32 segment 4) ++
      be32Bytes (readU32 segment 8) ++ slice segment 12 2 ++ be16Bytes (readU16 segment 14) ++
      be16Bytes (readU16 segment 16) ++ be16Bytes (readU16 segment 18) = slice segment 0 20 := by
    unfold readU16 readU32
    rw [be16Bytes_getD (by omega), be16Bytes_getD (by omega), be32Bytes_getD (by omega), be32Bytes_getD (by omega),
      be16Bytes_getD (by omega), be16Bytes_getD (by omega), be16Bytes_getD (by omega)]
    simp (disch := omega) only [slice_append_slice, Nat.reduceAdd]
  generalize hn : (segment.getD 12 0 >>> 4).toNat * 4 = n at *
  calc segmentBytes ((readSegment segment).toFields sourceIpv4 destinationIpv4 segment)
        ((readSegment segment).payload segment) (readSegment segment).checksum
      = slice segment 0 20 ++ slice segment 20 (n - 20) ++ slice segment n (segment.length - n) := by
        rw [← hfixed, ← hbytes]
        unfold segmentBytes
        rw [hheader]
        subst hn
        rfl
    _ = slice segment 0 segment.length := by
        rw [slice_append_slice segment (by omega), slice_append_slice segment (by omega)]
        exact congrArg (slice segment 0) (by omega)
    _ = segment := slice_zero_length segment

end Accepted

/-! ## The two zeros -/

/-- The words of a segment are those of the zeroed form and the checksum. -/
theorem wordSum_segmentBytes (fields : SegmentFields) (payload : Bytes) (checksum : UInt16) :
    wordSum (segmentBytes fields payload checksum) =
      wordSum (segmentBytes fields payload 0) + checksum.toNat := by
  obtain ⟨pre, post, hpre, hsplit⟩ := segmentBytes_split fields payload
  rw [hsplit, hsplit, wordSum_insert (by omega), wordSum_insert (by omega), show UInt16.toNat 0 = 0 from rfl,
    Nat.add_zero]

/-- A checksum that verifies is the one computed over the zeroed form, or all ones where that is zero. -/
theorem checksum_complete {sourceIpv4 destinationIpv4 : Bytes} {fields : SegmentFields} {payload : Bytes}
    {checksum : UInt16} (hlen : (segmentBytes fields payload checksum).length ≤ uint16Max)
    (h : checksumUnchecked sourceIpv4 destinationIpv4 (segmentBytes fields payload checksum) = 0) :
    checksumUnchecked sourceIpv4 destinationIpv4 (segmentBytes fields payload 0) =
      if checksum = 0xffff then 0 else checksum := by
  have hlen0 : (segmentBytes fields payload 0).length ≤ uint16Max := by
    rwa [length_segmentBytes] at hlen ⊢
  have hval : (checksumUnchecked sourceIpv4 destinationIpv4 (segmentBytes fields payload 0)).toNat = 65535 -
      endAround (wordSum sourceIpv4 + wordSum destinationIpv4 + 6 + (segmentBytes fields payload 0).length +
        wordSum (segmentBytes fields payload 0)) :=
    toNat_finish_pseudoHeader sourceIpv4 destinationIpv4 _ tcpProtocol hlen0
  rw [checksumUnchecked_eq_zero_iff _ _ hlen, wordSum_segmentBytes, ← Nat.add_assoc, length_segmentBytes] at h
  rw [length_segmentBytes] at hval
  -- the protocol alone makes the sum positive, so the computed checksum is never all ones
  have hpos : 1 ≤ endAround (wordSum sourceIpv4 + wordSum destinationIpv4 + 6 +
      (fields.headerLength + payload.length) + wordSum (segmentBytes fields payload 0)) := by
    unfold endAround
    split <;> omega
  generalize wordSum sourceIpv4 + wordSum destinationIpv4 + 6 + (fields.headerLength + payload.length) +
    wordSum (segmentBytes fields payload 0) = total at h hval hpos
  have hc := checksum.toNat_lt
  apply UInt16.toNat_inj.mp
  rw [hval]
  split
  · next hones =>
    subst hones
    rcases endAround_complete (by decide) h with heq | ⟨-, hfull⟩
    · rw [show UInt16.toNat 0xffff = 65535 from rfl] at heq
      omega
    · rw [hfull]
      rfl
  · next hne =>
    rcases endAround_complete (by omega) h with heq | ⟨hones, -⟩
    · exact heq.symm
    · exact absurd (UInt16.toNat_inj.mp hones) hne

/-- The checksum field is bytes 16 and 17, and no other byte depends on it. -/
theorem getD_segmentBytes (fields : SegmentFields) (payload : Bytes) (c c' : UInt16) {i : Nat}
    (h16 : i ≠ 16) (h17 : i ≠ 17) :
    (segmentBytes fields payload c).getD i 0 = (segmentBytes fields payload c').getD i 0 := by
  obtain ⟨pre, post, hpre, hsplit⟩ := segmentBytes_split fields payload
  rw [hsplit, hsplit]
  by_cases hi : i < 16
  · rw [List.append_assoc, List.append_assoc, List.getD_append _ _ _ _ (by omega),
      List.getD_append _ _ _ _ (by omega)]
  · have hfront : ∀ v, (pre ++ be16Bytes v).length = 18 := fun v => by simp [hpre]
    rw [List.getD_append_right _ _ _ _ (by rw [hfront]; omega), List.getD_append_right _ _ _ _ (by rw [hfront]; omega),
      hfront, hfront]

/-- **Parse, build.** An accepted segment of at most 65535 bytes is built again from its parsed fields, options
and payload: every byte but the two of the checksum is the same, and so is the checksum when it verifies,
except that all ones becomes zero. -/
theorem parseSegment_builds {segment : Bytes} (hlen : segment.length ≤ 65535) {parsed : Segment}
    (h : parseSegment segment = .ok parsed) {sourceIpv4 destinationIpv4 : Bytes} (hsource : sourceIpv4.length = 4)
    (hdestination : destinationIpv4.length = 4) {destinationCapacity : Nat}
    (hcap : segment.length ≤ destinationCapacity) :
    ∃ built, buildSegment (parsed.toFields sourceIpv4 destinationIpv4 segment) (parsed.payload segment)
        destinationCapacity = .ok built ∧
      built.length = segment.length ∧
      (∀ i, i ≠ 16 → i ≠ 17 → built.getD i 0 = segment.getD i 0) ∧
      (ipv4Checksum sourceIpv4 destinationIpv4 segment = .ok 0 →
        (readU16 segment 16 ≠ 0xffff → built = segment) ∧
        (readU16 segment 16 = 0xffff → readU16 built 16 = 0)) := by
  have hwhole := segmentBytes_of_parseSegment h sourceIpv4 destinationIpv4
  have hvalid := toFields_valid h hsource hdestination
  have hchecksum : parsed.checksum = readU16 segment 16 := by
    obtain ⟨-, -, -, rfl⟩ := parseSegment_ok h
    rfl
  rw [← hchecksum]
  have hsourceField : (parsed.toFields sourceIpv4 destinationIpv4 segment).sourceIpv4 = sourceIpv4 := rfl
  have hdestinationField : (parsed.toFields sourceIpv4 destinationIpv4 segment).destinationIpv4 = destinationIpv4 := rfl
  generalize parsed.toFields sourceIpv4 destinationIpv4 segment = fields at *
  generalize parsed.payload segment = payload at *
  generalize parsed.checksum = checksum at *
  have hsize : segment.length = fields.headerLength + payload.length := by rw [← hwhole, length_segmentBytes]
  rw [hsize] at hlen hcap
  refine ⟨_, buildSegment_eq hvalid hlen hcap, ?_, ?_, ?_⟩
  · rw [length_segmentBytes, hsize]
  · intro i h16 h17
    rw [← hwhole]
    exact getD_segmentBytes _ _ _ _ h16 h17
  · intro hverifies
    rw [ipv4Checksum_eq hsource hdestination (by rw [hsize]; exact hlen), ← hwhole] at hverifies
    have hzeroed := checksum_complete (by rw [hwhole, hsize]; exact hlen) (Except.ok.inj hverifies)
    rw [hsourceField, hdestinationField, hzeroed]
    constructor
    · intro hne
      rw [if_neg hne, hwhole]
    · intro hones
      rw [if_pos hones]
      exact be16_be16Bytes 0

/-- A segment with the NS flag whose checksum is stored as all ones. -/
theorem parseSegment_builds_ones :
    let segment : Bytes := [0, 0, 0, 0, 0, 0, 0, 0, 0, 0, 0, 0, 0x51, 0, 0xae, 0xe5, 0xff, 0xff, 0, 0]
    ∃ parsed built, parseSegment segment = .ok parsed ∧
      buildSegment (parsed.toFields [0, 0, 0, 0] [0, 0, 0, 0] segment) (parsed.payload segment) 20 = .ok built ∧
      built.length = 20 ∧ readU16 built 16 = 0 := by
  intro segment
  have hparse : parseSegment segment = .ok (readSegment segment) := by decide +kernel
  obtain ⟨built, hbuild, hlen, -, hverified⟩ :=
    @parseSegment_builds segment (by decide) _ hparse [0, 0, 0, 0] [0, 0, 0, 0] rfl rfl 20 (by decide)
  have hzero : ipv4Checksum [0, 0, 0, 0] [0, 0, 0, 0] segment = .ok 0 := by
    rw [ipv4Checksum_eq rfl rfl (by decide), (checksumUnchecked_eq_zero_iff _ _ (by decide)).mpr (by decide +kernel)]
  exact ⟨_, built, hparse, hbuild, hlen, (hverified hzero).2 (by decide)⟩

end TcpipCourse.L06
