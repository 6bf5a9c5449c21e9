import TcpipCourse.L05.Datagram

/-!
# Lesson 05: a verified datagram has one encoding

* `buildDatagram_parses` : what is built is parsed back whole and verifies, with a checksum field that is not 0;
* `datagramBytes_of_parseDatagram` : an accepted datagram is the layout of its ports, payload and checksum;
* `sentChecksum_of_verified` : the only nonzero checksum that verifies is the one the builder sends;
* `buildDatagram_canonical` : the two directions together.
-/

namespace TcpipCourse.L05
open Lib

theorem ipv4Checksum_eq {sourceIpv4 destinationIpv4 datagram : Bytes} (hsource : sourceIpv4.length = 4)
    (hdestination : destinationIpv4.length = 4) (hlen : datagram.length ≤ uint16Max) :
    ipv4Checksum sourceIpv4 destinationIpv4 datagram =
      .ok (checksumUnchecked sourceIpv4 destinationIpv4 datagram) := by
  have hspans : ¬ (!validIpv4Span sourceIpv4 || !validIpv4Span destinationIpv4) = true := by
    simp [validIpv4Span, hsource, hdestination]
  unfold ipv4Checksum
  rw [if_neg hspans, if_neg (by omega)]

/-! ## Build, then parse -/

theorem slice_datagramBytes (sourcePort destinationPort : UInt16) (payload : Bytes) (checksum : UInt16) :
    slice (datagramBytes sourcePort destinationPort payload checksum) udpHeaderLength payload.length = payload := by
  rw [datagramBytes, slice, List.drop_left' (by rfl), List.take_length]

theorem buildDatagram_parses {sourceIpv4 destinationIpv4 : Bytes} (hsource : sourceIpv4.length = 4)
    (hdestination : destinationIpv4.length = 4) {payload : Bytes} (hpayload : payload.length ≤ 65527)
    (sourcePort destinationPort : UInt16) {destinationCapacity : Nat}
    (hcap : 8 + payload.length ≤ destinationCapacity) :
    ∃ datagram parsed,
      buildDatagram sourceIpv4 destinationIpv4 sourcePort destinationPort payload destinationCapacity = .ok datagram ∧
        datagram.length = 8 + payload.length ∧ readU16 datagram 6 ≠ 0 ∧
        parseDatagram datagram = .ok parsed ∧
        parsed.sourcePort = sourcePort ∧ parsed.destinationPort = destinationPort ∧
        parsed.length.toNat = 8 + payload.length ∧ parsed.payloadLength = payload.length ∧
        slice datagram parsed.payloadOffset parsed.payloadLength = payload ∧
        ipv4Checksum sourceIpv4 destinationIpv4 datagram = .ok 0 := by
  have hmax : uint16Max = 65535 := rfl
  have hheader : udpHeaderLength = 8 := rfl
  have hfits : udpHeaderLength + payload.length ≤ uint16Max := by omega
  have hlen : ∀ c, (datagramBytes sourcePort destinationPort payload c).length = 8 + payload.length :=
    length_datagramBytes sourcePort destinationPort payload
  refine ⟨_, _, buildDatagram_eq hsource hdestination hfits hcap sourcePort destinationPort, hlen _, ?_,
    parseDatagram_datagramBytes _ _ _ _ hfits, rfl, rfl, toNat_length16 hfits, rfl, slice_datagramBytes _ _ _ _, ?_⟩
  · rw [(readU16_datagramBytes _ _ _ _).2.2.2]
    exact sentChecksum_ne_zero _
  · rw [ipv4Checksum_eq hsource hdestination (by rw [hlen]; omega), checksum_datagramBytes _ _ _ _ hfits]

/-! ## Parse, then build -/

theorem parseDatagram_ok {datagram : Bytes} {parsed : Datagram} (h : parseDatagram datagram = .ok parsed) :
    udpHeaderLength ≤ datagram.length ∧ (readU16 datagram 4).toNat = datagram.length ∧
      parsed =
        { sourcePort := readU16 datagram 0
          destinationPort := readU16 datagram 2
          length := readU16 datagram 4
          checksum := readU16 datagram 6
          payloadOffset := udpHeaderLength
          payloadLength := datagram.length - udpHeaderLength } := by
  unfold parseDatagram at h
  split at h
  · cases h
  · next hlen =>
    dsimp only at h
    split at h
    · cases h
    · split at h
      · cases h
      · split at h
        · cases h
        · next heq =>
          cases h
          exact ⟨Nat.le_of_not_lt hlen, (not_not.mp heq).symm, rfl⟩

/-- The payload span of a parsed datagram. -/
def Datagram.payload (parsed : Datagram) (datagram : Bytes) : Bytes :=
  slice datagram parsed.payloadOffset parsed.payloadLength

/-- **Nothing is lost.** An accepted datagram is the layout of its own ports, payload and checksum. -/
theorem datagramBytes_of_parseDatagram {datagram : Bytes} {parsed : Datagram}
    (h : parseDatagram datagram = .ok parsed) :
    datagramBytes parsed.sourcePort parsed.destinationPort (parsed.payload datagram) parsed.checksum = datagram := by
  obtain ⟨h8, hlength, rfl⟩ := parseDatagram_ok h
  have hheader : udpHeaderLength = 8 := rfl
  have hpayload : udpHeaderLength + (slice datagram udpHeaderLength (datagram.length - udpHeaderLength)).length =
      datagram.length := by
    rw [length_slice (by omega)]
    omega
  have hword : UInt16.ofNat datagram.length = readU16 datagram 4 := by
    rw [← hlength, UInt16.ofNat_toNat]
  show be16Bytes (readU16 datagram 0) ++ be16Bytes (readU16 datagram 2) ++
    be16Bytes (UInt16.ofNat (udpHeaderLength +
      (slice datagram udpHeaderLength (datagram.length - udpHeaderLength)).length)) ++
    be16Bytes (readU16 datagram 6) ++ slice datagram udpHeaderLength (datagram.length - udpHeaderLength) = datagram
  rw [hpayload, hword]
  unfold readU16
  rw [be16Bytes_getD (by omega), be16Bytes_getD (by omega), be16Bytes_getD (by omega), be16Bytes_getD (by omega)]
  simp (disch := omega) only [slice_append_slice, Nat.reduceAdd, hheader]
  rw [show 8 + (datagram.length - 8) = datagram.length by omega, slice_zero_length]

theorem sentChecksum_of_verified {sourceIpv4 destinationIpv4 : Bytes} {sourcePort destinationPort : UInt16}
    {payload : Bytes} {checksum : UInt16}
    (hlen : (datagramBytes sourcePort destinationPort payload checksum).length ≤ uint16Max) (hne : checksum ≠ 0)
    (h : checksumUnchecked sourceIpv4 destinationIpv4
      (datagramBytes sourcePort destinationPort payload checksum) = 0) :
    sentChecksum (checksumUnchecked sourceIpv4 destinationIpv4
      (datagramBytes sourcePort destinationPort payload 0)) = checksum := by
  have hlen0 : (datagramBytes sourcePort destinationPort payload 0).length ≤ uint16Max := by
    rwa [length_datagramBytes] at hlen ⊢
  have hval := toNat_checksumUnchecked sourceIpv4 destinationIpv4 hlen0
  rw [checksumUnchecked_eq_zero_iff _ _ hlen] at h
  rw [length_datagramBytes, wordSum_datagramBytes] at h hval
  rw [show UInt16.toNat 0 = 0 from rfl, Nat.add_zero] at hval
  rw [← Nat.add_assoc] at h
  generalize wordSum sourceIpv4 + wordSum destinationIpv4 + 17 + (udpHeaderLength + payload.length) +
    (sourcePort.toNat + destinationPort.toNat + (UInt16.ofNat (udpHeaderLength + payload.length)).toNat +
      wordSum payload) = total at h hval
  have hc := checksum.toNat_lt
  generalize checksumUnchecked sourceIpv4 destinationIpv4
    (datagramBytes sourcePort destinationPort payload 0) = computed at hval ⊢
  unfold sentChecksum
  rcases endAround_complete (by omega) h with heq | ⟨hones, hfull⟩
  · have hsame : computed = checksum := UInt16.toNat_inj.mp (hval.trans heq.symm)
    rw [hsame, if_neg hne]
  · have hzero : computed = 0 := UInt16.toNat_inj.mp (by rw [hval, hfull]; rfl)
    rw [if_pos hzero]
    exact UInt16.toNat_inj.mp hones.symm

/-- **UDP datagrams are canonical.** A payload of at most 65527 bytes is always built into a datagram whose
checksum field is not zero, which parses back to the same ports, length and payload and verifies; and an accepted
datagram with a nonzero checksum field that verifies is, byte for byte, the one that is built from its ports and
payload. -/
theorem buildDatagram_canonical {sourceIpv4 destinationIpv4 : Bytes} (hsource : sourceIpv4.length = 4)
    (hdestination : destinationIpv4.length = 4) :
    (∀ (payload : Bytes) (sourcePort destinationPort : UInt16) (destinationCapacity : Nat),
      payload.length ≤ 65527 → 8 + payload.length ≤ destinationCapacity →
      ∃ datagram parsed,
        buildDatagram sourceIpv4 destinationIpv4 sourcePort destinationPort payload destinationCapacity =
            .ok datagram ∧
          datagram.length = 8 + payload.length ∧ readU16 datagram 6 ≠ 0 ∧
          parseDatagram datagram = .ok parsed ∧
          parsed.sourcePort = sourcePort ∧ parsed.destinationPort = destinationPort ∧
          parsed.length.toNat = 8 + payload.length ∧ parsed.payloadLength = payload.length ∧
          slice datagram parsed.payloadOffset parsed.payloadLength = payload ∧
          ipv4Checksum sourceIpv4 destinationIpv4 datagram = .ok 0) ∧
    ∀ (datagram : Bytes) (parsed : Datagram) (destinationCapacity : Nat),
      parseDatagram datagram = .ok parsed → parsed.checksum ≠ 0 →
      ipv4Checksum sourceIpv4 destinationIpv4 datagram = .ok 0 → datagram.length ≤ destinationCapacity →
      buildDatagram sourceIpv4 destinationIpv4 parsed.sourcePort parsed.destinationPort (parsed.payload datagram)
        destinationCapacity = .ok datagram := by
  constructor
  · intro payload sourcePort destinationPort destinationCapacity hpayload hcap
    exact buildDatagram_parses hsource hdestination hpayload sourcePort destinationPort hcap
  · intro datagram parsed destinationCapacity hparse hne hverifies hcap
    have hwhole := datagramBytes_of_parseDatagram hparse
    have hmax : uint16Max = 65535 := rfl
    have hlen : datagram.length ≤ uint16Max := by
      obtain ⟨-, hlength, -⟩ := parseDatagram_ok hparse
      have := (readU16 datagram 4).toNat_lt
      omega
    rw [ipv4Checksum_eq hsource hdestination hlen] at hverifies
    generalize parsed.payload datagram = payload at hwhole ⊢
    have hsize : udpHeaderLength + payload.length = datagram.length := by rw [← hwhole, length_datagramBytes]
    rw [buildDatagram_eq hsource hdestination (by omega) (by omega)]
    rw [← hwhole] at hverifies hlen
    rw [sentChecksum_of_verified hlen hne (Except.ok.inj hverifies), hwhole]

/-- An empty payload whose words sum to all ones: the computed zero is sent as all ones. -/
theorem buildDatagram_canonical_ones :
    buildDatagram [0, 0, 0, 0] [0, 0, 0, 0] 0xffde 0 [] 8 =
      .ok [0xff, 0xde, 0, 0, 0, 8, 0xff, 0xff] := by
  have hzero : ipv4Checksum [0, 0, 0, 0] [0, 0, 0, 0] [0xff, 0xde, 0, 0, 0, 8, 0xff, 0xff] = .ok 0 := by
    rw [ipv4Checksum_eq rfl rfl (by decide), (checksumUnchecked_eq_zero_iff _ _ (by decide)).mpr (by decide +kernel)]
  exact (@buildDatagram_canonical [0, 0, 0, 0] [0, 0, 0, 0] rfl rfl).2 _ _ 8 rfl (by decide) hzero (by decide)

end TcpipCourse.L05
