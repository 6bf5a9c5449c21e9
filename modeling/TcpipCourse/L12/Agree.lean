import TcpipCourse.L02.Arp
import TcpipCourse.L03.Ipv4
import TcpipCourse.L05.Datagram
import TcpipCourse.L06.Segment
import TcpipCourse.L12.Invariant
import TcpipCourse.L12.Kept
import TcpipCourse.L12.Window

/-!
# Lesson 12: the diagnoser agrees with the parsers of the lessons

* `toNat_checksumAdd`, `checksumValid_iff`, `transportChecksumValid_iff` : the sums with all carries left to the end
  do not overflow, so they tell what the lessons' checksums tell;
* `parseArp_agrees`, `parseIpv4_agrees`, `parseTcp_agrees`, `parseUdp_agrees` : one parser each;
* `diagnoseFrame_agrees` : the main result.
-/

namespace TcpipCourse.L12
open Lib

/-! ## Checksums -/

theorem toNat_checksumAdd (len : Nat) : ∀ (sum : UInt32) (data : Bytes), len ≤ data.length →
    sum.toNat + wordSum (data.take len) < 4294967296 →
    (checksumAdd sum data len).toNat = sum.toNat + wordSum (data.take len) := by
  induction len using Nat.twoStepInduction with
  | zero =>
    intro sum data _ _
    rfl
  | one =>
    intro sum data hlen hsum
    obtain ⟨a, rest, rfl⟩ := List.exists_cons_of_length_pos hlen
    have ha := a.toNat_lt
    have hword : (a.toUInt32 <<< 8).toNat = a.toNat * 256 := by
      rw [UInt32.toNat_shiftLeft, UInt8.toNat_toUInt32]
      show a.toNat <<< 8 % 4294967296 = a.toNat * 256
      rw [Nat.shiftLeft_eq]
      omega
    have hone : wordSum ((a :: rest).take 1) = a.toNat * 256 := rfl
    rw [hone] at hsum ⊢
    show (sum + a.toUInt32 <<< 8).toNat = _
    rw [UInt32.toNat_add, hword]
    exact Nat.mod_eq_of_lt hsum
  | more len ih _ =>
    intro sum data hlen hsum
    obtain ⟨a, rest, rfl⟩ := List.exists_cons_of_length_pos (show 0 < data.length by omega)
    rw [List.length_cons] at hlen
    obtain ⟨b, rest, rfl⟩ := List.exists_cons_of_length_pos (show 0 < rest.length by omega)
    rw [List.length_cons] at hlen
    have hmore : wordSum ((a :: b :: rest).take (len + 2)) = a.toNat * 256 + b.toNat + wordSum (rest.take len) := rfl
    rw [hmore] at hsum ⊢
    have hadd : (sum + (be16 a b).toUInt32).toNat = sum.toNat + (a.toNat * 256 + b.toNat) := by
      rw [UInt32.toNat_add, UInt16.toNat_toUInt32, toNat_be16]
      omega
    show (checksumAdd (sum + (be16 a b).toUInt32) rest len).toNat = _
    rw [ih _ rest (by omega) (by rw [hadd]; omega), hadd]
    omega

theorem checksumFinish_beq_iff (sum : UInt32) :
    (checksumFinish sum == 0xffff) = true ↔ endAround sum.toNat = 65535 := by
  have hle := endAround_le sum.toNat
  unfold checksumFinish
  rw [beq_iff_eq, ← UInt16.toNat_inj, UInt32.toNat_toUInt16, toNat_foldCarries,
    show UInt16.toNat 0xffff = 65535 from rfl]
  omega

theorem wordSum_take_lt {data : Bytes} {len : Nat} (hlen : len ≤ data.length) (hmax : len ≤ uint16Max) :
    wordSum (data.take len) < 2147483648 := by
  have hle := wordSum_le (data.take len)
  have h16 : uint16Max = 65535 := rfl
  rw [List.length_take_of_le hlen] at hle
  omega

theorem checksumValid_iff {data : Bytes} {len : Nat} (hlen : len ≤ data.length) (hmax : len ≤ uint16Max) :
    checksumValid data len = true ↔ L03.checksum (data.take len) = 0 := by
  have hlt := wordSum_take_lt hlen hmax
  have hzero : (0 : UInt32).toNat + wordSum (data.take len) = wordSum (data.take len) := Nat.zero_add _
  unfold checksumValid L03.checksum
  rw [checksumFinish_beq_iff, toNat_checksumAdd len 0 data hlen (by omega), finish_eq_zero_iff,
    (addBytes_spec (data.take len) 0 (by decide)).2]

theorem transportChecksumValid_iff {ipv4 segment : Bytes} (hip : ipv4MinHeader ≤ ipv4.length)
    (hmax : segment.length ≤ uint16Max) (protocol : UInt8) :
    transportChecksumValid ipv4 protocol segment segment.length = true ↔
      endAround (wordSum (slice ipv4 12 4) + wordSum (slice ipv4 16 4) + protocol.toNat + segment.length +
        wordSum segment) = 65535 := by
  have hhead : ipv4MinHeader = 20 := rfl
  have h16 : uint16Max = 65535 := rfl
  have haddresses : (ipv4.drop 12).take 8 = slice ipv4 12 4 ++ slice ipv4 16 4 := by
    unfold slice
    rw [show ipv4.drop 16 = (ipv4.drop 12).drop 4 by rw [List.drop_drop], ← List.take_add]
  have hfour : (slice ipv4 12 4).length = 4 := length_slice (by omega)
  have hsource := wordSum_le (slice ipv4 12 4)
  have hdestination := wordSum_le (slice ipv4 16 4)
  have hwords := wordSum_take_lt (Nat.le_refl segment.length) hmax
  rw [List.take_length] at hwords
  rw [length_slice (by omega)] at hsource hdestination
  have h1 : (checksumAdd 0 (ipv4.drop 12) 8).toNat = wordSum (slice ipv4 12 4) + wordSum (slice ipv4 16 4) := by
    have hzero : (0 : UInt32).toNat = 0 := rfl
    have hsplit : wordSum ((ipv4.drop 12).take 8) = wordSum (slice ipv4 12 4) + wordSum (slice ipv4 16 4) := by
      rw [haddresses, wordSum_append (by rw [hfour])]
    rw [toNat_checksumAdd 8 0 _ (by rw [List.length_drop]; omega) (by omega), hsplit, hzero, Nat.zero_add]
  have hprotocol := protocol.toNat_lt
  have h2 : (checksumAdd 0 (ipv4.drop 12) 8 + protocol.toUInt32 + UInt32.ofNat segment.length).toNat =
      wordSum (slice ipv4 12 4) + wordSum (slice ipv4 16 4) + protocol.toNat + segment.length := by
    rw [UInt32.toNat_add, UInt32.toNat_add, h1, UInt8.toNat_toUInt32, UInt32.toNat_ofNat']
    omega
  unfold transportChecksumValid
  dsimp only
  rw [checksumFinish_beq_iff, toNat_checksumAdd _ _ segment (Nat.le_refl _) (by rw [h2, List.take_length]; omega), h2,
    List.take_length]

/-! ## ARP -/

theorem parseArp_agrees (packet : Bytes) (frameOffset : Nat) (report : Report) :
    (parseArp packet packet.length frameOffset report).1 = .ok ↔ ∃ parsed, L02.parseArp packet = .ok parsed := by
  have hhead : arpFixedHeader = 8 := rfl
  have hlen : L02.arpPacketLength = 28 := rfl
  have hfour : ∀ b : UInt8, b = 4 → b.toNat = 4 := fun b h => by rw [h]; rfl
  have hsix : ∀ b : UInt8, b = 6 → b.toNat = 6 := fun b h => by rw [h]; rfl
  rw [L02.parseArp_ok_iff]
  unfold parseArp L02.SupportedArp
  constructor
  · intro h
    split at h
    · cases h
    · dsimp only at h
      split at h
      · cases h
      · split at h
        · cases h
        · split at h
          · cases h
          · next hfields =>
            simp only [ne_eq, not_or, not_and_or, not_not] at hfields
            have h4 := hsix _ hfields.2.2.1
            have h5 := hfour _ hfields.2.2.2.1
            exact ⟨by omega, hfields⟩
  · rintro ⟨hlength, hfields⟩
    have h4 := hsix _ hfields.2.2.1
    have h5 := hfour _ hfields.2.2.2.1
    have hok : ¬ (readU16 packet 0 ≠ 1 ∨ readU16 packet 2 ≠ 0x0800 ∨ packet.getD 4 0 ≠ 6 ∨ packet.getD 5 0 ≠ 4 ∨
        (readU16 packet 6 ≠ 1 ∧ readU16 packet 6 ≠ 2)) := by
      simp only [ne_eq, not_or, not_and_or, not_not]
      exact hfields
    have hsmall : ¬ 6 + 4 > (sizeMax - arpFixedHeader) / 2 := by decide
    rw [if_neg (by omega)]
    dsimp only
    rw [h4, h5, if_neg hsmall, if_neg (by omega), if_neg hok]
    rfl

/-! ## The header -/

section Header
variable (packet : Bytes) (frameOffset : Nat) (report : Report)

/-- What `parseIpv4` has recorded when it looks behind the header. -/
def headerReport : Report :=
  recordChecksum ((addLayer report .ipv4).withIpv4Fields packet) (checksumValid packet (L03.ihlBytes packet))
    .ipv4Checksum

theorem parseIpv4_structural (h : L03.Structural packet) :
    parseIpv4 packet packet.length frameOffset report =
      parseIpv4Payload packet (L03.ihlBytes packet) (readU16 packet 2).toNat frameOffset
        (headerReport packet report) := by
  obtain ⟨hlen, hversion, hmin, htotal, hfit⟩ := h
  have hhead : ipv4MinHeader = 20 := rfl
  have hhead' : L03.minHeaderLength = 20 := rfl
  have hwords : (packet.getD 0 0 &&& 0x0f).toNat * 4 = L03.ihlBytes packet := rfl
  have htwo : L03.readBe16 packet 2 = readU16 packet 2 := rfl
  rw [htwo] at htotal hfit
  unfold parseIpv4
  dsimp only
  rw [hwords, if_neg (by omega), if_neg (not_not.mpr hversion), if_neg (by omega), if_neg (by omega), if_neg (by omega),
    if_neg (by omega)]
  rfl

theorem parseIpv4_not_structural (h : ¬ L03.Structural packet) :
    (parseIpv4 packet packet.length frameOffset report).2.checksumsChecked = report.checksumsChecked := by
  have hlayer := addLayer_kept report .ipv4
  have hhead : ipv4MinHeader = L03.minHeaderLength := rfl
  have hwords : (packet.getD 0 0 &&& 0x0f).toNat * 4 = L03.ihlBytes packet := rfl
  have htwo : L03.readBe16 packet 2 = readU16 packet 2 := rfl
  unfold L03.Structural at h
  rw [htwo] at h
  unfold parseIpv4
  dsimp only
  rw [hwords, hhead]
  split
  · exact (hlayer.trans (truncated_kept _ _)).checked
  · next hlen =>
    split
    · exact (hlayer.trans (malformed_kept _ _)).checked
    · next hversion =>
      split
      · exact (hlayer.trans (malformed_kept _ _)).checked
      · split
        · exact (hlayer.trans (truncated_kept _ _)).checked
        · split
          · exact (hlayer.trans (malformed_kept _ _)).checked
          · split
            · exact (hlayer.trans (truncated_kept _ _)).checked
            · exact absurd ⟨by omega, not_not.mp hversion, by omega, by omega, by omega⟩ h

theorem headerReport_ipProtocol : (headerReport packet report).ipProtocol = packet.getD 9 0 :=
  (recordChecksum_fields _ _ _).2.2.2.1

variable {packet report}

theorem headerReport_ipv4Checksum (hclean : ¬ report.has .ipv4Checksum = true) :
    (headerReport packet report).has .ipv4Checksum = true ↔ checksumValid packet (L03.ihlBytes packet) = false := by
  have hlayer := (addLayer_kept report .ipv4).ipv4Checksum
  have hfields : ((addLayer report .ipv4).withIpv4Fields packet).has .ipv4Checksum = true ↔
      report.has .ipv4Checksum = true := hlayer
  unfold headerReport
  rw [has_recordChecksum, hfields]
  simp [hclean]

theorem headerReport_transportChecksum (hclean : ¬ report.has .transportChecksum = true) :
    ¬ (headerReport packet report).has .transportChecksum = true := by
  have hlayer := (addLayer_kept report .ipv4).transportChecksum
  have hfields : ((addLayer report .ipv4).withIpv4Fields packet).has .transportChecksum = true ↔
      report.has .transportChecksum = true := hlayer
  unfold headerReport
  rw [has_recordChecksum, hfields]
  simp [hclean]

theorem headerReport_checked (h : report.checksumsChecked = 0) : (headerReport packet report).checksumsChecked = 1 := by
  have hlayer : ((addLayer report .ipv4).withIpv4Fields packet).checksumsChecked = report.checksumsChecked :=
    (addLayer_kept report .ipv4).checked
  unfold headerReport
  rw [recordChecksum_checked, hlayer, h]

theorem parseIpv4_agrees (hchecked : report.checksumsChecked = 0) (hclean : ¬ report.has .ipv4Checksum = true) :
    (∃ parsed, L03.parseIpv4 packet = .ok parsed) ↔
      1 ≤ (parseIpv4 packet packet.length frameOffset report).2.checksumsChecked ∧
        ¬ (parseIpv4 packet packet.length frameOffset report).2.has .ipv4Checksum = true ∧
        readU16 packet 6 &&& 0x8000 = 0 := by
  rw [L03.parseIpv4_ok_iff]
  by_cases h : L03.Structural packet
  · have hgrows := parseIpv4Payload_grows packet (headerReport packet report) (L03.ihlBytes packet)
      (readU16 packet 2).toNat frameOffset
    have hone := @headerReport_checked packet report hchecked
    have hihl : L03.ihlBytes packet ≤ packet.length := h.2.2.2.1.trans h.2.2.2.2
    have hmax : L03.ihlBytes packet ≤ uint16Max := (L03.ihlBytes_le packet).trans (by decide)
    have hchecksum := checksumValid_iff hihl hmax
    have hpos := hgrows.checked
    rw [hone] at hpos
    rw [parseIpv4_structural packet frameOffset report h, hgrows.ipv4Checksum, headerReport_ipv4Checksum hclean,
      Bool.not_eq_false, hchecksum]
    constructor
    · rintro ⟨-, hreserved, hsum⟩
      exact ⟨hpos, hsum, hreserved⟩
    · rintro ⟨-, hsum, hreserved⟩
      exact ⟨h, hreserved, hsum⟩
  · have hnone := parseIpv4_not_structural packet frameOffset report h
    apply iff_of_false
    · exact fun hok => h hok.1
    · rintro ⟨hpos, -⟩
      omega

end Header

/-! ## TCP -/

section Transport
variable {ipv4 window : Bytes} (hip : ipv4MinHeader ≤ ipv4.length) (hwindow : window.length ≤ uint16Max)
  (frameOffset : Nat) (report : Report)

theorem parseSegment_ok_iff (window : Bytes) :
    (∃ segment, L06.parseSegment window = .ok segment) ↔
      tcpMinHeader ≤ window.length ∧ window.getD 12 0 &&& 0x0e = 0 ∧
        tcpMinHeader ≤ (window.getD 12 0 >>> 4).toNat * 4 ∧
        (window.getD 12 0 >>> 4).toNat * 4 ≤ window.length := by
  have hhead : tcpMinHeader = L06.tcpMinHeaderLength := rfl
  have hmin : L06.tcpMinHeaderLength = 20 := rfl
  have hoffset : window.getD 12 0 >>> 4 < 5 ↔ (window.getD 12 0 >>> 4).toNat * 4 < 20 := by
    rw [UInt8.lt_iff_toNat_lt, show UInt8.toNat 5 = 5 from rfl]
    omega
  rw [hhead]
  unfold L06.parseSegment
  dsimp only
  constructor
  · rintro ⟨segment, hok⟩
    split at hok
    · cases hok
    · split at hok
      · cases hok
      · next hfields =>
        obtain ⟨hlow, hreserved⟩ := not_or.mp hfields
        rw [hoffset] at hlow
        split at hok
        · cases hok
        · exact ⟨by omega, not_not.mp hreserved, by omega, by omega⟩
  · rintro ⟨hlen, hreserved, hlow, hfit⟩
    have hlow' : ¬ window.getD 12 0 >>> 4 < 5 := by
      rw [hoffset]
      omega
    rw [if_neg (by omega), if_neg (not_or.mpr ⟨hlow', not_not.mpr hreserved⟩), if_neg (by omega)]
    exact ⟨_, rfl⟩

theorem parseSegment_fields {segment : L06.Segment} (h : L06.parseSegment window = .ok segment) :
    segment.sourcePort = readU16 window 0 ∧ segment.destinationPort = readU16 window 2 ∧
      segment.flags.toUInt8 = window.getD 13 0 ∧
      segment.payloadLength = window.length - (window.getD 12 0 >>> 4).toNat * 4 := by
  have hlow : ∀ a b : UInt8, ((a.toUInt16 <<< 8) ||| b.toUInt16).toUInt8 = b := by
    intro a b
    have hb := b.toNat_lt
    have hword := toNat_be16 a b
    unfold be16 at hword
    apply UInt8.toNat_inj.mp
    rw [UInt16.toNat_toUInt8, hword]
    omega
  unfold L06.parseSegment at h
  dsimp only at h
  split at h
  · cases h
  · split at h
    · cases h
    · split at h
      · cases h
      · obtain rfl := Except.ok.inj h
        exact ⟨rfl, rfl, hlow _ _, rfl⟩

/-- What `parseTcp` has recorded behind its checks. -/
def tcpReport (report : Report) (tcp : Bytes) : Report := ((addLayer report .tcp).withPorts tcp).withTcpFlags tcp

theorem parseTcp_of_ok (hok : ∃ segment, L06.parseSegment window = .ok segment) :
    parseTcp ipv4 window window.length frameOffset report =
      parseTcpPayload ipv4 window window.length frameOffset ((window.getD 12 0 >>> 4).toNat * 4)
        (tcpReport report window) := by
  obtain ⟨hlen, hreserved, hlow, hfit⟩ := (parseSegment_ok_iff window).mp hok
  unfold parseTcp
  dsimp only
  rw [if_neg (by omega), if_neg (not_not.mpr hreserved), if_neg (by omega), if_neg (by omega)]
  rfl

theorem parseTcp_of_not_ok (hbad : ¬ ∃ segment, L06.parseSegment window = .ok segment) :
    (parseTcp ipv4 window window.length frameOffset report).2.checksumsChecked = report.checksumsChecked := by
  have hlayer := addLayer_kept report .tcp
  have hfields : (tcpReport report window).checksumsChecked = report.checksumsChecked := hlayer.checked
  rw [parseSegment_ok_iff] at hbad
  unfold parseTcp
  dsimp only
  split
  · exact (hlayer.trans (truncated_kept _ _)).checked
  · split
    · exact (malformed_kept _ _).checked.trans hfields
    · next hreserved =>
      split
      · exact (malformed_kept _ _).checked.trans hfields
      · split
        · exact (truncated_kept _ _).checked.trans hfields
        · exact absurd ⟨by omega, not_not.mp hreserved, by omega, by omega⟩ hbad

include hip hwindow

theorem tcpChecksum_iff :
    transportChecksumValid ipv4 6 window window.length = true ↔
      L06.ipv4Checksum (slice ipv4 12 4) (slice ipv4 16 4) window = .ok 0 := by
  have hhead : ipv4MinHeader = 20 := rfl
  have hspans : ¬ (!L06.validIpv4Span (slice ipv4 12 4) || !L06.validIpv4Span (slice ipv4 16 4)) = true := by
    unfold L06.validIpv4Span
    rw [length_slice (by omega), length_slice (by omega)]
    decide
  unfold L06.ipv4Checksum
  rw [if_neg hspans, if_neg (by omega), transportChecksumValid_iff hip hwindow, Except.ok.injEq,
    L06.checksumUnchecked_eq_zero_iff _ _ hwindow]
  rfl

theorem parseTcp_agrees (hchecked : report.checksumsChecked = 1) (hclean : ¬ report.has .transportChecksum = true) :
    let after := (parseTcp ipv4 window window.length frameOffset report).2
    (after.checksumsChecked = 2 ↔ ∃ segment, L06.parseSegment window = .ok segment) ∧
      ∀ segment, L06.parseSegment window = .ok segment →
        after.sourcePort = segment.sourcePort ∧ after.destinationPort = segment.destinationPort ∧
          after.tcpFlags = segment.flags.toUInt8 ∧ after.payloadLength = segment.payloadLength ∧
          (¬ after.has .transportChecksum = true ↔
            L06.ipv4Checksum (slice ipv4 12 4) (slice ipv4 16 4) window = .ok 0) := by
  intro after
  by_cases hok : ∃ segment, L06.parseSegment window = .ok segment
  · have hkept := parseTcpPayload_kept ipv4 window window.length frameOffset ((window.getD 12 0 >>> 4).toNat * 4)
      (tcpReport report window)
    rw [← parseTcp_of_ok frameOffset report hok] at hkept
    have hlayer := addLayer_kept report .tcp
    refine ⟨iff_of_true ?_ hok, fun segment hsegment => ?_⟩
    · have hfields : (tcpReport report window).checksumsChecked = report.checksumsChecked := hlayer.checked
      have hrec := recordChecksum_checked (tcpReport report window)
        (transportChecksumValid ipv4 6 window window.length) .transportChecksum
      rw [hfields, hchecked] at hrec
      exact hkept.checked.trans hrec
    · obtain ⟨hsource, hdestination, hflags, hpayload⟩ := parseSegment_fields hsegment
      obtain ⟨h1, h2, h3, -⟩ := recordChecksum_fields (tcpReport report window)
        (transportChecksumValid ipv4 6 window window.length) .transportChecksum
      have hbit : (tcpReport report window).has .transportChecksum = true ↔ report.has .transportChecksum = true :=
        hlayer.transportChecksum
      have hrec := has_recordChecksum (tcpReport report window) (transportChecksumValid ipv4 6 window window.length)
        .transportChecksum .transportChecksum
      rw [hbit] at hrec
      have hafter : after.has .transportChecksum = true ↔ transportChecksumValid ipv4 6 window window.length = false :=
        (hkept.transportChecksum.trans hrec).trans (by simp [hclean])
      refine ⟨hkept.sourcePort.trans (h1.trans hsource.symm), hkept.destinationPort.trans (h2.trans hdestination.symm),
        hkept.tcpFlags.trans (h3.trans hflags.symm), hkept.payloadLength.trans hpayload.symm, ?_⟩
      rw [← tcpChecksum_iff hip hwindow, hafter, Bool.not_eq_false]
  · have hnone := @parseTcp_of_not_ok ipv4 window frameOffset report hok
    refine ⟨iff_of_false ?_ hok, fun segment hsegment => absurd ⟨segment, hsegment⟩ hok⟩
    intro htwo
    rw [hnone] at htwo
    omega

omit hip hwindow

/-! ## UDP -/

theorem parseDatagram_ok_iff (window : Bytes) :
    (∃ datagram, L05.parseDatagram window = .ok datagram) ↔
      udpHeader ≤ window.length ∧ (readU16 window 4).toNat = window.length := by
  have hhead : udpHeader = L05.udpHeaderLength := rfl
  have hread : L05.readU16 window 4 = readU16 window 4 := rfl
  rw [hhead]
  unfold L05.parseDatagram
  dsimp only
  rw [hread]
  constructor
  · rintro ⟨datagram, hok⟩
    split at hok
    · cases hok
    · split at hok
      · cases hok
      · split at hok
        · cases hok
        · split at hok
          · cases hok
          · exact ⟨by omega, by omega⟩
  · rintro ⟨hlen, hdeclared⟩
    rw [if_neg (by omega), if_neg (by omega), if_neg (by omega), if_neg (by omega)]
    exact ⟨_, rfl⟩

theorem parseDatagram_fields {datagram : L05.Datagram} (h : L05.parseDatagram window = .ok datagram) :
    datagram.sourcePort = readU16 window 0 ∧ datagram.destinationPort = readU16 window 2 ∧
      datagram.checksum = readU16 window 6 ∧ datagram.payloadLength = window.length - udpHeader := by
  unfold L05.parseDatagram at h
  dsimp only at h
  split at h
  · cases h
  · split at h
    · cases h
    · split at h
      · cases h
      · split at h
        · cases h
        · obtain rfl := Except.ok.inj h
          exact ⟨rfl, rfl, rfl, rfl⟩

/-- What `parseUdp` has recorded behind its checks. -/
def udpReport (report : Report) (udp : Bytes) : Report := (addLayer report .udp).withPorts udp

theorem parseUdp_of_ok (hok : ∃ datagram, L05.parseDatagram window = .ok datagram) :
    parseUdp ipv4 window window.length frameOffset report =
      parseUdpPayload ipv4 window window.length frameOffset (udpReport report window) := by
  obtain ⟨hlen, hdeclared⟩ := (parseDatagram_ok_iff window).mp hok
  unfold parseUdp
  dsimp only
  rw [hdeclared, if_neg (by omega), if_neg (by omega), if_neg (by omega), if_neg (by omega)]
  rfl

/-- A datagram that does not parse is an error, and DNS is not entered. -/
theorem parseUdp_of_not_ok (hbad : ¬ ∃ datagram, L05.parseDatagram window = .ok datagram) :
    (parseUdp ipv4 window window.length frameOffset report).1 ≠ .ok ∧
      (parseUdp ipv4 window window.length frameOffset report).2.layers = (addLayer report .udp).layers := by
  rw [parseDatagram_ok_iff] at hbad
  unfold parseUdp
  dsimp only
  split
  · exact ⟨by simp [truncated], rfl⟩
  · split
    · exact ⟨by simp [malformed], rfl⟩
    · split
      · exact ⟨by simp [truncated], rfl⟩
      · split
        · exact ⟨by simp [malformed], rfl⟩
        · exact absurd ⟨by omega, by omega⟩ hbad

/-- The datagram is complete: either DNS is entered, or the status is `OK`. -/
theorem parseUdpPayload_settles (hroom : report.layers.length < maxLayers) (udp : Bytes) (udpLen : Nat) :
    (parseUdpPayload ipv4 udp udpLen frameOffset report).1 = .ok ∨
      .dns ∈ (parseUdpPayload ipv4 udp udpLen frameOffset report).2.layers := by
  have hlayers : (recordUdpChecksum (report.withPayloadLength (udpLen - udpHeader)) ipv4 udp udpLen).layers =
      report.layers := by
    unfold recordUdpChecksum
    split
    · obtain ⟨-, -, -, -, -, hsame⟩ := recordChecksum_fields (report.withPayloadLength (udpLen - udpHeader))
        (transportChecksumValid ipv4 17 udp udpLen) .transportChecksum
      exact hsame
    · rfl
  unfold parseUdpPayload
  dsimp only
  split
  · right
    rw [parseDns_layers, addLayer_layers, hlayers, if_pos hroom]
    exact List.mem_append_right _ (List.mem_singleton.mpr rfl)
  · exact .inl rfl

theorem recordUdpChecksum_ports (report : Report) (ipv4 udp : Bytes) (udpLen : Nat) :
    (recordUdpChecksum report ipv4 udp udpLen).sourcePort = report.sourcePort ∧
      (recordUdpChecksum report ipv4 udp udpLen).destinationPort = report.destinationPort := by
  unfold recordUdpChecksum
  split
  · obtain ⟨hsource, hdestination, -⟩ := recordChecksum_fields report (transportChecksumValid ipv4 17 udp udpLen)
      .transportChecksum
    exact ⟨hsource, hdestination⟩
  · exact ⟨rfl, rfl⟩

theorem has_recordUdpChecksum (ipv4 udp : Bytes) (udpLen : Nat) (hclean : ¬ report.has .transportChecksum = true) :
    (recordUdpChecksum report ipv4 udp udpLen).has .transportChecksum = true ↔
      readU16 udp 6 ≠ 0 ∧ transportChecksumValid ipv4 17 udp udpLen = false := by
  unfold recordUdpChecksum
  split
  · next hsent =>
    rw [has_recordChecksum]
    simp [hclean, hsent]
  · next hsent =>
    exact iff_of_false hclean fun h => hsent h.1

include hip hwindow

theorem udpChecksum_iff :
    transportChecksumValid ipv4 17 window window.length = true ↔
      L05.ipv4Checksum (slice ipv4 12 4) (slice ipv4 16 4) window = .ok 0 := by
  have hhead : ipv4MinHeader = 20 := rfl
  have hspans : ¬ (!L05.validIpv4Span (slice ipv4 12 4) || !L05.validIpv4Span (slice ipv4 16 4)) = true := by
    unfold L05.validIpv4Span
    rw [length_slice (by omega), length_slice (by omega)]
    decide
  unfold L05.ipv4Checksum
  rw [if_neg hspans, if_neg (by omega), transportChecksumValid_iff hip hwindow, Except.ok.injEq,
    L05.checksumUnchecked_eq_zero_iff _ _ hwindow]
  rfl

theorem parseUdp_agrees (hlayers : report.layers = [.ethernet, .ipv4])
    (hclean : ¬ report.has .transportChecksum = true) :
    let result := parseUdp ipv4 window window.length frameOffset report
    ((result.1 = .ok ∨ .dns ∈ result.2.layers) ↔ ∃ datagram, L05.parseDatagram window = .ok datagram) ∧
      ∀ datagram, L05.parseDatagram window = .ok datagram →
        result.2.sourcePort = datagram.sourcePort ∧ result.2.destinationPort = datagram.destinationPort ∧
          result.2.payloadLength = datagram.payloadLength ∧
          (¬ result.2.has .transportChecksum = true ↔ datagram.checksum = 0 ∨
            L05.ipv4Checksum (slice ipv4 12 4) (slice ipv4 16 4) window = .ok 0) := by
  intro result
  have hadd : (addLayer report .udp).layers = [.ethernet, .ipv4, .udp] := by
    rw [addLayer_layers, hlayers]
    rfl
  by_cases hok : ∃ datagram, L05.parseDatagram window = .ok datagram
  · have hresult : result = parseUdpPayload ipv4 window window.length frameOffset (udpReport report window) :=
      parseUdp_of_ok frameOffset report hok
    have hroom : (udpReport report window).layers.length < maxLayers := by
      show (addLayer report .udp).layers.length < maxLayers
      rw [hadd]
      decide
    have hkept := parseUdpPayload_kept ipv4 window window.length frameOffset (udpReport report window)
    rw [← hresult] at hkept
    have hsettles := @parseUdpPayload_settles ipv4 frameOffset (udpReport report window) hroom window window.length
    rw [← hresult] at hsettles
    refine ⟨iff_of_true hsettles hok, fun datagram hdatagram => ?_⟩
    obtain ⟨hsource, hdestination, hchecksum, hpayload⟩ := parseDatagram_fields hdatagram
    have hbit :
        ((udpReport report window).withPayloadLength (window.length - udpHeader)).has .transportChecksum = true ↔
          report.has .transportChecksum = true := (addLayer_kept report .udp).transportChecksum
    have hrec := has_recordUdpChecksum _ ipv4 window window.length (mt hbit.mp hclean)
    obtain ⟨h1, h2⟩ := recordUdpChecksum_ports ((udpReport report window).withPayloadLength (window.length - udpHeader))
      ipv4 window window.length
    refine ⟨hkept.sourcePort.trans (h1.trans hsource.symm), hkept.destinationPort.trans (h2.trans hdestination.symm),
      hkept.payloadLength.trans ((recordUdpChecksum_payloadLength _ _ _ _).trans hpayload.symm), ?_⟩
    rw [← udpChecksum_iff hip hwindow, hkept.transportChecksum, hrec, hchecksum, not_and_or, not_not, Bool.not_eq_false]
  · obtain ⟨hstatus, hsame⟩ := @parseUdp_of_not_ok ipv4 window frameOffset report hok
    refine ⟨iff_of_false ?_ hok, fun datagram hdatagram => absurd ⟨datagram, hdatagram⟩ hok⟩
    rintro (h | h)
    · exact hstatus h
    · rw [hsame, hadd] at h
      exact absurd h (by decide)

end Transport

/-! ## The frame -/

/-- The bytes between the header and the total length. -/
def payloadWindow (packet : Bytes) : Bytes :=
  slice packet (L03.ihlBytes packet) ((readU16 packet 2).toNat - L03.ihlBytes packet)

section Packet
variable {packet : Bytes} {frameOffset : Nat} {report : Report} (h : L03.Structural packet)
  (hreserved : readU16 packet 6 &&& 0x8000 = 0) (hwhole : readU16 packet 6 &&& 0x3fff = 0)
include h

theorem length_payloadWindow : (payloadWindow packet).length = (readU16 packet 2).toNat - L03.ihlBytes packet := by
  obtain ⟨-, -, -, htotal, hfit⟩ := h
  have htwo : L03.readBe16 packet 2 = readU16 packet 2 := rfl
  rw [htwo] at htotal hfit
  exact length_slice (by omega)

theorem length_payloadWindow_le : (payloadWindow packet).length ≤ uint16Max := by
  have hword := (readU16 packet 2).toNat_lt
  have hmax : uint16Max = 65535 := rfl
  rw [length_payloadWindow h]
  omega

/-- The payload pointer and the window agree on the length of the window. -/
theorem sameWindow_payload :
    SameWindow (packet.drop (L03.ihlBytes packet)) (payloadWindow packet) (payloadWindow packet).length := by
  unfold SameWindow
  rw [List.take_length, length_payloadWindow h]
  rfl

include hreserved hwhole

theorem parseIpv4_whole : parseIpv4 packet packet.length frameOffset report =
    let payload := packet.drop (L03.ihlBytes packet)
    let payloadOffset := frameOffset + L03.ihlBytes packet
    let header := headerReport packet report
    if packet.getD 9 0 = 1 then parseIcmp payload (payloadWindow packet).length payloadOffset header
    else if packet.getD 9 0 = 17 then parseUdp packet payload (payloadWindow packet).length payloadOffset header
    else if packet.getD 9 0 = 6 then parseTcp packet payload (payloadWindow packet).length payloadOffset header
    else completed ((header.raise .unsupported).withPayloadLength (payloadWindow packet).length)
      (frameOffset + (readU16 packet 2).toNat) := by
  rw [parseIpv4_structural packet frameOffset report h]
  unfold parseIpv4Payload
  dsimp only
  rw [if_neg (not_not.mpr hreserved), if_neg (not_not.mpr hwhole), headerReport_ipProtocol packet report,
    ← length_payloadWindow h]

theorem parseIpv4_tcp (hprotocol : packet.getD 9 0 = 6) :
    parseIpv4 packet packet.length frameOffset report = atLength (headerReport packet report).frameLength
      (parseTcp packet (payloadWindow packet) (payloadWindow packet).length (frameOffset + L03.ihlBytes packet)
        (headerReport packet report)) := by
  rw [parseIpv4_whole h hreserved hwhole, hprotocol]
  exact parseTcp_congr rfl (sameWindow_payload h) _ (headerReport packet report).frameLength _

theorem parseIpv4_udp (hprotocol : packet.getD 9 0 = 17) :
    parseIpv4 packet packet.length frameOffset report = atLength (headerReport packet report).frameLength
      (parseUdp packet (payloadWindow packet) (payloadWindow packet).length (frameOffset + L03.ihlBytes packet)
        (headerReport packet report)) := by
  rw [parseIpv4_whole h hreserved hwhole, hprotocol]
  exact parseUdp_congr rfl (sameWindow_payload h) _ (headerReport packet report).frameLength _

end Packet

/-- Behind the Ethernet header there are three cases. -/
theorem diagnoseFrame_eq {frame : Bytes} (h : ethernetHeader ≤ frame.length) :
    let packet := frame.drop ethernetHeader
    let report := (Report.start frame.length).withEthernetHeader frame
    diagnoseFrame frame =
      if readU16 frame 12 = 0x0806 then parseArp packet packet.length ethernetHeader report
      else if readU16 frame 12 = 0x0800 then parseIpv4 packet packet.length ethernetHeader report
      else (.ok, report.raise .unsupported) := by
  intro packet report
  have hlen : frame.length - ethernetHeader = packet.length := List.length_drop.symm
  have htype : report.etherType = readU16 frame 12 := rfl
  unfold diagnoseFrame
  dsimp only
  rw [if_neg (by omega), htype, hlen]

theorem diagnoseFrame_ipv4 {frame : Bytes} (h : ethernetHeader ≤ frame.length) (htype : readU16 frame 12 = 0x0800) :
    diagnoseFrame frame = parseIpv4 (frame.drop ethernetHeader) (frame.drop ethernetHeader).length ethernetHeader
      ((Report.start frame.length).withEthernetHeader frame) := by
  have hnotarp : readU16 frame 12 ≠ 0x0806 := by
    rw [htype]
    decide
  rw [diagnoseFrame_eq h, if_neg hnotarp, if_pos htype]

/-- **Main result.** On every frame with an Ethernet header the diagnoser and the parsers of the lessons tell the same:
ARP as a whole, the IPv4 header with its checksum, and in an unfragmented packet the segment or the datagram. -/
theorem diagnoseFrame_agrees (frame : Bytes) (h : ethernetHeader ≤ frame.length) :
    let packet := frame.drop ethernetHeader
    let window := payloadWindow packet
    let status := (diagnoseFrame frame).1
    let report := (diagnoseFrame frame).2
    (readU16 frame 12 = 0x0806 → (status = .ok ↔ ∃ parsed, L02.parseArp packet = .ok parsed)) ∧
    (readU16 frame 12 = 0x0800 →
      ((∃ parsed, L03.parseIpv4 packet = .ok parsed) ↔
        1 ≤ report.checksumsChecked ∧ ¬ report.has .ipv4Checksum = true ∧ readU16 packet 6 &&& 0x8000 = 0) ∧
      (L03.Structural packet → readU16 packet 6 &&& 0x8000 = 0 → readU16 packet 6 &&& 0x3fff = 0 →
        (packet.getD 9 0 = 6 →
          (report.checksumsChecked = 2 ↔ ∃ segment, L06.parseSegment window = .ok segment) ∧
          ∀ segment, L06.parseSegment window = .ok segment →
            report.sourcePort = segment.sourcePort ∧ report.destinationPort = segment.destinationPort ∧
              report.tcpFlags = segment.flags.toUInt8 ∧ report.payloadLength = segment.payloadLength ∧
              (¬ report.has .transportChecksum = true ↔
                L06.ipv4Checksum (slice packet 12 4) (slice packet 16 4) window = .ok 0)) ∧
        (packet.getD 9 0 = 17 →
          ((status = .ok ∨ .dns ∈ report.layers) ↔ ∃ datagram, L05.parseDatagram window = .ok datagram) ∧
          ∀ datagram, L05.parseDatagram window = .ok datagram →
            report.sourcePort = datagram.sourcePort ∧ report.destinationPort = datagram.destinationPort ∧
              report.payloadLength = datagram.payloadLength ∧
              (¬ report.has .transportChecksum = true ↔ datagram.checksum = 0 ∨
                L05.ipv4Checksum (slice packet 12 4) (slice packet 16 4) window = .ok 0)))) := by
  intro packet window status report
  have hdiagnose := diagnoseFrame_eq h
  have hstart : Running frame.length [.ethernet] 0 ((Report.start frame.length).withEthernetHeader frame) :=
    { start_running frame.length with }
  generalize (Report.start frame.length).withEthernetHeader frame = start at hdiagnose hstart
  dsimp only at hdiagnose
  have hchecked : start.checksumsChecked = 0 := Nat.le_zero.mp hstart.checked_le
  have hmismatch : ¬ start.has .checksumMismatch = true := by
    rw [← hstart.mismatch, hchecked]
    exact Nat.not_lt_zero _
  have hclean4 : ¬ start.has .ipv4Checksum = true := fun hbit => hmismatch (hstart.targeted.mpr (.inl hbit))
  have hcleant : ¬ start.has .transportChecksum = true := fun hbit => hmismatch (hstart.targeted.mpr (.inr hbit))
  refine ⟨fun harp => ?_, fun hip => ?_⟩
  · rw [if_pos harp] at hdiagnose
    show (diagnoseFrame frame).1 = .ok ↔ _
    rw [hdiagnose]
    exact parseArp_agrees packet ethernetHeader start
  have hnotarp : readU16 frame 12 ≠ 0x0806 := by
    rw [hip]
    decide
  rw [if_neg hnotarp, if_pos hip] at hdiagnose
  have hreport : report = (parseIpv4 packet packet.length ethernetHeader start).2 := congrArg Prod.snd hdiagnose
  have hstatus : status = (parseIpv4 packet packet.length ethernetHeader start).1 := congrArg Prod.fst hdiagnose
  refine ⟨?_, fun hstruct hreserved hwhole => ⟨fun hprotocol => ?_, fun hprotocol => ?_⟩⟩
  · rw [hreport]
    exact parseIpv4_agrees ethernetHeader hchecked hclean4
  · rw [hreport, parseIpv4_tcp hstruct hreserved hwhole hprotocol]
    exact parseTcp_agrees hstruct.1 (length_payloadWindow_le hstruct) _ _ (headerReport_checked hchecked)
      (headerReport_transportChecksum hcleant)
  · have hlayers : (headerReport packet start).layers = [.ethernet, .ipv4] := by
      have hadd := hstart.addLayer (by decide) .ipv4
      obtain ⟨-, -, -, -, -, hsame⟩ := recordChecksum_fields ((addLayer start .ipv4).withIpv4Fields packet)
        (checksumValid packet (L03.ihlBytes packet)) .ipv4Checksum
      exact hsame.trans hadd.layers_eq
    rw [hreport, hstatus, parseIpv4_udp hstruct hreserved hwhole hprotocol]
    exact parseUdp_agrees hstruct.1 (length_payloadWindow_le hstruct) _ _ hlayers
      (headerReport_transportChecksum hcleant)

/-- An empty UDP datagram from port 7 to port 9 without a checksum, in front of two bytes of padding. -/
def emptyUdpFrame : Bytes := [0, 0, 0, 0, 0, 0, 0, 0, 0, 0, 0, 0, 8, 0,
  0x45, 0, 0, 28, 0, 0, 0, 0, 64, 17, 0, 0, 10, 0, 0, 1, 10, 0, 0, 2,
  0, 7, 0, 9, 0, 8, 0, 0, 0, 0]

theorem diagnoseFrame_agrees_emptyUdp :
    ((diagnoseFrame emptyUdpFrame).1 = .ok ∨ .dns ∈ (diagnoseFrame emptyUdpFrame).2.layers) ∧
      (diagnoseFrame emptyUdpFrame).2.destinationPort = 9 := by
  have hagree := (diagnoseFrame_agrees emptyUdpFrame (by decide)).2 (by decide)
  have hudp := (hagree.2 (by decide) (by decide) (by decide)).2 (by decide)
  have hparsed : L05.parseDatagram (payloadWindow (emptyUdpFrame.drop ethernetHeader)) = .ok ⟨7, 9, 8, 0, 8, 0⟩ := by
    decide
  exact ⟨hudp.1.mpr ⟨_, hparsed⟩, (hudp.2 _ hparsed).2.1⟩

end TcpipCourse.L12
