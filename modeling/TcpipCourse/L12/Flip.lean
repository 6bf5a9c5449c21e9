import TcpipCourse.L12.Chain
import TcpipCourse.L12.Cut

/-!
# Lesson 12: one flipped bit

* `Suspect` : the diagnoser finds an error or a bad checksum; `parseTcp_suspect` and its siblings : a checksum that does
  not verify is enough, wherever the parser stops;
* `checksumValid_flipBit`, `transportChecksumValid_flipBit` : the two checksums see a flipped bit;
* `Covered` : the bits of a packet that a checksum covers;
* `flip_suspect` : no flip of one of them gets past the diagnoser.
-/

namespace TcpipCourse.L12
open Lib

/-- The frame is cut or malformed, or a checksum of it is bad. -/
def Suspect (result : Status × Report) : Prop :=
  (result.1 = .truncated ∨ result.1 = .malformed) ∨
    result.2.has .ipv4Checksum = true ∨ result.2.has .transportChecksum = true

theorem truncated_suspect (report : Report) (parsed : Nat) : Suspect (truncated report parsed) := .inl (.inl rfl)

theorem malformed_suspect (report : Report) (parsed : Nat) : Suspect (malformed report parsed) := .inl (.inr rfl)

/-! ## A checksum that does not verify -/

section Bad
variable (frameOffset : Nat) (report : Report)

theorem parseIcmp_suspect {icmp : Bytes} {len : Nat} (hbad : checksumValid icmp len = false) :
    Suspect (parseIcmp icmp len frameOffset report) := by
  unfold parseIcmp
  split
  · exact truncated_suspect _ _
  · refine .inr (.inr ((completed_kept _ _).transportChecksum.mpr ?_))
    rw [has_recordChecksum]
    exact .inl ⟨hbad, .inl rfl⟩

theorem parseTcp_suspect {ipv4 tcp : Bytes} {len : Nat} (hbad : transportChecksumValid ipv4 6 tcp len = false) :
    Suspect (parseTcp ipv4 tcp len frameOffset report) := by
  unfold parseTcp
  split
  · exact truncated_suspect _ _
  · dsimp only
    split
    · exact malformed_suspect _ _
    · split
      · exact malformed_suspect _ _
      · split
        · exact truncated_suspect _ _
        · refine .inr (.inr ((parseTcpPayload_kept _ _ _ _ _ _).transportChecksum.mpr ?_))
          exact (has_recordChecksum _ _ _ _).mpr (.inl ⟨hbad, .inl rfl⟩)

theorem parseUdp_suspect {ipv4 udp : Bytes} {len : Nat} (hsent : readU16 udp 6 ≠ 0)
    (hbad : transportChecksumValid ipv4 17 udp len = false) : Suspect (parseUdp ipv4 udp len frameOffset report) := by
  unfold parseUdp
  split
  · exact truncated_suspect _ _
  · dsimp only
    split
    · exact malformed_suspect _ _
    · split
      · exact truncated_suspect _ _
      · split
        · exact malformed_suspect _ _
        · next hlong hshort =>
          obtain rfl : (readU16 udp 4).toNat = len := by omega
          refine .inr (.inr ((parseUdpPayload_kept _ _ _ _ _).transportChecksum.mpr ?_))
          unfold recordUdpChecksum
          rw [if_pos hsent, has_recordChecksum]
          exact .inl ⟨hbad, .inl rfl⟩

theorem parseIpv4_suspect_of_not_structural {packet : Bytes} (h : ¬ L03.Structural packet) :
    Suspect (parseIpv4 packet packet.length frameOffset report) := .inl (parseIpv4_stops frameOffset report h)

theorem parseIpv4_suspect {packet : Bytes} (hbad : checksumValid packet (L03.ihlBytes packet) = false) :
    Suspect (parseIpv4 packet packet.length frameOffset report) := by
  by_cases hstruct : L03.Structural packet
  · rw [parseIpv4_structural packet frameOffset report hstruct]
    refine .inr (.inl ((parseIpv4Payload_grows _ _ _ _ _).ipv4Checksum.mpr ?_))
    unfold headerReport
    rw [has_recordChecksum]
    exact .inl ⟨hbad, .inl rfl⟩
  · exact parseIpv4_suspect_of_not_structural frameOffset report hstruct

theorem parseIpv4_suspect_of_reserved {packet : Bytes} (hreserved : readU16 packet 6 &&& 0x8000 ≠ 0) :
    Suspect (parseIpv4 packet packet.length frameOffset report) := by
  by_cases hstruct : L03.Structural packet
  · rw [parseIpv4_structural packet frameOffset report hstruct]
    unfold parseIpv4Payload
    dsimp only
    rw [if_pos hreserved]
    exact malformed_suspect _ _
  · exact parseIpv4_suspect_of_not_structural frameOffset report hstruct

end Bad

/-! ## A flip in the range of a checksum -/

theorem checksumValid_eq_true_iff {data : Bytes} {len : Nat} (hlen : len ≤ data.length) (hmax : len ≤ uint16Max) :
    checksumValid data len = true ↔ endAround (0 + wordSum (data.take len)) = 65535 := by
  rw [checksumValid_iff hlen hmax]
  exact finish_addBytes_eq_zero_iff (by decide) _

theorem checksumValid_flipBit {data : Bytes} {len i bit : Nat} (hlen : len ≤ data.length) (hmax : len ≤ uint16Max)
    (hi : i < len) (hbit : bit < 8) (h : checksumValid data len = true) :
    checksumValid (flipBit data i bit) len = false := by
  rw [checksumValid_eq_true_iff hlen hmax] at h
  rw [← Bool.not_eq_true, checksumValid_eq_true_iff (by rwa [length_flipBit]) hmax, take_flipBit hi]
  exact endAround_flipBit (by rw [List.length_take]; omega) hbit h

theorem transportChecksumValid_flipBit {ipv4 segment : Bytes} {i bit : Nat} (hip : ipv4MinHeader ≤ ipv4.length)
    (hmax : segment.length ≤ uint16Max) {protocol : UInt8} (hi : i < segment.length) (hbit : bit < 8)
    (h : transportChecksumValid ipv4 protocol segment segment.length = true) :
    transportChecksumValid ipv4 protocol (flipBit segment i bit) segment.length = false := by
  have hflip := transportChecksumValid_iff hip (show (flipBit segment i bit).length ≤ uint16Max by rwa [length_flipBit])
    protocol
  rw [length_flipBit] at hflip
  rw [transportChecksumValid_iff hip hmax] at h
  rw [← Bool.not_eq_true, hflip]
  exact endAround_flipBit hi hbit h

/-! ## A flip in a packet -/

/-- The bits that a checksum covers: the header but for its own length, and the payload of a whole packet. A UDP
checksum that is zero, or becomes zero, covers nothing. -/
def Covered (packet : Bytes) (i bit : Nat) : Prop :=
  i < L03.ihlBytes packet ∧ ¬ (i = 0 ∧ bit < 4) ∨
  L03.ihlBytes packet ≤ i ∧ i < (readU16 packet 2).toNat ∧ readU16 packet 6 &&& 0x3fff = 0 ∧
    (packet.getD 9 0 = 1 ∨ packet.getD 9 0 = 6 ∨ packet.getD 9 0 = 17 ∧
      readU16 (packet.drop (L03.ihlBytes packet)) 6 ≠ 0 ∧
      readU16 ((flipBit packet i bit).drop (L03.ihlBytes packet)) 6 ≠ 0)

theorem low_flip (b : UInt8) (bit : Fin 8) (h : 4 ≤ bit.val) :
    (b ^^^ (1 <<< UInt8.ofNat bit.val)) &&& 0x0f = b &&& 0x0f := by
  have hall : ∀ n : Fin 256, ∀ k : Fin 8, 4 ≤ k.val →
      (UInt8.ofNat n.val ^^^ (1 <<< UInt8.ofNat k.val)) &&& 0x0f = UInt8.ofNat n.val &&& 0x0f := by decide +kernel
  have hb := hall ⟨b.toNat, b.toNat_lt⟩ bit h
  rwa [UInt8.ofNat_toNat] at hb

/-- The high bits of the first byte are the version. -/
theorem ihlBytes_flipBit (packet : Bytes) {i bit : Nat} (hihl : ¬ (i = 0 ∧ bit < 4)) (hbit : bit < 8) :
    L03.ihlBytes (flipBit packet i bit) = L03.ihlBytes packet := by
  cases packet with
  | nil => rfl
  | cons b rest =>
    cases i with
    | zero =>
      have hlow := low_flip b ⟨bit, hbit⟩ (by show 4 ≤ bit; omega)
      exact congrArg (fun low : UInt8 => low.toNat * 4) hlow
    | succ i => rfl

section Packet
variable {packet : Bytes} (hstruct : L03.Structural packet) (frameOffset : Nat) (report : Report)
include hstruct

theorem ihlBytes_le_length : L03.ihlBytes packet ≤ packet.length ∧ L03.ihlBytes packet ≤ uint16Max :=
  ⟨hstruct.2.2.2.1.trans hstruct.2.2.2.2, (L03.ihlBytes_le packet).trans (by decide)⟩

theorem flipHeader_suspect (hvalid : checksumValid packet (L03.ihlBytes packet) = true) {i bit : Nat}
    (hi : i < L03.ihlBytes packet) (hihl : ¬ (i = 0 ∧ bit < 4)) (hbit : bit < 8) :
    Suspect (parseIpv4 (flipBit packet i bit) (flipBit packet i bit).length frameOffset report) := by
  obtain ⟨hlen, hmax⟩ := ihlBytes_le_length hstruct
  apply parseIpv4_suspect
  rw [ihlBytes_flipBit packet hihl hbit]
  exact checksumValid_flipBit hlen hmax hi hbit hvalid

variable {i : Nat} (hlo : L03.ihlBytes packet ≤ i) (bit : Nat)
include hlo

theorem drop_flipBit_payload : (flipBit packet i bit).drop (L03.ihlBytes packet) =
    flipBit (packet.drop (L03.ihlBytes packet)) (i - L03.ihlBytes packet) bit := by
  have htake := List.length_take_of_le (ihlBytes_le_length hstruct).1
  have happend := flipBit_append (packet.take (L03.ihlBytes packet)) (packet.drop (L03.ihlBytes packet))
    (i - L03.ihlBytes packet) bit
  rw [List.take_append_drop, htake, Nat.add_sub_cancel' hlo] at happend
  rw [happend, List.drop_left' htake]

theorem getD_flipBit_payload {k : Nat} (hk : k < 20) : (flipBit packet i bit).getD k 0 = packet.getD k 0 := by
  have hmin : L03.minHeaderLength ≤ L03.ihlBytes packet := hstruct.2.2.1
  have h20 : L03.minHeaderLength = 20 := rfl
  exact getD_eq_of_take_eq (take_flipBit_of_le hlo bit) (by omega) 0

theorem readU16_flipBit_payload {offset : Nat} (hoffset : offset < 19) :
    readU16 (flipBit packet i bit) offset = readU16 packet offset := by
  unfold readU16
  rw [getD_flipBit_payload hstruct hlo bit (by omega), getD_flipBit_payload hstruct hlo bit (by omega)]

theorem ihlBytes_flipBit_payload : L03.ihlBytes (flipBit packet i bit) = L03.ihlBytes packet := by
  unfold L03.ihlBytes
  rw [getD_flipBit_payload hstruct hlo bit (by omega)]

theorem structural_flipBit_payload : L03.Structural (flipBit packet i bit) := by
  have htwo : L03.readBe16 (flipBit packet i bit) 2 = L03.readBe16 packet 2 :=
    readU16_flipBit_payload hstruct hlo bit (by omega)
  have hihl := ihlBytes_flipBit_payload hstruct hlo bit
  unfold L03.Structural
  rw [length_flipBit, hihl, htwo, getD_flipBit_payload hstruct hlo bit (by omega)]
  exact hstruct

variable (hhi : i < (readU16 packet 2).toNat)
include hhi

theorem transport_flipBit_payload {protocol : UInt8} (hbit : bit < 8)
    (h : transportChecksumValid packet protocol (packet.drop (L03.ihlBytes packet)) (payloadWindow packet).length =
      true) :
    transportChecksumValid (flipBit packet i bit) protocol
      (flipBit (packet.drop (L03.ihlBytes packet)) (i - L03.ihlBytes packet) bit) (payloadWindow packet).length =
        false := by
  have hlen := length_payloadWindow hstruct
  have hwindow : SameWindow (flipBit (packet.drop (L03.ihlBytes packet)) (i - L03.ihlBytes packet) bit)
      (flipBit (payloadWindow packet) (i - L03.ihlBytes packet) bit) (payloadWindow packet).length := by
    have hsame := sameWindow_payload hstruct
    unfold SameWindow at hsame ⊢
    rw [take_flipBit (by omega), take_flipBit (by omega), hsame]
  have hheader : SameWindow (flipBit packet i bit) packet ipv4MinHeader := by
    exact take_flipBit_of_le (hstruct.2.2.1.trans hlo) bit
  rw [transportChecksumValid_congr rfl (sameWindow_payload hstruct)] at h
  rw [transportChecksumValid_congr hheader hwindow]
  exact transportChecksumValid_flipBit hstruct.1 (length_payloadWindow_le hstruct) (by omega) hbit h

theorem icmp_flipBit_payload (hbit : bit < 8)
    (h : checksumValid (packet.drop (L03.ihlBytes packet)) (payloadWindow packet).length = true) :
    checksumValid (flipBit (packet.drop (L03.ihlBytes packet)) (i - L03.ihlBytes packet) bit)
      (payloadWindow packet).length = false := by
  have hlen := length_payloadWindow hstruct
  have htotal := hstruct.2.2.2.2
  have htwo : L03.readBe16 packet 2 = readU16 packet 2 := rfl
  rw [htwo] at htotal
  exact checksumValid_flipBit (by rw [List.length_drop]; omega) (length_payloadWindow_le hstruct) (by omega) hbit h

theorem flipPayload_suspect (hreserved : readU16 packet 6 &&& 0x8000 = 0) (hwhole : readU16 packet 6 &&& 0x3fff = 0)
    (hprotocol : packet.getD 9 0 = 1 ∨ packet.getD 9 0 = 6 ∨ packet.getD 9 0 = 17 ∧
      readU16 (packet.drop (L03.ihlBytes packet)) 6 ≠ 0 ∧
      readU16 ((flipBit packet i bit).drop (L03.ihlBytes packet)) 6 ≠ 0) (hbit : bit < 8)
    (h : ¬ Suspect (parseIpv4 packet packet.length frameOffset report)) (report' : Report) :
    Suspect (parseIpv4 (flipBit packet i bit) (flipBit packet i bit).length frameOffset report') := by
  have hstruct' := structural_flipBit_payload hstruct hlo bit
  have hword := readU16_flipBit_payload hstruct hlo bit (show 6 < 19 by omega)
  have hihl := ihlBytes_flipBit_payload hstruct hlo bit
  have hlen : (payloadWindow (flipBit packet i bit)).length = (payloadWindow packet).length := by
    rw [length_payloadWindow hstruct', length_payloadWindow hstruct, hihl,
      readU16_flipBit_payload hstruct hlo bit (by omega)]
  rw [parseIpv4_whole hstruct hreserved hwhole] at h
  rw [parseIpv4_whole hstruct' (hword ▸ hreserved) (hword ▸ hwhole), hlen, hihl,
    getD_flipBit_payload hstruct hlo bit (by omega)]
  dsimp only at h ⊢
  rcases hprotocol with hicmp | htcp | ⟨hudp, hsent, hsent'⟩
  · rw [hicmp, if_pos rfl] at h
    rw [hicmp, if_pos rfl, drop_flipBit_payload hstruct hlo bit]
    apply parseIcmp_suspect
    apply icmp_flipBit_payload hstruct hlo bit hhi hbit
    by_contra hbad
    exact h (parseIcmp_suspect _ _ (eq_false_of_ne_true hbad))
  · rw [htcp, if_neg (by decide), if_neg (by decide), if_pos rfl] at h
    rw [htcp, if_neg (by decide), if_neg (by decide), if_pos rfl, drop_flipBit_payload hstruct hlo bit]
    apply parseTcp_suspect
    apply transport_flipBit_payload hstruct hlo bit hhi hbit
    by_contra hbad
    exact h (parseTcp_suspect _ _ (eq_false_of_ne_true hbad))
  · rw [hudp, if_neg (by decide), if_pos rfl] at h
    rw [hudp, if_neg (by decide), if_pos rfl]
    apply parseUdp_suspect _ _ hsent'
    rw [drop_flipBit_payload hstruct hlo bit]
    apply transport_flipBit_payload hstruct hlo bit hhi hbit
    by_contra hbad
    exact h (parseUdp_suspect _ _ hsent (eq_false_of_ne_true hbad))

end Packet

/-! ## A flip in a frame -/

/-- **Main result.** In a frame that the diagnoser does not suspect, any one flipped bit that a checksum covers makes it
suspect: in the header of the packet, or in its ICMP message, TCP segment or UDP datagram. -/
theorem flip_suspect {frame : Bytes} {i bit : Nat} (h : ¬ Suspect (diagnoseFrame frame))
    (htype : readU16 frame 12 = 0x0800) (hcovered : Covered (frame.drop ethernetHeader) i bit) (hbit : bit < 8) :
    Suspect (diagnoseFrame (flipBit frame (ethernetHeader + i) bit)) := by
  have h14 : ethernetHeader = 14 := rfl
  have hlen : ethernetHeader ≤ frame.length := by
    by_contra hshort
    apply h
    unfold diagnoseFrame
    dsimp only
    rw [if_pos (by omega)]
    exact truncated_suspect _ _
  have htake : (frame.take ethernetHeader).length = ethernetHeader := List.length_take_of_le hlen
  have hflip : flipBit frame (ethernetHeader + i) bit =
      frame.take ethernetHeader ++ flipBit (frame.drop ethernetHeader) i bit := by
    rw [← flipBit_append, htake, List.take_append_drop]
  have htype' : readU16 (flipBit frame (ethernetHeader + i) bit) 12 = 0x0800 := by
    have hfront := @take_flipBit_of_le frame (ethernetHeader + i) ethernetHeader (Nat.le_add_right _ _) bit
    rw [← htype]
    unfold readU16
    rw [getD_eq_of_take_eq hfront (by omega), getD_eq_of_take_eq hfront (by omega)]
  rw [diagnoseFrame_ipv4 hlen htype] at h
  rw [diagnoseFrame_ipv4 (by rwa [length_flipBit]) htype', hflip, List.drop_left' htake]
  generalize frame.drop ethernetHeader = packet at h hcovered
  have hstruct : L03.Structural packet := by
    by_contra hbad
    exact h (parseIpv4_suspect_of_not_structural _ _ hbad)
  rcases hcovered with ⟨hi, hihl⟩ | ⟨hlo, hhi, hwhole, hprotocol⟩
  · refine flipHeader_suspect hstruct _ _ ?_ hi hihl hbit
    by_contra hbad
    exact h (parseIpv4_suspect _ _ (eq_false_of_ne_true hbad))
  · refine flipPayload_suspect hstruct _ _ hlo bit hhi ?_ hwhole hprotocol hbit h _
    by_contra hreserved
    exact h (parseIpv4_suspect_of_reserved _ _ hreserved)

theorem flip_suspect_ping : ¬ Suspect (diagnoseFrame pingFrame) ∧ Suspect (diagnoseFrame (flipBit pingFrame 34 3)) := by
  have hclean : ¬ Suspect (diagnoseFrame pingFrame) := by
    unfold Suspect
    decide +kernel
  have hcovered : Covered (pingFrame.drop ethernetHeader) 20 3 :=
    .inr ⟨by decide, by decide, by decide, .inl (by decide)⟩
  exact ⟨hclean, flip_suspect hclean (by decide) hcovered (by decide)⟩

end TcpipCourse.L12
