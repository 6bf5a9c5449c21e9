import TcpipCourse.L03.Ttl
import TcpipCourse.L12.Agree

/-!
# Lesson 12: a forwarded packet

* `hopFrame` : the TTL of the packet in a frame is decremented in its place;
* `SameButTtl` : two packets that differ in the TTL and in the checksum, and verify; `decrementTtl_sameButTtl` : a hop
  leaves such a packet, or the same one;
* `forwarded_diagnosed` : the diagnoser does not see how often a packet was forwarded.
-/

namespace TcpipCourse.L12
open Lib

/-- `tcpip_l03_decrement_ttl` on the packet of a frame. -/
def hopFrame (frame : Bytes) : Bytes := frame.take ethernetHeader ++ (L03.decrementTtl (frame.drop ethernetHeader)).2

/-! ## The packet -/

/-- Two packets that verify and agree everywhere but at the TTL and the checksum. -/
structure SameButTtl (packet' packet : Bytes) : Prop where
  length_eq : packet'.length = packet.length
  front : ∀ i < 8, packet'.getD i 0 = packet.getD i 0
  protocol : packet'.getD 9 0 = packet.getD 9 0
  behind : packet'.drop 12 = packet.drop 12
  structural : L03.Structural packet
  verifies : checksumValid packet (L03.ihlBytes packet) = true
  verifies' : checksumValid packet' (L03.ihlBytes packet) = true

theorem parseIpv4_verifies {packet : Bytes} {parsed : L03.Ipv4Packet} (h : L03.parseIpv4 packet = .ok parsed) :
    L03.Structural packet ∧ checksumValid packet (L03.ihlBytes packet) = true := by
  obtain ⟨hstruct, -, hsum, -⟩ := L03.parseIpv4_eq_ok_iff.mp h
  have hihl := (L03.ihlBytes_le packet).trans (show L03.maxHeaderLength ≤ uint16Max by decide)
  exact ⟨hstruct, (checksumValid_iff (hstruct.2.2.2.1.trans hstruct.2.2.2.2) hihl).mpr hsum⟩

theorem hopPacket_sameButTtl {packet : Bytes} {parsed : L03.Ipv4Packet} (h : L03.parseIpv4 packet = .ok parsed) :
    SameButTtl (L03.hopPacket packet parsed) packet := by
  obtain ⟨hstruct, hverifies⟩ := parseIpv4_verifies h
  obtain ⟨-, hverifies'⟩ := parseIpv4_verifies (L03.parseIpv4_hopPacket h)
  have hlen := L03.length_hopPacket h
  have hihl : L03.ihlBytes (L03.hopPacket packet parsed) = L03.ihlBytes packet := by
    unfold L03.ihlBytes
    rw [L03.getD_hopPacket h (by omega) (by omega) (by omega)]
  rw [hihl] at hverifies'
  refine ⟨hlen, fun i hi => L03.getD_hopPacket h (by omega) (by omega) (by omega),
    L03.getD_hopPacket h (by omega) (by omega) (by omega), ?_, hstruct, hverifies, hverifies'⟩
  apply List.ext_getElem
  · rw [List.length_drop, List.length_drop, hlen]
  · intro i hi hi'
    have hget := @L03.getD_hopPacket _ _ h (12 + i) (by omega) (by omega) (by omega)
    rw [List.length_drop] at hi hi'
    rw [List.getElem_drop, List.getElem_drop, ← List.getD_eq_getElem _ 0 (by omega), hget,
      List.getD_eq_getElem _ 0 (by omega)]

theorem decrementTtl_sameButTtl (packet : Bytes) :
    (L03.decrementTtl packet).2 = packet ∨ SameButTtl (L03.decrementTtl packet).2 packet := by
  by_cases hhop : ∃ parsed, L03.parseIpv4 packet = .ok parsed ∧ 2 ≤ parsed.ttl.toNat
  · obtain ⟨parsed, hparse, httl⟩ := hhop
    rw [L03.decrementTtl_eq hparse httl]
    exact .inr (hopPacket_sameButTtl hparse)
  · refine .inl (L03.decrementTtl_refuses fun parsed hparse => ?_).2
    by_contra httl
    exact hhop ⟨parsed, hparse, by omega⟩

section Congr
variable {packet packet' : Bytes} (h : SameButTtl packet' packet) (frameOffset : Nat) (report : Report)
include h

theorem SameButTtl.readU16 {offset : Nat} (hoffset : offset < 7) : readU16 packet' offset = readU16 packet offset := by
  unfold L12.readU16
  rw [h.front _ (by omega), h.front _ (by omega)]

theorem SameButTtl.readU32 (offset : Nat) : readU32 packet' (12 + offset) = readU32 packet (12 + offset) := by
  have hget : ∀ i, packet'.getD (12 + i) 0 = packet.getD (12 + i) 0 := by
    intro i
    rw [← getD_drop, ← getD_drop, h.behind]
  unfold L12.readU32
  simp only [Nat.add_assoc, hget]

theorem SameButTtl.transportChecksumValid (protocol : UInt8) (segment : Bytes) (len : Nat) :
    transportChecksumValid packet' protocol segment len = transportChecksumValid packet protocol segment len := by
  unfold L12.transportChecksumValid
  rw [h.behind]

theorem SameButTtl.ihlBytes : L03.ihlBytes packet' = L03.ihlBytes packet := by
  unfold L03.ihlBytes
  rw [h.front 0 (by omega)]

theorem SameButTtl.structural' : L03.Structural packet' := by
  obtain ⟨hlen, hversion, hmin, htotal, hfit⟩ := h.structural
  have htwo : L03.readBe16 packet' 2 = L03.readBe16 packet 2 := h.readU16 (by omega)
  unfold L03.Structural
  rw [h.length_eq, h.front 0 (by omega), h.ihlBytes, htwo]
  exact ⟨hlen, hversion, hmin, htotal, hfit⟩

theorem SameButTtl.headerReport : headerReport packet' report = headerReport packet report := by
  have hfields : (addLayer report .ipv4).withIpv4Fields packet' = (addLayer report .ipv4).withIpv4Fields packet := by
    unfold Report.withIpv4Fields
    rw [h.protocol, h.readU32 0, h.readU32 4]
  unfold L12.headerReport
  rw [hfields, h.ihlBytes, h.verifies, h.verifies']

theorem SameButTtl.parseIpv4Payload {headerLen : Nat} (hmin : 12 ≤ headerLen) (totalLen : Nat) :
    parseIpv4Payload packet' headerLen totalLen frameOffset report =
      parseIpv4Payload packet headerLen totalLen frameOffset report := by
  have hpayload : packet'.drop headerLen = packet.drop headerLen := by
    rw [← Nat.add_sub_cancel' hmin, ← List.drop_drop, ← List.drop_drop, h.behind]
  unfold L12.parseIpv4Payload parseUdp parseUdpPayload recordUdpChecksum parseTcp parseTcpPayload
  simp only [h.readU16 (show 6 < 7 by omega), h.transportChecksumValid, hpayload]

theorem SameButTtl.parseIpv4 : parseIpv4 packet' packet'.length frameOffset report =
    parseIpv4 packet packet.length frameOffset report := by
  have hmin : L03.minHeaderLength ≤ L03.ihlBytes packet := h.structural.2.2.1
  have h20 : L03.minHeaderLength = 20 := rfl
  rw [parseIpv4_structural _ _ _ h.structural', parseIpv4_structural _ _ _ h.structural, h.headerReport, h.ihlBytes,
    h.readU16 (by omega), h.parseIpv4Payload _ _ (by omega)]

theorem SameButTtl.parseArp : parseArp packet' packet'.length frameOffset report =
    parseArp packet packet.length frameOffset report := by
  unfold L12.parseArp
  simp only [h.length_eq, h.front 4 (by omega), h.front 5 (by omega), h.readU16 (show 6 < 7 by omega),
    h.readU16 (show 0 < 7 by omega), h.readU16 (show 2 < 7 by omega)]

end Congr

/-! ## The frame -/

theorem diagnoseFrame_hopFrame (frame : Bytes) : diagnoseFrame (hopFrame frame) = diagnoseFrame frame := by
  rcases decrementTtl_sameButTtl (frame.drop ethernetHeader) with hsame | hhop
  · unfold hopFrame
    rw [hsame, List.take_append_drop]
  · have hlen : ethernetHeader ≤ frame.length := by
      have hmin := hhop.structural.1
      have h20 : L03.minHeaderLength = 20 := rfl
      rw [List.length_drop] at hmin
      omega
    have htake : (frame.take ethernetHeader).length = ethernetHeader := List.length_take_of_le hlen
    have hlength : (hopFrame frame).length = frame.length := by
      rw [hopFrame, List.length_append, htake, hhop.length_eq, List.length_drop]
      omega
    have hdrop : (hopFrame frame).drop ethernetHeader = (L03.decrementTtl (frame.drop ethernetHeader)).2 :=
      List.drop_left' htake
    have htype : readU16 (hopFrame frame) 12 = readU16 frame 12 := by
      have hfront : (hopFrame frame).take ethernetHeader = frame.take ethernetHeader := List.take_left' htake
      have h14 : ethernetHeader = 14 := rfl
      unfold readU16
      rw [getD_eq_of_take_eq hfront (by omega), getD_eq_of_take_eq hfront (by omega)]
    have hstart : (Report.start (hopFrame frame).length).withEthernetHeader (hopFrame frame) =
        (Report.start frame.length).withEthernetHeader frame := by
      unfold Report.withEthernetHeader
      rw [hlength, htype]
    rw [diagnoseFrame_eq (by omega), diagnoseFrame_eq hlen, hstart, hdrop, htype, hhop.parseArp, hhop.parseIpv4]

/-- **Main result.** However often the packet of a frame is forwarded, the diagnoser returns the same status and the
same report: each hop keeps the header valid, and what follows it untouched. -/
theorem forwarded_diagnosed (frame : Bytes) (hops : Nat) :
    diagnoseFrame (hopFrame^[hops] frame) = diagnoseFrame frame := by
  induction hops with
  | zero => rfl
  | succ hops ih => rw [Function.iterate_succ_apply', diagnoseFrame_hopFrame, ih]

end TcpipCourse.L12
