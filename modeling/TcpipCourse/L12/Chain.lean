import TcpipCourse.L02.Codec
import TcpipCourse.L03.Codec
import TcpipCourse.L04.Echo
import TcpipCourse.L12.Agree

/-!
# Lesson 12: a frame read by one lesson after the other

* `Carries` : lessons 02 and 03 accept a frame, and the packet in it is whole; `carried` : the bytes they hand on;
* `Carries.spec` : the same in the diagnoser's terms;
* `Carries.diagnoseFrame_icmp` : what it makes of an ICMP message;
* `echoFrame_answered` : lesson 04 answers a request in its frame exactly when the diagnoser finds nothing in it, and
  finds nothing in the answer.
-/

namespace TcpipCourse.L12
open Lib

/-- The parsers of the Ethernet and of the IPv4 header accept the frame, and the packet is no fragment. -/
structure Carries (frame : Bytes) (protocol : UInt8) (ethernet : L02.EthernetFrame) (ipv4 : L03.Ipv4Packet) :
    Prop where
  frame_ok : L02.parseEthernet frame = .ok ethernet
  etherType : ethernet.etherType = 0x0800
  packet_ok : L03.parseIpv4 (slice frame ethernet.payloadOffset ethernet.payloadLength) = .ok ipv4
  protocol_eq : ipv4.protocol = protocol
  whole : ipv4.flagsFragment &&& 0x3fff = 0

/-- Where the payload of the packet starts in the frame. -/
def carriedOffset (ethernet : L02.EthernetFrame) (ipv4 : L03.Ipv4Packet) : Nat :=
  ethernet.payloadOffset + ipv4.payloadOffset

def carried (frame : Bytes) (ethernet : L02.EthernetFrame) (ipv4 : L03.Ipv4Packet) : Bytes :=
  slice frame (carriedOffset ethernet ipv4) ipv4.payloadLength

/-- The report in front of the payload: both headers are read, and the checksum of the second is good. -/
def carriedReport (frame : Bytes) : Report :=
  recordChecksum ((addLayer ((Report.start frame.length).withEthernetHeader frame) .ipv4).withIpv4Fields
    (frame.drop ethernetHeader)) true .ipv4Checksum

section Carries
variable {frame : Bytes} {protocol : UInt8} {ethernet : L02.EthernetFrame} {ipv4 : L03.Ipv4Packet}
  (h : Carries frame protocol ethernet ipv4)
include h

theorem Carries.packet : slice frame ethernet.payloadOffset ethernet.payloadLength = frame.drop ethernetHeader :=
  (L02.parseEthernet_ok h.frame_ok).2.2.2.2

theorem Carries.ipv4_eq : L03.parseIpv4 (frame.drop ethernetHeader) = .ok ipv4 := by
  rw [← h.packet]
  exact h.packet_ok

theorem Carries.spec :
    let packet := frame.drop ethernetHeader
    ethernetHeader ≤ frame.length ∧ readU16 frame 12 = 0x0800 ∧ L03.Structural packet ∧
      readU16 packet 6 &&& 0x8000 = 0 ∧ readU16 packet 6 &&& 0x3fff = 0 ∧ packet.getD 9 0 = protocol ∧
      checksumValid packet (L03.ihlBytes packet) = true := by
  intro packet
  obtain ⟨hlen, -, -, htype, -⟩ := L02.parseEthernet_ok h.frame_ok
  obtain ⟨hstruct, hreserved, hsum, hread⟩ := L03.parseIpv4_eq_ok_iff.mp h.ipv4_eq
  have hprotocol := h.protocol_eq
  have hwhole := h.whole
  rw [hread] at hprotocol hwhole
  have hihl := (L03.ihlBytes_le packet).trans (show L03.maxHeaderLength ≤ uint16Max by decide)
  refine ⟨hlen, htype.symm.trans h.etherType, hstruct, hreserved, hwhole, hprotocol, ?_⟩
  exact (checksumValid_iff (hstruct.2.2.2.1.trans hstruct.2.2.2.2) hihl).mpr hsum

theorem Carries.window :
    carriedOffset ethernet ipv4 = ethernetHeader + L03.ihlBytes (frame.drop ethernetHeader) ∧
      carried frame ethernet ipv4 = payloadWindow (frame.drop ethernetHeader) ∧
      ipv4.payloadLength = (payloadWindow (frame.drop ethernetHeader)).length ∧
      carriedOffset ethernet ipv4 + ipv4.payloadLength ≤ frame.length := by
  obtain ⟨-, -, hstruct, -⟩ := h.spec
  obtain ⟨hlen, -⟩ := L02.parseEthernet_ok h.frame_ok
  have hethernet : ethernet.payloadOffset = ethernetHeader := by
    have hframe := h.frame_ok
    unfold L02.parseEthernet at hframe
    dsimp only at hframe
    repeat' split at hframe
    all_goals cases hframe
    rfl
  have hread := L03.eq_readHeader h.ipv4_eq
  have hoffset : carriedOffset ethernet ipv4 = ethernetHeader + L03.ihlBytes (frame.drop ethernetHeader) := by
    rw [carriedOffset, hethernet, hread]
    rfl
  have hlength : ipv4.payloadLength = (payloadWindow (frame.drop ethernetHeader)).length := by
    rw [length_payloadWindow hstruct, hread]
    rfl
  refine ⟨hoffset, ?_, hlength, ?_⟩
  · rw [carried, hoffset, hlength, length_payloadWindow hstruct, payloadWindow, slice, slice, List.drop_drop]
  · have htotal := hstruct.2.2.2.1
    have hfit := hstruct.2.2.2.2
    have htwo : L03.readBe16 (frame.drop ethernetHeader) 2 = readU16 (frame.drop ethernetHeader) 2 := rfl
    have hhead : ethernetHeader = 14 := rfl
    rw [htwo, List.length_drop] at hfit
    rw [htwo] at htotal
    rw [hoffset, hlength, length_payloadWindow hstruct]
    omega

theorem Carries.addresses : slice (frame.drop ethernetHeader) 12 4 = ipv4.source.toList ∧
    slice (frame.drop ethernetHeader) 16 4 = ipv4.destination.toList := by
  obtain ⟨-, -, hstruct, -⟩ := h.spec
  have hmin : L03.minHeaderLength ≤ (frame.drop ethernetHeader).length := hstruct.1
  have h20 : L03.minHeaderLength = 20 := rfl
  rw [L03.eq_readHeader h.ipv4_eq]
  exact ⟨(L03.toList_readAddress (by omega)).symm, (L03.toList_readAddress (by omega)).symm⟩

theorem Carries.headerReport_eq :
    headerReport (frame.drop ethernetHeader) ((Report.start frame.length).withEthernetHeader frame) =
      carriedReport frame := by
  obtain ⟨-, -, -, -, -, -, hsum⟩ := h.spec
  unfold headerReport
  rw [hsum]
  rfl

end Carries

/-! ## Another payload in the same frame -/

theorem parseEthernet_congr {data data' : Bytes} (hlen : data'.length = data.length)
    (hhead : data'.take ethernetHeader = data.take ethernetHeader) :
    L02.parseEthernet data' = L02.parseEthernet data := by
  have h14 : ethernetHeader = 14 := rfl
  have htype : L02.readBe16At data' 12 = L02.readBe16At data 12 := by
    unfold L02.readBe16At
    rw [getD_eq_of_take_eq hhead (by omega), getD_eq_of_take_eq hhead (by omega)]
  unfold L02.parseEthernet L02.macLength
  rw [hlen, htype, slice_eq_of_take_eq hhead (by omega), slice_eq_of_take_eq hhead (by omega)]

theorem parseIpv4_congr {packet packet' : Bytes} {parsed : L03.Ipv4Packet} (hlen : packet'.length = packet.length)
    (hhead : packet'.take (L03.ihlBytes packet) = packet.take (L03.ihlBytes packet))
    (h : L03.parseIpv4 packet = .ok parsed) : L03.parseIpv4 packet' = .ok parsed := by
  obtain ⟨⟨hmin, hversion, hihl, htotal, hfit⟩, hreserved, hsum, hread⟩ := L03.parseIpv4_eq_ok_iff.mp h
  have h20 : L03.minHeaderLength = 20 := rfl
  have hget : ∀ i < 20, packet'.getD i 0 = packet.getD i 0 := fun i hi => getD_eq_of_take_eq hhead (by omega) 0
  have hword : ∀ i, i + 1 < 20 → L03.readBe16 packet' i = L03.readBe16 packet i := by
    intro i hi
    unfold L03.readBe16
    rw [hget i (by omega), hget _ hi]
  have hihl' : L03.ihlBytes packet' = L03.ihlBytes packet := by
    unfold L03.ihlBytes
    rw [hget 0 (by omega)]
  have hread' : L03.readHeader packet' = L03.readHeader packet := by
    unfold L03.readHeader L03.readAddress
    simp (disch := omega) only [hget, hword, hihl']
  rw [L03.parseIpv4_eq_ok_iff, hread', hihl', hhead, hword 6 (by omega)]
  refine ⟨?_, hreserved, hsum, hread⟩
  unfold L03.Structural
  rw [hlen, hget 0 (by omega), hihl', hword 2 (by omega)]
  exact ⟨hmin, hversion, hihl, htotal, hfit⟩

section Replaced
variable {frame : Bytes} {protocol : UInt8} {ethernet : L02.EthernetFrame} {ipv4 : L03.Ipv4Packet}
  (h : Carries frame protocol ethernet ipv4) {payload : Bytes} (hlen : payload.length = ipv4.payloadLength)
include h hlen

theorem Carries.replaced :
    let frame' := overwrite frame (carriedOffset ethernet ipv4) payload
    Carries frame' protocol ethernet ipv4 ∧ carried frame' ethernet ipv4 = payload ∧
      carriedReport frame' = carriedReport frame := by
  intro frame'
  obtain ⟨hmin, -, hstruct, -⟩ := h.spec
  obtain ⟨hoffset, -, -, hfit⟩ := h.window
  have h20 : L03.minHeaderLength = 20 := rfl
  have hhead : ethernetHeader = 14 := rfl
  have hihl := hstruct.2.2.1
  have hlength : frame'.length = frame.length := length_overwrite frame _ payload
  have htake : frame'.take (carriedOffset ethernet ipv4) = frame.take (carriedOffset ethernet ipv4) := by
    show (overwrite frame (carriedOffset ethernet ipv4) payload).take _ = _
    rw [overwrite_eq_append _ _ _ (by omega), List.append_assoc, List.take_left' (List.length_take_of_le (by omega))]
  have hfront : ∀ n ≤ carriedOffset ethernet ipv4, frame'.take n = frame.take n := by
    intro n hn
    rw [← Nat.min_eq_left hn, ← List.take_take, htake, List.take_take]
  have hpacket : (frame'.drop ethernetHeader).take (L03.ihlBytes (frame.drop ethernetHeader)) =
      (frame.drop ethernetHeader).take (L03.ihlBytes (frame.drop ethernetHeader)) := by
    have hcut := congrArg (List.drop ethernetHeader) htake
    rwa [hoffset, List.drop_take, List.drop_take, Nat.add_sub_cancel_left] at hcut
  have hframe : L02.parseEthernet frame' = .ok ethernet := by
    rw [parseEthernet_congr hlength (hfront _ (by omega)), h.frame_ok]
  have hipv4 : L03.parseIpv4 (frame'.drop ethernetHeader) = .ok ipv4 :=
    parseIpv4_congr (by rw [List.length_drop, List.length_drop, hlength]) hpacket h.ipv4_eq
  refine ⟨⟨hframe, h.etherType, ?_, h.protocol_eq, h.whole⟩, ?_, ?_⟩
  · rw [(L02.parseEthernet_ok hframe).2.2.2.2]
    exact hipv4
  · have hstored := @slice_overwrite _ frame payload (carriedOffset ethernet ipv4) (by omega)
    rwa [hlen] at hstored
  · have hget : ∀ i < 34, frame'.getD i 0 = frame.getD i 0 := fun i hi => getD_eq_of_take_eq htake (by omega) 0
    unfold carriedReport Report.withEthernetHeader Report.withIpv4Fields readU32 readU16
    simp (disch := omega) only [getD_drop, hget, hlength, hhead, Nat.reduceAdd]

end Replaced

/-! ## ICMP -/

/-- What is reported of an ICMP message, by the result of its checksum. -/
def icmpReport (frame icmp : Bytes) (valid : Bool) : Report :=
  recordChecksum (Report.withPayloadLength { addLayer (carriedReport frame) .icmp with icmpType := icmp.getD 0 0 }
    (icmp.length - icmpHeader)) valid .transportChecksum

theorem icmpReport_type (frame icmp : Bytes) (valid : Bool) :
    (icmpReport frame icmp valid).icmpType = icmp.getD 0 0 := by
  unfold icmpReport recordChecksum
  split <;> rfl

theorem icmpReport_diagnostics (frame icmp : Bytes) (valid : Bool) :
    (icmpReport frame icmp valid).diagnostics = 0 ↔ valid = true := by
  cases valid with
  | true => exact iff_of_true rfl rfl
  | false =>
    have hbits : (icmpReport frame icmp false).diagnostics =
        0 ||| Diagnostic.checksumMismatch.bit ||| Diagnostic.transportChecksum.bit := rfl
    rw [hbits]
    exact iff_of_false (by decide) (by decide)

section Icmp
variable {frame : Bytes} {ethernet : L02.EthernetFrame} {ipv4 : L03.Ipv4Packet} (h : Carries frame 1 ethernet ipv4)
include h

theorem Carries.diagnoseFrame_icmp :
    let icmp := carried frame ethernet ipv4
    diagnoseFrame frame =
      if icmp.length < icmpHeader then
        truncated (addLayer (carriedReport frame) .icmp) (carriedOffset ethernet ipv4 + icmp.length)
      else completed (icmpReport frame icmp (L04.checksum icmp == 0)) (carriedOffset ethernet ipv4 + icmp.length) := by
  intro icmp
  obtain ⟨hlen, htype, hstruct, hreserved, hwhole, hprotocol, -⟩ := h.spec
  obtain ⟨hoffset, hicmp, hlength, -⟩ := h.window
  have hsame := sameWindow_payload hstruct
  rw [← hicmp] at hsame
  have hvalid : checksumValid icmp icmp.length = (L04.checksum icmp == 0) := by
    have hle := length_payloadWindow_le hstruct
    rw [← hicmp] at hle
    have hiff := checksumValid_iff (Nat.le_refl icmp.length) hle
    rw [List.take_length] at hiff
    rw [Bool.eq_iff_iff, hiff, beq_iff_eq]
    rfl
  rw [diagnoseFrame_ipv4 hlen htype, parseIpv4_whole hstruct hreserved hwhole, h.headerReport_eq, hprotocol, ← hicmp,
    ← hoffset]
  dsimp only
  rw [if_pos rfl]
  unfold parseIcmp icmpReport
  dsimp only
  split
  · rfl
  · next hmin =>
    have hhead : icmpHeader = 8 := rfl
    rw [hsame.getD (by omega), checksumValid_congr hsame, hvalid]

theorem Carries.diagnoseFrame_verified (hmin : 8 ≤ (carried frame ethernet ipv4).length)
    (hsum : L04.checksum (carried frame ethernet ipv4) = 0) :
    diagnoseFrame frame = completed (icmpReport frame (carried frame ethernet ipv4) true)
      (carriedOffset ethernet ipv4 + ipv4.payloadLength) := by
  have hhead : icmpHeader = 8 := rfl
  have hlength : (carried frame ethernet ipv4).length = ipv4.payloadLength := length_slice h.window.2.2.2
  rw [h.diagnoseFrame_icmp, if_neg (by omega), hsum, hlength]
  rfl

/-- A message is answered if and only if it is an echo request and the diagnoser finds nothing in its frame. -/
theorem Carries.answerable_iff :
    L04.Answerable (carried frame ethernet ipv4) ↔ (diagnoseFrame frame).1 = .ok ∧
      (diagnoseFrame frame).2.diagnostics = 0 ∧ (diagnoseFrame frame).2.icmpType = 8 ∧
      frame.getD (carriedOffset ethernet ipv4 + 1) 0 = 0 := by
  have hhead : icmpHeader = 8 := rfl
  have hlength : (carried frame ethernet ipv4).length = ipv4.payloadLength := length_slice h.window.2.2.2
  rw [h.diagnoseFrame_icmp]
  by_cases hshort : (carried frame ethernet ipv4).length < icmpHeader
  · rw [if_pos hshort]
    refine iff_of_false (fun ha => ?_) (fun hok => ?_)
    · have hmin := ha.length
      omega
    · exact absurd hok.1 (by simp [truncated])
  · have hcode : (carried frame ethernet ipv4).getD 1 0 = frame.getD (carriedOffset ethernet ipv4 + 1) 0 :=
      getD_slice (by omega) 0
    rw [if_neg hshort, ← hcode]
    show _ ↔ Status.ok = Status.ok ∧ (icmpReport _ _ _).diagnostics = 0 ∧ (icmpReport _ _ _).icmpType = 8 ∧ _
    rw [icmpReport_diagnostics, icmpReport_type, beq_iff_eq]
    constructor
    · exact fun ha => ⟨rfl, ha.checksum, ha.type, ha.code⟩
    · rintro ⟨-, hsum, htype, hcode⟩
      exact ⟨by omega, hsum, htype, hcode⟩

end Icmp

/-- **Main result.** Lesson 04 answers the message of a frame, in its place, exactly when it is an echo request and
the diagnoser finds nothing in the frame; the frame with the answer is read by the lessons as before, the diagnoser
finds nothing in it either, and it is not answered again. A frame without an answer stays as it is. -/
theorem echoFrame_answered {frame : Bytes} {ethernet : L02.EthernetFrame} {ipv4 : L03.Ipv4Packet}
    (h : Carries frame 1 ethernet ipv4) :
    let offset := carriedOffset ethernet ipv4
    let reply := L04.makeEchoReply frame offset ipv4.payloadLength offset ipv4.payloadLength
    let result := diagnoseFrame frame
    (reply.status = .ok ↔ result.1 = .ok ∧ result.2.diagnostics = 0 ∧ result.2.icmpType = 8 ∧
      frame.getD (offset + 1) 0 = 0) ∧
    (reply.status = .ok → reply.length = ipv4.payloadLength ∧ Carries reply.memory 1 ethernet ipv4 ∧
      diagnoseFrame reply.memory = (.ok, { result.2 with icmpType := 0 }) ∧
      L04.makeEchoReply reply.memory offset ipv4.payloadLength offset ipv4.payloadLength =
        .fail reply.memory .malformed) ∧
    (reply.status ≠ .ok → reply.memory = frame) := by
  intro offset reply result
  obtain ⟨-, -, hlength, hfit⟩ := h.window
  have hmax : ipv4.payloadLength ≤ 65535 := by
    rw [hlength]
    exact length_payloadWindow_le h.spec.2.2.1
  by_cases ha : L04.Answerable (carried frame ethernet ipv4)
  · have hreply : reply =
        ⟨.ok, ipv4.payloadLength, overwrite frame offset (L04.replyTo (carried frame ethernet ipv4))⟩ :=
      L04.makeEchoReply_eq hfit hmax (Nat.le_refl _) hfit ha
    have hlen : (carried frame ethernet ipv4).length = ipv4.payloadLength := length_slice hfit
    have hanswer : (L04.replyTo (carried frame ethernet ipv4)).length = ipv4.payloadLength :=
      (L04.length_replyTo ha.length).trans hlen
    obtain ⟨hcarries, hcarried, hreport⟩ := h.replaced hanswer
    have hbefore : result = _ := h.diagnoseFrame_verified ha.length ha.checksum
    have hafter := hcarries.diagnoseFrame_verified (by rw [hcarried, hanswer, ← hlen]; exact ha.length)
      (by rw [hcarried]; exact L04.checksum_echo ..)
    rw [hcarried] at hafter
    refine ⟨(iff_of_true (by rw [hreply]) ha).trans h.answerable_iff, fun _ => ?_,
      fun hne => absurd (by rw [hreply]) hne⟩
    rw [hreply]
    refine ⟨rfl, hcarries, ?_, L04.makeEchoReply_of_replyTo hcarried _ _⟩
    rw [hbefore, hafter]
    unfold icmpReport
    rw [hreport, hanswer, hlen]
    rfl
  · have hreply : reply = _ := L04.makeEchoReply_of_not_answerable ha offset ipv4.payloadLength
    have hstatus : reply.status ≠ .ok := by
      rw [hreply]
      exact L04.refusal_ne_ok _
    exact ⟨(iff_of_false hstatus ha).trans h.answerable_iff, fun hok => absurd hok hstatus,
      fun _ => by rw [hreply]; rfl⟩

theorem echoFrame_answered_ping :
    let reply := L04.makeEchoReply pingFrame 34 8 34 8
    reply.status = .ok ∧ (diagnoseFrame reply.memory).2.diagnostics = 0 := by
  intro reply
  have hcarries : Carries pingFrame 1 ⟨[2, 0, 0, 0, 0, 2], [2, 0, 0, 0, 0, 1], 0x0800, 14, 28⟩
      (L03.readHeader (pingFrame.drop 14)) :=
    ⟨by rfl, rfl,
      L03.parseIpv4_eq_ok_iff.mpr ⟨by unfold L03.Structural; decide, by decide, by decide +kernel, rfl⟩, rfl, by decide⟩
  obtain ⟨hiff, hanswer, -⟩ := echoFrame_answered hcarries
  have hfound : (diagnoseFrame pingFrame).1 = .ok ∧ (diagnoseFrame pingFrame).2.diagnostics = 0 ∧
      (diagnoseFrame pingFrame).2.icmpType = 8 ∧ pingFrame.getD 35 0 = 0 := by decide +kernel
  have hok : reply.status = .ok := hiff.mpr hfound
  obtain ⟨-, -, hdiagnose, -⟩ := hanswer hok
  refine ⟨hok, ?_⟩
  show (diagnoseFrame (L04.makeEchoReply pingFrame 34 8 34 8).memory).2.diagnostics = 0
  exact (congrArg (fun result => result.2.diagnostics) hdiagnose).trans hfound.2.1

end TcpipCourse.L12
