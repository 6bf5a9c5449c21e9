import TcpipCourse.L02.Arp

/-!
# Lesson 02: frames and ARP requests

* `parseEthernet` : the header of a frame;
* `buildArpRequest` : a broadcast request, put together in a local buffer and copied out whole;
* `ArpRequest`, `ArpRequest.bytes` : what a request asks, and its frame;
* `arpRequestFrame_eq` : the stores of the builder are that frame;
* `Announces`, `announces_iff` : the frames in which both parsers read a request, and that they are these frames;
* `arpRequest_roundTrip` : the main result.
-/

namespace TcpipCourse.L02
open Lib

def ethernetHeaderLength : Nat := 14

def arpRequestFrameLength : Nat := 42

structure EthernetFrame where
  destination : Bytes
  source : Bytes
  etherType : UInt16
  payloadOffset : Nat
  payloadLength : Nat
  deriving DecidableEq, Repr

/-- On an error the output frame is zeroed. -/
def parseEthernet (data : Bytes) : Except Status EthernetFrame :=
  if data.length < ethernetHeaderLength then .error .truncated
  else
    let etherType := readBe16At data 12
    if etherType < 0x0600 then .error .malformed
    else .ok
      { destination := slice data 0 macLength
        source := slice data macLength macLength
        etherType := etherType
        payloadOffset := ethernetHeaderLength
        payloadLength := data.length - ethernetHeaderLength }

theorem parseEthernet_ok {data : Bytes} {ethernet : EthernetFrame} (h : parseEthernet data = .ok ethernet) :
    14 ≤ data.length ∧ ethernet.destination = slice data 0 6 ∧ ethernet.source = slice data 6 6 ∧
      ethernet.etherType = readBe16At data 12 ∧
      slice data ethernet.payloadOffset ethernet.payloadLength = data.drop 14 := by
  unfold parseEthernet ethernetHeaderLength at h
  split at h
  · cases h
  · next hlen =>
    dsimp only at h
    split at h
    · cases h
    · cases h
      refine ⟨by omega, rfl, rfl, rfl, ?_⟩
      show (data.drop 14).take (data.length - 14) = data.drop 14
      rw [← List.length_drop, List.take_length]

/-! ## The builder -/

def broadcast : Bytes := [0xff, 0xff, 0xff, 0xff, 0xff, 0xff]

/-- The status, and what the call leaves in `out_frame` and `*out_length`. -/
structure BuildResult where
  status : Status
  outFrame : Bytes
  outLength : Nat
  deriving DecidableEq, Repr

/-- The local `frame`, store by store. -/
def arpRequestFrame (senderMac senderIp targetIp : Bytes) : Bytes :=
  let frame := List.replicate arpRequestFrameLength 0
  let frame := overwrite frame 0 broadcast
  let frame := overwrite frame 6 (senderMac.take macLength)
  let frame := overwrite frame 12 (be16Bytes 0x0806)
  let frame := overwrite frame 14 (be16Bytes 1)
  let frame := overwrite frame 16 (be16Bytes 0x0800)
  let frame := overwrite frame 18 [6]
  let frame := overwrite frame 19 [4]
  let frame := overwrite frame 20 (be16Bytes 1)
  let frame := overwrite frame 22 (senderMac.take macLength)
  let frame := overwrite frame 28 (senderIp.take ipv4Length)
  overwrite frame 38 (targetIp.take ipv4Length)

/-- The spans are as long as their length arguments, and `out_capacity` is the length of `outFrame`. -/
def buildArpRequest (senderMac senderIp targetIp outFrame : Bytes) : BuildResult :=
  if senderMac.length < macLength ∨ senderIp.length < ipv4Length ∨ targetIp.length < ipv4Length then
    ⟨.truncated, outFrame, 0⟩
  else if outFrame.length < arpRequestFrameLength then ⟨.capacity, outFrame, 0⟩
  else ⟨.ok, overwrite outFrame 0 (arpRequestFrame senderMac senderIp targetIp), arpRequestFrameLength⟩

/-! ## Requests -/

/-- Who asks, and whose address is asked for. -/
structure ArpRequest where
  senderMac : Vector UInt8 6
  senderIp : Ipv4Address
  targetIp : Ipv4Address
  deriving DecidableEq

def ArpRequest.packet (request : ArpRequest) : Bytes :=
  be16Bytes 1 ++ be16Bytes 0x0800 ++ [6, 4] ++ be16Bytes 1 ++ request.senderMac.toList ++ request.senderIp.toList ++
    List.replicate 6 0 ++ request.targetIp.toList

def ArpRequest.bytes (request : ArpRequest) : Bytes :=
  broadcast ++ request.senderMac.toList ++ be16Bytes 0x0806 ++ request.packet

@[simp] theorem ArpRequest.length_packet (request : ArpRequest) : request.packet.length = 28 := by
  simp [packet]

@[simp] theorem ArpRequest.length_bytes (request : ArpRequest) : request.bytes.length = 42 := by
  simp [bytes, broadcast]

theorem arpRequestFrame_eq (request : ArpRequest) {senderMac senderIp targetIp : Bytes}
    (hmac : senderMac.take macLength = request.senderMac.toList)
    (hsender : senderIp.take ipv4Length = request.senderIp.toList)
    (htarget : targetIp.take ipv4Length = request.targetIp.toList) :
    arpRequestFrame senderMac senderIp targetIp = request.bytes := by
  have hmac6 : request.senderMac.toList.length = 6 := by simp
  have hsender4 : request.senderIp.toList.length = 4 := by simp
  have htarget4 : request.targetIp.toList.length = 4 := by simp
  unfold arpRequestFrame ArpRequest.bytes ArpRequest.packet
  rw [hmac, hsender, htarget]
  generalize request.senderMac.toList = mac at hmac6
  generalize request.senderIp.toList = sender at hsender4
  generalize request.targetIp.toList = target at htarget4
  match mac, hmac6, sender, hsender4, target, htarget4 with
  | [_, _, _, _, _, _], _, [_, _, _, _], _, [_, _, _, _], _ => rfl

theorem exists_request {senderMac senderIp targetIp : Bytes} (hmac : macLength ≤ senderMac.length)
    (hsender : ipv4Length ≤ senderIp.length) (htarget : ipv4Length ≤ targetIp.length) :
    ∃ request : ArpRequest, senderMac.take macLength = request.senderMac.toList ∧
      senderIp.take ipv4Length = request.senderIp.toList ∧ targetIp.take ipv4Length = request.targetIp.toList :=
  ⟨⟨⟨(senderMac.take macLength).toArray, List.length_take_of_le hmac⟩,
    ⟨(senderIp.take ipv4Length).toArray, List.length_take_of_le hsender⟩,
    ⟨(targetIp.take ipv4Length).toArray, List.length_take_of_le htarget⟩⟩, rfl, rfl, rfl⟩

/-! ## Reading a request -/

/-- Both parsers accept the frame, and what they read in it is the broadcast of this request. -/
structure Announces (frame : Bytes) (request : ArpRequest) (ethernet : EthernetFrame) (arp : ArpPacket) : Prop where
  frame_ok : parseEthernet frame = .ok ethernet
  packet_ok : parseArp (slice frame ethernet.payloadOffset ethernet.payloadLength) = .ok arp
  etherType : ethernet.etherType = 0x0806
  destination : ethernet.destination = broadcast
  source : ethernet.source = request.senderMac.toList
  operation : arp.operation = 1
  senderMac : arp.senderMac = request.senderMac.toList
  senderIp : arp.senderIp = request.senderIp.toList
  targetMac : arp.targetMac = List.replicate 6 0
  targetIp : arp.targetIp = request.targetIp.toList

theorem parseArp_ok {data : Bytes} {arp : ArpPacket} (h : parseArp data = .ok arp) :
    28 ≤ data.length ∧ SupportedArp data ∧ arp.operation = readBe16At data 6 ∧ arp.senderMac = slice data 8 6 ∧
      arp.senderIp = slice data 14 4 ∧ arp.targetMac = slice data 18 6 ∧ arp.targetIp = slice data 24 4 := by
  obtain ⟨hlen, hsupported⟩ := (parseArp_ok_iff data).mp ⟨arp, h⟩
  refine ⟨hlen, hsupported, ?_⟩
  unfold parseArp at h
  split at h
  · cases h
  · split at h
    · cases h
    · cases h
      exact ⟨rfl, rfl, rfl, rfl, rfl⟩

theorem slice_of_readBe16At {data : Bytes} {off : Nat} {v : UInt16} (hv : readBe16At data off = v)
    (h : off + 2 ≤ data.length) : be16Bytes v = slice data off 2 := by
  rw [← hv]
  exact be16Bytes_getD h

theorem packet_of_fields {data : Bytes} {request : ArpRequest} (hlen : 28 ≤ data.length) (h : SupportedArp data)
    (hoperation : readBe16At data 6 = 1) (hmac : slice data 8 6 = request.senderMac.toList)
    (hsender : slice data 14 4 = request.senderIp.toList) (hzero : slice data 18 6 = List.replicate 6 0)
    (htarget : slice data 24 4 = request.targetIp.toList) : request.packet ++ data.drop 28 = data := by
  obtain ⟨htype, hprotocol, h4, h5, -⟩ := h
  have htype' := slice_of_readBe16At htype (by omega)
  have hprotocol' := slice_of_readBe16At hprotocol (by omega)
  have hoperation' := slice_of_readBe16At hoperation (by omega)
  have hlengths : ([6, 4] : Bytes) = slice data 4 2 := by
    rw [slice_succ (by omega) 1 0, slice_succ (by omega) 0 0, h4, h5]
    rfl
  have hpacket : request.packet = slice data 0 2 ++ slice data 2 2 ++ slice data 4 2 ++ slice data 6 2 ++
      slice data 8 6 ++ slice data 14 4 ++ slice data 18 6 ++ slice data 24 4 := by
    rw [← htype', ← hprotocol', ← hlengths, ← hoperation', hmac, hsender, hzero, htarget]
    rfl
  rw [hpacket]
  simp (disch := omega) only [slice_append_slice, Nat.reduceAdd]
  exact slice_append_drop data 0 28

theorem Announces.eq_append {frame : Bytes} {request : ArpRequest} {ethernet : EthernetFrame} {arp : ArpPacket}
    (h : Announces frame request ethernet arp) : request.bytes ++ frame.drop 42 = frame := by
  obtain ⟨hlen, hdestination, hsource, htype, hpayload⟩ := parseEthernet_ok h.frame_ok
  have harp := h.packet_ok
  rw [hpayload] at harp
  obtain ⟨hmin, hsupported, hoperation, hmac, hsender, hzero, htarget⟩ := parseArp_ok harp
  have hpacket := @packet_of_fields (frame.drop 14) request hmin hsupported (hoperation.symm.trans h.operation)
    (hmac.symm.trans h.senderMac) (hsender.symm.trans h.senderIp) (hzero.symm.trans h.targetMac)
    (htarget.symm.trans h.targetIp)
  have htype' := slice_of_readBe16At (htype.symm.trans h.etherType) (by omega)
  have hheader : broadcast ++ request.senderMac.toList ++ be16Bytes 0x0806 = slice frame 0 14 := by
    rw [← h.destination, ← h.source, hdestination, hsource, htype']
    simp (disch := omega) only [slice_append_slice, Nat.reduceAdd]
  rw [List.drop_drop] at hpacket
  unfold ArpRequest.bytes
  rw [hheader, List.append_assoc, hpacket]
  exact slice_append_drop frame 0 14

/-! ## What is read in a request, whatever pads it -/

theorem parseEthernet_bytes (request : ArpRequest) (padding : Bytes) :
    parseEthernet (request.bytes ++ padding) = .ok
      { destination := broadcast
        source := request.senderMac.toList
        etherType := 0x0806
        payloadOffset := 14
        payloadLength := 28 + padding.length } := by
  have hlen : (request.bytes ++ padding).length = 42 + padding.length := by simp
  have hmac6 : request.senderMac.toList.length = 6 := by simp
  have htype : readBe16At (request.bytes ++ padding) 12 = 0x0806 := by
    unfold ArpRequest.bytes
    generalize request.senderMac.toList = mac at hmac6
    match mac, hmac6 with
    | [_, _, _, _, _, _], _ => exact be16_be16Bytes 0x0806
  have hsource : slice (request.bytes ++ padding) 6 6 = request.senderMac.toList := by
    unfold ArpRequest.bytes
    generalize request.senderMac.toList = mac at hmac6
    match mac, hmac6 with
    | [_, _, _, _, _, _], _ => rfl
  unfold parseEthernet ethernetHeaderLength macLength
  rw [if_neg (by omega), htype, hsource, hlen]
  dsimp only
  rw [if_neg (by decide), show 42 + padding.length - 14 = 28 + padding.length by omega]
  rfl

theorem parseArp_packet (request : ArpRequest) (padding : Bytes) :
    parseArp (request.packet ++ padding) = .ok
      { hardwareType := 1
        protocolType := 0x0800
        hardwareAddressLength := 6
        protocolAddressLength := 4
        operation := 1
        senderMac := request.senderMac.toList
        senderIp := request.senderIp.toList
        targetMac := List.replicate 6 0
        targetIp := request.targetIp.toList } := by
  have hlen : (request.packet ++ padding).length = 28 + padding.length := by simp
  have hmac6 : request.senderMac.toList.length = 6 := by simp
  have hsender4 : request.senderIp.toList.length = 4 := by simp
  have htarget4 : request.targetIp.toList.length = 4 := by simp
  have htype : readBe16At (request.packet ++ padding) 0 = 1 := be16_be16Bytes 1
  have hprotocol : readBe16At (request.packet ++ padding) 2 = 0x0800 := be16_be16Bytes 0x0800
  have hoperation : readBe16At (request.packet ++ padding) 6 = 1 := be16_be16Bytes 1
  have hlengths : (request.packet ++ padding).getD 4 0 = 6 ∧ (request.packet ++ padding).getD 5 0 = 4 := ⟨rfl, rfl⟩
  have haddresses : slice (request.packet ++ padding) 8 6 = request.senderMac.toList ∧
      slice (request.packet ++ padding) 14 4 = request.senderIp.toList ∧
      slice (request.packet ++ padding) 18 6 = List.replicate 6 0 ∧
      slice (request.packet ++ padding) 24 4 = request.targetIp.toList := by
    unfold ArpRequest.packet
    generalize request.senderMac.toList = mac at hmac6
    generalize request.senderIp.toList = sender at hsender4
    generalize request.targetIp.toList = target at htarget4
    match mac, hmac6, sender, hsender4, target, htarget4 with
    | [_, _, _, _, _, _], _, [_, _, _, _], _, [_, _, _, _], _ => exact ⟨rfl, rfl, rfl, rfl⟩
  obtain ⟨hmac, hsender, hzero, htarget⟩ := haddresses
  unfold parseArp arpPacketLength macLength ipv4Length
  rw [if_neg (by omega), htype, hprotocol, hoperation, hlengths.1, hlengths.2, hmac, hsender, hzero, htarget,
    if_neg (by decide)]

theorem announces_bytes (request : ArpRequest) (padding : Bytes) :
    ∃ ethernet arp, Announces (request.bytes ++ padding) request ethernet arp := by
  have hpayload : slice (request.bytes ++ padding) 14 (28 + padding.length) = request.packet ++ padding := by
    have hheader : (broadcast ++ request.senderMac.toList ++ be16Bytes 0x0806).length = 14 := by simp [broadcast]
    unfold slice ArpRequest.bytes
    rw [List.append_assoc _ request.packet, ← hheader, List.drop_left, List.take_of_length_le (by simp)]
  exact ⟨_, _, parseEthernet_bytes request padding,
    (congrArg parseArp hpayload).trans (parseArp_packet request padding), rfl, rfl, rfl, rfl, rfl, rfl, rfl, rfl⟩

/-- The frames that announce a request are its frame with anything behind it. -/
theorem announces_iff (frame : Bytes) (request : ArpRequest) :
    (∃ ethernet arp, Announces frame request ethernet arp) ↔ ∃ padding, frame = request.bytes ++ padding := by
  constructor
  · rintro ⟨ethernet, arp, h⟩
    exact ⟨frame.drop 42, h.eq_append.symm⟩
  · rintro ⟨padding, rfl⟩
    exact announces_bytes request padding

/-! ## The round trip -/

/-- **Main result.** The builder fails without a store or writes the frame of a request and nothing behind it; and a
frame is read as this request if and only if it is that frame, padded or not. -/
theorem arpRequest_roundTrip (senderMac senderIp targetIp outFrame : Bytes) :
    let built := buildArpRequest senderMac senderIp targetIp outFrame
    (built.status ≠ .ok ∧ built.outFrame = outFrame ∧ built.outLength = 0 ∧
        (senderMac.length < 6 ∨ senderIp.length < 4 ∨ targetIp.length < 4 ∨ outFrame.length < 42)) ∨
      ∃ request : ArpRequest, built = ⟨.ok, request.bytes ++ outFrame.drop 42, 42⟩ ∧
        request.senderMac.toList = senderMac.take 6 ∧ request.senderIp.toList = senderIp.take 4 ∧
        request.targetIp.toList = targetIp.take 4 ∧
        ∀ frame, (∃ ethernet arp, Announces frame request ethernet arp) ↔
          ∃ padding, frame = built.outFrame.take built.outLength ++ padding := by
  intro built
  by_cases hspans : senderMac.length < macLength ∨ senderIp.length < ipv4Length ∨ targetIp.length < ipv4Length
  · have hbuilt : built = ⟨.truncated, outFrame, 0⟩ := if_pos hspans
    rw [hbuilt]
    refine .inl ⟨nofun, rfl, rfl, ?_⟩
    unfold macLength ipv4Length at hspans
    omega
  by_cases hcap : outFrame.length < arpRequestFrameLength
  · have hbuilt : built = ⟨.capacity, outFrame, 0⟩ := (if_neg hspans).trans (if_pos hcap)
    rw [hbuilt]
    exact .inl ⟨nofun, rfl, rfl, .inr (.inr (.inr hcap))⟩
  simp only [not_or, Nat.not_lt] at hspans hcap
  obtain ⟨request, hmac, hsender, htarget⟩ := exists_request hspans.1 hspans.2.1 hspans.2.2
  have hbuilt : built = ⟨.ok, request.bytes ++ outFrame.drop 42, 42⟩ := by
    show buildArpRequest senderMac senderIp targetIp outFrame = _
    unfold buildArpRequest
    rw [if_neg (by simpa using hspans), if_neg (by simpa using hcap), arpRequestFrame_eq request hmac hsender htarget,
      overwrite_zero_append _ _ (by rw [ArpRequest.length_bytes]; exact hcap), ArpRequest.length_bytes]
    rfl
  refine .inr ⟨request, hbuilt, hmac.symm, hsender.symm, htarget.symm, fun frame => ?_⟩
  rw [announces_iff, hbuilt]
  dsimp only
  rw [List.take_left' (ArpRequest.length_bytes request)]

end TcpipCourse.L02
