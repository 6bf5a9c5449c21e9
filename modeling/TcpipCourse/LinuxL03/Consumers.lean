import TcpipCourse.L12.Compose
import TcpipCourse.LinuxL03.Frame

/-!
# Linux lab 03: what the consumers make of a frame

* `frameOf_eq` : the frame of a chunk in the layout of lesson 12;
* `flatMap_chunkBytes` : the chunks make up the payload;
* `Accepted` : what the parsers of the lessons and the diagnoser say of a frame;
* `buildFrame_accepted` : they say it of every frame.
-/

namespace TcpipCourse.LinuxL03
open Lib

def macs : Bytes := ethernetHeader.take 12

section Chunk
variable {scenario : Scenario} {chunkIndex : Nat}

theorem frameOf_eq (scenario : Scenario) (chunkIndex : Nat) : frameOf scenario chunkIndex =
    L12.frameOf macs (ipv4Fields scenario chunkIndex) (segmentOf scenario chunkIndex) := rfl

theorem chunkBytes_eq (scenario : Scenario) (chunkIndex : Nat) : chunkBytes scenario chunkIndex =
    slice scenario.payload (chunkIndex * chunkPayload) chunkPayload := by
  rw [chunkBytes, chunkLength_eq, slice_min]

/-- The chunks of all indices, one behind the other. -/
theorem flatMap_chunkBytes (scenario : Scenario) :
    (List.range (chunkCount scenario)).flatMap (chunkBytes scenario) = scenario.payload := by
  have hall : scenario.payload.length ≤ chunkCount scenario * chunkPayload := by
    unfold chunkCount chunkPayload
    omega
  rw [funext (chunkBytes_eq scenario), flatMap_slice, List.take_of_length_le hall]

theorem parseSegment_ports {tcp : L06.Segment} (hparse : L06.parseSegment (segmentOf scenario chunkIndex) = .ok tcp) :
    tcp.sourcePort = scenario.sourcePort ∧ tcp.destinationPort = scenario.destinationPort := by
  have hsegment := L06.parseSegment_segmentBytes (segmentFields_valid scenario chunkIndex)
    (chunkBytes scenario chunkIndex) (L06.checksumUnchecked scenario.sourceIpv4.toList
      scenario.destinationIpv4.toList (L06.segmentBytes (segmentFields scenario chunkIndex)
        (chunkBytes scenario chunkIndex) 0))
  obtain rfl := Except.ok.inj (hsegment.symm.trans hparse)
  exact ⟨rfl, rfl⟩

theorem toNat_sequenceNumber (scenario : Scenario) (chunkIndex : Nat) :
    (scenario.senderInitialSeq + UInt32.ofNat (chunkIndex * chunkPayload)).toNat =
      (scenario.senderInitialSeq.toNat + 256 * chunkIndex) % 2 ^ 32 := by
  rw [UInt32.toNat_add, UInt32.toNat_ofNat', Nat.add_mod_mod, Nat.mul_comm]
  rfl

/-! ## The consumers -/

/-- What the parsers of lessons 03 and 06 and the diagnoser of lesson 12 say of the frame of a chunk. -/
structure Accepted (scenario : Scenario) (chunkIndex : Nat) (frame : Bytes) (parsed : L03.Ipv4Packet)
    (tcp : L06.Segment) : Prop where
  length : frame.length = 54 + chunkLength scenario chunkIndex
  length_le : frame.length ≤ 310
  packet : L03.parseIpv4 (frame.drop ethernetHeaderLength) = .ok parsed
  packet_payload : parsed.payloadLength = 20 + chunkLength scenario chunkIndex
  dontFragment : parsed.flagsFragment = 0x4000
  segment : L06.parseSegment
    (slice (frame.drop ethernetHeaderLength) parsed.payloadOffset parsed.payloadLength) = .ok tcp
  ports : tcp.sourcePort = scenario.sourcePort ∧ tcp.destinationPort = scenario.destinationPort
  sequence : tcp.sequenceNumber.toNat = (scenario.senderInitialSeq.toNat + 256 * chunkIndex) % 2 ^ 32
  chunk_length : tcp.payloadLength = chunkLength scenario chunkIndex
  chunk : slice (slice (frame.drop ethernetHeaderLength) parsed.payloadOffset parsed.payloadLength)
    tcp.payloadOffset tcp.payloadLength = chunkBytes scenario chunkIndex
  checksum : L06.ipv4Checksum scenario.sourceIpv4.toList scenario.destinationIpv4.toList
    (slice (frame.drop ethernetHeaderLength) parsed.payloadOffset parsed.payloadLength) = .ok 0
  report : L12.ReportsTcp (L12.diagnoseFrame frame).2 tcp

theorem diagnoseFrame_chunk (h : chunkIndex < chunkCount scenario) {tcp : L06.Segment}
    (hparse : L06.parseSegment (segmentOf scenario chunkIndex) = .ok tcp)
    (hlength : tcp.payloadLength = chunkLength scenario chunkIndex) :
    L12.ReportsTcp (L12.diagnoseFrame (frameOf scenario chunkIndex)).2 tcp := by
  obtain ⟨-, hpos, hle⟩ := chunk_spec h
  have hlen := length_segmentOf h
  have h1 : chunkPayload = 256 := rfl
  have h2 : uint16Max = 65535 := rfl
  have h3 : (ipv4Fields scenario chunkIndex).headerLength = 20 := rfl
  rw [frameOf_eq]
  refine L12.diagnoseFrame_tcp rfl (ipv4Fields_valid scenario chunkIndex) rfl ?_ (by omega) hparse (by omega)
    (ipv4Checksum_segmentOf h)
  show (0x4000 : UInt16) &&& 0x3fff = 0
  decide

/-- **Every frame is valid for every consumer.** Each chunk of a payload is built into a frame that the packet
parser, the segment parser and the diagnoser accept, and the chunks make up the payload. -/
theorem buildFrame_accepted (scenario : Scenario) :
    (∀ chunkIndex < chunkCount scenario, ∃ frame parsed tcp, buildFrame scenario chunkIndex = .ok frame ∧
      Accepted scenario chunkIndex frame parsed tcp) ∧
    (List.range (chunkCount scenario)).flatMap (chunkBytes scenario) = scenario.payload := by
  refine ⟨?_, flatMap_chunkBytes scenario⟩
  intro chunkIndex h
  obtain ⟨parsed, hparse, hoffset, hpayload, hflags⟩ := parseIpv4_packet h
  obtain ⟨tcp, hsegment, hsequence, hlength, hchunk⟩ := parseSegment_segmentOf h
  have hdrop := drop_frameOf scenario chunkIndex
  have hslice := @slice_packet scenario chunkIndex parsed hoffset hpayload
  rw [← hdrop] at hparse hslice
  refine ⟨frameOf scenario chunkIndex, parsed, tcp, buildFrame_eq h, ?_⟩
  exact
    { length := length_frameOf h
      length_le := length_frameOf_le h
      packet := hparse
      packet_payload := by rw [hpayload, length_segmentOf h]
      dontFragment := hflags
      segment := by rw [hslice, hsegment]
      ports := parseSegment_ports hsegment
      sequence := by rw [hsequence, toNat_sequenceNumber]
      chunk_length := hlength
      chunk := by rw [hslice, hchunk]
      checksum := by rw [hslice, ipv4Checksum_segmentOf h]
      report := diagnoseFrame_chunk h hsegment hlength }

end Chunk

/-- 300 bytes in two chunks. -/
def twoChunkScenario : Scenario where
  payload := List.replicate 300 7
  output := List.replicate 300 0
  routes := [⟨#v[10, 1, 0, 0], 16, 10⟩]
  sourceIpv4 := #v[10, 1, 0, 1]
  destinationIpv4 := #v[10, 1, 0, 2]
  sourcePort := 40000
  destinationPort := 443
  senderInitialSeq := 0xffffffff
  receiverInitialSeq := 9000
  initialRtoMs := 100
  maxAttempts := 3
  faults := []

theorem buildFrame_accepted_second :
    chunkCount twoChunkScenario = 2 ∧
      (∃ frame parsed tcp, buildFrame twoChunkScenario 1 = .ok frame ∧ Accepted twoChunkScenario 1 frame parsed tcp) ∧
      chunkBytes twoChunkScenario 0 ++ chunkBytes twoChunkScenario 1 = List.replicate 300 7 := by
  have hcount : chunkCount twoChunkScenario = 2 := by decide +kernel
  obtain ⟨haccepted, hchunks⟩ := buildFrame_accepted twoChunkScenario
  refine ⟨hcount, haccepted 1 (by rw [hcount]; decide), ?_⟩
  have hrange : List.range 2 = [0, 1] := rfl
  rw [hcount, hrange, List.flatMap_cons, List.flatMap_singleton] at hchunks
  exact hchunks

end TcpipCourse.LinuxL03
