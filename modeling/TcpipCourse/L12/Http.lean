import TcpipCourse.L06.Codec
import TcpipCourse.L10.Build
import TcpipCourse.L12.Chain
import TcpipCourse.L12.Compose

/-!
# Lesson 12: HTTP messages in a frame

The diagnoser tests the first bytes of a message and looks for its empty line; lesson 10 parses it.

* `knownMethods`, `httpPrefix_iff` : which of the messages that lesson 10 accepts pass the first test;
* `httpHeadersComplete_of_ok` : all of them pass the second;
* `Carries.diagnoseFrame_http` : what the diagnoser makes of a segment that verifies;
* `httpFrame_diagnosed` : which messages it finds nothing in;
* `requestFrame_diagnosed` : a request of lesson 10 in a segment of lesson 06 in a frame.
-/

namespace TcpipCourse.L12
open Lib
open L10 (ascii sp httpVersion StartLine parseMessage IsMessage isMessage_of_ok parseMessage_of_message
  parseStartLine_ok_iff)

/-! ## The two tests -/

/-- The methods that the diagnoser knows. -/
def knownMethods : List Bytes :=
  ["GET", "HEAD", "POST", "PUT", "DELETE", "OPTIONS"].map fun text => ascii text.toList

theorem httpPrefixes_eq :
    httpPrefixes = knownMethods.map (· ++ [sp]) ++ [ascii ['H', 'T', 'T', 'P', '/']] := by decide

theorem httpPrefix_iff_front (data : Bytes) :
    httpPrefix data data.length = true ↔ ∃ text ∈ httpPrefixes, text <+: data := by
  unfold httpPrefix
  rw [List.any_eq_true]
  refine exists_congr fun text => and_congr_right fun _ => ?_
  rw [Bool.and_eq_true, decide_eq_true_eq, beq_iff_eq, List.prefix_iff_eq_take]
  constructor
  · exact fun h => h.2.symm
  · intro h
    have hlen := congrArg List.length h
    rw [List.length_take] at hlen
    exact ⟨by omega, h.symm⟩

theorem takeWhile_token {token : Bytes} (h : sp ∉ token) (rest : Bytes) :
    (token ++ sp :: rest).takeWhile (· ≠ sp) = token := by
  have hall : ∀ b ∈ token, decide (b ≠ sp) = true := by
    intro b hb
    rw [decide_eq_true_eq]
    rintro rfl
    exact h hb
  rw [List.takeWhile_append_of_pos hall, List.takeWhile_cons_of_neg (by simp), List.append_nil]

theorem httpPrefix_request {method target : Bytes} (h : (StartLine.request method target).WellFormed) (rest : Bytes) :
    httpPrefix ((StartLine.request method target).bytes ++ rest)
        ((StartLine.request method target).bytes ++ rest).length = true ↔ method ∈ knownMethods := by
  have hmethod : sp ∉ method := fun hsp => absurd (h.1.2 sp hsp) (by decide)
  have hbytes : (StartLine.request method target).bytes ++ rest =
      method ++ sp :: (target ++ sp :: httpVersion ++ rest) := by
    simp [StartLine.bytes]
  have hknown : ∀ text ∈ knownMethods, sp ∉ text := by decide
  rw [httpPrefix_iff_front, httpPrefixes_eq]
  constructor
  · rintro ⟨text, htext, after, heq⟩
    rcases List.mem_append.mp htext with hmem | hmem
    · obtain ⟨name, hname, rfl⟩ := List.mem_map.mp hmem
      rw [hbytes, List.append_assoc, List.singleton_append] at heq
      have hfront := congrArg (List.takeWhile (· ≠ sp)) heq
      rw [takeWhile_token (hknown name hname), takeWhile_token hmethod] at hfront
      rwa [← hfront]
    · rw [List.mem_singleton.mp hmem] at heq
      have hlong : 5 ≤ (StartLine.request method target).bytes.length := by
        simp [StartLine.bytes, httpVersion, ascii]
        omega
      refine absurd ?_ (StartLine.take_request h)
      have htake := congrArg (List.take 5) heq
      rw [List.take_append_of_le_length hlong] at htake
      exact htake.symm
  · intro hmem
    refine ⟨method ++ [sp], List.mem_append_left _ (List.mem_map_of_mem hmem), target ++ sp :: httpVersion ++ rest, ?_⟩
    rw [hbytes, List.append_assoc, List.singleton_append]

theorem httpPrefix_response (d1 d2 d3 : UInt8) (reason : Option Bytes) (rest : Bytes) :
    httpPrefix ((StartLine.response d1 d2 d3 reason).bytes ++ rest)
        ((StartLine.response d1 d2 d3 reason).bytes ++ rest).length = true := by
  obtain ⟨-, htake⟩ := StartLine.take_response d1 d2 d3 reason
  rw [httpPrefix_iff_front, httpPrefixes_eq]
  refine ⟨_, List.mem_append_right _ (List.mem_singleton_self _), ?_⟩
  rw [← htake]
  exact (List.take_prefix _ _).trans (List.prefix_append _ _)

/-- Of the messages that lesson 10 accepts, the responses and the requests with a known method pass. -/
theorem httpPrefix_iff {input : Bytes} (h : (parseMessage input).status = .ok) :
    let view := (parseMessage input).message
    httpPrefix input input.length = true ↔
      view.kind = some .response ∨ view.method.bytes input ∈ knownMethods := by
  intro view
  obtain ⟨startLine, fields, body, rest, hmessage⟩ := isMessage_of_ok h
  obtain ⟨message, hstart⟩ := hmessage.start
  have hview : view = _ := congrArg L10.ParseResult.message (parseMessage_of_message hmessage hstart)
  obtain ⟨form, hform, rfl, rfl, -⟩ := parseStartLine_ok_iff.mp hstart
  obtain ⟨after, hinput⟩ : ∃ after, input = form.bytes ++ after :=
    ⟨_, by rw [hmessage.input_eq, L10.headerBlock, List.append_assoc, List.append_assoc]⟩
  rw [hview, hinput]
  cases form with
  | request method target =>
    obtain ⟨hmethod, -, -⟩ := StartLine.bytes_record_request .zero method target after
    rw [httpPrefix_request hform]
    show _ ↔ some L10.MessageKind.request = some .response ∨
      ((StartLine.request method target).record .zero).method.bytes _ ∈ knownMethods
    rw [hmethod]
    simp
  | response d1 d2 d3 reason =>
    refine iff_of_true (httpPrefix_response d1 d2 d3 reason after) (.inl ?_)
    cases reason <;> rfl

theorem httpHeadersComplete_of_ok {input : Bytes} (h : (parseMessage input).status = .ok) :
    httpHeadersComplete input input.length = true := by
  obtain ⟨e, hend⟩ := L10.findHeaderEnd_of_ok h
  obtain ⟨h4, hle, -⟩ := L10.findHeaderEnd_bounds hend
  obtain ⟨⟨hcr, hlf, hcr', hlf'⟩, -⟩ := L10.findHeaderEnd_first hend
  unfold httpHeadersComplete
  rw [if_neg (by omega), List.any_eq_true]
  refine ⟨e - 4, List.mem_range.mpr (by omega), ?_⟩
  rw [hcr, hlf, hcr', hlf']
  rfl

/-! ## A segment in a frame -/

/-- A segment that parses and verifies, to or from a port of HTTP, with a payload. -/
structure CarriesHttp (tcp : Bytes) (ipv4 : L03.Ipv4Packet) (segment : L06.Segment) : Prop where
  parsed : L06.parseSegment tcp = .ok segment
  sum : L06.ipv4Checksum ipv4.source.toList ipv4.destination.toList tcp = .ok 0
  ports : HttpPorts segment.sourcePort segment.destinationPort
  nonempty : segment.payload tcp ≠ []

/-- What is reported of an HTTP message behind a header that is read and a checksum that is good. -/
def httpReport (report : Report) (payloadLength : Nat) : Report :=
  { addLayer ((recordChecksum report true .transportChecksum).withPayloadLength payloadLength) .http with
    httpMessageLength := payloadLength }

theorem parseTcpPayload_http {ipv4 tcp : Bytes} {headerLen : Nat} (frameOffset : Nat) {report : Report}
    (hvalid : transportChecksumValid ipv4 6 tcp tcp.length = true) (hlen : headerLen < tcp.length)
    (hports : HttpPorts report.sourcePort report.destinationPort) :
    let payload := tcp.drop headerLen
    parseTcpPayload ipv4 tcp tcp.length frameOffset headerLen report =
      if httpPrefix payload payload.length = false then
        malformed (httpReport report payload.length) (frameOffset + headerLen)
      else if httpHeadersComplete payload payload.length = false then
        truncated (httpReport report payload.length) (frameOffset + tcp.length)
      else completed (httpReport report payload.length) (frameOffset + tcp.length) := by
  intro payload
  have hpayload : tcp.length - headerLen = payload.length := List.length_drop.symm
  have hlength : (addLayer ((recordChecksum report true .transportChecksum).withPayloadLength payload.length)
      .http).payloadLength = payload.length := (addLayer_kept _ .http).payloadLength
  unfold parseTcpPayload
  dsimp only
  rw [hvalid, hpayload, if_pos ⟨by show 0 < payload.length; omega, hports⟩]
  unfold parseHttp httpReport
  dsimp only
  rw [hlength]

section Segment
variable {frame : Bytes} {ethernet : L02.EthernetFrame} {ipv4 : L03.Ipv4Packet} {segment : L06.Segment}
  (h : Carries frame 6 ethernet ipv4) (hhttp : CarriesHttp (carried frame ethernet ipv4) ipv4 segment)
include h hhttp

theorem Carries.diagnoseFrame_http :
    let tcp := carried frame ethernet ipv4
    let payload := segment.payload tcp
    let report := httpReport (tcpReport (carriedReport frame) tcp) payload.length
    ∃ start stop, diagnoseFrame frame =
      if httpPrefix payload payload.length = false then malformed report start
      else if httpHeadersComplete payload payload.length = false then truncated report stop
      else completed report stop := by
  intro tcp payload report
  obtain ⟨hlen, htype, hstruct, hreserved, hwhole, hprotocol, -⟩ := h.spec
  obtain ⟨-, htcp, -⟩ := h.window
  have hmin : ipv4MinHeader ≤ (frame.drop ethernetHeader).length := hstruct.1
  have hmax := length_payloadWindow_le hstruct
  obtain ⟨hsource, hdestination, -⟩ := parseSegment_fields hhttp.parsed
  obtain ⟨-, -, hfit, hread⟩ := L06.parseSegment_ok hhttp.parsed
  have hbytes : payload = tcp.drop ((tcp.getD 12 0 >>> 4).toNat * 4) := by
    show slice tcp segment.payloadOffset segment.payloadLength = _
    rw [hread]
    exact List.take_of_length_le List.length_drop.le
  have hpositive := List.length_pos_iff.mpr hhttp.nonempty
  have hlong : (tcp.getD 12 0 >>> 4).toNat * 4 < tcp.length := by
    have hdrop := congrArg List.length hbytes
    rw [List.length_drop] at hdrop
    have : 0 < payload.length := hpositive
    omega
  have hvalid : transportChecksumValid (frame.drop ethernetHeader) 6 tcp tcp.length = true := by
    rw [tcpChecksum_iff hmin (by rw [← htcp] at hmax; exact hmax), h.addresses.1, h.addresses.2]
    exact hhttp.sum
  have hports := hhttp.ports
  rw [hsource, hdestination] at hports
  rw [diagnoseFrame_ipv4 hlen htype, parseIpv4_tcp hstruct hreserved hwhole hprotocol, h.headerReport_eq, ← htcp,
    parseTcp_of_ok _ _ ⟨segment, hhttp.parsed⟩, parseTcpPayload_http _ hvalid hlong hports, ← hbytes]
  refine ⟨ethernetHeader + L03.ihlBytes (frame.drop ethernetHeader) + (tcp.getD 12 0 >>> 4).toNat * 4,
    ethernetHeader + L03.ihlBytes (frame.drop ethernetHeader) + tcp.length, ?_⟩
  split
  · rfl
  · split <;> rfl

/-- A message that lesson 10 accepts is refused by its method only. -/
theorem Carries.diagnoseFrame_message
    (hok : (parseMessage (segment.payload (carried frame ethernet ipv4))).status = .ok) :
    let tcp := carried frame ethernet ipv4
    let payload := segment.payload tcp
    let view := (parseMessage payload).message
    let report := httpReport (tcpReport (carriedReport frame) tcp) payload.length
    ∃ start stop, diagnoseFrame frame =
      if view.kind = some .response ∨ view.method.bytes payload ∈ knownMethods then completed report stop
      else malformed report start := by
  intro tcp payload view report
  obtain ⟨start, stop, hdiagnose⟩ := h.diagnoseFrame_http hhttp
  refine ⟨start, stop, hdiagnose.trans ?_⟩
  have hfront := httpPrefix_iff hok
  by_cases hknown : view.kind = some .response ∨ view.method.bytes payload ∈ knownMethods
  · have hpassed : httpPrefix payload payload.length = true := hfront.mpr hknown
    have hcomplete : httpHeadersComplete payload payload.length = true := httpHeadersComplete_of_ok hok
    rw [if_pos hknown, hpassed, hcomplete, if_neg (by decide), if_neg (by decide)]
  · have hrefused : httpPrefix payload payload.length = false := Bool.eq_false_iff.mpr fun hpassed =>
      hknown (hfront.mp hpassed)
    rw [if_neg hknown, if_pos hrefused]

/-- **Main result.** Of the messages that lesson 10 accepts, behind headers and checksums that lessons 02, 03 and 06
accept, the diagnoser finds nothing in the responses and in the requests with a method that it knows; the others are
malformed, and nothing else is said of them. -/
theorem httpFrame_diagnosed (hok : (parseMessage (segment.payload (carried frame ethernet ipv4))).status = .ok) :
    let payload := segment.payload (carried frame ethernet ipv4)
    let view := (parseMessage payload).message
    let result := diagnoseFrame frame
    (result.2.layers = [.ethernet, .ipv4, .tcp, .http] ∧ result.2.checksumsChecked = 2 ∧ result.2.checksumsValid = 2 ∧
      result.2.payloadLength = payload.length ∧ result.2.httpMessageLength = payload.length) ∧
    (view.kind = some .response ∨ view.method.bytes payload ∈ knownMethods →
      result.1 = .ok ∧ result.2.diagnostics = 0) ∧
    (¬(view.kind = some .response ∨ view.method.bytes payload ∈ knownMethods) →
      result.1 = .malformed ∧ result.2.diagnostics = Diagnostic.malformed.bit) := by
  intro payload view result
  obtain ⟨start, stop, hdiagnose⟩ := h.diagnoseFrame_message hhttp hok
  by_cases hknown : view.kind = some .response ∨ view.method.bytes payload ∈ knownMethods
  · have hresult : result = completed _ stop := hdiagnose.trans (if_pos hknown)
    rw [hresult]
    exact ⟨⟨rfl, rfl, rfl, rfl, rfl⟩, fun _ => ⟨rfl, rfl⟩, fun hunknown => absurd hknown hunknown⟩
  · have hresult : result = malformed _ start := hdiagnose.trans (if_neg hknown)
    have hbits : 0 ||| Diagnostic.malformed.bit = Diagnostic.malformed.bit := by decide
    rw [hresult]
    exact ⟨⟨rfl, rfl, rfl, rfl, rfl⟩, fun hk => absurd hk hknown, fun _ => ⟨rfl, hbits⟩⟩

end Segment

/-- `GET / HTTP/1.1` and an empty line, to port 80. -/
def getFrame : Bytes := [2, 0, 0, 0, 0, 2, 2, 0, 0, 0, 0, 1, 8, 0,
  0x45, 0, 0, 58, 0, 0, 0, 0, 64, 6, 0x66, 0xbc, 10, 0, 0, 1, 10, 0, 0, 2,
  4, 0, 0, 80, 0, 0, 0, 0, 0, 0, 0, 0, 0x50, 0x18, 0, 0, 0xb8, 0xc7, 0, 0,
  71, 69, 84, 32, 47, 32, 72, 84, 84, 80, 47, 49, 46, 49, 13, 10, 13, 10]

theorem httpFrame_diagnosed_get :
    (diagnoseFrame getFrame).1 = .ok ∧ (diagnoseFrame getFrame).2.diagnostics = 0 := by
  have hcarries : Carries getFrame 6 ⟨[2, 0, 0, 0, 0, 2], [2, 0, 0, 0, 0, 1], 0x0800, 14, 58⟩
      (L03.readHeader (getFrame.drop 14)) :=
    ⟨by rfl, rfl,
      L03.parseIpv4_eq_ok_iff.mpr ⟨by unfold L03.Structural; decide, by decide, by decide +kernel, rfl⟩, rfl, by decide⟩
  have hhttp : CarriesHttp (carried getFrame ⟨[2, 0, 0, 0, 0, 2], [2, 0, 0, 0, 0, 1], 0x0800, 14, 58⟩
      (L03.readHeader (getFrame.drop 14))) (L03.readHeader (getFrame.drop 14)) (L06.readSegment (getFrame.drop 34)) :=
    ⟨by rfl, by decide +kernel, by decide, by decide⟩
  obtain ⟨-, hfound, -⟩ := httpFrame_diagnosed hcarries hhttp (by decide +kernel)
  exact hfound (.inr (by decide +kernel))

/-! ## A built request -/

/-- A segment of lesson 06 as the parser, the checksum and the next layer see it. -/
theorem buildSegment_carries {fields : L06.SegmentFields} (h : fields.Valid) {payload : Bytes}
    (hlen : fields.headerLength + payload.length ≤ uint16Max) :
    ∃ tcp segment, L06.buildSegment fields payload (fields.headerLength + payload.length) = .ok tcp ∧
      L06.ipv4Checksum fields.sourceIpv4 fields.destinationIpv4 tcp = .ok 0 ∧ L06.parseSegment tcp = .ok segment ∧
      segment.sourcePort = fields.sourcePort ∧ segment.destinationPort = fields.destinationPort ∧
      tcp.length = fields.headerLength + payload.length ∧ (tcp.getD 12 0 >>> 4).toNat * 4 = fields.headerLength ∧
      tcp.drop fields.headerLength = payload := by
  generalize hc : L06.checksumUnchecked fields.sourceIpv4 fields.destinationIpv4 (L06.segmentBytes fields payload 0) =
    checksum
  have hbuild := L06.buildSegment_eq h hlen (Nat.le_refl _)
  have hparse := L06.parseSegment_segmentBytes h payload checksum
  have hsum := L06.checksum_segmentBytes fields.sourceIpv4 fields.destinationIpv4 fields payload
  have hlength := L06.length_segmentBytes fields payload checksum
  have hpayload := L06.segmentBytes_append fields payload checksum
  have hfront := L06.length_segmentBytes fields [] checksum
  rw [hc] at hbuild hsum
  obtain ⟨-, -, hfit, -⟩ := L06.parseSegment_ok hparse
  obtain ⟨-, -, -, hrest⟩ := parseSegment_fields hparse
  refine ⟨_, _, hbuild, ?_, hparse, rfl, rfl, hlength, ?_, ?_⟩
  · rw [L06.ipv4Checksum_eq h.source h.destination (by omega), hsum]
  · dsimp only at hrest
    omega
  · rw [hpayload]
    exact List.drop_left' hfront

/-- **Main result.** A request that lesson 10 builds and lesson 06 puts into a segment to or from a port of HTTP: the
diagnoser finds nothing in the frame, and the parser reads the request back from the end of it. -/
theorem requestFrame_diagnosed {macs : Bytes} (hmacs : macs.length = 12) {ipFields : L03.HeaderFields}
    (hfields : ipFields.Valid) (hprotocol : ipFields.protocol = 6) (hwhole : ipFields.flagsFragment &&& 0x3fff = 0)
    {tcpFields : L06.SegmentFields} (htcp : tcpFields.Valid) (hsource : tcpFields.sourceIpv4 = ipFields.source.toList)
    (hdestination : tcpFields.destinationIpv4 = ipFields.destination.toList)
    (hports : HttpPorts tcpFields.sourcePort tcpFields.destinationPort) {path body out : Bytes}
    (hbuilt : (L10.buildRequest path body out).status = .ok)
    (hlen : ipFields.headerLength + tcpFields.headerLength + (L10.buildRequest path body out).written ≤ 65535) :
    let built := L10.buildRequest path body out
    ∃ tcp frame,
      L06.buildSegment tcpFields (built.out.take built.written) (tcpFields.headerLength + built.written) = .ok tcp ∧
      packetFrame macs ipFields tcp = .ok frame ∧
      let result := diagnoseFrame frame
      (result.1 = .ok ∧ result.2.diagnostics = 0) ∧
      (result.2.layers = [.ethernet, .ipv4, .tcp, .http] ∧ result.2.checksumsChecked = 2 ∧
        result.2.checksumsValid = 2 ∧ result.2.httpMessageLength = built.written) ∧
      L10.ReadsRequest (frame.drop (ethernetHeader + ipFields.headerLength + tcpFields.headerLength)) path body
        built.written := by
  have hable : L10.Buildable path body out.length :=
    Classical.byContradiction fun hnot => (L10.buildRequest_fail hnot).1 hbuilt
  have hreads := L10.readsRequest_requestBytes hable []
  have hmessage := L10.take_buildRequest hable
  have hwritten : (L10.buildRequest path body out).written = (L10.requestBytes path body).length := by
    rw [L10.buildRequest_eq hable]
  rw [List.append_nil, ← L10.length_requestBytes] at hreads
  intro built
  rw [hmessage, hwritten]
  rw [hwritten] at hlen
  generalize L10.requestBytes path body = message at hreads hlen ⊢
  have h16 : uint16Max = 65535 := rfl
  obtain ⟨tcp, segment, hbuild, hsum, hparse, hfrom, hto, htcplen, hoffset, hpayload⟩ :=
    @buildSegment_carries tcpFields htcp message (by omega)
  have hpositive : 0 < message.length := by
    apply Nat.pos_of_ne_zero
    intro hnil
    have hstatus := hreads.status
    rw [List.eq_nil_of_length_eq_zero hnil] at hstatus
    exact absurd hstatus (by decide)
  obtain ⟨m, hdiagnose⟩ := diagnoseFrame_segment hmacs hfields hprotocol hwhole (by omega) hparse
  obtain ⟨hsourceBytes, hdestinationBytes⟩ := packet_addresses ipFields tcp
  have hvalid : transportChecksumValid (headerOf ipFields tcp.length ++ tcp) 6 tcp tcp.length = true := by
    rw [tcpChecksum_iff (packet_min ipFields tcp) (by omega), hsourceBytes, hdestinationBytes, ← hsource,
      ← hdestination]
    exact hsum
  obtain ⟨hread, hread', -⟩ := parseSegment_fields hparse
  rw [← hfrom, ← hto, hread, hread'] at hports
  have hknown : (parseMessage message).message.method.bytes message ∈ knownMethods := by
    rw [hreads.method]
    decide
  have hpassed : httpPrefix message message.length = true := (httpPrefix_iff hreads.status).mpr (.inr hknown)
  rw [hoffset, parseTcpPayload_http _ hvalid (by omega) hports, hpayload, hpassed,
    httpHeadersComplete_of_ok hreads.status, if_neg (by decide), if_neg (by decide)] at hdiagnose
  refine ⟨tcp, _, hbuild, packetFrame_eq macs hfields tcp, ?_⟩
  intro result
  have hresult : result = _ := hdiagnose
  rw [hresult]
  refine ⟨⟨rfl, rfl⟩, ⟨rfl, rfl, rfl, rfl⟩, ?_⟩
  rw [← List.drop_drop, drop_frameOf hmacs, hpayload]
  exact hreads

/-- A segment to port 80, between the addresses of `testFields`. -/
def postFields : L06.SegmentFields :=
  ⟨[10, 1, 2, 3], [10, 1, 2, 53], 53000, 80, 1, 2, 0x018, 1024, 0, []⟩

theorem requestFrame_diagnosed_two :
    let built := L10.buildRequest [47, 97] [111, 107] (List.replicate 200 0)
    built.status = .ok ∧ built.written = 77 ∧
      ∃ tcp frame, L06.buildSegment postFields (built.out.take built.written) (20 + built.written) = .ok tcp ∧
        packetFrame [2, 0, 0, 0, 0, 2, 2, 0, 0, 0, 0, 1] { testFields with protocol := 6 } tcp = .ok frame ∧
        ((diagnoseFrame frame).1 = .ok ∧ (diagnoseFrame frame).2.diagnostics = 0) ∧
        ((diagnoseFrame frame).2.layers = [.ethernet, .ipv4, .tcp, .http] ∧
          (diagnoseFrame frame).2.checksumsChecked = 2 ∧ (diagnoseFrame frame).2.checksumsValid = 2 ∧
          (diagnoseFrame frame).2.httpMessageLength = built.written) ∧
        L10.ReadsRequest (frame.drop 54) [47, 97] [111, 107] built.written := by
  intro built
  have hbuilt : built.status = .ok := by decide +kernel
  have hwritten : built.written = 77 := by decide +kernel
  exact ⟨hbuilt, hwritten, @requestFrame_diagnosed [2, 0, 0, 0, 0, 2, 2, 0, 0, 0, 0, 1] rfl
    { testFields with protocol := 6 } ⟨by decide, by decide, by decide⟩ rfl (by decide) postFields
    ⟨rfl, rfl, by decide, by decide, by decide⟩ rfl rfl (by decide) [47, 97] [111, 107] (List.replicate 200 0) hbuilt
    (by rw [show (L10.buildRequest _ _ _).written = _ from hwritten]; decide)⟩

end TcpipCourse.L12
