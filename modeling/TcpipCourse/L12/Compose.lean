import TcpipCourse.L01.Checksum
import TcpipCourse.L09.Query
import TcpipCourse.L12.Agree
import TcpipCourse.L12.Names

/-!
# Lesson 12: a frame put together from the lessons

* `makeDnsFrame` : the frame of the integration test, from the query to the Ethernet header;
* `packetFrame` : its last part, for any payload; `frameOf`, `packetFrame_eq`, `makeDnsFrame_eq` : the layout;
* `diagnoseFrame_frameOf` : how the diagnoser gets to the DNS message, whatever its bytes are;
* `diagnoseFrame_tcp` : what it makes of a segment in such a frame;
* `parseDns_queryBytes` : what it makes of a query;
* `makeDnsFrame_diagnosed` : the main result.
-/

namespace TcpipCourse.L12
open Lib

/-! ## Building -/

def maxQuery : Nat := L09.dnsHeaderSize + L09.maxWireName + 4

/-- The total length and then the checksum of lesson 01 stored over those of a built header. -/
def patchHeader (header : Bytes) (ipLength : Nat) : Bytes :=
  let ip := overwrite header 2 (be16Bytes (UInt16.ofNat ipLength))
  let ip := overwrite ip 10 [0, 0]
  overwrite ip 10 (be16Bytes (L01.checksum16 ip))

/-- `make_dns_frame`, with buffers for the longest query; `macs` holds both addresses of the Ethernet header. -/
def makeDnsFrame (macs : Bytes) (ipFields : L03.HeaderFields) (sourcePort destinationPort id : UInt16) (name : Bytes)
    (qtype : UInt16) : Except Status Bytes :=
  let query := L09.buildQuery id name qtype (List.replicate maxQuery 0)
  if query.status ≠ .ok then .error query.status
  else
    match L05.buildDatagram ipFields.source.toList ipFields.destination.toList sourcePort destinationPort
        (query.out.take query.written) (L05.udpHeaderLength + maxQuery) with
    | .error status => .error status
    | .ok udp =>
      match L03.buildHeader ipFields L03.maxHeaderLength with
      | .error status => .error status
      | .ok header => .ok (macs ++ be16Bytes 0x0800 ++ patchHeader header (header.length + udp.length) ++ udp)

/-- The last part of it: a built header, patched for `payload`, behind both addresses. -/
def packetFrame (macs : Bytes) (ipFields : L03.HeaderFields) (payload : Bytes) : Except Status Bytes :=
  match L03.buildHeader ipFields L03.maxHeaderLength with
  | .error status => .error status
  | .ok header => .ok (macs ++ be16Bytes 0x0800 ++ patchHeader header (header.length + payload.length) ++ payload)

/-- The IPv4 header in front of `length` bytes of payload. -/
def headerOf (ipFields : L03.HeaderFields) (length : Nat) : Bytes :=
  let totalLength := UInt16.ofNat (ipFields.headerLength + length)
  L03.headerBytes ipFields totalLength (L03.checksum (L03.headerBytes ipFields totalLength 0))

def frameOf (macs : Bytes) (ipFields : L03.HeaderFields) (udp : Bytes) : Bytes :=
  macs ++ be16Bytes 0x0800 ++ headerOf ipFields udp.length ++ udp

theorem length_headerOf (ipFields : L03.HeaderFields) (length : Nat) :
    (headerOf ipFields length).length = ipFields.headerLength := L03.length_headerBytes _ _ _

theorem length_frameOf {macs : Bytes} (hmacs : macs.length = 12) (ipFields : L03.HeaderFields) (udp : Bytes) :
    (frameOf macs ipFields udp).length = ethernetHeader + ipFields.headerLength + udp.length := by
  unfold frameOf
  rw [List.length_append, List.length_append, List.length_append, hmacs, length_be16Bytes, length_headerOf]
  rfl

theorem drop_frameOf {macs : Bytes} (hmacs : macs.length = 12) (ipFields : L03.HeaderFields) (udp : Bytes) :
    (frameOf macs ipFields udp).drop (ethernetHeader + ipFields.headerLength) = udp := by
  apply List.drop_left'
  rw [List.length_append, List.length_append, hmacs, length_be16Bytes, length_headerOf]
  rfl

theorem length_query (id : UInt16) (labels : List Bytes) (qtype : UInt16) :
    (L09.queryBytes id (L09.wireName labels) qtype).length = 12 + L09.wireLength labels + 4 := by
  rw [L09.length_queryBytes, L09.length_wireName]
  rfl

/-- The datagram of a query, with the checksum that is sent. -/
def datagramOf (ipFields : L03.HeaderFields) (sourcePort destinationPort : UInt16) (query : Bytes) : Bytes :=
  L05.datagramBytes sourcePort destinationPort query (L05.sentChecksum (L05.checksumUnchecked
    ipFields.source.toList ipFields.destination.toList (L05.datagramBytes sourcePort destinationPort query 0)))

theorem patchHeader_eq (ipFields : L03.HeaderFields) (totalLength checksum : UInt16) (length : Nat) :
    patchHeader (L03.headerBytes ipFields totalLength checksum) (ipFields.headerLength + length) =
      headerOf ipFields length := by
  unfold patchHeader headerOf L03.checksum
  dsimp only
  rw [L03.overwrite_totalLength, show ([0, 0] : Bytes) = be16Bytes 0 by decide, L03.overwrite_checksum,
    L01.checksum16_eq, L03.overwrite_checksum]

theorem packetFrame_eq (macs : Bytes) {ipFields : L03.HeaderFields} (hfields : ipFields.Valid) (payload : Bytes) :
    packetFrame macs ipFields payload = .ok (frameOf macs ipFields payload) := by
  have hhead : L03.maxHeaderLength = 60 := rfl
  have hoptions := hfields.options_le
  have hopt : L03.maxOptionsLength = 40 := rfl
  have hheader : ipFields.headerLength = 20 + ipFields.options.length := rfl
  unfold packetFrame
  rw [L03.buildHeader_eq hfields (by omega)]
  dsimp only
  rw [L03.length_headerBytes, patchHeader_eq]
  rfl

theorem makeDnsFrame_eq (macs : Bytes) {ipFields : L03.HeaderFields} (hfields : ipFields.Valid)
    (sourcePort destinationPort id : UInt16) {name : Bytes} {qtype : UInt16} (hqtype : qtype ≠ 0)
    (hvalid : ∀ label ∈ L09.textLabels (L09.withoutDot name), L09.ValidLabel label)
    (hwire : L09.wireLength (L09.textLabels (L09.withoutDot name)) ≤ 255) :
    makeDnsFrame macs ipFields sourcePort destinationPort id name qtype =
      .ok (frameOf macs ipFields (datagramOf ipFields sourcePort destinationPort
        (L09.queryBytes id (L09.wireName (L09.textLabels (L09.withoutDot name))) qtype))) := by
  have hmax : maxQuery = 271 := rfl
  have hsize : L09.dnsHeaderSize = 12 := rfl
  have hudp : L05.udpHeaderLength = 8 := rfl
  have h16 : uint16Max = 65535 := rfl
  have hquery := @L09.buildQuery_ok id name qtype hqtype hvalid hwire (List.replicate maxQuery 0)
    (by rw [List.length_replicate]; omega)
  generalize hlabels : L09.textLabels (L09.withoutDot name) = labels at hwire hquery ⊢
  have hlen := length_query id labels qtype
  have htake : (overwrite (List.replicate maxQuery 0) 0 (L09.queryBytes id (L09.wireName labels) qtype)).take
      (L09.dnsHeaderSize + L09.wireLength labels + 4) = L09.queryBytes id (L09.wireName labels) qtype := by
    rw [hsize, ← hlen]
    apply take_overwrite_zero
    rw [hlen, List.length_replicate]
    omega
  have hdatagram := @L05.buildDatagram_eq ipFields.source.toList ipFields.destination.toList
    (L09.queryBytes id (L09.wireName labels) qtype) (by simp) (by simp) (by omega) (L05.udpHeaderLength + maxQuery)
    (by omega) sourcePort destinationPort
  unfold makeDnsFrame
  rw [hquery]
  dsimp only
  rw [if_neg (not_not.mpr rfl), htake, hdatagram]
  exact packetFrame_eq macs hfields _

/-! ## Diagnosing -/

section Packet
variable {ipFields : L03.HeaderFields} (hfields : ipFields.Valid) {udp : Bytes}
  (hlen : ipFields.headerLength + udp.length ≤ uint16Max)
include hfields hlen

theorem packet_ok : ∃ parsed, L03.parseIpv4 (headerOf ipFields udp.length ++ udp) = .ok parsed := by
  have h16 : uint16Max = 65535 := rfl
  have htotal : (UInt16.ofNat (ipFields.headerLength + udp.length)).toNat = ipFields.headerLength + udp.length :=
    toNat_length16 hlen
  exact ⟨_, @L03.parseIpv4_headerBytes ipFields hfields _ udp (by omega) (by omega)⟩

omit hlen in
theorem packet_ihlBytes : L03.ihlBytes (headerOf ipFields udp.length ++ udp) = ipFields.headerLength := by
  have hoptions := hfields.options_le
  have haligned := hfields.options_aligned
  have hopt : L03.maxOptionsLength = 40 := rfl
  have hheader : ipFields.headerLength = 20 + ipFields.options.length := rfl
  have hfirst : (headerOf ipFields udp.length ++ udp).getD 0 0 =
      ((4 : UInt8) <<< 4) ||| UInt8.ofNat (ipFields.headerLength / 4) := rfl
  unfold L03.ihlBytes
  rw [hfirst, (@L03.versionIhl (ipFields.headerLength / 4) (by omega) (by omega)).2]
  exact toNat_wordCount (by omega) (by omega)

theorem packet_window : payloadWindow (headerOf ipFields udp.length ++ udp) = udp := by
  have h16 : uint16Max = 65535 := rfl
  have htotal : (readU16 (headerOf ipFields udp.length ++ udp) 2).toNat = ipFields.headerLength + udp.length := by
    rw [show readU16 (headerOf ipFields udp.length ++ udp) 2 = UInt16.ofNat (ipFields.headerLength + udp.length) from
      be16_be16Bytes _]
    exact toNat_length16 hlen
  unfold payloadWindow slice
  rw [packet_ihlBytes hfields, htotal, ← length_headerOf ipFields udp.length, List.drop_left,
    Nat.add_sub_cancel_left, List.take_length]

/-- The header verifies. -/
theorem packet_headerReport (report : Report) : headerReport (headerOf ipFields udp.length ++ udp) report =
    recordChecksum ((addLayer report .ipv4).withIpv4Fields (headerOf ipFields udp.length ++ udp)) true
      .ipv4Checksum := by
  obtain ⟨hstruct, -, hsum⟩ := (L03.parseIpv4_ok_iff _).mp (packet_ok hfields hlen)
  have hihl := @packet_ihlBytes ipFields hfields udp
  have hle := hstruct.2.2.2.1.trans hstruct.2.2.2.2
  rw [hihl] at hsum hle
  unfold headerReport
  rw [hihl, (checksumValid_iff hle (by omega)).mpr hsum]

omit hfields hlen in
theorem diagnoseFrame_packet {macs : Bytes} (hmacs : macs.length = 12) :
    diagnoseFrame (frameOf macs ipFields udp) = parseIpv4 (headerOf ipFields udp.length ++ udp)
      (headerOf ipFields udp.length ++ udp).length ethernetHeader
      ((Report.start (frameOf macs ipFields udp).length).withEthernetHeader (frameOf macs ipFields udp)) := by
  have hpacket : (frameOf macs ipFields udp).drop ethernetHeader = headerOf ipFields udp.length ++ udp := by
    have hhead : (macs ++ be16Bytes 0x0800).length = ethernetHeader := by
      rw [List.length_append, hmacs]
      rfl
    unfold frameOf
    rw [List.append_assoc _ (headerOf _ _), ← hhead, List.drop_left]
  have htype : readU16 (frameOf macs ipFields udp) 12 = 0x0800 := by
    have hget : readU16 (frameOf macs ipFields udp) 12 =
        readU16 (be16Bytes 0x0800 ++ headerOf ipFields udp.length ++ udp) 0 := by
      rw [← Nat.add_zero 12, ← hmacs, ← readU16_drop]
      unfold frameOf
      rw [List.append_assoc, List.append_assoc, List.drop_left, List.append_assoc]
    rw [hget]
    exact be16_be16Bytes 0x0800
  have hlength : ethernetHeader ≤ (frameOf macs ipFields udp).length := by
    rw [length_frameOf hmacs]
    omega
  rw [diagnoseFrame_ipv4 hlength htype, hpacket]

end Packet

theorem packet_addresses (ipFields : L03.HeaderFields) (udp : Bytes) :
    slice (headerOf ipFields udp.length ++ udp) 12 4 = ipFields.source.toList ∧
      slice (headerOf ipFields udp.length ++ udp) 16 4 = ipFields.destination.toList := by
  unfold headerOf L03.headerBytes
  constructor
  · rw [L03.address_toList]
    rfl
  · rw [L03.address_toList, L03.address_toList]
    rfl

theorem packet_min (ipFields : L03.HeaderFields) (udp : Bytes) :
    ipv4MinHeader ≤ (headerOf ipFields udp.length ++ udp).length := by
  rw [List.length_append, length_headerOf]
  exact Nat.le_add_right_of_le (Nat.le_add_right _ _)

/-- What is recorded in front of a DNS message, by the result of the datagram's checksum. -/
def dnsReport (start : Report) (packet udp : Bytes) (valid : Bool) : Report :=
  recordChecksum ((udpReport (recordChecksum ((addLayer start .ipv4).withIpv4Fields packet) true .ipv4Checksum)
    udp).withPayloadLength (udp.length - udpHeader)) valid .transportChecksum

/-- The frame's own report with both headers read, in front of its DNS message. -/
def frameReport (macs : Bytes) (ipFields : L03.HeaderFields) (udp : Bytes) : Report :=
  let frame := frameOf macs ipFields udp
  let packet := headerOf ipFields udp.length ++ udp
  dnsReport ((Report.start frame.length).withEthernetHeader frame) packet udp
    (transportChecksumValid packet 17 udp udp.length)

/-- A whole datagram to or from port 53 with a checksum is handed on to DNS. -/
theorem diagnoseFrame_frameOf {macs : Bytes} (hmacs : macs.length = 12) {ipFields : L03.HeaderFields}
    (hfields : ipFields.Valid) (hprotocol : ipFields.protocol = 17) (hwhole : ipFields.flagsFragment &&& 0x3fff = 0)
    {udp : Bytes} (hlen : ipFields.headerLength + udp.length ≤ uint16Max)
    (hparsed : ∃ datagram, L05.parseDatagram udp = .ok datagram) (hsent : readU16 udp 6 ≠ 0)
    (hport : readU16 udp 0 = 53 ∨ readU16 udp 2 = 53) :
    ∃ m, diagnoseFrame (frameOf macs ipFields udp) =
      atLength m (parseDns (udp.drop udpHeader) (udp.length - udpHeader)
        (ethernetHeader + ipFields.headerLength + udpHeader) (frameReport macs ipFields udp)) := by
  obtain ⟨hstruct, hreserved, -⟩ := (L03.parseIpv4_ok_iff _).mp (packet_ok hfields hlen)
  have hflags : readU16 (headerOf ipFields udp.length ++ udp) 6 = ipFields.flagsFragment := be16_be16Bytes _
  rw [diagnoseFrame_packet hmacs, parseIpv4_udp hstruct hreserved (by rw [hflags, hwhole]) hprotocol,
    packet_window hfields hlen, packet_ihlBytes hfields, parseUdp_of_ok _ _ hparsed, packet_headerReport hfields hlen]
  refine ⟨_, congrArg (atLength _) ?_⟩
  unfold frameReport dnsReport
  dsimp only
  generalize recordChecksum ((addLayer ((Report.start (frameOf macs ipFields udp).length).withEthernetHeader
    (frameOf macs ipFields udp)) .ipv4).withIpv4Fields (headerOf ipFields udp.length ++ udp)) true
    .ipv4Checksum = report
  generalize headerOf ipFields udp.length ++ udp = packet
  unfold parseUdpPayload recordUdpChecksum
  dsimp only
  rw [if_pos hsent]
  generalize transportChecksumValid packet 17 udp udp.length = valid
  obtain ⟨hsource, hdestination, -, -, hpayload, -⟩ := recordChecksum_fields
    ((udpReport report udp).withPayloadLength (udp.length - udpHeader)) valid .transportChecksum
  have hport' : ((udpReport report udp).withPayloadLength (udp.length - udpHeader)).sourcePort = 53 ∨
      ((udpReport report udp).withPayloadLength (udp.length - udpHeader)).destinationPort = 53 := hport
  rw [hsource, hdestination, hpayload, if_pos hport']
  rfl

/-! ## A segment -/

/-- The condition of the HTTP branch of `tcpip_l12_parse_tcp`, on the ports alone. -/
def HttpPorts (source destination : UInt16) : Prop :=
  source = 80 ∨ destination = 80 ∨ source = 8080 ∨ destination = 8080

instance (source destination : UInt16) : Decidable (HttpPorts source destination) :=
  inferInstanceAs (Decidable (_ ∨ _))

theorem parseHttp_layers (payload : Bytes) (ipPayloadLen frameOffset tcpHeaderLen : Nat) (report : Report) :
    (parseHttp payload ipPayloadLen frameOffset tcpHeaderLen report).2.layers = (addLayer report .http).layers := by
  unfold parseHttp
  dsimp only
  split
  · rfl
  · split <;> rfl

theorem parseTcpPayload_layers (ipv4 tcp : Bytes) {ipPayloadLen tcpHeaderLen : Nat} (frameOffset : Nat)
    (report : Report) (hpayload : tcpHeaderLen < ipPayloadLen) :
    (parseTcpPayload ipv4 tcp ipPayloadLen frameOffset tcpHeaderLen report).2.layers =
      if HttpPorts report.sourcePort report.destinationPort then (addLayer report .http).layers
      else report.layers := by
  obtain ⟨hsource, hdestination, -, -, -, hlayers⟩ := recordChecksum_fields report
    (transportChecksumValid ipv4 6 tcp ipPayloadLen) .transportChecksum
  generalize hrecorded : recordChecksum report (transportChecksumValid ipv4 6 tcp ipPayloadLen) .transportChecksum =
    recorded at hsource hdestination hlayers
  have hadd : (addLayer (recorded.withPayloadLength (ipPayloadLen - tcpHeaderLen)) .http).layers =
      (addLayer report .http).layers := by
    rw [addLayer_layers, addLayer_layers]
    exact congrArg (fun layers => if layers.length < maxLayers then layers ++ [.http] else layers) hlayers
  unfold parseTcpPayload
  dsimp only
  rw [hrecorded, ← hsource, ← hdestination]
  by_cases hports : HttpPorts recorded.sourcePort recorded.destinationPort
  · rw [if_pos ⟨Nat.sub_pos_of_lt hpayload, hports⟩, if_pos hports, parseHttp_layers, hadd]
  · rw [if_neg fun h => hports h.2, if_neg hports, ← hlayers]
    rfl

theorem frameOf_sound {macs : Bytes} (hmacs : macs.length = 12) (ipFields : L03.HeaderFields) (tcp : Bytes) :
    Sound (frameOf macs ipFields tcp).length (diagnoseFrame (frameOf macs ipFields tcp)) := by
  have hstart : Running (frameOf macs ipFields tcp).length [.ethernet] 0
      ((Report.start (frameOf macs ipFields tcp).length).withEthernetHeader (frameOf macs ipFields tcp)) :=
    { start_running (frameOf macs ipFields tcp).length with }
  rw [diagnoseFrame_packet hmacs]
  refine (parseIpv4_ends hstart _ ?_).toSound
  rw [length_frameOf hmacs, List.length_append, length_headerOf]
  omega

/-- The frame's own report with both headers read, in front of the payload of its segment. -/
def segmentReport (macs : Bytes) (ipFields : L03.HeaderFields) (tcp : Bytes) : Report :=
  let frame := frameOf macs ipFields tcp
  let packet := headerOf ipFields tcp.length ++ tcp
  tcpReport (recordChecksum ((addLayer ((Report.start frame.length).withEthernetHeader frame) .ipv4).withIpv4Fields
    packet) true .ipv4Checksum) tcp

theorem segmentReport_counts (macs : Bytes) (ipFields : L03.HeaderFields) (tcp : Bytes) :
    (segmentReport macs ipFields tcp).checksumsChecked = 1 ∧
      (segmentReport macs ipFields tcp).checksumsValid = 1 := ⟨rfl, rfl⟩

theorem segmentReport_layers (macs : Bytes) (ipFields : L03.HeaderFields) (tcp : Bytes) :
    (segmentReport macs ipFields tcp).layers = [.ethernet, .ipv4, .tcp] := rfl

theorem segmentReport_ports (macs : Bytes) (ipFields : L03.HeaderFields) (tcp : Bytes) :
    (segmentReport macs ipFields tcp).sourcePort = readU16 tcp 0 ∧
      (segmentReport macs ipFields tcp).destinationPort = readU16 tcp 2 := ⟨rfl, rfl⟩

/-- The report of a segment that parses and verifies. -/
structure ReportsTcp (report : Report) (segment : L06.Segment) : Prop where
  checked : report.checksumsChecked = 2
  valid : report.checksumsValid = 2
  no_mismatch : ¬ report.has .checksumMismatch = true
  no_ipv4Checksum : ¬ report.has .ipv4Checksum = true
  no_transportChecksum : ¬ report.has .transportChecksum = true
  payloadLength : report.payloadLength = segment.payloadLength
  layers : report.layers = [.ethernet, .ipv4, .tcp] ++
    if HttpPorts segment.sourcePort segment.destinationPort then [.http] else []

section Segment
variable {macs : Bytes} (hmacs : macs.length = 12) {ipFields : L03.HeaderFields} (hfields : ipFields.Valid)
  (hprotocol : ipFields.protocol = 6) (hwhole : ipFields.flagsFragment &&& 0x3fff = 0) {tcp : Bytes}
  (hlen : ipFields.headerLength + tcp.length ≤ uint16Max) {segment : L06.Segment}
  (hparsed : L06.parseSegment tcp = .ok segment)
include hmacs hfields hprotocol hwhole hlen hparsed

/-- A whole segment that parses is handed on to the branch behind its header. -/
theorem diagnoseFrame_segment :
    ∃ m, diagnoseFrame (frameOf macs ipFields tcp) =
      atLength m (parseTcpPayload (headerOf ipFields tcp.length ++ tcp) tcp tcp.length
        (ethernetHeader + ipFields.headerLength) ((tcp.getD 12 0 >>> 4).toNat * 4)
        (segmentReport macs ipFields tcp)) := by
  obtain ⟨hstruct, hreserved, -⟩ := (L03.parseIpv4_ok_iff _).mp (packet_ok hfields hlen)
  have hflags : readU16 (headerOf ipFields tcp.length ++ tcp) 6 = ipFields.flagsFragment := be16_be16Bytes _
  rw [diagnoseFrame_packet hmacs, parseIpv4_tcp hstruct hreserved (by rw [hflags, hwhole]) hprotocol,
    packet_window hfields hlen, parseTcp_of_ok _ _ ⟨segment, hparsed⟩, packet_headerReport hfields hlen,
    packet_ihlBytes hfields]
  exact ⟨_, rfl⟩

/-- **A verified segment.** The counters stand at two, and the ports decide about HTTP. -/
theorem diagnoseFrame_tcp (hpayload : 0 < segment.payloadLength)
    (hsum : L06.ipv4Checksum ipFields.source.toList ipFields.destination.toList tcp = .ok 0) :
    ReportsTcp (diagnoseFrame (frameOf macs ipFields tcp)).2 segment := by
  obtain ⟨hfrom, hto⟩ := packet_addresses ipFields tcp
  have hvalid : transportChecksumValid (headerOf ipFields tcp.length ++ tcp) 6 tcp tcp.length = true := by
    rw [tcpChecksum_iff (packet_min ipFields tcp) (by omega), hfrom, hto]
    exact hsum
  obtain ⟨hsource, hdestination, -, hlength⟩ := parseSegment_fields hparsed
  obtain ⟨m, hdiagnose⟩ := diagnoseFrame_segment hmacs hfields hprotocol hwhole hlen hparsed
  obtain ⟨hports, hports'⟩ := segmentReport_ports macs ipFields tcp
  have hcounts := segmentReport_counts macs ipFields tcp
  have hsound := frameOf_sound hmacs ipFields tcp
  have hkept := parseTcpPayload_kept (headerOf ipFields tcp.length ++ tcp) tcp tcp.length
    (ethernetHeader + ipFields.headerLength) ((tcp.getD 12 0 >>> 4).toNat * 4) (segmentReport macs ipFields tcp)
  have hpath := @parseTcpPayload_layers (headerOf ipFields tcp.length ++ tcp) tcp tcp.length
    ((tcp.getD 12 0 >>> 4).toNat * 4) (ethernetHeader + ipFields.headerLength) (segmentReport macs ipFields tcp)
    (by omega)
  rw [hvalid] at hkept
  rw [hports, hports', ← hsource, ← hdestination] at hpath
  rw [hdiagnose] at hsound ⊢
  generalize parseTcpPayload (headerOf ipFields tcp.length ++ tcp) tcp tcp.length
    (ethernetHeader + ipFields.headerLength) ((tcp.getD 12 0 >>> 4).toNat * 4)
    (segmentReport macs ipFields tcp) = result at *
  have hchecked : result.2.checksumsChecked = 2 := hkept.checked.trans (congrArg (· + 1) hcounts.1)
  have hgood : result.2.checksumsValid = 2 := hkept.valid.trans (congrArg (· + 1) hcounts.2)
  -- with both counters at two, no bit of a checksum can be set
  have hmismatch : ¬ result.2.has .checksumMismatch = true := by
    intro hbit
    have hless : result.2.checksumsValid < result.2.checksumsChecked := hsound.mismatch.mpr hbit
    omega
  have htargeted : ¬ (result.2.has .ipv4Checksum = true ∨ result.2.has .transportChecksum = true) :=
    fun hbit => hmismatch (hsound.targeted.mpr hbit)
  rw [not_or] at htargeted
  refine ⟨hchecked, hgood, hmismatch, htargeted.1, htargeted.2, hkept.payloadLength.trans hlength.symm, ?_⟩
  show result.2.layers = _
  rw [hpath, addLayer_layers, segmentReport_layers]
  split <;> rfl

end Segment

/-! ## The query -/

section Query
variable (id : UInt16) {labels : List Bytes} (hlabels : ∀ label ∈ labels, 1 ≤ label.length ∧ label.length ≤ 63)
  (hwire : L09.wireLength labels ≤ 255) (qtype : UInt16) (frameOffset : Nat)
include hlabels hwire

/-- The walk of the question name ends four bytes before the message does. -/
theorem walkDnsName_queryBytes :
    let dns := L09.queryBytes id (L09.wireName labels) qtype
    walkDnsName dns dns.length dnsHeader frameOffset = .ok (dnsHeader + L09.wireLength labels) := by
  intro dns
  have hexpands := L09.expands_wireName (be16Bytes qtype ++ be16Bytes 1) labels
    (be16Bytes id ++ be16Bytes 0x0100 ++ be16Bytes 1 ++ List.replicate 6 0) hlabels
  have hdecode := L09.decodeNameInternal_complete hexpands (by omega) hwire
  exact (walkLoop_agrees (L09.visits_init dns dnsHeader) _).mpr ⟨_, hdecode, rfl⟩

theorem walkSections_queryBytes :
    let dns := L09.queryBytes id (L09.wireName labels) qtype
    walkSections dns dns.length frameOffset = .ok dns.length := by
  intro dns
  have hname := walkDnsName_queryBytes id hlabels hwire qtype frameOffset
  have hlen : dns.length = 12 + L09.wireLength labels + 4 := length_query id labels qtype
  have hone : (readU16 dns 4).toNat = 1 := congrArg UInt16.toNat (be16_be16Bytes 1)
  have hzero : readU16 dns 6 = be16 0 0 ∧ readU16 dns 8 = be16 0 0 ∧ readU16 dns 10 = be16 0 0 := ⟨rfl, rfl, rfl⟩
  have hhead : dnsHeader = 12 := rfl
  have hquestion : walkQuestions dns dns.length frameOffset (readU16 dns 4) dnsHeader = .ok dns.length := by
    unfold walkQuestions
    rw [hone, walkSection, hname]
    dsimp only
    unfold questionFields
    rw [if_neg (by omega)]
    dsimp only
    rw [walkSection, hlen, hhead]
  unfold walkSections
  rw [hquestion]
  unfold walkDnsRrs
  rw [hzero.1, hzero.2.1, hzero.2.2]
  rfl

theorem parseDns_queryBytes (report : Report) :
    let dns := L09.queryBytes id (L09.wireName labels) qtype
    parseDns dns dns.length frameOffset report =
      completed ((addLayer report .dns).withDnsHeader dns) (frameOffset + dns.length) := by
  intro dns
  have hlen : dns.length = L09.dnsHeaderSize + (L09.wireName labels).length + 4 := L09.length_queryBytes _ _ _
  have hhead : dnsHeader = L09.dnsHeaderSize := rfl
  have hwalk := walkSections_queryBytes id hlabels hwire qtype frameOffset
  unfold parseDns
  rw [if_neg (by omega), hwalk]

end Query

/-! ## The whole frame -/

section Frame
variable {ipFields : L03.HeaderFields} {sourcePort destinationPort : UInt16} {query : Bytes}
  (hlen : L05.udpHeaderLength + query.length ≤ uint16Max)
include hlen

theorem datagramOf_checksum :
    L05.checksumUnchecked ipFields.source.toList ipFields.destination.toList
      (datagramOf ipFields sourcePort destinationPort query) = 0 :=
  L05.checksum_datagramBytes _ _ sourcePort destinationPort hlen

theorem datagramOf_endAround :
    endAround (wordSum ipFields.source.toList + wordSum ipFields.destination.toList + 17 +
      (datagramOf ipFields sourcePort destinationPort query).length +
      wordSum (datagramOf ipFields sourcePort destinationPort query)) = 65535 := by
  have hdatagram : (datagramOf ipFields sourcePort destinationPort query).length ≤ uint16Max := by
    unfold datagramOf
    rwa [L05.length_datagramBytes]
  exact (L05.checksumUnchecked_eq_zero_iff _ _ hdatagram).mp (datagramOf_checksum hlen)

end Frame

theorem packet_checksum {ipFields : L03.HeaderFields} {udp : Bytes} (hlen : udp.length ≤ uint16Max) :
    transportChecksumValid (headerOf ipFields udp.length ++ udp) 17 udp udp.length = true ↔
      endAround (wordSum ipFields.source.toList + wordSum ipFields.destination.toList + 17 + udp.length +
        wordSum udp) = 65535 := by
  obtain ⟨hsource, hdestination⟩ := packet_addresses ipFields udp
  rw [transportChecksumValid_iff (packet_min ipFields udp) hlen, hsource, hdestination]
  rfl

/-! ## The report -/

/-- The header checksum is good, and the other one is recorded as it is. -/
theorem has_frameReport (macs : Bytes) (ipFields : L03.HeaderFields) (udp : Bytes) :
    ((frameReport macs ipFields udp).has .transportChecksum = true ↔
      transportChecksumValid (headerOf ipFields udp.length ++ udp) 17 udp udp.length = false) ∧
    ¬ (frameReport macs ipFields udp).has .ipv4Checksum = true := by
  unfold frameReport dnsReport
  dsimp only
  generalize hbase : (udpReport (recordChecksum ((addLayer ((Report.start
    (frameOf macs ipFields udp).length).withEthernetHeader (frameOf macs ipFields udp)) .ipv4).withIpv4Fields
    (headerOf ipFields udp.length ++ udp)) true .ipv4Checksum) udp).withPayloadLength (udp.length - udpHeader) = base
  have hzero : base.diagnostics = 0 := by
    rw [← hbase]
    rfl
  have hclean : ∀ d, ¬ base.has d = true := by
    intro d
    unfold Report.has
    rw [hzero]
    cases d <;> decide
  rw [has_recordChecksum, has_recordChecksum]
  simp [hclean]

theorem readU16_flipBit {udp : Bytes} {offset i : Nat} (h : offset + 1 < i) (bit : Nat) :
    readU16 (flipBit udp i bit) offset = readU16 udp offset := by
  have hget : ∀ k, k < i → (flipBit udp i bit).getD k 0 = udp.getD k 0 := by
    intro k hk
    unfold flipBit
    rw [List.getD_eq_getElem?_getD, List.getElem?_set_ne (by omega), List.getD_eq_getElem?_getD]
  unfold readU16
  rw [hget _ (by omega), hget _ h]

def dnsOffset (ipFields : L03.HeaderFields) : Nat := ethernetHeader + ipFields.headerLength + udpHeader

/-- A flip of the frame behind its headers is a flip of the datagram. -/
theorem flipBit_frameOf {macs : Bytes} (hmacs : macs.length = 12) (ipFields : L03.HeaderFields) (udp : Bytes)
    (j bit : Nat) :
    flipBit (frameOf macs ipFields udp) (ethernetHeader + ipFields.headerLength + j) bit =
      frameOf macs ipFields (flipBit udp j bit) := by
  have hlen : (macs ++ be16Bytes 0x0800 ++ headerOf ipFields udp.length).length =
      ethernetHeader + ipFields.headerLength := by
    rw [List.length_append, List.length_append, hmacs, length_be16Bytes, length_headerOf]
    rfl
  unfold frameOf
  rw [← hlen, flipBit_append, length_flipBit]

section Report
variable {macs : Bytes} (hmacs : macs.length = 12) {ipFields : L03.HeaderFields} (hfields : ipFields.Valid)
  (hprotocol : ipFields.protocol = 17) (hwhole : ipFields.flagsFragment &&& 0x3fff = 0) {udp : Bytes}
  (hmin : udpHeader ≤ udp.length) (hlen : ipFields.headerLength + udp.length ≤ uint16Max)
  (hdeclared : (readU16 udp 4).toNat = udp.length) (hsent : readU16 udp 6 ≠ 0)
  (hport : readU16 udp 0 = 53 ∨ readU16 udp 2 = 53)
  (hsum : endAround (wordSum ipFields.source.toList + wordSum ipFields.destination.toList + 17 + udp.length +
    wordSum udp) = 65535)
include hmacs hfields hprotocol hwhole hmin hlen hdeclared hsent hport hsum

/-- A datagram that verifies, in front of a message that the diagnoser accepts. -/
theorem frameOf_accepted
    (hdns : ∀ frameOffset report, parseDns (udp.drop udpHeader) (udp.length - udpHeader) frameOffset report =
      completed ((addLayer report .dns).withDnsHeader (udp.drop udpHeader))
        (frameOffset + (udp.length - udpHeader))) :
    let result := diagnoseFrame (frameOf macs ipFields udp)
    result.1 = .ok ∧ result.2.diagnostics = 0 ∧ result.2.layers = [.ethernet, .ipv4, .udp, .dns] ∧
      result.2.checksumsChecked = 2 ∧ result.2.checksumsValid = 2 ∧
      result.2.dnsIdentifier = readU16 (udp.drop udpHeader) 0 ∧
      result.2.dnsQuestionCount = readU16 (udp.drop udpHeader) 4 := by
  intro result
  have hparsed := (parseDatagram_ok_iff udp).mpr ⟨hmin, hdeclared⟩
  obtain ⟨m, hresult⟩ := diagnoseFrame_frameOf hmacs hfields hprotocol hwhole hlen hparsed hsent hport
  have hgood : transportChecksumValid (headerOf ipFields udp.length ++ udp) 17 udp udp.length = true :=
    (packet_checksum (by omega)).mpr hsum
  rw [hdns] at hresult
  unfold frameReport dnsReport at hresult
  dsimp only at hresult
  rw [hgood] at hresult
  rw [show result = diagnoseFrame (frameOf macs ipFields udp) from rfl, hresult]
  exact ⟨rfl, rfl, rfl, rfl, rfl, rfl, rfl⟩

theorem frameOf_flipped {j bit : Nat} (hj : udpHeader ≤ j) (hlast : j < udp.length) (hbit : bit < 8) :
    (diagnoseFrame (frameOf macs ipFields (flipBit udp j bit))).2.has .transportChecksum = true ∧
      ¬ (diagnoseFrame (frameOf macs ipFields (flipBit udp j bit))).2.has .ipv4Checksum = true := by
  have hhead : udpHeader = 8 := rfl
  have hlength := length_flipBit udp j bit
  obtain ⟨d, hpos, hlt, hshift⟩ := wordSum_flipBit hlast hbit
  have hparsed : ∃ datagram, L05.parseDatagram (flipBit udp j bit) = .ok datagram := by
    rw [parseDatagram_ok_iff, hlength, readU16_flipBit (by omega)]
    exact ⟨hmin, hdeclared⟩
  obtain ⟨m, hresult⟩ := @diagnoseFrame_frameOf macs hmacs ipFields hfields hprotocol hwhole (flipBit udp j bit)
    (by rwa [hlength]) hparsed (by rwa [readU16_flipBit (by omega)])
    (by rwa [readU16_flipBit (by omega), readU16_flipBit (by omega)])
  have hbad : transportChecksumValid (headerOf ipFields (flipBit udp j bit).length ++ flipBit udp j bit) 17
      (flipBit udp j bit) (flipBit udp j bit).length = false := by
    rw [← Bool.not_eq_true, packet_checksum (by omega), hlength]
    exact endAround_ne_of_shift hsum hpos hlt (by omega)
  have hkept := parseDns_kept ((flipBit udp j bit).drop udpHeader) ((flipBit udp j bit).length - udpHeader)
    (ethernetHeader + ipFields.headerLength + udpHeader) (frameReport macs ipFields (flipBit udp j bit))
  obtain ⟨htransport, hip⟩ := has_frameReport macs ipFields (flipBit udp j bit)
  rw [hresult]
  exact ⟨hkept.transportChecksum.mpr (htransport.mpr hbad), mt hkept.ipv4Checksum.mp hip⟩

end Report

/-- **Main result.** The frame of any query is diagnosed without a finding, and a flipped bit anywhere in its DNS bytes
is found by the checksum of the datagram and by no other. -/
theorem makeDnsFrame_diagnosed {macs : Bytes} (hmacs : macs.length = 12) {ipFields : L03.HeaderFields}
    (hfields : ipFields.Valid) (hprotocol : ipFields.protocol = 17) (hwhole : ipFields.flagsFragment &&& 0x3fff = 0)
    {sourcePort destinationPort : UInt16} (hport : sourcePort = 53 ∨ destinationPort = 53) (id : UInt16)
    {name out : Bytes} (hname : (L09.encodeName name out).status = .ok) {qtype : UInt16} (hqtype : qtype ≠ 0) :
    ∃ frame, makeDnsFrame macs ipFields sourcePort destinationPort id name qtype = .ok frame ∧
      ((diagnoseFrame frame).1 = .ok ∧ (diagnoseFrame frame).2.diagnostics = 0 ∧
        (diagnoseFrame frame).2.layers = [.ethernet, .ipv4, .udp, .dns] ∧
        (diagnoseFrame frame).2.checksumsChecked = 2 ∧ (diagnoseFrame frame).2.checksumsValid = 2 ∧
        (diagnoseFrame frame).2.dnsIdentifier = id ∧ (diagnoseFrame frame).2.dnsQuestionCount = 1) ∧
      ∀ i bit, dnsOffset ipFields ≤ i → i < frame.length → bit < 8 →
        (diagnoseFrame (flipBit frame i bit)).2.has .transportChecksum = true ∧
          ¬ (diagnoseFrame (flipBit frame i bit)).2.has .ipv4Checksum = true := by
  obtain ⟨hvalid, hwire, -⟩ := (L09.encodeName_status name out).mp hname
  have hmake := makeDnsFrame_eq macs hfields sourcePort destinationPort id hqtype hvalid hwire
  generalize L09.textLabels (L09.withoutDot name) = labels at hvalid hwire hmake
  have hlabels : ∀ label ∈ labels, 1 ≤ label.length ∧ label.length ≤ 63 :=
    fun l hl => ⟨(hvalid l hl).1, (hvalid l hl).2.1⟩
  have hqueryLen := length_query id labels qtype
  have hparse := parseDns_queryBytes id hlabels hwire qtype
  have hid : readU16 (L09.queryBytes id (L09.wireName labels) qtype) 0 = id := be16_be16Bytes id
  have hcount : readU16 (L09.queryBytes id (L09.wireName labels) qtype) 4 = 1 := be16_be16Bytes 1
  generalize L09.queryBytes id (L09.wireName labels) qtype = query at hmake hqueryLen hparse hid hcount
  have h16 : uint16Max = 65535 := rfl
  have hheader : ipFields.headerLength = 20 + ipFields.options.length := rfl
  have hoptions := hfields.options_le
  have hopt : L03.maxOptionsLength = 40 := rfl
  have hudp : L05.udpHeaderLength = 8 := rfl
  have hmin : udpHeader = 8 := rfl
  have hsum := @datagramOf_endAround ipFields sourcePort destinationPort query (by omega)
  have hlen : (datagramOf ipFields sourcePort destinationPort query).length = 8 + query.length :=
    L05.length_datagramBytes _ _ _ _
  have hdrop : (datagramOf ipFields sourcePort destinationPort query).drop udpHeader = query := rfl
  obtain ⟨h0, h2, h4, h6⟩ := L05.readU16_datagramBytes sourcePort destinationPort query
    (L05.sentChecksum (L05.checksumUnchecked ipFields.source.toList ipFields.destination.toList
      (L05.datagramBytes sourcePort destinationPort query 0)))
  have hports : readU16 (datagramOf ipFields sourcePort destinationPort query) 0 = 53 ∨
      readU16 (datagramOf ipFields sourcePort destinationPort query) 2 = 53 :=
    hport.imp h0.trans h2.trans
  have hdeclared : (readU16 (datagramOf ipFields sourcePort destinationPort query) 4).toNat =
      (datagramOf ipFields sourcePort destinationPort query).length := by
    rw [hlen]
    exact (congrArg UInt16.toNat h4).trans (toNat_length16 (by omega))
  have hsent : readU16 (datagramOf ipFields sourcePort destinationPort query) 6 ≠ 0 := by
    intro hzero
    exact L05.sentChecksum_ne_zero _ (h6.symm.trans hzero)
  generalize datagramOf ipFields sourcePort destinationPort query = udp at hmake hsum hlen hdrop hports hdeclared hsent
  have hrest : udp.length - udpHeader = query.length := by omega
  refine ⟨frameOf macs ipFields udp, hmake, ?_, ?_⟩
  · have hdns : ∀ frameOffset report, parseDns (udp.drop udpHeader) (udp.length - udpHeader) frameOffset report =
        completed ((addLayer report .dns).withDnsHeader (udp.drop udpHeader))
          (frameOffset + (udp.length - udpHeader)) := by
      intro frameOffset report
      rw [hdrop, hrest]
      exact hparse frameOffset report
    have haccepted := frameOf_accepted hmacs hfields hprotocol hwhole (by omega) (by omega) hdeclared hsent hports
      hsum hdns
    rwa [hdrop, hid, hcount] at haccepted
  · intro i bit hi hlast hbit
    have hframe := length_frameOf hmacs ipFields udp
    have hoffset : dnsOffset ipFields = ethernetHeader + ipFields.headerLength + udpHeader := rfl
    have hflip := flipBit_frameOf hmacs ipFields udp (i - (ethernetHeader + ipFields.headerLength)) bit
    have hi' : ethernetHeader + ipFields.headerLength + (i - (ethernetHeader + ipFields.headerLength)) = i := by omega
    rw [hi'] at hflip
    rw [hflip]
    exact frameOf_flipped hmacs hfields hprotocol hwhole (by omega) (by omega) hdeclared hsent hports hsum (by omega)
      (by omega) hbit

/-- The header of the integration test, with other addresses. -/
def testFields : L03.HeaderFields where
  dscpEcn := 0
  identification := 0x4567
  flagsFragment := 0x4000
  ttl := 64
  protocol := 17
  source := #v[10, 1, 2, 3]
  destination := #v[10, 1, 2, 53]
  options := []

/-- A query for the address of `example.com`. -/
theorem makeDnsFrame_diagnosed_example :
    ∃ frame, makeDnsFrame [2, 0, 0, 0, 0, 2, 2, 0, 0, 0, 0, 1] testFields 53000 53 0x1234
        [101, 120, 97, 109, 112, 108, 101, 46, 99, 111, 109] 1 = .ok frame ∧
      (diagnoseFrame frame).1 = .ok ∧ (diagnoseFrame frame).2.diagnostics = 0 := by
  obtain ⟨frame, hframe, ⟨hstatus, hclean, -⟩, -⟩ := @makeDnsFrame_diagnosed [2, 0, 0, 0, 0, 2, 2, 0, 0, 0, 0, 1] rfl
    testFields ⟨by decide, by decide, by decide⟩ rfl (by decide) 53000 53 (.inr rfl) 0x1234
    [101, 120, 97, 109, 112, 108, 101, 46, 99, 111, 109] (List.replicate 13 0) (by decide) 1 (by decide)
  exact ⟨frame, hframe, hstatus, hclean⟩

end TcpipCourse.L12
