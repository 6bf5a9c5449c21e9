import TcpipCourse.L12.Walk

/-!
# Lesson 12: the diagnoser

One function for each protocol; each gets the window that its parent has established.

* `parseUdp`, `parseTcp`, `parseIcmp`, `parseIpv4`, `parseArp` : the layers; the parts of a long function that come
  behind its length checks are functions of their own;
* `diagnoseFrame` : the entry point.
-/

namespace TcpipCourse.L12
open Lib

/-- `if (udp_checksum != 0U)`: a zero checksum is one that the sender left out. -/
def recordUdpChecksum (report : Report) (ipv4 udp : Bytes) (udpLen : Nat) : Report :=
  if readU16 udp 6 ≠ 0 then
    recordChecksum report (transportChecksumValid ipv4 17 udp udpLen) .transportChecksum
  else report

theorem recordUdpChecksum_payloadLength (report : Report) (ipv4 udp : Bytes) (udpLen : Nat) :
    (recordUdpChecksum report ipv4 udp udpLen).payloadLength = report.payloadLength := by
  unfold recordUdpChecksum
  split
  · obtain ⟨-, -, -, -, hpayload, -⟩ := recordChecksum_fields report (transportChecksumValid ipv4 17 udp udpLen)
      .transportChecksum
    exact hpayload
  · rfl

/-- The part of `tcpip_l12_parse_udp` behind the checks of the length field. -/
def parseUdpPayload (ipv4 udp : Bytes) (udpLen frameOffset : Nat) (report : Report) : Status × Report :=
  let report := report.withPayloadLength (udpLen - udpHeader)
  let report := recordUdpChecksum report ipv4 udp udpLen
  if report.sourcePort = 53 ∨ report.destinationPort = 53 then
    parseDns (udp.drop udpHeader) report.payloadLength (frameOffset + udpHeader) report
  else completed (report.raise .unsupported) (frameOffset + udpLen)

def parseUdp (ipv4 udp : Bytes) (ipPayloadLen frameOffset : Nat) (report : Report) : Status × Report :=
  let report := addLayer report .udp
  if ipPayloadLen < udpHeader then truncated report (frameOffset + ipPayloadLen)
  else
    let report := report.withPorts udp
    let udpLen := (readU16 udp 4).toNat
    if udpLen < udpHeader then malformed report (frameOffset + udpHeader)
    else if udpLen > ipPayloadLen then truncated report (frameOffset + ipPayloadLen)
    else if udpLen < ipPayloadLen then malformed report (frameOffset + udpLen)
    else parseUdpPayload ipv4 udp udpLen frameOffset report

/-- The HTTP branch of `tcpip_l12_parse_tcp`, over the whole TCP payload. -/
def parseHttp (payload : Bytes) (ipPayloadLen frameOffset tcpHeaderLen : Nat) (report : Report) :
    Status × Report :=
  let report := addLayer report .http
  let report := { report with httpMessageLength := report.payloadLength }
  if httpPrefix payload report.payloadLength = false then malformed report (frameOffset + tcpHeaderLen)
  else if httpHeadersComplete payload report.payloadLength = false then
    truncated report (frameOffset + ipPayloadLen)
  else completed report (frameOffset + ipPayloadLen)

/-- The part of `tcpip_l12_parse_tcp` behind the checks of the header. -/
def parseTcpPayload (ipv4 tcp : Bytes) (ipPayloadLen frameOffset tcpHeaderLen : Nat) (report : Report) :
    Status × Report :=
  let report := recordChecksum report (transportChecksumValid ipv4 6 tcp ipPayloadLen) .transportChecksum
  let report := report.withPayloadLength (ipPayloadLen - tcpHeaderLen)
  if report.payloadLength > 0 ∧ (report.sourcePort = 80 ∨ report.destinationPort = 80 ∨
      report.sourcePort = 8080 ∨ report.destinationPort = 8080) then
    parseHttp (tcp.drop tcpHeaderLen) ipPayloadLen frameOffset tcpHeaderLen report
  else completed (report.raise .unsupported) (frameOffset + ipPayloadLen)

def parseTcp (ipv4 tcp : Bytes) (ipPayloadLen frameOffset : Nat) (report : Report) : Status × Report :=
  let report := addLayer report .tcp
  if ipPayloadLen < tcpMinHeader then truncated report (frameOffset + ipPayloadLen)
  else
    let tcpHeaderLen := (tcp.getD 12 0 >>> 4).toNat * 4
    let report := (report.withPorts tcp).withTcpFlags tcp
    if tcp.getD 12 0 &&& 0x0e ≠ 0 then malformed report (frameOffset + 13)
    else if tcpHeaderLen < tcpMinHeader then malformed report (frameOffset + tcpMinHeader)
    else if tcpHeaderLen > ipPayloadLen then truncated report (frameOffset + ipPayloadLen)
    else parseTcpPayload ipv4 tcp ipPayloadLen frameOffset tcpHeaderLen report

def parseIcmp (icmp : Bytes) (ipPayloadLen frameOffset : Nat) (report : Report) : Status × Report :=
  let report := addLayer report .icmp
  if ipPayloadLen < icmpHeader then truncated report (frameOffset + ipPayloadLen)
  else
    let report := { report with icmpType := icmp.getD 0 0 }
    let report := report.withPayloadLength (ipPayloadLen - icmpHeader)
    let report := recordChecksum report (checksumValid icmp ipPayloadLen) .transportChecksum
    completed report (frameOffset + ipPayloadLen)

/-- The part of `tcpip_l12_parse_ipv4` behind the header checksum. -/
def parseIpv4Payload (ipv4 : Bytes) (headerLen totalLen frameOffset : Nat) (report : Report) : Status × Report :=
  let fragment := readU16 ipv4 6
  let payloadLen := totalLen - headerLen
  let payload := ipv4.drop headerLen
  if fragment &&& 0x8000 ≠ 0 then malformed report (frameOffset + 8)
  else if fragment &&& 0x3fff ≠ 0 then
    completed ((report.raise .unsupported).withPayloadLength payloadLen) (frameOffset + totalLen)
  else if report.ipProtocol = 1 then parseIcmp payload payloadLen (frameOffset + headerLen) report
  else if report.ipProtocol = 17 then parseUdp ipv4 payload payloadLen (frameOffset + headerLen) report
  else if report.ipProtocol = 6 then parseTcp ipv4 payload payloadLen (frameOffset + headerLen) report
  else completed ((report.raise .unsupported).withPayloadLength payloadLen) (frameOffset + totalLen)

def parseIpv4 (ipv4 : Bytes) (available frameOffset : Nat) (report : Report) : Status × Report :=
  let report := addLayer report .ipv4
  if available < ipv4MinHeader then truncated report (frameOffset + available)
  else if ipv4.getD 0 0 >>> 4 ≠ 4 then malformed report (frameOffset + 1)
  else
    let headerLen := (ipv4.getD 0 0 &&& 0x0f).toNat * 4
    if headerLen < ipv4MinHeader then malformed report (frameOffset + 1)
    else if headerLen > available then truncated report (frameOffset + available)
    else
      let totalLen := (readU16 ipv4 2).toNat
      if totalLen < headerLen then malformed report (frameOffset + headerLen)
      else if totalLen > available then truncated report (frameOffset + available)
      else
        let report := report.withIpv4Fields ipv4
        let report := recordChecksum report (checksumValid ipv4 headerLen) .ipv4Checksum
        parseIpv4Payload ipv4 headerLen totalLen frameOffset report

def parseArp (arp : Bytes) (available frameOffset : Nat) (report : Report) : Status × Report :=
  let report := addLayer report .arp
  if available < arpFixedHeader then truncated report (frameOffset + available)
  else
    let report := { report with arpOpcode := readU16 arp 6 }
    let addressBytes := (arp.getD 4 0).toNat + (arp.getD 5 0).toNat
    if addressBytes > (sizeMax - arpFixedHeader) / 2 then malformed report (frameOffset + arpFixedHeader)
    else
      let arpLen := arpFixedHeader + 2 * addressBytes
      if arpLen > available then truncated report (frameOffset + available)
      else if readU16 arp 0 ≠ 1 ∨ readU16 arp 2 ≠ 0x0800 ∨ arp.getD 4 0 ≠ 6 ∨ arp.getD 5 0 ≠ 4 ∨
          (report.arpOpcode ≠ 1 ∧ report.arpOpcode ≠ 2) then malformed report (frameOffset + arpLen)
      else completed (report.withPayloadLength arpLen) (frameOffset + arpLen)

def diagnoseFrame (data : Bytes) : Status × Report :=
  let len := data.length
  let report := Report.start len
  if len < ethernetHeader then truncated report len
  else
    let report := report.withEthernetHeader data
    if report.etherType = 0x0806 then
      parseArp (data.drop ethernetHeader) (len - ethernetHeader) ethernetHeader report
    else if report.etherType = 0x0800 then
      parseIpv4 (data.drop ethernetHeader) (len - ethernetHeader) ethernetHeader report
    else (.ok, report.raise .unsupported)

end TcpipCourse.L12
