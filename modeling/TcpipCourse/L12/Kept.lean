import TcpipCourse.L12.Diagnose

/-!
# Lesson 12: what a layer leaves alone

* `Kept before after` : the transport fields, the payload length and the checksums are as before; so it is behind
  `parseDns` and `parseHttp` (`parseDns_kept`, `parseHttp_kept`);
* `Grows before after` : checksums may have been added, but the IPv4 one stands; so it is behind a packet's header
  (`parseIpv4Payload_grows`).
-/

namespace TcpipCourse.L12
open Lib

/-- Neither a transport field nor a checksum has changed. -/
structure Kept (before after : Report) : Prop where
  sourcePort : after.sourcePort = before.sourcePort
  destinationPort : after.destinationPort = before.destinationPort
  tcpFlags : after.tcpFlags = before.tcpFlags
  payloadLength : after.payloadLength = before.payloadLength
  checked : after.checksumsChecked = before.checksumsChecked
  valid : after.checksumsValid = before.checksumsValid
  ipv4Checksum : after.has .ipv4Checksum = true ↔ before.has .ipv4Checksum = true
  transportChecksum : after.has .transportChecksum = true ↔ before.has .transportChecksum = true

theorem Kept.refl (report : Report) : Kept report report := ⟨rfl, rfl, rfl, rfl, rfl, rfl, .rfl, .rfl⟩

theorem Kept.trans {r1 r2 r3 : Report} (h1 : Kept r1 r2) (h2 : Kept r2 r3) : Kept r1 r3 :=
  ⟨h2.sourcePort.trans h1.sourcePort, h2.destinationPort.trans h1.destinationPort, h2.tcpFlags.trans h1.tcpFlags,
    h2.payloadLength.trans h1.payloadLength, h2.checked.trans h1.checked, h2.valid.trans h1.valid,
    h2.ipv4Checksum.trans h1.ipv4Checksum, h2.transportChecksum.trans h1.transportChecksum⟩

/-- No checksum was taken back, and the bit of the header checksum has not changed. -/
structure Grows (before after : Report) : Prop where
  checked : before.checksumsChecked ≤ after.checksumsChecked
  ipv4Checksum : after.has .ipv4Checksum = true ↔ before.has .ipv4Checksum = true

theorem Grows.trans {r1 r2 r3 : Report} (h1 : Grows r1 r2) (h2 : Grows r2 r3) : Grows r1 r3 :=
  ⟨h1.checked.trans h2.checked, h2.ipv4Checksum.trans h1.ipv4Checksum⟩

theorem Kept.grows {before after : Report} (h : Kept before after) : Grows before after :=
  ⟨h.checked.ge, h.ipv4Checksum⟩

/-! ## Exits -/

section Exits
variable (report : Report) (parsed : Nat)

theorem addLayer_kept (layer : Layer) : Kept report (addLayer report layer) := by
  unfold addLayer
  split
  · exact { Kept.refl report with }
  · exact Kept.refl report

theorem raise_kept {diagnostic : Diagnostic} (h4 : diagnostic ≠ .ipv4Checksum) (ht : diagnostic ≠ .transportChecksum) :
    Kept report (report.raise diagnostic) := by
  refine { Kept.refl report with ipv4Checksum := ?_, transportChecksum := ?_ }
  · rw [has_raise]
    exact or_iff_right h4.symm
  · rw [has_raise]
    exact or_iff_right ht.symm

theorem truncated_kept : Kept report (truncated report parsed).2 :=
  (raise_kept report (by decide) (by decide)).trans { Kept.refl (report.raise .truncated) with }

theorem malformed_kept : Kept report (malformed report parsed).2 :=
  (raise_kept report (by decide) (by decide)).trans { Kept.refl (report.raise .malformed) with }

theorem completed_kept : Kept report (completed report parsed).2 := { Kept.refl report with }

theorem unsupported_kept : Kept report (completed (report.raise .unsupported) parsed).2 :=
  (raise_kept report (by decide) (by decide)).trans (completed_kept _ parsed)

theorem record_kept (stop : Stop) : Kept report (stop.record report).2 := by
  cases stop with
  | truncated parsed => exact truncated_kept report parsed
  | malformed parsed => exact malformed_kept report parsed

end Exits

/-! ## The two application layers -/

theorem parseDns_kept (dns : Bytes) (dnsLen frameOffset : Nat) (report : Report) :
    Kept report (parseDns dns dnsLen frameOffset report).2 := by
  have hlayer := addLayer_kept report .dns
  unfold parseDns
  split
  · exact hlayer.trans (truncated_kept _ _)
  · have hfields : Kept report ((addLayer report .dns).withDnsHeader dns) := { hlayer with }
    dsimp only
    cases walkSections dns dnsLen frameOffset with
    | error stop => exact hfields.trans (record_kept _ stop)
    | ok cursor => exact hfields.trans (completed_kept _ _)

theorem parseDns_layers (dns : Bytes) (dnsLen frameOffset : Nat) (report : Report) :
    (parseDns dns dnsLen frameOffset report).2.layers = (addLayer report .dns).layers := by
  unfold parseDns
  split
  · rfl
  · dsimp only
    rcases walkSections dns dnsLen frameOffset with (parsed | parsed) | cursor <;> rfl

theorem parseHttp_kept (payload : Bytes) (ipPayloadLen frameOffset tcpHeaderLen : Nat) (report : Report) :
    Kept report (parseHttp payload ipPayloadLen frameOffset tcpHeaderLen report).2 := by
  have hlayer := addLayer_kept report .http
  have hlength : Kept report { addLayer report .http with
      httpMessageLength := (addLayer report .http).payloadLength } := { hlayer with }
  unfold parseHttp
  dsimp only
  split
  · exact hlength.trans (malformed_kept _ _)
  · split
    · exact hlength.trans (truncated_kept _ _)
    · exact hlength.trans (completed_kept _ _)

/-! ## The transport layers -/

/-- Behind the checksum and the payload length of a segment nothing of it changes. -/
theorem parseTcpPayload_kept (ipv4 tcp : Bytes) (ipPayloadLen frameOffset tcpHeaderLen : Nat) (report : Report) :
    Kept ((recordChecksum report (transportChecksumValid ipv4 6 tcp ipPayloadLen) .transportChecksum).withPayloadLength
        (ipPayloadLen - tcpHeaderLen))
      (parseTcpPayload ipv4 tcp ipPayloadLen frameOffset tcpHeaderLen report).2 := by
  unfold parseTcpPayload
  dsimp only
  split
  · exact parseHttp_kept _ _ _ _ _
  · exact unsupported_kept _ _

theorem parseUdpPayload_kept (ipv4 udp : Bytes) (udpLen frameOffset : Nat) (report : Report) :
    Kept (recordUdpChecksum (report.withPayloadLength (udpLen - udpHeader)) ipv4 udp udpLen)
      (parseUdpPayload ipv4 udp udpLen frameOffset report).2 := by
  unfold parseUdpPayload
  dsimp only
  split
  · exact parseDns_kept _ _ _ _
  · exact unsupported_kept _ _

theorem recordChecksum_grows (report : Report) (valid : Bool) :
    Grows report (recordChecksum report valid .transportChecksum) where
  checked := by
    rw [recordChecksum_checked]
    omega
  ipv4Checksum := by
    rw [has_recordChecksum]
    simp

theorem recordUdpChecksum_grows (report : Report) (ipv4 udp : Bytes) (udpLen : Nat) :
    Grows report (recordUdpChecksum report ipv4 udp udpLen) := by
  unfold recordUdpChecksum
  split
  · exact recordChecksum_grows report _
  · exact (Kept.refl report).grows

section Transport
variable (ipv4 : Bytes) (report : Report)

theorem parseIcmp_grows (icmp : Bytes) (len frameOffset : Nat) :
    Grows report (parseIcmp icmp len frameOffset report).2 := by
  have hlayer := (addLayer_kept report .icmp).grows
  unfold parseIcmp
  split
  · exact hlayer.trans (truncated_kept _ _).grows
  · have hfields : Grows report (({ addLayer report .icmp with icmpType := icmp.getD 0 0 } : Report).withPayloadLength
        (len - icmpHeader)) := { hlayer with }
    exact hfields.trans ((recordChecksum_grows _ _).trans (completed_kept _ _).grows)

theorem parseUdp_grows (udp : Bytes) (len frameOffset : Nat) :
    Grows report (parseUdp ipv4 udp len frameOffset report).2 := by
  have hlayer := (addLayer_kept report .udp).grows
  have hfields : Grows report ((addLayer report .udp).withPorts udp) := { hlayer with }
  unfold parseUdp
  split
  · exact hlayer.trans (truncated_kept _ _).grows
  · dsimp only
    split
    · exact hfields.trans (malformed_kept _ _).grows
    · split
      · exact hfields.trans (truncated_kept _ _).grows
      · split
        · exact hfields.trans (malformed_kept _ _).grows
        · have hlength : Grows report (((addLayer report .udp).withPorts udp).withPayloadLength
              ((readU16 udp 4).toNat - udpHeader)) := { hfields with }
          exact hlength.trans ((recordUdpChecksum_grows _ _ _ _).trans (parseUdpPayload_kept _ _ _ _ _).grows)

theorem parseTcp_grows (tcp : Bytes) (len frameOffset : Nat) :
    Grows report (parseTcp ipv4 tcp len frameOffset report).2 := by
  have hlayer := (addLayer_kept report .tcp).grows
  have hfields : Grows report (((addLayer report .tcp).withPorts tcp).withTcpFlags tcp) := { hlayer with }
  unfold parseTcp
  split
  · exact hlayer.trans (truncated_kept _ _).grows
  · dsimp only
    split
    · exact hfields.trans (malformed_kept _ _).grows
    · split
      · exact hfields.trans (malformed_kept _ _).grows
      · split
        · exact hfields.trans (truncated_kept _ _).grows
        · have hrec := recordChecksum_grows (((addLayer report .tcp).withPorts tcp).withTcpFlags tcp)
            (transportChecksumValid ipv4 6 tcp len)
          have hlength : Grows report ((recordChecksum (((addLayer report .tcp).withPorts tcp).withTcpFlags tcp)
              (transportChecksumValid ipv4 6 tcp len) .transportChecksum).withPayloadLength
              (len - (tcp.getD 12 0 >>> 4).toNat * 4)) := { hfields.trans hrec with }
          exact hlength.trans (parseTcpPayload_kept _ _ _ _ _ _).grows

theorem parseIpv4Payload_grows (headerLen totalLen frameOffset : Nat) :
    Grows report (parseIpv4Payload ipv4 headerLen totalLen frameOffset report).2 := by
  have hunsupported : Grows report
      (completed ((report.raise .unsupported).withPayloadLength (totalLen - headerLen)) (frameOffset + totalLen)).2 :=
    (raise_kept report (show Diagnostic.unsupported ≠ _ by decide) (by decide)).grows.trans
      { (Kept.refl (report.raise .unsupported)).grows with }
  unfold parseIpv4Payload
  dsimp only
  split
  · exact (malformed_kept _ _).grows
  · split
    · exact hunsupported
    · split
      · exact parseIcmp_grows report _ _ _
      · split
        · exact parseUdp_grows ipv4 report _ _ _
        · split
          · exact parseTcp_grows ipv4 report _ _ _
          · exact hunsupported

end Transport

end TcpipCourse.L12
