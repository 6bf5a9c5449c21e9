import TcpipCourse.L12.Diagnose

/-!
# Lesson 12: what every report satisfies

* `paths` : the layer lists that a frame can have;
* `Clean` : the report between two functions, `Running` the same on the way down and `Settled` where an exit is
  taken from; `Running.addLayer`, `Running.recordChecksum`, .. : what the updates do to it;
* `Sound` : the report that is returned; `Ends last` : it is sound, and an `OK` was parsed up to `last`;
* `parseDns_ends`, `parseUdp_ends`, .. : one lemma for each function;
* `diagnoseFrame_sound` : the main result.
-/

namespace TcpipCourse.L12
open Lib

/-- The paths from the root of the protocol tree to its nodes. -/
def paths : List (List Layer) :=
  [[.ethernet],
   [.ethernet, .arp],
   [.ethernet, .ipv4],
   [.ethernet, .ipv4, .icmp],
   [.ethernet, .ipv4, .udp],
   [.ethernet, .ipv4, .udp, .dns],
   [.ethernet, .ipv4, .tcp],
   [.ethernet, .ipv4, .tcp, .http]]

/-! ## Between two functions -/

/-- No error so far, and up to `bound` checksums of which the bits and the counters tell the same. -/
structure Clean (n bound : Nat) (report : Report) : Prop where
  frame : report.frameLength = n
  payload_le : report.payloadLength ≤ n
  no_truncated : ¬ report.has .truncated = true
  no_malformed : ¬ report.has .malformed = true
  no_unsupported : ¬ report.has .unsupported = true
  checked_le : report.checksumsChecked ≤ bound
  valid_le : report.checksumsValid ≤ report.checksumsChecked
  mismatch : report.checksumsValid < report.checksumsChecked ↔ report.has .checksumMismatch = true
  targeted : report.has .checksumMismatch = true ↔
    report.has .ipv4Checksum = true ∨ report.has .transportChecksum = true

/-- On the way down: the layers so far are known, and there is no HTTP message yet. -/
structure Running (n : Nat) (layers : List Layer) (bound : Nat) (report : Report) : Prop
    extends Clean n bound report where
  layers_eq : report.layers = layers
  no_http : report.httpMessageLength = 0

structure Settled (n : Nat) (report : Report) : Prop extends Clean n 2 report where
  path : report.layers ∈ paths
  http : report.httpMessageLength ≠ 0 ↔ .http ∈ report.layers
  http_length : .http ∈ report.layers → report.httpMessageLength = report.payloadLength

section Updates
variable {n bound : Nat} {layers : List Layer} {report : Report}

/-- A layer below the fourth is appended, never dropped. -/
theorem Running.addLayer (h : Running n layers bound report) (hroom : layers.length < maxLayers) (layer : Layer) :
    Running n (layers ++ [layer]) bound (L12.addLayer report layer) := by
  have hadd : L12.addLayer report layer = { report with layers := report.layers ++ [layer] } := by
    apply if_pos
    rwa [h.layers_eq]
  rw [hadd]
  exact { h with layers_eq := congrArg (· ++ [layer]) h.layers_eq }

theorem Running.mono (h : Running n layers bound report) {more : Nat} (hle : bound ≤ more) :
    Running n layers more report :=
  { h with checked_le := h.checked_le.trans hle }

theorem Running.withPayloadLength (h : Running n layers bound report) {len : Nat} (hlen : len ≤ n) :
    Running n layers bound (report.withPayloadLength len) :=
  { h with payload_le := hlen }

/-- A failed checksum leaves the counters one further apart, and both bits set. -/
theorem Clean.recordChecksum (h : Clean n bound report) (valid : Bool) (diagnostic : Diagnostic)
    (htarget : diagnostic = .ipv4Checksum ∨ diagnostic = .transportChecksum) :
    Clean n (bound + 1) (L12.recordChecksum report valid diagnostic) := by
  have hle := h.checked_le
  have hvalid := h.valid_le
  have hhas := has_recordChecksum report valid diagnostic
  cases valid with
  | true =>
    refine { h with checked_le := Nat.succ_le_succ hle, valid_le := Nat.succ_le_succ hvalid, mismatch := ?_ }
    exact Nat.succ_lt_succ_iff.trans h.mismatch
  | false =>
    refine { frame := h.frame, payload_le := h.payload_le, checked_le := Nat.succ_le_succ hle,
             valid_le := Nat.le_succ_of_le hvalid, no_truncated := ?_, no_malformed := ?_,
             no_unsupported := ?_, mismatch := ?_, targeted := ?_ }
    · rw [hhas]
      rcases htarget with rfl | rfl <;> simp [h.no_truncated]
    · rw [hhas]
      rcases htarget with rfl | rfl <;> simp [h.no_malformed]
    · rw [hhas]
      rcases htarget with rfl | rfl <;> simp [h.no_unsupported]
    · rw [hhas]
      exact iff_of_true (Nat.lt_succ_of_le hvalid) (.inl ⟨rfl, .inr rfl⟩)
    · rw [hhas, hhas, hhas]
      rcases htarget with rfl | rfl <;> simp

theorem Running.recordChecksum (h : Running n layers bound report) (valid : Bool) (diagnostic : Diagnostic)
    (htarget : diagnostic = .ipv4Checksum ∨ diagnostic = .transportChecksum) :
    Running n layers (bound + 1) (L12.recordChecksum report valid diagnostic) := by
  refine { h.toClean.recordChecksum valid diagnostic htarget with layers_eq := ?_, no_http := ?_ }
  · rw [← h.layers_eq]
    cases valid <;> rfl
  · rw [← h.no_http]
    cases valid <;> rfl

theorem Running.settled (h : Running n layers bound report) (hbound : bound ≤ 2) (hpath : layers ∈ paths)
    (hhttp : .http ∉ layers) : Settled n report := by
  rw [← h.layers_eq] at hpath hhttp
  exact { h.mono hbound with
    path := hpath
    http := iff_of_false (not_not.mpr h.no_http) hhttp
    http_length := fun hin => absurd hin hhttp }

end Updates

/-! ## Exits -/

/-- The report that is returned for a frame of `n` bytes. -/
structure Sound (n : Nat) (result : Status × Report) : Prop where
  status : result.1 = .ok ∨ result.1 = .truncated ∨ result.1 = .malformed
  frame : result.2.frameLength = n
  path : result.2.layers ∈ paths
  parsed_le : result.2.parsedLength ≤ result.2.frameLength
  payload_le : result.2.payloadLength ≤ result.2.frameLength
  truncated : result.2.has .truncated = true ↔ result.1 = .truncated
  malformed : result.2.has .malformed = true ↔ result.1 = .malformed
  unsupported : result.2.has .unsupported = true → result.1 = .ok
  valid_le : result.2.checksumsValid ≤ result.2.checksumsChecked
  checked_le : result.2.checksumsChecked ≤ 2
  mismatch : result.2.checksumsValid < result.2.checksumsChecked ↔ result.2.has .checksumMismatch = true
  targeted : result.2.has .checksumMismatch = true ↔
    result.2.has .ipv4Checksum = true ∨ result.2.has .transportChecksum = true
  http : result.2.httpMessageLength ≠ 0 ↔ .http ∈ result.2.layers
  http_length : .http ∈ result.2.layers → result.2.httpMessageLength = result.2.payloadLength

/-- Sound, and parsed up to `last` when the status is `OK`. -/
structure Ends (n last : Nat) (result : Status × Report) : Prop extends Sound n result where
  ok_parsed : result.1 = .ok → result.2.parsedLength = last

section Exits
variable {n last parsed : Nat} {report : Report}

/-- An exit raises one bit, and touches no other part of what `Settled` says. -/
theorem Settled.exit (h : Settled n report) (hparsed : parsed ≤ n) {status : Status} {bit : Diagnostic}
    (hexit : status = .truncated ∧ bit = .truncated ∨ status = .malformed ∧ bit = .malformed ∨
      status = .ok ∧ bit = .unsupported) :
    Sound n (status, { report.raise bit with parsedLength := parsed }) := by
  have hhas : ∀ e, Report.has { report.raise bit with parsedLength := parsed } e = true ↔
      e = bit ∨ report.has e = true := fun e => has_raise report bit e
  have hframe := h.frame
  refine { frame := hframe, path := h.path, parsed_le := hparsed.trans hframe.ge,
           payload_le := h.payload_le.trans hframe.ge, valid_le := h.valid_le, checked_le := h.checked_le,
           http := h.http, http_length := h.http_length, status := ?_, truncated := ?_, malformed := ?_,
           unsupported := ?_, mismatch := ?_, targeted := ?_ }
  · rcases hexit with ⟨rfl, -⟩ | ⟨rfl, -⟩ | ⟨rfl, -⟩ <;> simp
  · rw [hhas]
    rcases hexit with ⟨rfl, rfl⟩ | ⟨rfl, rfl⟩ | ⟨rfl, rfl⟩ <;> simp [h.no_truncated]
  · rw [hhas]
    rcases hexit with ⟨rfl, rfl⟩ | ⟨rfl, rfl⟩ | ⟨rfl, rfl⟩ <;> simp [h.no_malformed]
  · rw [hhas]
    rcases hexit with ⟨rfl, rfl⟩ | ⟨rfl, rfl⟩ | ⟨rfl, rfl⟩ <;> simp [h.no_unsupported]
  · rw [hhas]
    apply h.mismatch.trans
    rcases hexit with ⟨-, rfl⟩ | ⟨-, rfl⟩ | ⟨-, rfl⟩ <;> simp
  · have hkeep := h.targeted
    rw [hhas, hhas, hhas]
    rcases hexit with ⟨-, rfl⟩ | ⟨-, rfl⟩ | ⟨-, rfl⟩ <;> simpa using hkeep

theorem Settled.truncated (h : Settled n report) (hparsed : parsed ≤ n) :
    Ends n last (L12.truncated report parsed) :=
  { h.exit hparsed (.inl ⟨rfl, rfl⟩) with ok_parsed := fun hok => absurd hok (by simp [L12.truncated]) }

theorem Settled.malformed (h : Settled n report) (hparsed : parsed ≤ n) :
    Ends n last (L12.malformed report parsed) :=
  { h.exit hparsed (.inr (.inl ⟨rfl, rfl⟩)) with ok_parsed := fun hok => absurd hok (by simp [L12.malformed]) }

theorem Settled.unsupported (h : Settled n report) (hlast : last ≤ n) :
    Ends n last (completed (report.raise .unsupported) last) :=
  { h.exit hlast (.inr (.inr ⟨rfl, rfl⟩)) with ok_parsed := fun _ => rfl }

theorem Settled.completed (h : Settled n report) (hlast : last ≤ n) : Ends n last (L12.completed report last) where
  status := .inl rfl
  frame := h.frame
  path := h.path
  parsed_le := hlast.trans h.frame.ge
  payload_le := h.payload_le.trans h.frame.ge
  truncated := iff_of_false h.no_truncated (by simp [L12.completed])
  malformed := iff_of_false h.no_malformed (by simp [L12.completed])
  unsupported := fun _ => rfl
  valid_le := h.valid_le
  checked_le := h.checked_le
  mismatch := h.mismatch
  targeted := h.targeted
  http := h.http
  http_length := h.http_length
  ok_parsed := fun _ => rfl

theorem Settled.record (h : Settled n report) {stop : Stop} (hstop : stop.parsed ≤ n) :
    Ends n last (stop.record report) := by
  cases stop with
  | truncated parsed => exact h.truncated hstop
  | malformed parsed => exact h.malformed hstop

end Exits

/-! ## The layers -/

section Layers
variable {n : Nat} {report : Report}

theorem parseDns_ends (h : Running n [.ethernet, .ipv4, .udp] 2 report) (dns : Bytes) {len frameOffset : Nat}
    (hin : frameOffset + len ≤ n) : Ends n (frameOffset + len) (parseDns dns len frameOffset report) := by
  have hlayer := h.addLayer (by decide) .dns
  unfold parseDns
  split
  · exact (hlayer.settled (by decide) (by decide) (by decide)).truncated hin
  · next hlen =>
    have hfields : Running n _ 2 ((addLayer report .dns).withDnsHeader dns) := { hlayer with }
    have hsettled := hfields.settled (by decide) (by decide) (by decide)
    have hwalk := @walkSections_within dns len frameOffset (by omega)
    dsimp only
    cases hstop : walkSections dns len frameOffset with
    | error stop =>
      rw [hstop] at hwalk
      exact hsettled.record (hwalk.trans hin)
    | ok cursor => exact hsettled.completed hin

theorem recordUdpChecksum_running (h : Running n [.ethernet, .ipv4, .udp] 1 report) (ipv4 udp : Bytes) (len : Nat) :
    Running n [.ethernet, .ipv4, .udp] 2 (recordUdpChecksum report ipv4 udp len) := by
  unfold recordUdpChecksum
  split
  · exact h.recordChecksum _ _ (.inr rfl)
  · exact h.mono (by omega)

theorem parseUdpPayload_ends (h : Running n [.ethernet, .ipv4, .udp] 1 report) (ipv4 udp : Bytes)
    {len frameOffset : Nat} (hmin : udpHeader ≤ len) (hin : frameOffset + len ≤ n) :
    Ends n (frameOffset + len) (parseUdpPayload ipv4 udp len frameOffset report) := by
  have hlen := h.withPayloadLength (show len - udpHeader ≤ n by omega)
  have hrec := recordUdpChecksum_running hlen ipv4 udp len
  have hpayload : (recordUdpChecksum (report.withPayloadLength (len - udpHeader)) ipv4 udp len).payloadLength =
      len - udpHeader := recordUdpChecksum_payloadLength _ ipv4 udp len
  unfold parseUdpPayload
  dsimp only
  rw [hpayload]
  split
  · have hdns := parseDns_ends hrec (udp.drop udpHeader)
      (show frameOffset + udpHeader + (len - udpHeader) ≤ n by omega)
    rwa [show frameOffset + udpHeader + (len - udpHeader) = frameOffset + len by omega] at hdns
  · exact (hrec.settled (by decide) (by decide) (by decide)).unsupported hin

theorem parseUdp_ends (h : Running n [.ethernet, .ipv4] 1 report) (ipv4 udp : Bytes) {len frameOffset : Nat}
    (hin : frameOffset + len ≤ n) : Ends n (frameOffset + len) (parseUdp ipv4 udp len frameOffset report) := by
  have hlayer := h.addLayer (by decide) .udp
  have hfields : Running n _ 1 ((addLayer report .udp).withPorts udp) := { hlayer with }
  have hsettled := hfields.settled (by decide) (by decide) (by decide)
  have hhead : udpHeader = 8 := rfl
  unfold parseUdp
  split
  · exact (hlayer.settled (by decide) (by decide) (by decide)).truncated hin
  · dsimp only
    split
    · exact hsettled.malformed (by omega)
    · split
      · exact hsettled.truncated hin
      · split
        · exact hsettled.malformed (by omega)
        · rw [show (readU16 udp 4).toNat = len by omega]
          exact parseUdpPayload_ends hfields ipv4 udp (by omega) hin

/-- With the HTTP layer comes a message length, and it is the one of the payload. -/
theorem parseHttp_ends (h : Running n [.ethernet, .ipv4, .tcp] 2 report) (hpayload : 0 < report.payloadLength)
    (payload : Bytes) {len frameOffset headerLen : Nat} (hheader : headerLen ≤ len) (hin : frameOffset + len ≤ n) :
    Ends n (frameOffset + len) (parseHttp payload len frameOffset headerLen report) := by
  have hadd : addLayer report .http = { report with layers := report.layers ++ [.http] } := by
    apply if_pos
    rw [h.layers_eq]
    decide
  unfold parseHttp
  dsimp only
  rw [hadd]
  have hsettled : Settled n { report with layers := report.layers ++ [.http]
                                          httpMessageLength := report.payloadLength } := by
    refine { h.toClean with path := ?_, http := ?_, http_length := fun _ => rfl }
    · show report.layers ++ [.http] ∈ paths
      rw [h.layers_eq]
      decide
    · exact iff_of_true hpayload.ne' (List.mem_append_right _ (List.mem_singleton.mpr rfl))
  split
  · exact hsettled.malformed (by omega)
  · split
    · exact hsettled.truncated hin
    · exact hsettled.completed hin

theorem parseTcpPayload_ends (h : Running n [.ethernet, .ipv4, .tcp] 1 report) (ipv4 tcp : Bytes)
    {len frameOffset headerLen : Nat} (hheader : headerLen ≤ len) (hin : frameOffset + len ≤ n) :
    Ends n (frameOffset + len) (parseTcpPayload ipv4 tcp len frameOffset headerLen report) := by
  have hrec := h.recordChecksum (transportChecksumValid ipv4 6 tcp len) .transportChecksum (.inr rfl)
  have hlen := hrec.withPayloadLength (show len - headerLen ≤ n by omega)
  unfold parseTcpPayload
  dsimp only
  split
  · next hhttp => exact parseHttp_ends hlen hhttp.1 _ hheader hin
  · exact (hlen.settled (by decide) (by decide) (by decide)).unsupported hin

theorem parseTcp_ends (h : Running n [.ethernet, .ipv4] 1 report) (ipv4 tcp : Bytes) {len frameOffset : Nat}
    (hin : frameOffset + len ≤ n) : Ends n (frameOffset + len) (parseTcp ipv4 tcp len frameOffset report) := by
  have hlayer := h.addLayer (by decide) .tcp
  have hfields : Running n _ 1 (((addLayer report .tcp).withPorts tcp).withTcpFlags tcp) := { hlayer with }
  have hsettled := hfields.settled (by decide) (by decide) (by decide)
  have hhead : tcpMinHeader = 20 := rfl
  unfold parseTcp
  split
  · exact (hlayer.settled (by decide) (by decide) (by decide)).truncated hin
  · dsimp only
    split
    · exact hsettled.malformed (by omega)
    · split
      · exact hsettled.malformed (by omega)
      · split
        · exact hsettled.truncated hin
        · exact parseTcpPayload_ends hfields ipv4 tcp (by omega) hin

theorem parseIcmp_ends (h : Running n [.ethernet, .ipv4] 1 report) (icmp : Bytes) {len frameOffset : Nat}
    (hin : frameOffset + len ≤ n) : Ends n (frameOffset + len) (parseIcmp icmp len frameOffset report) := by
  have hlayer := h.addLayer (by decide) .icmp
  unfold parseIcmp
  split
  · exact (hlayer.settled (by decide) (by decide) (by decide)).truncated hin
  · have htype : Running n _ 1 { addLayer report .icmp with icmpType := icmp.getD 0 0 } := { hlayer with }
    have hlen := htype.withPayloadLength (show len - icmpHeader ≤ n by omega)
    have hrec := hlen.recordChecksum (checksumValid icmp len) .transportChecksum (.inr rfl)
    exact (hrec.settled (by decide) (by decide) (by decide)).completed hin

theorem parseIpv4Payload_ends (h : Running n [.ethernet, .ipv4] 1 report) (ipv4 : Bytes)
    {headerLen totalLen frameOffset : Nat} (hmin : ipv4MinHeader ≤ headerLen) (hle : headerLen ≤ totalLen)
    (hin : frameOffset + totalLen ≤ n) :
    Ends n (frameOffset + totalLen) (parseIpv4Payload ipv4 headerLen totalLen frameOffset report) := by
  have hsettled := h.settled (by decide) (by decide) (by decide)
  have hlen := (h.withPayloadLength (show totalLen - headerLen ≤ n by omega)).settled (by decide) (by decide)
    (by decide)
  have hpayload : frameOffset + headerLen + (totalLen - headerLen) ≤ n := by omega
  have hlast : frameOffset + headerLen + (totalLen - headerLen) = frameOffset + totalLen := by omega
  have hhead : ipv4MinHeader = 20 := rfl
  have hicmp := parseIcmp_ends h (ipv4.drop headerLen) hpayload
  have hudp := parseUdp_ends h ipv4 (ipv4.drop headerLen) hpayload
  have htcp := parseTcp_ends h ipv4 (ipv4.drop headerLen) hpayload
  rw [hlast] at hicmp hudp htcp
  unfold parseIpv4Payload
  dsimp only
  split
  · exact hsettled.malformed (by omega)
  · split
    · exact hlen.unsupported hin
    · split
      · exact hicmp
      · split
        · exact hudp
        · split
          · exact htcp
          · exact hlen.unsupported hin

theorem parseIpv4_ends (h : Running n [.ethernet] 0 report) (ipv4 : Bytes) {available frameOffset : Nat}
    (hin : frameOffset + available ≤ n) :
    Ends n (frameOffset + (readU16 ipv4 2).toNat) (parseIpv4 ipv4 available frameOffset report) := by
  have hlayer := h.addLayer (by decide) .ipv4
  have hsettled := hlayer.settled (by decide) (by decide) (by decide)
  have hfields : Running n _ 0 ((addLayer report .ipv4).withIpv4Fields ipv4) := { hlayer with }
  have hhead : ipv4MinHeader = 20 := rfl
  unfold parseIpv4
  dsimp only
  generalize (ipv4.getD 0 0 &&& 0x0f).toNat * 4 = headerLen
  split
  · exact hsettled.truncated hin
  · split
    · exact hsettled.malformed (by omega)
    · split
      · exact hsettled.malformed (by omega)
      · split
        · exact hsettled.truncated hin
        · split
          · exact hsettled.malformed (by omega)
          · split
            · exact hsettled.truncated hin
            · have hrec := hfields.recordChecksum (checksumValid ipv4 headerLen) .ipv4Checksum (.inl rfl)
              exact parseIpv4Payload_ends hrec ipv4 (by omega) (by omega) (by omega)

theorem parseArp_ends (h : Running n [.ethernet] 0 report) (arp : Bytes) {available frameOffset : Nat}
    (hin : frameOffset + available ≤ n) :
    Ends n (frameOffset + (arpFixedHeader + 2 * ((arp.getD 4 0).toNat + (arp.getD 5 0).toNat)))
      (parseArp arp available frameOffset report) := by
  have hlayer := h.addLayer (by decide) .arp
  have hfields : Running n _ 0 { addLayer report .arp with arpOpcode := readU16 arp 6 } := { hlayer with }
  have hsettled := hfields.settled (by decide) (by decide) (by decide)
  have hhead : arpFixedHeader = 8 := rfl
  unfold parseArp
  dsimp only
  generalize (arp.getD 4 0).toNat + (arp.getD 5 0).toNat = addressBytes
  split
  · exact (hlayer.settled (by decide) (by decide) (by decide)).truncated hin
  · split
    · exact hsettled.malformed (by omega)
    · split
      · exact hsettled.truncated hin
      · split
        · exact hsettled.malformed (by omega)
        · have hlen := hfields.withPayloadLength (show arpFixedHeader + 2 * addressBytes ≤ n by omega)
          exact (hlen.settled (by decide) (by decide) (by decide)).completed (by omega)

theorem start_running (len : Nat) : Running len [.ethernet] 0 (Report.start len) := by
  have hclean : ∀ d, ¬ (Report.start len).has d = true := by
    intro d
    show ¬ (((0 : UInt32) &&& d.bit) != 0) = true
    cases d <;> decide
  exact {
    frame := rfl
    payload_le := Nat.zero_le _
    no_truncated := hclean _
    no_malformed := hclean _
    no_unsupported := hclean _
    checked_le := Nat.le_refl _
    valid_le := Nat.le_refl _
    mismatch := iff_of_false (Nat.lt_irrefl 0) (hclean _)
    targeted := iff_of_false (hclean _) (not_or.mpr ⟨hclean _, hclean _⟩)
    layers_eq := rfl
    no_http := rfl }

end Layers

theorem diagnoseFrame_ends (data : Bytes) : ∃ last, Ends data.length last (diagnoseFrame data) ∧
    (readU16 data 12 = 0x0800 → last = ethernetHeader + (readU16 data 16).toNat) := by
  have hstart := start_running data.length
  have hhead : ethernetHeader = 14 := rfl
  unfold diagnoseFrame
  dsimp only
  by_cases hshort : data.length < ethernetHeader
  · have hends := @Settled.truncated data.length (ethernetHeader + (readU16 data 16).toNat) data.length _
      (hstart.settled (by decide) (by decide) (by decide)) (Nat.le_refl _)
    rw [if_pos hshort]
    exact ⟨_, hends, fun _ => rfl⟩
  rw [if_neg hshort]
  have hfields : Running data.length _ 0 ((Report.start data.length).withEthernetHeader data) := { hstart with }
  have hin : ethernetHeader + (data.length - ethernetHeader) ≤ data.length := by omega
  have harp := parseArp_ends hfields (data.drop ethernetHeader) hin
  have hip := parseIpv4_ends hfields (data.drop ethernetHeader) hin
  rw [readU16_drop] at hip
  have htype : ((Report.start data.length).withEthernetHeader data).etherType = readU16 data 12 := rfl
  rw [htype]
  split
  · next h =>
    refine ⟨_, harp, fun h' => ?_⟩
    rw [h] at h'
    exact absurd h' (by decide)
  · split
    · exact ⟨_, hip, fun _ => rfl⟩
    · next h =>
      have hend := @Settled.unsupported data.length ethernetHeader _
        (hfields.settled (by decide) (by decide) (by decide)) (by omega)
      exact ⟨_, hend, fun h' => absurd h' h⟩

/-- **Main result.** The report of every byte string is sound, and an `OK` on an IPv4 frame was parsed up to the end
of the packet. -/
theorem diagnoseFrame_sound (data : Bytes) :
    Sound data.length (diagnoseFrame data) ∧
      (readU16 data 12 = 0x0800 → (diagnoseFrame data).1 = .ok →
        (diagnoseFrame data).2.parsedLength = ethernetHeader + (readU16 data 16).toNat) := by
  obtain ⟨last, hends, hlast⟩ := diagnoseFrame_ends data
  exact ⟨hends.toSound, fun htype hok => (hends.ok_parsed hok).trans (hlast htype)⟩

def pingFrame : Bytes := [2, 0, 0, 0, 0, 2, 2, 0, 0, 0, 0, 1, 8, 0,
  0x45, 0, 0, 28, 0, 0, 0, 0, 64, 1, 0x66, 0xdf, 10, 0, 0, 1, 10, 0, 0, 2, 8, 0, 0xf7, 0xff, 0, 0, 0, 0]

theorem diagnoseFrame_sound_ping :
    let result := diagnoseFrame (pingFrame ++ [0, 0, 0])
    result.1 = .ok ∧ Sound 45 result ∧ result.2.parsedLength = 42 := by
  intro result
  have hok : result.1 = .ok := by decide +kernel
  obtain ⟨hsound, hparsed⟩ := diagnoseFrame_sound (pingFrame ++ [0, 0, 0])
  exact ⟨hok, hsound, hparsed (by decide) hok⟩

end TcpipCourse.L12
