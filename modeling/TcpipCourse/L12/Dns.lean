import TcpipCourse.L05.Canonical
import TcpipCourse.L12.Chain
import TcpipCourse.L12.Sections

/-!
# Lesson 12: DNS messages in a frame

* `walkDnsName_iff`, `walkSection_iff` : the walks read exactly the items of the reference parser;
* `Complete` : every entry that the counts of a message announce is there; `parseDns_complete`,
  `parseDns_incomplete` : what the diagnoser returns of a message that is, and of one that is not;
* `CarriesDns` : a datagram of lesson 05 to or from port 53;
* `dnsFrame_diagnosed` : the diagnoser finds nothing in the frame of such a datagram exactly when it is complete.
-/

namespace TcpipCourse.L12
open Lib
open L09 (NameAt QuestionAt RecordAt dnsHeaderSize decodeNameInternal)

/-! ## The walks -/

section Walks
variable {dns : Bytes} {frameOffset : Nat}

theorem walkDnsName_iff {offset next : Nat} :
    walkDnsName dns dns.length offset frameOffset = .ok next ↔ NameAt dns offset next := by
  refine ⟨fun h => (nameAt_of_walkDnsName h).1, fun h => ?_⟩
  obtain ⟨hstatus, hnext⟩ := h
  refine (walkLoop_agrees (L09.visits_init dns offset) next).mpr ?_
  unfold L09.decodeName at hstatus hnext
  by_cases hout : offset ≥ dns.length
  · rw [if_pos hout] at hstatus
    cases hstatus
  · rw [if_neg hout] at hstatus hnext
    cases hname : decodeNameInternal dns offset with
    | error status =>
      rw [hname] at hstatus
      obtain rfl : status = .ok := hstatus
      rcases L09.decodeNameInternal_error hname with herr | herr <;> cases herr
    | ok name =>
      rw [hname] at hstatus hnext
      dsimp only at hstatus hnext
      split at hstatus
      · cases hstatus
      · next hroom =>
        rw [if_neg hroom] at hnext
        exact ⟨name, hname, hnext⟩

/-- A walk of entries is a sequence of items, if each entry is one. -/
theorem walkSection_iff {α : Type} {item : Nat → α → Nat → Prop} {entry : Nat → Except Stop Nat}
    (hitem : ∀ cursor next, (∃ a, item cursor a next) ↔
      ∃ fields, NameAt dns cursor fields ∧ fields ≤ dns.length ∧ entry fields = .ok next) (count : Nat) :
    ∀ {cursor next : Nat}, walkSection dns dns.length frameOffset entry count cursor = .ok next ↔
      ∃ items, items.length = count ∧ Reads item cursor items next := by
  intro cursor next
  refine ⟨walkSection_reads (fun cursor fields next hname hin hentry =>
    (hitem cursor next).mpr ⟨fields, hname, hin, hentry⟩) count, ?_⟩
  rintro ⟨items, hlen, hreads⟩
  induction count generalizing cursor items with
  | zero =>
    rw [List.eq_nil_of_length_eq_zero hlen] at hreads
    rw [walkSection, reads_nil_iff.mp hreads]
  | succ count ih =>
    obtain ⟨a, items, rfl⟩ := List.exists_cons_of_length_eq_add_one hlen
    obtain ⟨middle, hhead, hrest⟩ := reads_cons_iff.mp hreads
    obtain ⟨fields, hname, -, hentry⟩ := (hitem cursor middle).mp ⟨a, hhead⟩
    rw [walkSection, walkDnsName_iff.mpr hname]
    dsimp only
    rw [hentry]
    exact ih items (by simpa using hlen) hrest

theorem questionAt_iff (cursor next : Nat) : (∃ question, QuestionAt dns cursor question next) ↔
    ∃ fields, NameAt dns cursor fields ∧ fields ≤ dns.length ∧
      questionFields dns.length frameOffset fields = .ok next := by
  constructor
  · rintro ⟨question, fields, hname, hroom, -, rfl⟩
    refine ⟨fields, hname, by omega, ?_⟩
    unfold questionFields
    rw [if_neg (by omega)]
  · rintro ⟨fields, hname, hin, hentry⟩
    exact questionAt_of_fields hname hin hentry

theorem recordAt_iff (cursor next : Nat) : (∃ record, RecordAt dns cursor record next) ↔
    ∃ fields, NameAt dns cursor fields ∧ fields ≤ dns.length ∧
      rrFields dns dns.length frameOffset fields = .ok next := by
  constructor
  · rintro ⟨record, fields, hname, hroom, rfl, rfl, hfits⟩
    have hsame : L09.readU16 dns (fields + 8) = readU16 dns (fields + 8) := rfl
    dsimp only at hfits
    rw [hsame] at hfits
    refine ⟨fields, hname, by omega, ?_⟩
    unfold rrFields
    dsimp only
    rw [if_neg (by omega), if_neg (by omega)]
    rfl
  · rintro ⟨fields, hname, hin, hentry⟩
    exact recordAt_of_fields hname hin hentry

end Walks

/-! ## A whole message -/

/-- The header is there, and behind it as many questions and records as it counts, with names that lesson 09
decodes. -/
structure Complete (dns : Bytes) : Prop where
  header : dnsHeader ≤ dns.length
  sections : ∃ questions c1 answers c2 authorities c3 additionals c4,
    (questions.length = (readU16 dns 4).toNat ∧ Reads (QuestionAt dns) dnsHeader questions c1) ∧
    (answers.length = (readU16 dns 6).toNat ∧ Reads (RecordAt dns) c1 answers c2) ∧
    (authorities.length = (readU16 dns 8).toNat ∧ Reads (RecordAt dns) c2 authorities c3) ∧
    (additionals.length = (readU16 dns 10).toNat ∧ Reads (RecordAt dns) c3 additionals c4)

section Message
variable {dns : Bytes} {frameOffset : Nat}

theorem walkQuestions_iff {count : UInt16} {cursor next : Nat} :
    walkQuestions dns dns.length frameOffset count cursor = .ok next ↔
      ∃ questions, questions.length = count.toNat ∧ Reads (QuestionAt dns) cursor questions next :=
  walkSection_iff questionAt_iff count.toNat

theorem walkDnsRrs_iff {count : UInt16} {cursor next : Nat} :
    walkDnsRrs dns dns.length frameOffset count cursor = .ok next ↔
      ∃ records, records.length = count.toNat ∧ Reads (RecordAt dns) cursor records next :=
  walkSection_iff recordAt_iff count.toNat

theorem bind_ok_iff {ε α β : Type} {x : Except ε α} {f : α → Except ε β} {b : β} :
    (x >>= f) = .ok b ↔ ∃ a, x = .ok a ∧ f a = .ok b := by
  cases x with
  | error e => exact iff_of_false nofun nofun
  | ok a =>
    constructor
    · exact fun h => ⟨a, rfl, h⟩
    · rintro ⟨_, ⟨⟩, h⟩
      exact h

theorem walkSections_ok_iff :
    (dnsHeader ≤ dns.length ∧ ∃ next, walkSections dns dns.length frameOffset = .ok next) ↔ Complete dns := by
  unfold walkSections
  simp only [bind_ok_iff, walkQuestions_iff, walkDnsRrs_iff]
  constructor
  · rintro ⟨hheader, c4, c1, ⟨questions, hquestions⟩, c2, ⟨answers, hanswers⟩, c3, ⟨authorities, hauthorities⟩,
      additionals, hadditionals⟩
    exact ⟨hheader, questions, c1, answers, c2, authorities, c3, additionals, c4, hquestions, hanswers, hauthorities,
      hadditionals⟩
  · rintro ⟨hheader, questions, c1, answers, c2, authorities, c3, additionals, c4, hquestions, hanswers, hauthorities,
      hadditionals⟩
    exact ⟨hheader, c4, c1, ⟨questions, hquestions⟩, c2, ⟨answers, hanswers⟩, c3, ⟨authorities, hauthorities⟩,
      additionals, hadditionals⟩

theorem parseDns_complete (h : Complete dns) (report : Report) :
    parseDns dns dns.length frameOffset report =
      completed ((addLayer report .dns).withDnsHeader dns) (frameOffset + dns.length) := by
  obtain ⟨hheader, next, hwalk⟩ := (@walkSections_ok_iff dns frameOffset).mpr h
  unfold parseDns
  dsimp only
  rw [if_neg (by omega), hwalk]

theorem parseDns_incomplete (h : ¬ Complete dns) (report : Report) :
    ∃ stop report', (report' = addLayer report .dns ∨ report' = (addLayer report .dns).withDnsHeader dns) ∧
      parseDns dns dns.length frameOffset report = Stop.record report' stop := by
  unfold parseDns
  dsimp only
  split
  · exact ⟨.truncated (frameOffset + dns.length), _, .inl rfl, rfl⟩
  · next hheader =>
    cases hwalk : walkSections dns dns.length frameOffset with
    | error stop => exact ⟨stop, _, .inr rfl, rfl⟩
    | ok next => exact absurd (walkSections_ok_iff.mp ⟨by omega, next, hwalk⟩) h

end Message

/-! ## A datagram in a frame -/

/-- A datagram that parses and verifies, or has no checksum, to or from port 53. -/
structure CarriesDns (udp : Bytes) (ipv4 : L03.Ipv4Packet) (datagram : L05.Datagram) : Prop where
  parsed : L05.parseDatagram udp = .ok datagram
  sum : datagram.checksum = 0 ∨ L05.ipv4Checksum ipv4.source.toList ipv4.destination.toList udp = .ok 0
  ports : datagram.sourcePort = 53 ∨ datagram.destinationPort = 53

/-- What is reported of a datagram that verifies, in front of its DNS message. -/
def dnsEntry (report : Report) (udp : Bytes) : Report :=
  let report := (udpReport report udp).withPayloadLength (udp.length - udpHeader)
  addLayer (if readU16 udp 6 = 0 then report else recordChecksum report true .transportChecksum) .dns

theorem parseUdp_dns {ipv4 udp : Bytes} (frameOffset : Nat) (report : Report)
    (hok : ∃ datagram, L05.parseDatagram udp = .ok datagram)
    (hvalid : readU16 udp 6 = 0 ∨ transportChecksumValid ipv4 17 udp udp.length = true)
    (hports : readU16 udp 0 = 53 ∨ readU16 udp 2 = 53) :
    ∃ before, addLayer before .dns = dnsEntry report udp ∧ parseUdp ipv4 udp udp.length frameOffset report =
      parseDns (udp.drop udpHeader) (udp.drop udpHeader).length (frameOffset + udpHeader) before := by
  have hlength : udp.length - udpHeader = (udp.drop udpHeader).length := List.length_drop.symm
  have hrecord : recordUdpChecksum ((udpReport report udp).withPayloadLength (udp.length - udpHeader)) ipv4 udp
      udp.length = if readU16 udp 6 = 0 then (udpReport report udp).withPayloadLength (udp.length - udpHeader)
        else recordChecksum ((udpReport report udp).withPayloadLength (udp.length - udpHeader)) true
          .transportChecksum := by
    unfold recordUdpChecksum
    by_cases hsent : readU16 udp 6 = 0
    · rw [if_neg (not_not.mpr hsent), if_pos hsent]
    · rw [if_pos hsent, if_neg hsent, hvalid.resolve_left hsent]
  obtain ⟨hsource, hdestination⟩ := recordUdpChecksum_ports
    ((udpReport report udp).withPayloadLength (udp.length - udpHeader)) ipv4 udp udp.length
  refine ⟨_, congrArg (addLayer · Layer.dns) hrecord, ?_⟩
  rw [parseUdp_of_ok _ _ hok]
  unfold parseUdpPayload
  dsimp only
  rw [if_pos (by rw [hsource, hdestination]; exact hports), recordUdpChecksum_payloadLength, ← hlength]
  rfl

theorem dnsEntry_fields (frame udp : Bytes) :
    let report := dnsEntry (carriedReport frame) udp
    let checked := if readU16 udp 6 = 0 then 1 else 2
    report.layers = [.ethernet, .ipv4, .udp, .dns] ∧ report.diagnostics = 0 ∧ report.checksumsChecked = checked ∧
      report.checksumsValid = checked ∧ report.payloadLength = udp.length - udpHeader := by
  intro report checked
  have hchecked : checked = if readU16 udp 6 = 0 then 1 else 2 := rfl
  have hreport : report = dnsEntry (carriedReport frame) udp := rfl
  rw [hchecked, hreport, dnsEntry]
  by_cases hsent : readU16 udp 6 = 0
  · simp only [if_pos hsent]
    exact ⟨rfl, rfl, rfl, rfl, rfl⟩
  · simp only [if_neg hsent]
    exact ⟨rfl, rfl, rfl, rfl, rfl⟩

section Datagram
variable {frame : Bytes} {ethernet : L02.EthernetFrame} {ipv4 : L03.Ipv4Packet} {datagram : L05.Datagram}
  (h : Carries frame 17 ethernet ipv4) (hdns : CarriesDns (carried frame ethernet ipv4) ipv4 datagram)
include h hdns

theorem Carries.diagnoseFrame_dns :
    let udp := carried frame ethernet ipv4
    let dns := udp.drop udpHeader
    ∃ m frameOffset before, addLayer before .dns = dnsEntry (carriedReport frame) udp ∧
      diagnoseFrame frame = atLength m (parseDns dns dns.length frameOffset before) := by
  intro udp dns
  obtain ⟨hlen, htype, hstruct, hreserved, hwhole, hprotocol, -⟩ := h.spec
  obtain ⟨-, hudp, -⟩ := h.window
  have hmin : ipv4MinHeader ≤ (frame.drop ethernetHeader).length := hstruct.1
  have hmax := length_payloadWindow_le hstruct
  obtain ⟨hsource, hdestination, hchecksum, -⟩ := parseDatagram_fields hdns.parsed
  have hvalid : readU16 udp 6 = 0 ∨ transportChecksumValid (frame.drop ethernetHeader) 17 udp udp.length = true := by
    rw [udpChecksum_iff hmin (by rw [← hudp] at hmax; exact hmax), h.addresses.1, h.addresses.2, ← hchecksum]
    exact hdns.sum
  have hports := hdns.ports
  rw [hsource, hdestination] at hports
  obtain ⟨before, hbefore, hparse⟩ := parseUdp_dns (ethernetHeader + L03.ihlBytes (frame.drop ethernetHeader))
    (carriedReport frame) ⟨datagram, hdns.parsed⟩ hvalid hports
  rw [diagnoseFrame_ipv4 hlen htype, parseIpv4_udp hstruct hreserved hwhole hprotocol, h.headerReport_eq, ← hudp]
  exact ⟨_, _, before, hbefore, congrArg (atLength _) hparse⟩

end Datagram

/-- **Main result.** Behind headers and checksums that lessons 02, 03 and 05 accept, the diagnoser finds nothing in a
DNS message exactly when its header and all entries that it counts are there, with names that lesson 09 decodes, and
it reports what lesson 09 reads of the header; of any other message it says that it is cut or malformed, and nothing
else. -/
theorem dnsFrame_diagnosed {frame : Bytes} {ethernet : L02.EthernetFrame} {ipv4 : L03.Ipv4Packet}
    {datagram : L05.Datagram} (h : Carries frame 17 ethernet ipv4)
    (hdns : CarriesDns (carried frame ethernet ipv4) ipv4 datagram) :
    let dns := datagram.payload (carried frame ethernet ipv4)
    let result := diagnoseFrame frame
    let checked := if datagram.checksum = 0 then 1 else 2
    (result.2.layers = [.ethernet, .ipv4, .udp, .dns] ∧ result.2.checksumsChecked = checked ∧
      result.2.checksumsValid = checked ∧ result.2.payloadLength = dns.length) ∧
    (Complete dns → result.1 = .ok ∧ result.2.diagnostics = 0 ∧ ∃ header, L09.parseMessage dns = .ok header ∧
      result.2.dnsIdentifier = header.id ∧ result.2.dnsQuestionCount = header.questionCount) ∧
    (¬ Complete dns → (result.1 = .truncated ∧ result.2.diagnostics = Diagnostic.truncated.bit) ∨
      (result.1 = .malformed ∧ result.2.diagnostics = Diagnostic.malformed.bit)) := by
  obtain ⟨-, -, hchecksum, -⟩ := parseDatagram_fields hdns.parsed
  obtain ⟨hmin, -, hread⟩ := L05.parseDatagram_ok hdns.parsed
  have hpayload : datagram.payload (carried frame ethernet ipv4) = (carried frame ethernet ipv4).drop udpHeader := by
    rw [hread]
    exact List.take_of_length_le List.length_drop.le
  obtain ⟨m, frameOffset, before, hbefore, hdiagnose⟩ := h.diagnoseFrame_dns hdns
  obtain ⟨hlayers, hdiagnostics, hchecked, hvalid, hlength⟩ :=
    dnsEntry_fields frame (carried frame ethernet ipv4)
  rw [← hbefore] at hlayers hdiagnostics hchecked hvalid hlength
  rw [← hchecksum] at hchecked hvalid
  rw [← List.length_drop] at hlength
  rw [hpayload]
  intro dns result checked
  have hresult : result = atLength m (parseDns dns dns.length frameOffset before) := hdiagnose
  have hbits : ∀ d : Diagnostic, 0 ||| d.bit = d.bit := by
    intro d
    cases d <;> decide
  by_cases hcomplete : Complete dns
  · rw [parseDns_complete hcomplete] at hresult
    rw [hresult]
    refine ⟨⟨hlayers, hchecked, hvalid, hlength⟩, fun _ => ⟨rfl, hdiagnostics, ?_⟩, fun hnot => absurd hcomplete hnot⟩
    have hheader : ¬ dns.length < dnsHeaderSize := Nat.not_lt.mpr hcomplete.header
    refine ⟨_, if_neg hheader, rfl, rfl⟩
  · obtain ⟨stop, report', hreport, hparse⟩ := @parseDns_incomplete dns frameOffset hcomplete before
    rw [hparse] at hresult
    have hfields : report'.layers = [.ethernet, .ipv4, .udp, .dns] ∧ report'.checksumsChecked = checked ∧
        report'.checksumsValid = checked ∧ report'.payloadLength = dns.length ∧ report'.diagnostics = 0 := by
      rcases hreport with rfl | rfl
      · exact ⟨hlayers, hchecked, hvalid, hlength, hdiagnostics⟩
      · exact ⟨hlayers, hchecked, hvalid, hlength, hdiagnostics⟩
    obtain ⟨hlayers', hchecked', hvalid', hlength', hdiagnostics'⟩ := hfields
    rw [hresult]
    cases stop with
    | truncated parsed =>
      refine ⟨⟨hlayers', hchecked', hvalid', hlength'⟩, fun hc => absurd hc hcomplete, fun _ => .inl ⟨rfl, ?_⟩⟩
      show report'.diagnostics ||| _ = _
      rw [hdiagnostics', hbits]
    | malformed parsed =>
      refine ⟨⟨hlayers', hchecked', hvalid', hlength'⟩, fun hc => absurd hc hcomplete, fun _ => .inr ⟨rfl, ?_⟩⟩
      show report'.diagnostics ||| _ = _
      rw [hdiagnostics', hbits]

/-- A response with the root name, and with one record whose name is a pointer to it. -/
def responseFrame : Bytes := [2, 0, 0, 0, 0, 2, 2, 0, 0, 0, 0, 1, 8, 0,
  0x45, 0, 0, 61, 0, 0, 0, 0, 64, 17, 0x66, 0xae, 10, 0, 0, 1, 10, 0, 0, 2,
  0, 53, 4, 0, 0, 41, 0, 0,
  0, 7, 0x81, 0x80, 0, 1, 0, 1, 0, 0, 0, 0, 0, 0, 1, 0, 1, 0xc0, 12, 0, 1, 0, 1, 0, 0, 0, 60, 0, 4, 10, 0, 0, 9]

theorem dnsFrame_diagnosed_response :
    (diagnoseFrame responseFrame).1 = .ok ∧ (diagnoseFrame responseFrame).2.diagnostics = 0 := by
  have hcarries : Carries responseFrame 17 ⟨[2, 0, 0, 0, 0, 2], [2, 0, 0, 0, 0, 1], 0x0800, 14, 61⟩
      (L03.readHeader (responseFrame.drop 14)) :=
    ⟨by rfl, rfl,
      L03.parseIpv4_eq_ok_iff.mpr ⟨by unfold L03.Structural; decide, by decide, by decide +kernel, rfl⟩, rfl, by decide⟩
  have hdns : CarriesDns (carried responseFrame ⟨[2, 0, 0, 0, 0, 2], [2, 0, 0, 0, 0, 1], 0x0800, 14, 61⟩
      (L03.readHeader (responseFrame.drop 14))) (L03.readHeader (responseFrame.drop 14)) ⟨53, 1024, 41, 0, 8, 33⟩ :=
    ⟨by rfl, .inl rfl, .inl rfl⟩
  obtain ⟨-, hfound, -⟩ := dnsFrame_diagnosed hcarries hdns
  have hroot : L09.Expands (responseFrame.drop 42) 12 [] 0 13 := .root rfl
  have hname := L09.nameAt_of_internal (L09.decodeNameInternal_complete hroot (by decide) (by decide))
  have hpointer := L09.nameAt_of_internal (L09.decodeNameInternal_complete
    (@L09.Expands.pointer (responseFrame.drop 42) 17 _ _ 0xc0 12 _ rfl (by decide) rfl hroot) (by decide) (by decide))
  obtain ⟨hok, hclean, -⟩ := hfound ⟨by decide, [(1, 1)], 17, [⟨1, 1, 60, 4, 29⟩], 33, [], 33, [], 33,
    ⟨rfl, reads_cons_iff.mpr ⟨17, ⟨13, hname, by decide, rfl, rfl⟩, .nil _⟩⟩,
    ⟨rfl, reads_cons_iff.mpr ⟨33, ⟨19, hpointer, by decide, rfl, rfl, by decide⟩, .nil _⟩⟩,
    ⟨rfl, .nil _⟩, ⟨rfl, .nil _⟩⟩
  exact ⟨hok, hclean⟩

end TcpipCourse.L12
