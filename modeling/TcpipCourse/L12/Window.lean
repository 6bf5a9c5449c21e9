import TcpipCourse.L12.Diagnose

/-!
# Lesson 12: every layer keeps to its window

* `SameWindow a b n` : the first `n` bytes behind two pointers agree (`SameWindow.drop`, `SameWindow.readU16`);
* `atLength n` : a result with another frame length;
* `walkDnsName_congr`, `parseDns_congr`, `parseUdp_congr`, .. : what a function returns depends on the bytes of
  its window only, and the frame length passes through it;
* `parseIpv4_grow`, `parseArp_grow` : more captured bytes change nothing behind a declared length that fits;
* `diagnoseFrame_padding` : the main result.
-/

namespace TcpipCourse.L12
open Lib

/-! ## Windows -/

/-- The first `n` bytes behind two pointers agree. -/
def SameWindow (a b : Bytes) (n : Nat) : Prop := a.take n = b.take n

section Windows
variable {a b : Bytes} {n : Nat}

theorem SameWindow.mono (h : SameWindow a b n) {m : Nat} (hm : m ≤ n) : SameWindow a b m := by
  have hcut := congrArg (List.take m) h
  rwa [List.take_take, List.take_take, Nat.min_eq_left hm] at hcut

theorem SameWindow.drop (h : SameWindow a b n) (k : Nat) : SameWindow (a.drop k) (b.drop k) (n - k) := by
  have hcut := congrArg (List.drop k) h
  rwa [List.drop_take, List.drop_take] at hcut

theorem SameWindow.getD (h : SameWindow a b n) {i : Nat} (hi : i < n) : a.getD i 0 = b.getD i 0 :=
  getD_eq_of_take_eq h hi 0

theorem SameWindow.readU16 (h : SameWindow a b n) {offset : Nat} (hi : offset + 1 < n) :
    readU16 a offset = readU16 b offset := by
  unfold L12.readU16
  rw [h.getD (by omega), h.getD hi]

theorem SameWindow.readU32 (h : SameWindow a b n) {offset : Nat} (hi : offset + 3 < n) :
    readU32 a offset = readU32 b offset := by
  unfold L12.readU32
  rw [h.getD (by omega), h.getD (by omega), h.getD (by omega), h.getD hi]

theorem sameWindow_append (f s : Bytes) : SameWindow (f ++ s) f f.length := by
  unfold SameWindow
  rw [List.take_left, List.take_length]

/-! ## Checksums and HTTP -/

theorem checksumAdd_congr (len : Nat) : ∀ (sum : UInt32) (a b : Bytes), SameWindow a b len →
    checksumAdd sum a len = checksumAdd sum b len := by
  induction len using Nat.twoStepInduction with
  | zero =>
    intro sum a b h
    rfl
  | one =>
    intro sum a b h
    rw [checksumAdd, checksumAdd, h.getD (by omega)]
  | more len ih _ =>
    intro sum a b h
    rw [checksumAdd, checksumAdd, h.readU16 (by omega)]
    exact ih _ _ _ (h.drop 2)

theorem checksumValid_congr (h : SameWindow a b n) : checksumValid a n = checksumValid b n := by
  unfold checksumValid
  rw [checksumAdd_congr n 0 a b h]

theorem transportChecksumValid_congr {ipv4 ipv4' : Bytes} (hip : SameWindow ipv4 ipv4' ipv4MinHeader)
    (h : SameWindow a b n) (protocol : UInt8) :
    transportChecksumValid ipv4 protocol a n = transportChecksumValid ipv4' protocol b n := by
  unfold transportChecksumValid
  rw [checksumAdd_congr 8 0 _ _ (hip.drop 12)]
  simp only [checksumAdd_congr n _ a b h]

theorem httpPrefix_congr (h : SameWindow a b n) : httpPrefix a n = httpPrefix b n := by
  unfold httpPrefix
  congr 1
  funext text
  by_cases hlen : text.length ≤ n
  · rw [show a.take text.length = b.take text.length from h.mono hlen]
  · simp only [hlen, decide_false, Bool.false_and]

theorem httpHeadersComplete_congr (h : SameWindow a b n) : httpHeadersComplete a n = httpHeadersComplete b n := by
  unfold httpHeadersComplete
  by_cases hlen : n < 4
  · rw [if_pos hlen, if_pos hlen]
  · rw [if_neg hlen, if_neg hlen, Bool.eq_iff_iff, List.any_eq_true, List.any_eq_true]
    apply exists_congr
    intro index
    apply and_congr_right
    intro hindex
    rw [List.mem_range] at hindex
    rw [h.getD (by omega), h.getD (by omega), h.getD (by omega), h.getD (by omega)]

/-! ## DNS -/

theorem walkPointer_congr (h : SameWindow a b n) (frameOffset : Nat) (st : WalkState) (length : UInt8) :
    walkPointer a n frameOffset st length = walkPointer b n frameOffset st length := by
  unfold walkPointer
  by_cases htwo : n - st.cursor < 2
  · rw [if_pos htwo, if_pos htwo]
  · rw [if_neg htwo, if_neg htwo, h.getD (by omega)]

theorem walkStep_congr (h : SameWindow a b n) (frameOffset : Nat) (st : WalkState) :
    walkStep a n frameOffset st = walkStep b n frameOffset st := by
  unfold walkStep
  by_cases hin : st.cursor ≥ n
  · rw [if_pos hin, if_pos hin]
  · rw [if_neg hin, if_neg hin, h.getD (by omega)]
    simp only [walkPointer_congr h]

theorem walkLoop_congr (h : SameWindow a b n) (frameOffset : Nat) (st : WalkState) :
    walkLoop a n frameOffset st = walkLoop b n frameOffset st := by
  induction st using walkLoop.induct a n frameOffset with
  | case1 st stop hstep =>
    have hstep' := hstep
    rw [walkStep_congr h] at hstep'
    rw [walkLoop, hstep, walkLoop, hstep']
  | case2 st next hstep =>
    have hstep' := hstep
    rw [walkStep_congr h] at hstep'
    rw [walkLoop, hstep, walkLoop, hstep']
  | case3 st st' hstep ih =>
    have hstep' := hstep
    rw [walkStep_congr h] at hstep'
    rw [walkLoop, hstep]
    conv => rhs; rw [walkLoop, hstep']
    exact ih

theorem walkDnsName_congr (h : SameWindow a b n) (offset frameOffset : Nat) :
    walkDnsName a n offset frameOffset = walkDnsName b n offset frameOffset :=
  walkLoop_congr h frameOffset (walkInit offset)

theorem rrFields_congr (h : SameWindow a b n) (frameOffset : Nat) :
    rrFields a n frameOffset = rrFields b n frameOffset := by
  funext cursor
  unfold rrFields
  by_cases hten : n - cursor < 10
  · rw [if_pos hten, if_pos hten]
  · rw [if_neg hten, if_neg hten, h.readU16 (by omega)]

theorem walkSection_congr (h : SameWindow a b n) (frameOffset : Nat) (entry : Nat → Except Stop Nat)
    (count cursor : Nat) :
    walkSection a n frameOffset entry count cursor = walkSection b n frameOffset entry count cursor := by
  induction count generalizing cursor with
  | zero => rfl
  | succ count ih =>
    rw [walkSection, walkSection, walkDnsName_congr h]
    simp only [ih]

theorem walkSections_congr (h : SameWindow a b n) (hn : dnsHeader ≤ n) (frameOffset : Nat) :
    walkSections a n frameOffset = walkSections b n frameOffset := by
  unfold dnsHeader at hn
  unfold walkSections walkQuestions walkDnsRrs
  simp only [walkSection_congr h, rrFields_congr h]
  rw [h.readU16 (by omega), h.readU16 (by omega), h.readU16 (by omega), h.readU16 (by omega)]

/-! ## The frame length passes through -/

def Report.withFrameLength (report : Report) (m : Nat) : Report := { report with frameLength := m }

@[simp] theorem withFrameLength_etherType (report : Report) (m : Nat) :
    (report.withFrameLength m).etherType = report.etherType := rfl

def atLength (m : Nat) (result : Status × Report) : Status × Report := (result.1, result.2.withFrameLength m)

theorem addLayer_withFrameLength (report : Report) (m : Nat) (layer : Layer) :
    addLayer (report.withFrameLength m) layer = (addLayer report layer).withFrameLength m := by
  unfold addLayer
  by_cases hroom : report.layers.length < maxLayers
  · rw [if_pos hroom]
    exact if_pos hroom
  · rw [if_neg hroom]
    exact if_neg hroom

theorem recordChecksum_withFrameLength (report : Report) (m : Nat) (valid : Bool) (diagnostic : Diagnostic) :
    recordChecksum (report.withFrameLength m) valid diagnostic =
      (recordChecksum report valid diagnostic).withFrameLength m := by
  cases valid <;> rfl

/-! ## The layers -/

theorem parseDns_congr (h : SameWindow a b n) (frameOffset m : Nat) (report : Report) :
    parseDns a n frameOffset (report.withFrameLength m) = atLength m (parseDns b n frameOffset report) := by
  unfold parseDns
  rw [addLayer_withFrameLength]
  by_cases hshort : n < dnsHeader
  · rw [if_pos hshort, if_pos hshort]
    rfl
  · have hhead : dnsHeader = 12 := rfl
    rw [if_neg hshort, if_neg hshort, walkSections_congr h (by omega)]
    unfold Report.withDnsHeader
    rw [h.readU16 (by omega), h.readU16 (by omega)]
    rcases walkSections b n frameOffset with (parsed | parsed) | cursor <;> rfl

theorem parseIcmp_congr (h : SameWindow a b n) (frameOffset m : Nat) (report : Report) :
    parseIcmp a n frameOffset (report.withFrameLength m) = atLength m (parseIcmp b n frameOffset report) := by
  unfold parseIcmp
  rw [addLayer_withFrameLength]
  by_cases hshort : n < icmpHeader
  · rw [if_pos hshort, if_pos hshort]
    rfl
  · have hhead : icmpHeader = 8 := rfl
    rw [if_neg hshort, if_neg hshort, h.getD (by omega), checksumValid_congr h]
    cases checksumValid b n <;> rfl

theorem parseHttp_congr {report : Report} (h : SameWindow a b report.payloadLength)
    (ipPayloadLen frameOffset tcpHeaderLen m : Nat) :
    parseHttp a ipPayloadLen frameOffset tcpHeaderLen (report.withFrameLength m) =
      atLength m (parseHttp b ipPayloadLen frameOffset tcpHeaderLen report) := by
  have hlen : (addLayer report .http).payloadLength = report.payloadLength := by
    unfold addLayer
    split <;> rfl
  unfold parseHttp
  rw [addLayer_withFrameLength]
  dsimp only [Report.withFrameLength]
  rw [hlen, httpPrefix_congr h, httpHeadersComplete_congr h]
  split
  · rfl
  · split <;> rfl

section Transport
variable {ipv4 ipv4' : Bytes} (hip : SameWindow ipv4 ipv4' ipv4MinHeader)
include hip

theorem recordUdpChecksum_congr (h : SameWindow a b n) (hn : udpHeader ≤ n) (m : Nat) (report : Report) :
    recordUdpChecksum (report.withFrameLength m) ipv4 a n =
      (recordUdpChecksum report ipv4' b n).withFrameLength m := by
  have hhead : udpHeader = 8 := rfl
  unfold recordUdpChecksum
  rw [h.readU16 (by omega), transportChecksumValid_congr hip h]
  split
  · exact recordChecksum_withFrameLength report m _ _
  · rfl

theorem parseUdpPayload_congr (h : SameWindow a b n) (hn : udpHeader ≤ n) (frameOffset m : Nat)
    (report : Report) :
    parseUdpPayload ipv4 a n frameOffset (report.withFrameLength m) =
      atLength m (parseUdpPayload ipv4' b n frameOffset report) := by
  unfold parseUdpPayload
  dsimp only
  rw [show (report.withFrameLength m).withPayloadLength (n - udpHeader) =
      (report.withPayloadLength (n - udpHeader)).withFrameLength m from rfl, recordUdpChecksum_congr hip h hn]
  generalize hr : recordUdpChecksum (report.withPayloadLength (n - udpHeader)) ipv4' b n = r
  have hlen : r.payloadLength = n - udpHeader := by
    rw [← hr]
    exact recordUdpChecksum_payloadLength _ _ _ _
  have hdrop : SameWindow (a.drop udpHeader) (b.drop udpHeader) r.payloadLength := by
    rw [hlen]
    exact h.drop udpHeader
  have hdns := parseDns_congr hdrop (frameOffset + udpHeader) m r
  by_cases hport : r.sourcePort = 53 ∨ r.destinationPort = 53
  · rw [if_pos hport, ← hdns]
    exact if_pos hport
  · rw [if_neg hport]
    exact if_neg hport

theorem parseUdp_congr (h : SameWindow a b n) (frameOffset m : Nat) (report : Report) :
    parseUdp ipv4 a n frameOffset (report.withFrameLength m) =
      atLength m (parseUdp ipv4' b n frameOffset report) := by
  unfold parseUdp
  rw [addLayer_withFrameLength]
  by_cases hshort : n < udpHeader
  · rw [if_pos hshort, if_pos hshort]
    rfl
  · have hhead : udpHeader = 8 := rfl
    have hports : ((addLayer report .udp).withFrameLength m).withPorts a =
        ((addLayer report .udp).withPorts b).withFrameLength m := by
      unfold Report.withPorts
      rw [h.readU16 (by omega), h.readU16 (by omega)]
      rfl
    rw [if_neg hshort, if_neg hshort, hports, h.readU16 (by omega)]
    dsimp only
    split
    · rfl
    · split
      · rfl
      · split
        · rfl
        · rw [show (readU16 b 4).toNat = n by omega]
          exact parseUdpPayload_congr hip h (by omega) frameOffset m _

theorem parseTcpPayload_congr (h : SameWindow a b n) (tcpHeaderLen frameOffset m : Nat) (report : Report) :
    parseTcpPayload ipv4 a n frameOffset tcpHeaderLen (report.withFrameLength m) =
      atLength m (parseTcpPayload ipv4' b n frameOffset tcpHeaderLen report) := by
  unfold parseTcpPayload
  dsimp only
  rw [transportChecksumValid_congr hip h, recordChecksum_withFrameLength]
  generalize recordChecksum report (transportChecksumValid ipv4' 6 b n) .transportChecksum = checked
  rw [show (checked.withFrameLength m).withPayloadLength (n - tcpHeaderLen) =
    (checked.withPayloadLength (n - tcpHeaderLen)).withFrameLength m from rfl]
  have hdrop : SameWindow (a.drop tcpHeaderLen) (b.drop tcpHeaderLen)
      (checked.withPayloadLength (n - tcpHeaderLen)).payloadLength := h.drop tcpHeaderLen
  generalize checked.withPayloadLength (n - tcpHeaderLen) = r at hdrop
  have hhttp := parseHttp_congr hdrop n frameOffset tcpHeaderLen m
  by_cases hport : r.payloadLength > 0 ∧
      (r.sourcePort = 80 ∨ r.destinationPort = 80 ∨ r.sourcePort = 8080 ∨ r.destinationPort = 8080)
  · rw [if_pos hport, ← hhttp]
    exact if_pos hport
  · rw [if_neg hport]
    exact if_neg hport

theorem parseTcp_congr (h : SameWindow a b n) (frameOffset m : Nat) (report : Report) :
    parseTcp ipv4 a n frameOffset (report.withFrameLength m) =
      atLength m (parseTcp ipv4' b n frameOffset report) := by
  unfold parseTcp
  rw [addLayer_withFrameLength]
  by_cases hshort : n < tcpMinHeader
  · rw [if_pos hshort, if_pos hshort]
    rfl
  · have hhead : tcpMinHeader = 20 := rfl
    have hfields : (((addLayer report .tcp).withFrameLength m).withPorts a).withTcpFlags a =
        (((addLayer report .tcp).withPorts b).withTcpFlags b).withFrameLength m := by
      unfold Report.withPorts Report.withTcpFlags
      rw [h.readU16 (by omega), h.readU16 (by omega), h.getD (by omega)]
      rfl
    rw [if_neg hshort, if_neg hshort, hfields, h.getD (by omega)]
    dsimp only
    split
    · rfl
    · split
      · rfl
      · split
        · rfl
        · exact parseTcpPayload_congr hip h _ frameOffset m _

end Transport

theorem parseIpv4Payload_congr {headerLen totalLen : Nat} (h : SameWindow a b totalLen)
    (hmin : ipv4MinHeader ≤ headerLen) (hle : headerLen ≤ totalLen) (frameOffset m : Nat) (report : Report) :
    parseIpv4Payload a headerLen totalLen frameOffset (report.withFrameLength m) =
      atLength m (parseIpv4Payload b headerLen totalLen frameOffset report) := by
  have hhead : ipv4MinHeader = 20 := rfl
  have hip : SameWindow a b ipv4MinHeader := h.mono (by omega)
  have hpayload : SameWindow (a.drop headerLen) (b.drop headerLen) (totalLen - headerLen) := h.drop headerLen
  have hicmp := parseIcmp_congr hpayload (frameOffset + headerLen) m report
  have hudp := parseUdp_congr hip hpayload (frameOffset + headerLen) m report
  have htcp := parseTcp_congr hip hpayload (frameOffset + headerLen) m report
  unfold parseIpv4Payload
  dsimp only
  rw [h.readU16 (by omega), hicmp, hudp, htcp]
  simp only [apply_ite (atLength m)]
  rfl

end Windows

/-! ## More captured bytes -/

/-- An IPv4 frame with a complete header, whose declared total length was captured. -/
def DeclaredFits (frame : Bytes) : Prop :=
  ethernetHeader + ipv4MinHeader ≤ frame.length ∧ readU16 frame 12 = 0x0800 ∧
    ethernetHeader + (frame.getD 14 0 &&& 0x0f).toNat * 4 ≤ frame.length ∧
    ethernetHeader + (readU16 frame 16).toNat ≤ frame.length

instance (frame : Bytes) : Decidable (DeclaredFits frame) := inferInstanceAs (Decidable (_ ∧ _ ∧ _ ∧ _))

section Grow
variable {ipv4 ipv4' : Bytes} {available available' : Nat}

/-- Behind a total length that fits, more captured bytes are not looked at. -/
theorem parseIpv4_grow (hsame : SameWindow ipv4' ipv4 available) (hle : available ≤ available')
    (frameOffset m : Nat) (report : Report)
    (h : (parseIpv4 ipv4 available frameOffset report).1 ≠ .truncated ∨
      ipv4MinHeader ≤ available ∧ (ipv4.getD 0 0 &&& 0x0f).toNat * 4 ≤ available ∧
        (readU16 ipv4 2).toNat ≤ available) :
    parseIpv4 ipv4' available' frameOffset (report.withFrameLength m) =
      atLength m (parseIpv4 ipv4 available frameOffset report) := by
  have hhead : ipv4MinHeader = 20 := rfl
  by_cases hshort : available < ipv4MinHeader
  · unfold parseIpv4 at h
    rw [if_pos hshort] at h
    rcases h with h | h
    · exact absurd rfl h
    · omega
  have hfields : ((addLayer report .ipv4).withFrameLength m).withIpv4Fields ipv4' =
      ((addLayer report .ipv4).withIpv4Fields ipv4).withFrameLength m := by
    unfold Report.withIpv4Fields
    rw [hsame.getD (by omega), hsame.readU32 (by omega), hsame.readU32 (by omega)]
    rfl
  unfold parseIpv4 at h ⊢
  rw [if_neg hshort] at h ⊢
  rw [if_neg (by omega), addLayer_withFrameLength, hfields, hsame.getD (by omega), hsame.readU16 (by omega)]
  dsimp only at h ⊢
  generalize (ipv4.getD 0 0 &&& 0x0f).toNat * 4 = headerLen at h ⊢
  generalize (readU16 ipv4 2).toNat = totalLen at h ⊢
  by_cases hversion : ipv4.getD 0 0 >>> 4 ≠ 4
  · rw [if_pos hversion, if_pos hversion]
    rfl
  rw [if_neg hversion] at h ⊢
  rw [if_neg hversion]
  by_cases hmin : headerLen < ipv4MinHeader
  · rw [if_pos hmin, if_pos hmin]
    rfl
  rw [if_neg hmin] at h ⊢
  rw [if_neg hmin]
  by_cases hcut : headerLen > available
  · rw [if_pos hcut] at h
    rcases h with h | h
    · exact absurd rfl h
    · omega
  rw [if_neg hcut] at h ⊢
  rw [if_neg (by omega)]
  by_cases hbelow : totalLen < headerLen
  · rw [if_pos hbelow, if_pos hbelow]
    rfl
  rw [if_neg hbelow] at h ⊢
  rw [if_neg hbelow]
  by_cases hlong : totalLen > available
  · rw [if_pos hlong] at h
    rcases h with h | h
    · exact absurd rfl h
    · omega
  have hwindow : SameWindow ipv4' ipv4 headerLen := hsame.mono (by omega)
  rw [if_neg hlong, if_neg (by omega), checksumValid_congr hwindow, recordChecksum_withFrameLength]
  exact parseIpv4Payload_congr (hsame.mono (by omega)) (by omega) (by omega) frameOffset m _

theorem parseArp_grow {arp arp' : Bytes} (hsame : SameWindow arp' arp available) (hle : available ≤ available')
    (frameOffset m : Nat) (report : Report) (h : (parseArp arp available frameOffset report).1 ≠ .truncated) :
    parseArp arp' available' frameOffset (report.withFrameLength m) =
      atLength m (parseArp arp available frameOffset report) := by
  have hhead : arpFixedHeader = 8 := rfl
  by_cases hshort : available < arpFixedHeader
  · unfold parseArp at h
    rw [if_pos hshort] at h
    exact absurd rfl h
  unfold parseArp at h ⊢
  rw [if_neg hshort] at h ⊢
  rw [if_neg (by omega), addLayer_withFrameLength, hsame.readU16 (by omega), hsame.readU16 (by omega),
    hsame.readU16 (by omega), hsame.getD (by omega), hsame.getD (by omega)]
  dsimp only at h ⊢
  generalize (arp.getD 4 0).toNat + (arp.getD 5 0).toNat = addressBytes at h ⊢
  by_cases hhuge : addressBytes > (sizeMax - arpFixedHeader) / 2
  · rw [if_pos hhuge, if_pos hhuge]
    rfl
  rw [if_neg hhuge] at h ⊢
  rw [if_neg hhuge]
  by_cases hcut : arpFixedHeader + 2 * addressBytes > available
  · rw [if_pos hcut] at h
    exact absurd rfl h
  rw [if_neg hcut, if_neg (by omega), apply_ite (atLength m)]
  rfl

end Grow

/-- The frame length is all that changes. -/
theorem diagnoseFrame_grow (frame padding : Bytes)
    (h : (diagnoseFrame frame).1 ≠ .truncated ∨ DeclaredFits frame) :
    diagnoseFrame (frame ++ padding) = atLength (frame.length + padding.length) (diagnoseFrame frame) := by
  have hhead : ethernetHeader = 14 := rfl
  have hlen : (frame ++ padding).length = frame.length + padding.length := List.length_append
  have hsame : SameWindow (frame ++ padding) frame frame.length := sameWindow_append frame padding
  have hpacket := hsame.drop ethernetHeader
  by_cases hshort : frame.length < ethernetHeader
  · unfold diagnoseFrame at h
    rw [if_pos hshort] at h
    rcases h with h | ⟨h, -⟩
    · exact absurd rfl h
    · omega
  have hle : frame.length - ethernetHeader ≤ frame.length + padding.length - ethernetHeader := by omega
  have hstart : (Report.start (frame.length + padding.length)).withEthernetHeader (frame ++ padding) =
      ((Report.start frame.length).withEthernetHeader frame).withFrameLength (frame.length + padding.length) := by
    unfold Report.withEthernetHeader
    rw [hsame.readU16 (by omega)]
    rfl
  have htype : ((Report.start frame.length).withEthernetHeader frame).etherType = readU16 frame 12 := rfl
  unfold diagnoseFrame at h ⊢
  rw [if_neg hshort] at h ⊢
  rw [hlen, if_neg (by omega), hstart]
  generalize (Report.start frame.length).withEthernetHeader frame = report at htype h ⊢
  dsimp only at h ⊢
  rw [htype] at h
  rw [withFrameLength_etherType, htype]
  by_cases harp : readU16 frame 12 = 0x0806
  · rw [if_pos harp] at h ⊢
    rw [if_pos harp]
    apply parseArp_grow hpacket hle
    rcases h with h | ⟨-, hip, -⟩
    · exact h
    · rw [harp] at hip
      exact absurd hip (by decide)
  rw [if_neg harp] at h ⊢
  rw [if_neg harp]
  by_cases hip : readU16 frame 12 = 0x0800
  · rw [if_pos hip] at h ⊢
    rw [if_pos hip]
    apply parseIpv4_grow hpacket hle
    rcases h with h | ⟨hmin, -, hheader, htotal⟩
    · exact .inl h
    · refine .inr ⟨by omega, ?_, ?_⟩
      · rw [show (frame.drop ethernetHeader).getD 0 0 = frame.getD 14 0 from getD_drop frame 14 0 0]
        omega
      · have htotal' : readU16 (frame.drop ethernetHeader) 2 = readU16 frame 16 := readU16_drop frame 14 2
        rw [htotal']
        omega
  · rw [if_neg hip, if_neg hip]
    rfl

/-- **Main result.** Bytes behind a frame that is not cut short, or whose declared IPv4 length was captured, change
the frame length and nothing else. -/
theorem diagnoseFrame_padding (frame padding : Bytes)
    (h : (diagnoseFrame frame).1 ≠ .truncated ∨ DeclaredFits frame) :
    diagnoseFrame (frame ++ padding) =
      ((diagnoseFrame frame).1,
        { (diagnoseFrame frame).2 with frameLength := (diagnoseFrame frame).2.frameLength + padding.length }) := by
  have hself := diagnoseFrame_grow frame [] h
  rw [List.append_nil] at hself
  have hframe : (diagnoseFrame frame).2.frameLength = frame.length := by
    rw [hself]
    rfl
  rw [diagnoseFrame_grow frame padding h, hframe]
  rfl

/-- An IPv4 header with total length 20 and protocol 17: the missing UDP header stays missing behind padding. -/
def bareUdpFrame : Bytes := [0, 0, 0, 0, 0, 0, 0, 0, 0, 0, 0, 0, 8, 0,
  0x45, 0, 0, 20, 0, 0, 0, 0, 64, 17, 0, 0, 10, 0, 0, 1, 10, 0, 0, 2]

theorem diagnoseFrame_padding_bareUdp :
    DeclaredFits bareUdpFrame ∧ diagnoseFrame (bareUdpFrame ++ [0, 8, 0, 53, 0, 8, 0, 0]) =
      ((diagnoseFrame bareUdpFrame).1,
        { (diagnoseFrame bareUdpFrame).2 with frameLength := (diagnoseFrame bareUdpFrame).2.frameLength + 8 }) :=
  ⟨by decide, diagnoseFrame_padding bareUdpFrame [0, 8, 0, 53, 0, 8, 0, 0] (.inr (by decide))⟩

end TcpipCourse.L12
