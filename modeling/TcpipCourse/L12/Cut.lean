import TcpipCourse.L12.Agree
import TcpipCourse.L12.Invariant

/-!
# Lesson 12: a capture that was cut

* `CutAt` : the diagnoser says that the frame is cut, where it is, and nothing else;
* `parseIpv4_cut`, `parseArp_cut` : a packet that is cut below its declared length;
* `parseArp_fits` : one that is not;
* `cut_diagnosed` : the two cases of a frame that was fine before it was cut.
-/

namespace TcpipCourse.L12
open Lib

/-- The capture ends at `m`: that is all that is reported of it. -/
structure CutAt (m : Nat) (result : Status × Report) : Prop where
  status : result.1 = .truncated
  diagnostics : result.2.diagnostics = Diagnostic.truncated.bit
  parsed : result.2.parsedLength = m
  checked : result.2.checksumsChecked = 0

theorem truncated_cutAt {report : Report} (hclean : report.diagnostics = 0) (hchecked : report.checksumsChecked = 0)
    (m : Nat) : CutAt m (truncated report m) where
  status := rfl
  diagnostics := by
    show report.diagnostics ||| _ = _
    rw [hclean]
    decide
  parsed := rfl
  checked := hchecked

theorem getD_take {l : Bytes} {i n : Nat} (hi : i < n) : (l.take n).getD i 0 = l.getD i 0 :=
  getD_eq_of_take_eq (by rw [List.take_take, Nat.min_self]) hi 0

theorem readU16_take {l : Bytes} {i n : Nat} (hi : i + 1 < n) : readU16 (l.take n) i = readU16 l i := by
  unfold readU16
  rw [getD_take (by omega), getD_take hi]

/-! ## The packets -/

section Packet
variable (frameOffset : Nat) (report : Report)

/-- A packet that is accepted has the structure of one. -/
theorem parseIpv4_stops {packet : Bytes} (h : ¬ L03.Structural packet) :
    (parseIpv4 packet packet.length frameOffset report).1 = .truncated ∨
      (parseIpv4 packet packet.length frameOffset report).1 = .malformed := by
  have hhead : ipv4MinHeader = L03.minHeaderLength := rfl
  have hwords : (packet.getD 0 0 &&& 0x0f).toNat * 4 = L03.ihlBytes packet := rfl
  have htwo : L03.readBe16 packet 2 = readU16 packet 2 := rfl
  unfold L03.Structural at h
  rw [htwo] at h
  unfold parseIpv4
  dsimp only
  rw [hwords, hhead]
  split
  · exact .inl rfl
  · split
    · exact .inr rfl
    · next hversion =>
      split
      · exact .inr rfl
      · split
        · exact .inl rfl
        · split
          · exact .inr rfl
          · split
            · exact .inl rfl
            · exact absurd ⟨by omega, not_not.mp hversion, by omega, by omega, by omega⟩ h

theorem parseIpv4_cut {packet : Bytes} (h : L03.Structural packet) {n : Nat} (hn : n < (readU16 packet 2).toNat) :
    parseIpv4 (packet.take n) n frameOffset report = truncated (addLayer report .ipv4) (frameOffset + n) := by
  obtain ⟨hlen, hversion, hmin, htotal, hfit⟩ := h
  have hhead : ipv4MinHeader = 20 := rfl
  have hhead' : L03.minHeaderLength = 20 := rfl
  have hwords : (packet.getD 0 0 &&& 0x0f).toNat * 4 = L03.ihlBytes packet := rfl
  have htwo : L03.readBe16 packet 2 = readU16 packet 2 := rfl
  rw [htwo] at htotal
  unfold parseIpv4
  dsimp only
  by_cases hshort : n < ipv4MinHeader
  · rw [if_pos hshort]
  · rw [if_neg hshort, getD_take (by omega), readU16_take (by omega), hwords, if_neg (not_not.mpr hversion),
      if_neg (by omega)]
    by_cases hcut : L03.ihlBytes packet > n
    · rw [if_pos hcut]
    · rw [if_neg hcut, if_neg (by omega), if_pos (by omega)]

/-- The length of an ARP packet, by its two address lengths. -/
def arpLength (arp : Bytes) : Nat := arpFixedHeader + 2 * ((arp.getD 4 0).toNat + (arp.getD 5 0).toNat)

theorem parseArp_cut {arp : Bytes} {report' : Report} (h : (parseArp arp arp.length frameOffset report').1 = .ok)
    {n : Nat} (hn : n < arpLength arp) :
    ∃ cut : Report, parseArp (arp.take n) n frameOffset report = truncated cut (frameOffset + n) ∧
      cut.diagnostics = (addLayer report .arp).diagnostics ∧
      cut.checksumsChecked = (addLayer report .arp).checksumsChecked := by
  have hhead : arpFixedHeader = 8 := rfl
  unfold arpLength at hn
  unfold parseArp at h ⊢
  dsimp only at h ⊢
  by_cases hshort : n < arpFixedHeader
  · rw [if_pos hshort]
    exact ⟨_, rfl, rfl, rfl⟩
  · have hhuge : ¬ (arp.getD 4 0).toNat + (arp.getD 5 0).toNat > (sizeMax - arpFixedHeader) / 2 := by
      intro hhuge
      split at h
      · cases h
      · cases h
    rw [if_neg hshort, getD_take (by omega), getD_take (by omega), if_neg hhuge, if_pos (by omega)]
    exact ⟨_, rfl, rfl, rfl⟩

theorem parseArp_fits {arp : Bytes} {n : Nat} (hn : arpLength arp ≤ n) :
    (parseArp arp n frameOffset report).1 ≠ .truncated := by
  have hhead : arpFixedHeader = 8 := rfl
  unfold arpLength at hn
  unfold parseArp
  dsimp only
  rw [if_neg (by omega)]
  split
  · nofun
  · rw [if_neg (by omega)]
    split
    · nofun
    · nofun

end Packet

/-! ## The frame -/

section Frame
variable {frame : Bytes}

/-- A cut inside of the Ethernet header. -/
theorem cut_header {m : Nat} (hlen : m ≤ frame.length) (hm : m < ethernetHeader) :
    CutAt m (diagnoseFrame (frame.take m)) := by
  have htake : (frame.take m).length = m := List.length_take_of_le hlen
  unfold diagnoseFrame
  dsimp only
  rw [htake, if_pos hm]
  exact truncated_cutAt rfl rfl m

theorem diagnoseFrame_take {m : Nat} (hlen : m ≤ frame.length) (hm : ethernetHeader ≤ m) :
    let n := m - ethernetHeader
    let packet := (frame.drop ethernetHeader).take n
    let report := (Report.start m).withEthernetHeader frame
    diagnoseFrame (frame.take m) =
      if readU16 frame 12 = 0x0806 then parseArp packet n ethernetHeader report
      else if readU16 frame 12 = 0x0800 then parseIpv4 packet n ethernetHeader report
      else (.ok, report.raise .unsupported) := by
  intro n packet report
  have h14 : ethernetHeader = 14 := rfl
  have htake : (frame.take m).length = m := List.length_take_of_le hlen
  have htype : readU16 (frame.take m) 12 = readU16 frame 12 := readU16_take (by omega)
  have hpacket : (frame.take m).drop ethernetHeader = packet := List.drop_take ..
  have hn : packet.length = n := by
    rw [List.length_take, List.length_drop]
    omega
  have hreport : (Report.start m).withEthernetHeader (frame.take m) = report := by
    unfold Report.withEthernetHeader
    rw [htype]
    rfl
  rw [diagnoseFrame_eq (by omega), htype, htake, hpacket, hn, hreport]

variable (h : (diagnoseFrame frame).1 = .ok)
include h

theorem length_of_ok : ethernetHeader ≤ frame.length := by
  by_contra hshort
  unfold diagnoseFrame at h
  dsimp only at h
  rw [if_pos (by omega)] at h
  cases h

theorem parsedLength_of_ok :
    (diagnoseFrame frame).2.parsedLength =
      if readU16 frame 12 = 0x0806 then ethernetHeader + arpLength (frame.drop ethernetHeader)
      else if readU16 frame 12 = 0x0800 then ethernetHeader + (readU16 (frame.drop ethernetHeader) 2).toNat
      else ethernetHeader := by
  have hlen := length_of_ok h
  have hstart : Running frame.length [.ethernet] 0 ((Report.start frame.length).withEthernetHeader frame) :=
    { start_running frame.length with }
  have hin : ethernetHeader + (frame.drop ethernetHeader).length ≤ frame.length := by
    rw [List.length_drop]
    omega
  rw [diagnoseFrame_eq hlen] at h ⊢
  split
  · next harp =>
    rw [if_pos harp] at h
    exact (parseArp_ends hstart _ hin).ok_parsed h
  · next harp =>
    rw [if_neg harp] at h
    split
    · next hip =>
      rw [if_pos hip] at h
      exact (parseIpv4_ends hstart _ hin).ok_parsed h
    · rfl

theorem cut_below {m : Nat} (hm : m < (diagnoseFrame frame).2.parsedLength) (hlen : m ≤ frame.length) :
    CutAt m (diagnoseFrame (frame.take m)) := by
  by_cases hshort : m < ethernetHeader
  · exact cut_header hlen hshort
  · rw [parsedLength_of_ok h] at hm
    rw [diagnoseFrame_take hlen (by omega)]
    rw [diagnoseFrame_eq (length_of_ok h)] at h
    have hend : ethernetHeader + (m - ethernetHeader) = m := by omega
    split
    · next harp =>
      rw [if_pos harp] at h hm
      obtain ⟨cut, hparse, hclean, hchecked⟩ :=
        parseArp_cut ethernetHeader ((Report.start m).withEthernetHeader frame) h (show m - ethernetHeader < _ by omega)
      rw [hparse, hend]
      exact truncated_cutAt hclean hchecked m
    · next harp =>
      rw [if_neg harp] at h hm
      split
      · next hip =>
        rw [if_pos hip] at h hm
        have hstruct : L03.Structural (frame.drop ethernetHeader) := by
          by_contra hbad
          rcases parseIpv4_stops _ _ hbad with hstop | hstop <;> cases hstop.symm.trans h
        rw [parseIpv4_cut _ _ hstruct (by omega), hend]
        exact truncated_cutAt rfl rfl m
      · next hip =>
        rw [if_neg hip] at hm
        exact absurd hm hshort

theorem cut_behind {m : Nat} (hm : (diagnoseFrame frame).2.parsedLength ≤ m) (hlen : m ≤ frame.length) :
    diagnoseFrame (frame.take m) = atLength m (diagnoseFrame frame) := by
  have h14 : ethernetHeader = 14 := rfl
  have htake : (frame.take m).length = m := List.length_take_of_le hlen
  have hfits : (diagnoseFrame (frame.take m)).1 ≠ .truncated ∨ DeclaredFits (frame.take m) := by
    rw [parsedLength_of_ok h] at hm
    rw [diagnoseFrame_eq (length_of_ok h)] at h
    by_cases harp : readU16 frame 12 = 0x0806
    · have h8 : arpFixedHeader = 8 := rfl
      rw [if_pos harp] at hm
      have hroom : arpFixedHeader ≤ arpLength (frame.drop ethernetHeader) := Nat.le_add_right _ _
      have hsame : arpLength ((frame.drop ethernetHeader).take (m - ethernetHeader)) =
          arpLength (frame.drop ethernetHeader) := by
        unfold arpLength
        rw [getD_take (by omega), getD_take (by omega)]
      rw [diagnoseFrame_take hlen (by omega), if_pos harp]
      exact .inl (parseArp_fits _ _ (by omega))
    · rw [if_neg harp] at h hm
      by_cases hip : readU16 frame 12 = 0x0800
      · rw [if_pos hip] at h hm
        obtain ⟨-, -, hmin, htotal, -⟩ : L03.Structural (frame.drop ethernetHeader) := by
          by_contra hbad
          rcases parseIpv4_stops _ _ hbad with hstop | hstop <;> cases hstop.symm.trans h
        have h20 : L03.minHeaderLength = 20 := rfl
        have hhead : ipv4MinHeader = 20 := rfl
        have htwo : L03.readBe16 (frame.drop ethernetHeader) 2 = readU16 frame 16 := readU16_drop frame 14 2
        have htwo' : readU16 (frame.drop ethernetHeader) 2 = readU16 frame 16 := readU16_drop frame 14 2
        have hihl : L03.ihlBytes (frame.drop ethernetHeader) = (frame.getD 14 0 &&& 0x0f).toNat * 4 := by
          unfold L03.ihlBytes
          rw [getD_drop, h14]
        rw [htwo, hihl] at htotal
        rw [hihl] at hmin
        rw [htwo'] at hm
        refine .inr ⟨by omega, ?_, ?_, ?_⟩
        · rw [readU16_take (by omega), hip]
        · rw [getD_take (by omega)]
          omega
        · rw [readU16_take (by omega)]
          omega
      · rw [if_neg hip] at hm
        rw [diagnoseFrame_take hlen hm, if_neg harp, if_neg hip]
        exact .inl nofun
  obtain ⟨last, hends, -⟩ := diagnoseFrame_ends (frame.take m)
  have hself : atLength (diagnoseFrame (frame.take m)).2.frameLength (diagnoseFrame (frame.take m)) =
      diagnoseFrame (frame.take m) := rfl
  rw [hends.frame, htake] at hself
  have hgrow := diagnoseFrame_grow (frame.take m) (frame.drop m) hfits
  rw [List.take_append_drop] at hgrow
  rw [hgrow]
  exact hself.symm

end Frame

/-- **Main result.** A frame that the diagnoser accepts was parsed up to some position. Cut below it, the frame is
`TRUNCATED`, whatever it holds: the report ends at the cut, with no other diagnostic and no checksum. Cut at it or
behind, it is reported as before, with its new length. -/
theorem cut_diagnosed {frame : Bytes} (h : (diagnoseFrame frame).1 = .ok) {m : Nat} (hlen : m ≤ frame.length) :
    (m < (diagnoseFrame frame).2.parsedLength → CutAt m (diagnoseFrame (frame.take m))) ∧
    ((diagnoseFrame frame).2.parsedLength ≤ m →
      diagnoseFrame (frame.take m) = (.ok, { (diagnoseFrame frame).2 with frameLength := m })) := by
  refine ⟨fun hm => cut_below h hm hlen, fun hm => ?_⟩
  rw [cut_behind h hm hlen, ← h]
  rfl

/-- The empty datagram, without its last byte, and without its padding. -/
theorem cut_diagnosed_emptyUdp : CutAt 41 (diagnoseFrame (emptyUdpFrame.take 41)) ∧
    (diagnoseFrame (emptyUdpFrame.take 42)).2.frameLength = 42 := by
  have hok : (diagnoseFrame emptyUdpFrame).1 = .ok ∧ (diagnoseFrame emptyUdpFrame).2.parsedLength = 42 := by
    decide +kernel
  obtain ⟨hbelow, -⟩ := @cut_diagnosed emptyUdpFrame hok.1 41 (by decide)
  obtain ⟨-, hbehind⟩ := @cut_diagnosed emptyUdpFrame hok.1 42 (by decide)
  refine ⟨hbelow (by rw [hok.2]; decide), ?_⟩
  rw [hbehind (by rw [hok.2])]

end TcpipCourse.L12
