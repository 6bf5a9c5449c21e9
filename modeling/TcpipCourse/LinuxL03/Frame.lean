import TcpipCourse.LinuxL03.MiniStack

/-!
# Linux lab 03: the frames

* `checksum_eq` : the lab's checksum is the one of lesson 03;
* `buildFrame_eq` : every chunk of a payload that fits is built, and what its frame is;
* `receiveSegment_frameOf` : the receiver's checks accept that frame, and find the chunk behind the header.
-/

namespace TcpipCourse.LinuxL03
open Lib

/-! ## The checksum -/

theorem finish_foldOnce (sum : UInt32) : finish (foldOnce sum) = finish sum := by
  apply UInt16.toNat_inj.mp
  rw [toNat_finish, toNat_finish, toNat_foldOnce, endAround_fold]

/-- The fold that `tcpip_linux_l03_checksum` leaves out is made by its last loop. -/
theorem finish_sumWords (bytes : Bytes) : ∀ sum : UInt32,
    finish (sumWords sum bytes) = finish (addBytes sum bytes) := by
  induction bytes using wordSum.induct with
  | case1 =>
    intro sum
    rfl
  | case2 a =>
    intro sum
    have hword : a.toUInt32 <<< 8 = (a.toUInt16 <<< 8).toUInt32 := by
      apply UInt32.toNat_inj.mp
      have ha := a.toNat_lt
      rw [UInt16.toNat_toUInt32, toNat_oddWord, UInt32.toNat_shiftLeft, UInt8.toNat_toUInt32]
      show a.toNat <<< 8 % 2 ^ 32 = a.toNat * 256
      rw [Nat.shiftLeft_eq]
      omega
    rw [sumWords, addBytes, addWord, finish_foldOnce, hword]
  | case3 a b rest ih =>
    intro sum
    exact ih (addWord sum (be16 a b))

theorem checksum_eq (bytes : Bytes) : checksum bytes = L03.checksum bytes := finish_sumWords bytes 0

/-! ## Chunks -/

section Frames
variable {scenario : Scenario} {chunkIndex : Nat}

theorem chunkCount_le (h : scenario.payload.length ≤ maxPayload) : chunkCount scenario ≤ maxChunks := by
  have h1 : maxPayload = 1024 := rfl
  have h2 : maxChunks = 4 := rfl
  unfold chunkCount chunkPayload
  omega

theorem chunkLength_eq (scenario : Scenario) (chunkIndex : Nat) :
    chunkLength scenario chunkIndex = min (scenario.payload.length - chunkIndex * chunkPayload) chunkPayload := by
  unfold chunkLength
  dsimp only
  split <;> omega

theorem chunk_spec (h : chunkIndex < chunkCount scenario) :
    chunkIndex * chunkPayload + chunkLength scenario chunkIndex ≤ scenario.payload.length ∧
      1 ≤ chunkLength scenario chunkIndex ∧ chunkLength scenario chunkIndex ≤ chunkPayload := by
  rw [chunkLength_eq]
  unfold chunkCount at h
  unfold chunkPayload at h ⊢
  omega

theorem length_chunkBytes (h : chunkIndex < chunkCount scenario) :
    (chunkBytes scenario chunkIndex).length = chunkLength scenario chunkIndex :=
  length_slice (chunk_spec h).1

/-! ## Building -/

theorem segmentFields_valid (scenario : Scenario) (chunkIndex : Nat) :
    (segmentFields scenario chunkIndex).Valid where
  source := by simp [segmentFields]
  destination := by simp [segmentFields]
  options_le := Nat.zero_le _
  options_aligned := rfl
  flags_le := by
    show L06.flagAck ||| L06.flagPsh ≤ 0x01ff
    decide

theorem ipv4Fields_valid (scenario : Scenario) (chunkIndex : Nat) : (ipv4Fields scenario chunkIndex).Valid where
  options_le := Nat.zero_le _
  options_aligned := rfl
  reserved := by
    show (0x4000 : UInt16) &&& 0x8000 = 0
    decide

def segmentOf (scenario : Scenario) (chunkIndex : Nat) : Bytes :=
  let fields := segmentFields scenario chunkIndex
  let chunk := chunkBytes scenario chunkIndex
  L06.segmentBytes fields chunk
    (L06.checksumUnchecked fields.sourceIpv4 fields.destinationIpv4 (L06.segmentBytes fields chunk 0))

/-- The IPv4 header of a chunk, with the total length of the packet. -/
def headerOf (scenario : Scenario) (chunkIndex : Nat) : Bytes :=
  let fields := ipv4Fields scenario chunkIndex
  let totalLength := UInt16.ofNat (ipv4HeaderLength + (segmentOf scenario chunkIndex).length)
  L03.headerBytes fields totalLength (L03.checksum (L03.headerBytes fields totalLength 0))

def frameOf (scenario : Scenario) (chunkIndex : Nat) : Bytes :=
  ethernetHeader ++ headerOf scenario chunkIndex ++ segmentOf scenario chunkIndex

theorem length_segmentOf (h : chunkIndex < chunkCount scenario) :
    (segmentOf scenario chunkIndex).length = 20 + chunkLength scenario chunkIndex := by
  unfold segmentOf
  rw [L06.length_segmentBytes, length_chunkBytes h]
  rfl

theorem length_headerOf (scenario : Scenario) (chunkIndex : Nat) :
    (headerOf scenario chunkIndex).length = ipv4HeaderLength := L03.length_headerBytes _ _ _

theorem length_frameOf (h : chunkIndex < chunkCount scenario) :
    (frameOf scenario chunkIndex).length = 54 + chunkLength scenario chunkIndex := by
  have h1 : ethernetHeader.length = 14 := rfl
  have h2 : ipv4HeaderLength = 20 := rfl
  unfold frameOf
  rw [List.length_append, List.length_append, length_headerOf, length_segmentOf h]
  omega

theorem length_frameOf_le (h : chunkIndex < chunkCount scenario) :
    (frameOf scenario chunkIndex).length ≤ maxFrame := by
  have h1 := (chunk_spec h).2.2
  have h2 : maxFrame = 54 + chunkPayload := rfl
  rw [length_frameOf h]
  omega

theorem patchHeader_eq (fields : L03.HeaderFields) (totalLength sum : UInt16) (ipv4Length : Nat) :
    patchHeader (L03.headerBytes fields totalLength sum) ipv4Length =
      L03.headerBytes fields (UInt16.ofNat ipv4Length)
        (L03.checksum (L03.headerBytes fields (UInt16.ofNat ipv4Length) 0)) := by
  unfold patchHeader
  dsimp only
  rw [L03.overwrite_totalLength, show ([0, 0] : Bytes) = be16Bytes 0 by decide, L03.overwrite_checksum, checksum_eq,
    L03.overwrite_checksum]

/-- The packet of a chunk is accepted, with the segment as its payload. -/
theorem parseIpv4_packet (h : chunkIndex < chunkCount scenario) :
    ∃ parsed, L03.parseIpv4 (headerOf scenario chunkIndex ++ segmentOf scenario chunkIndex) = .ok parsed ∧
      parsed.payloadOffset = ipv4HeaderLength ∧
      parsed.payloadLength = (segmentOf scenario chunkIndex).length ∧ parsed.flagsFragment = 0x4000 := by
  have hlen := length_segmentOf h
  have hle := (chunk_spec h).2.2
  have h1 : chunkPayload = 256 := rfl
  have h2 : ipv4HeaderLength = 20 := rfl
  have h3 : (ipv4Fields scenario chunkIndex).headerLength = 20 := rfl
  have htotal : (UInt16.ofNat (ipv4HeaderLength + (segmentOf scenario chunkIndex).length)).toNat =
      ipv4HeaderLength + (segmentOf scenario chunkIndex).length :=
    toNat_length16 (by show _ ≤ 65535; omega)
  have hparse := @L03.parseIpv4_headerBytes _ (ipv4Fields_valid scenario chunkIndex) _ (segmentOf scenario chunkIndex)
    (by rw [htotal]; omega) (by rw [htotal]; omega)
  refine ⟨_, hparse, rfl, ?_, rfl⟩
  dsimp only
  rw [htotal, h3]
  omega

theorem buildFrame_eq (h : chunkIndex < chunkCount scenario) :
    buildFrame scenario chunkIndex = .ok (frameOf scenario chunkIndex) := by
  obtain ⟨-, -, hle⟩ := chunk_spec h
  have hchunk := length_chunkBytes h
  have h1 : chunkPayload = 256 := rfl
  have h2 : uint16Max = 65535 := rfl
  have h3 : (segmentFields scenario chunkIndex).headerLength = 20 := rfl
  have h4 : maxFrame - ethernetHeaderLength - ipv4HeaderLength = 276 := rfl
  have hsegment : L06.buildSegment (segmentFields scenario chunkIndex) (chunkBytes scenario chunkIndex)
      (maxFrame - ethernetHeaderLength - ipv4HeaderLength) = .ok (segmentOf scenario chunkIndex) :=
    L06.buildSegment_eq (segmentFields_valid scenario chunkIndex) (by omega) (by omega)
  have hheader := @L03.buildHeader_eq _ (ipv4Fields_valid scenario chunkIndex) ipv4HeaderLength (Nat.le_refl 20)
  obtain ⟨parsed, hparse, -, hpayload, -⟩ := parseIpv4_packet h
  unfold buildFrame
  simp only [hsegment, hheader]
  rw [if_neg (by rw [L03.length_headerBytes]; exact not_not.mpr rfl), patchHeader_eq]
  unfold headerOf at hparse
  simp only [hparse]
  rw [if_neg (not_not.mpr hpayload)]
  rfl

/-! ## Receiving -/

theorem parseSegment_segmentOf (h : chunkIndex < chunkCount scenario) :
    ∃ tcp, L06.parseSegment (segmentOf scenario chunkIndex) = .ok tcp ∧
      tcp.sequenceNumber = scenario.senderInitialSeq + UInt32.ofNat (chunkIndex * chunkPayload) ∧
      tcp.payloadLength = chunkLength scenario chunkIndex ∧
      slice (segmentOf scenario chunkIndex) tcp.payloadOffset tcp.payloadLength = chunkBytes scenario chunkIndex := by
  have hsegment := L06.parseSegment_segmentBytes (segmentFields_valid scenario chunkIndex)
    (chunkBytes scenario chunkIndex) (L06.checksumUnchecked scenario.sourceIpv4.toList
      scenario.destinationIpv4.toList (L06.segmentBytes (segmentFields scenario chunkIndex)
        (chunkBytes scenario chunkIndex) 0))
  exact ⟨_, hsegment, rfl, length_chunkBytes h, L06.slice_segmentBytes _ _ _⟩

theorem ipv4Checksum_segmentOf (h : chunkIndex < chunkCount scenario) :
    L06.ipv4Checksum scenario.sourceIpv4.toList scenario.destinationIpv4.toList
      (segmentOf scenario chunkIndex) = .ok 0 := by
  have hle := (chunk_spec h).2.2
  have hlen := length_segmentOf h
  have h1 : chunkPayload = 256 := rfl
  have h2 : uint16Max = 65535 := rfl
  unfold L06.ipv4Checksum
  rw [if_neg (by simp [L06.validIpv4Span]), if_neg (by omega)]
  exact congrArg Except.ok (L06.checksum_segmentBytes _ _ _ _)

theorem drop_frameOf (scenario : Scenario) (chunkIndex : Nat) :
    (frameOf scenario chunkIndex).drop ethernetHeaderLength =
      headerOf scenario chunkIndex ++ segmentOf scenario chunkIndex := by
  have hlen : ethernetHeader.length = ethernetHeaderLength := rfl
  unfold frameOf
  rw [List.append_assoc, ← hlen, List.drop_left]

theorem slice_packet {parsed : L03.Ipv4Packet} (hoffset : parsed.payloadOffset = ipv4HeaderLength)
    (hlength : parsed.payloadLength = (segmentOf scenario chunkIndex).length) :
    slice (headerOf scenario chunkIndex ++ segmentOf scenario chunkIndex) parsed.payloadOffset
      parsed.payloadLength = segmentOf scenario chunkIndex := by
  rw [hoffset, hlength, slice, ← length_headerOf scenario chunkIndex, List.drop_left, List.take_length]

/-- The receiver finds the sequence number and the bytes of the chunk. -/
theorem receiveSegment_frameOf (h : chunkIndex < chunkCount scenario) :
    ∃ tcp, receiveSegment scenario (frameOf scenario chunkIndex) = some (tcp, segmentOf scenario chunkIndex) ∧
      tcp.sequenceNumber = scenario.senderInitialSeq + UInt32.ofNat (chunkIndex * chunkPayload) ∧
      tcp.payloadLength = chunkLength scenario chunkIndex ∧
      slice (segmentOf scenario chunkIndex) tcp.payloadOffset tcp.payloadLength = chunkBytes scenario chunkIndex := by
  obtain ⟨parsed, hparse, hoffset, hlength, -⟩ := parseIpv4_packet h
  obtain ⟨tcp, hsegment, hfields⟩ := parseSegment_segmentOf h
  refine ⟨tcp, ?_, hfields⟩
  unfold receiveSegment
  simp only [drop_frameOf, hparse, slice_packet hoffset hlength, hsegment, ipv4Checksum_segmentOf h]
  rfl

end Frames

end TcpipCourse.LinuxL03
