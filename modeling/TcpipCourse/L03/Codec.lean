import TcpipCourse.L03.Ipv4

/-!
# Lesson 03: building and parsing a header are inverse

* `readHeader` : the record that an accepted packet is read into; `parseIpv4_eq_ok_iff` : when it is;
* `Ipv4Packet.toFields` : the builder's arguments that a parsed packet stands for;
* `headerBytes_of_parseIpv4` : an accepted header is the layout of its own fields;
* `ipv4Header_inverse` : build then parse, and parse then build.
-/

namespace TcpipCourse.L03
open Lib

/-! ## What is read -/

/-- The record that an accepted packet is read into. -/
def readHeader (packet : Bytes) : Ipv4Packet where
  version := packet.getD 0 0 >>> 4
  ihl := packet.getD 0 0 &&& 0x0f
  dscpEcn := packet.getD 1 0
  totalLength := readBe16 packet 2
  identification := readBe16 packet 4
  flagsFragment := readBe16 packet 6
  ttl := packet.getD 8 0
  protocol := packet.getD 9 0
  headerChecksum := readBe16 packet 10
  source := readAddress packet 12
  destination := readAddress packet 16
  optionsOffset := minHeaderLength
  optionsLength := ihlBytes packet - minHeaderLength
  payloadOffset := ihlBytes packet
  payloadLength := (readBe16 packet 2).toNat - ihlBytes packet

theorem eq_readHeader {packet : Bytes} {parsed : Ipv4Packet} (h : parseIpv4 packet = .ok parsed) :
    parsed = readHeader packet := by
  unfold parseIpv4 at h
  dsimp only at h
  repeat' split at h
  all_goals cases h
  rfl

theorem parseIpv4_eq_ok_iff {packet : Bytes} {parsed : Ipv4Packet} :
    parseIpv4 packet = .ok parsed ↔ Structural packet ∧ readBe16 packet 6 &&& 0x8000 = 0 ∧
      checksum (packet.take (ihlBytes packet)) = 0 ∧ parsed = readHeader packet := by
  constructor
  · intro h
    obtain ⟨hs, hr, hc⟩ := (parseIpv4_ok_iff packet).mp ⟨parsed, h⟩
    exact ⟨hs, hr, hc, eq_readHeader h⟩
  · rintro ⟨hs, hr, hc, rfl⟩
    obtain ⟨parsed, h⟩ := (parseIpv4_ok_iff packet).mpr ⟨hs, hr, hc⟩
    rw [h, eq_readHeader h]

/-- The fields and the options span of a parsed packet, as arguments of the builder. -/
def Ipv4Packet.toFields (parsed : Ipv4Packet) (packet : Bytes) : HeaderFields where
  dscpEcn := parsed.dscpEcn
  identification := parsed.identification
  flagsFragment := parsed.flagsFragment
  ttl := parsed.ttl
  protocol := parsed.protocol
  source := parsed.source
  destination := parsed.destination
  options := slice packet parsed.optionsOffset parsed.optionsLength

/-! ## Parse, then build -/

theorem versionIhl_rebuilt {b : UInt8} (hversion : b >>> 4 = 4) :
    ((4 : UInt8) <<< 4) ||| UInt8.ofNat ((b &&& 0x0f).toNat * 4 / 4) = b := by
  have hall : ∀ n : Fin 256, UInt8.ofNat n.val >>> 4 = 4 →
      ((4 : UInt8) <<< 4) ||| UInt8.ofNat ((UInt8.ofNat n.val &&& 0x0f).toNat * 4 / 4) = UInt8.ofNat n.val := by
    decide +kernel
  have h := hall ⟨b.toNat, b.toNat_lt⟩
  rw [UInt8.ofNat_toNat] at h
  exact h hversion

theorem toList_readAddress {packet : Bytes} {offset : Nat} (h : offset + 4 ≤ packet.length) :
    (readAddress packet offset).toList = slice packet offset 4 := by
  rw [slice_succ (by omega) 3 0, slice_succ (by omega) 2 0, slice_succ (by omega) 1 0, slice_succ (by omega) 0 0]
  rfl

section Accepted
variable {packet : Bytes} {parsed : Ipv4Packet}

theorem toFields_headerLength (h : parseIpv4 packet = .ok parsed) :
    (parsed.toFields packet).headerLength = parsed.payloadOffset := by
  obtain ⟨⟨-, -, hmin, htotal, hfit⟩, -, -, rfl⟩ := parseIpv4_eq_ok_iff.mp h
  have hlen : (slice packet 20 (ihlBytes packet - 20)).length = ihlBytes packet - 20 := by
    apply length_slice
    have : minHeaderLength = 20 := rfl
    omega
  show 20 + (slice packet 20 (ihlBytes packet - 20)).length = ihlBytes packet
  have : minHeaderLength = 20 := rfl
  omega

theorem toFields_valid (h : parseIpv4 packet = .ok parsed) : (parsed.toFields packet).Valid := by
  have hlength := toFields_headerLength h
  obtain ⟨-, hreserved, -, rfl⟩ := parseIpv4_eq_ok_iff.mp h
  have hmax := ihlBytes_le packet
  have hihl : ihlBytes packet % 4 = 0 := Nat.mul_mod_left _ _
  have hheader : 20 + ((readHeader packet).toFields packet).options.length = ihlBytes packet := hlength
  refine ⟨?_, by omega, hreserved⟩
  show _ ≤ 40
  unfold maxHeaderLength at hmax
  omega

/-- **Nothing is lost.** An accepted header is the layout of its own fields, total length and checksum. -/
theorem headerBytes_of_parseIpv4 (h : parseIpv4 packet = .ok parsed) :
    headerBytes (parsed.toFields packet) parsed.totalLength parsed.headerChecksum =
      packet.take parsed.payloadOffset := by
  have hlength := toFields_headerLength h
  obtain ⟨⟨-, hversion, hmin, htotal, hfit⟩, -, -, rfl⟩ := parseIpv4_eq_ok_iff.mp h
  have h20 : minHeaderLength = 20 := rfl
  have hfirst : ((4 : UInt8) <<< 4) ||| UInt8.ofNat (ihlBytes packet / 4) = packet.getD 0 0 :=
    versionIhl_rebuilt hversion
  have hhead : [packet.getD 0 0, packet.getD 1 0] = slice packet 0 2 := by
    rw [slice_succ (by omega) 1 0, slice_succ (by omega) 0 0]
    rfl
  have httl : [packet.getD 8 0, packet.getD 9 0] = slice packet 8 2 := by
    rw [slice_succ (by omega) 1 0, slice_succ (by omega) 0 0]
    rfl
  calc headerBytes ((readHeader packet).toFields packet) (readBe16 packet 2) (readBe16 packet 10)
      = slice packet 0 2 ++ slice packet 2 2 ++ slice packet 4 2 ++ slice packet 6 2 ++ slice packet 8 2 ++
          slice packet 10 2 ++ slice packet 12 4 ++ slice packet 16 4 ++
          slice packet 20 (ihlBytes packet - 20) := by
        rw [← hhead, ← httl, ← hfirst, ← be16Bytes_getD (by omega), ← be16Bytes_getD (by omega),
          ← be16Bytes_getD (by omega), ← be16Bytes_getD (by omega), ← toList_readAddress (by omega),
          ← toList_readAddress (by omega)]
        unfold headerBytes
        rw [hlength]
        rfl
    _ = slice packet 0 (ihlBytes packet) := by
        simp (disch := omega) only [slice_append_slice, Nat.reduceAdd]
        exact congrArg (slice packet 0) (by omega)
    _ = packet.take (ihlBytes packet) := rfl

/-- Total length and checksum are bytes 2, 3, 10 and 11, and no other byte depends on them. -/
theorem getD_headerBytes (fields : HeaderFields) (t t' c c' : UInt16) {i : Nat} (h2 : i ≠ 2) (h3 : i ≠ 3)
    (h10 : i ≠ 10) (h11 : i ≠ 11) :
    (headerBytes fields t c).getD i 0 = (headerBytes fields t' c').getD i 0 := by
  have hlength : fields.headerLength = 20 + fields.options.length := rfl
  rw [← overwrite_checksum fields t c' c, ← overwrite_totalLength fields t' t c',
    getD_overwrite (by simp; omega), if_neg (by simp; omega), getD_overwrite (by simp; omega),
    if_neg (by simp; omega)]

/-- Parse, then build: every header byte but those of the total length and the checksum comes back. -/
theorem buildHeader_of_parseIpv4 (h : parseIpv4 packet = .ok parsed) {destinationCapacity : Nat}
    (hcap : parsed.payloadOffset ≤ destinationCapacity) :
    ∃ header, buildHeader (parsed.toFields packet) destinationCapacity = .ok header ∧
      header.length = parsed.payloadOffset ∧
      ∀ i, i < parsed.payloadOffset → i ≠ 2 → i ≠ 3 → i ≠ 10 → i ≠ 11 → header.getD i 0 = packet.getD i 0 := by
  have hlength := toFields_headerLength h
  refine ⟨_, buildHeader_eq (toFields_valid h) (by rw [hlength]; exact hcap), ?_, ?_⟩
  · rw [length_headerBytes, hlength]
  · intro i hi h2 h3 h10 h11
    rw [getD_headerBytes _ _ parsed.totalLength _ parsed.headerChecksum h2 h3 h10 h11, headerBytes_of_parseIpv4 h,
      List.getD_eq_getElem?_getD, List.getElem?_take_of_lt hi, List.getD_eq_getElem?_getD]

end Accepted

/-! ## Build, then parse -/

theorem slice_options_headerBytes (fields : HeaderFields) (totalLength checksum : UInt16) (rest : Bytes) :
    slice (headerBytes fields totalLength checksum ++ rest) minHeaderLength fields.options.length =
      fields.options := by
  have hsplit : headerBytes fields totalLength checksum ++ rest =
      (beforeChecksum fields totalLength ++ be16Bytes checksum ++ fields.source.toList ++
        fields.destination.toList) ++ (fields.options ++ rest) := by
    simp only [headerBytes_split, List.append_assoc]
  have hfront : (beforeChecksum fields totalLength ++ be16Bytes checksum ++ fields.source.toList ++
      fields.destination.toList).length = minHeaderLength := by
    simp [length_beforeChecksum, minHeaderLength]
  rw [hsplit, slice, List.drop_left' hfront, List.take_left]

/-- What is parsed out of a header that was built from `fields`, with `rest` behind it. -/
structure ParsedBack (fields : HeaderFields) (packet : Bytes) (parsed : Ipv4Packet) : Prop where
  dscpEcn : parsed.dscpEcn = fields.dscpEcn
  identification : parsed.identification = fields.identification
  flagsFragment : parsed.flagsFragment = fields.flagsFragment
  ttl : parsed.ttl = fields.ttl
  protocol : parsed.protocol = fields.protocol
  source : parsed.source = fields.source
  destination : parsed.destination = fields.destination
  optionsLength : parsed.optionsLength = fields.options.length
  options : slice packet parsed.optionsOffset parsed.optionsLength = fields.options
  totalLength : parsed.totalLength.toNat = 20 + fields.options.length
  payloadLength : parsed.payloadLength = 0

theorem parseIpv4_of_buildHeader {fields : HeaderFields} (h : fields.Valid) {destinationCapacity : Nat}
    (hcap : 20 + fields.options.length ≤ destinationCapacity) (rest : Bytes) :
    ∃ header parsed, buildHeader fields destinationCapacity = .ok header ∧
      header.length = 20 + fields.options.length ∧ parseIpv4 (header ++ rest) = .ok parsed ∧
      ParsedBack fields (header ++ rest) parsed := by
  have hlength : fields.headerLength = 20 + fields.options.length := rfl
  have htotal : (UInt16.ofNat fields.headerLength).toNat = fields.headerLength := by
    apply toNat_length16
    have h40 := h.options_le
    unfold maxOptionsLength at h40
    unfold uint16Max
    omega
  refine ⟨_, _, buildHeader_eq h hcap, length_headerBytes _ _ _,
    parseIpv4_headerBytes h (by rw [htotal]) (by rw [htotal]; omega), ?_⟩
  exact
    { dscpEcn := rfl
      identification := rfl
      flagsFragment := rfl
      ttl := rfl
      protocol := rfl
      source := rfl
      destination := rfl
      optionsLength := rfl
      options := slice_options_headerBytes fields _ _ rest
      totalLength := htotal
      payloadLength := by rw [htotal, Nat.sub_self] }

/-- **Building and parsing an IPv4 header are inverse**, at every header length and for every field. -/
theorem ipv4Header_inverse :
    (∀ (fields : HeaderFields) (destinationCapacity : Nat) (rest : Bytes),
      fields.options.length ≤ 40 → fields.options.length % 4 = 0 → fields.flagsFragment &&& 0x8000 = 0 →
      20 + fields.options.length ≤ destinationCapacity →
      ∃ header parsed, buildHeader fields destinationCapacity = .ok header ∧
        header.length = 20 + fields.options.length ∧ parseIpv4 (header ++ rest) = .ok parsed ∧
        ParsedBack fields (header ++ rest) parsed) ∧
    ∀ (packet : Bytes) (parsed : Ipv4Packet) (destinationCapacity : Nat), parseIpv4 packet = .ok parsed →
      parsed.payloadOffset ≤ destinationCapacity →
      ∃ header, buildHeader (parsed.toFields packet) destinationCapacity = .ok header ∧
        header.length = parsed.payloadOffset ∧
        ∀ i, i < parsed.payloadOffset → i ≠ 2 → i ≠ 3 → i ≠ 10 → i ≠ 11 →
          header.getD i 0 = packet.getD i 0 :=
  ⟨fun _ _ rest hle halign hres hcap => parseIpv4_of_buildHeader ⟨hle, halign, hres⟩ hcap rest,
    fun _ _ _ h hcap => buildHeader_of_parseIpv4 h hcap⟩

/-- A header with four bytes of options, in front of two other bytes. -/
def optionsFields : HeaderFields :=
  ⟨0x12, 0x3456, 0x4000, 64, 6, #v[192, 0, 2, 9], #v[198, 51, 100, 33], [1, 1, 1, 0]⟩

theorem ipv4Header_inverse_options :
    ∃ header parsed header', buildHeader optionsFields 24 = .ok header ∧
      parseIpv4 (header ++ [7, 8]) = .ok parsed ∧ ParsedBack optionsFields (header ++ [7, 8]) parsed ∧
      buildHeader (parsed.toFields (header ++ [7, 8])) 60 = .ok header' ∧ header'.length = parsed.payloadOffset := by
  obtain ⟨header, parsed, hbuild, -, hparse, hback⟩ :=
    ipv4Header_inverse.1 optionsFields 24 [7, 8] (by decide) (by decide) (by decide) (by decide)
  have hle : parsed.payloadOffset ≤ 60 := by
    rw [eq_readHeader hparse]
    exact ihlBytes_le _
  obtain ⟨header', hbuild', hlen, -⟩ := ipv4Header_inverse.2 (header ++ [7, 8]) parsed 60 hparse hle
  exact ⟨header, parsed, header', hbuild, hparse, hback, hbuild', hlen⟩

end TcpipCourse.L03
