import TcpipCourse.Common
import TcpipCourse.Lib.OnesComplement
import TcpipCourse.Lib.Span

/-!
# Lesson 03: IPv4 packets

* `parseIpv4` : the parser, over a span that may be longer than the packet;
* `Structural`, `parseIpv4_ok_iff` : which spans it accepts;
* `HeaderFields`, `buildHeader` : the checksummed header whose total length is the header length;
* `headerBytes` : the layout of a header with given total length and checksum;
* `parseIpv4_headerBytes` : a header with the checksum of its zeroed form parses back, in front of any
  payload that its total length leaves room for.
-/

namespace TcpipCourse.L03
open Lib

def minHeaderLength : Nat := 20

def maxHeaderLength : Nat := 60

def maxOptionsLength : Nat := 40

def readBe16 (data : Bytes) (offset : Nat) : UInt16 := be16 (data.getD offset 0) (data.getD (offset + 1) 0)

def readAddress (data : Bytes) (offset : Nat) : Ipv4Address :=
  #v[data.getD offset 0, data.getD (offset + 1) 0, data.getD (offset + 2) 0, data.getD (offset + 3) 0]

/-- The extra fold of the source after an odd last byte is the fold of `addBytes`. -/
def checksum (data : Bytes) : UInt16 := finish (addBytes 0 data)

/-! ## The parser -/

structure Ipv4Packet where
  version : UInt8
  ihl : UInt8
  dscpEcn : UInt8
  totalLength : UInt16
  identification : UInt16
  flagsFragment : UInt16
  ttl : UInt8
  protocol : UInt8
  headerChecksum : UInt16
  source : Ipv4Address
  destination : Ipv4Address
  optionsOffset : Nat
  optionsLength : Nat
  payloadOffset : Nat
  payloadLength : Nat
  deriving DecidableEq

/-- On an error the output packet is zeroed. -/
def parseIpv4 (packet : Bytes) : Except Status Ipv4Packet :=
  if packet.length < minHeaderLength then .error .truncated
  else
    let version := packet.getD 0 0 >>> 4
    let ihl := packet.getD 0 0 &&& 0x0f
    if version ≠ 4 ∨ ihl < 5 then .error .malformed
    else
      let headerLength := ihl.toNat * 4
      if headerLength > maxHeaderLength then .error .malformed
      else if packet.length < headerLength then .error .truncated
      else
        let totalLength := readBe16 packet 2
        if readBe16 packet 6 &&& 0x8000 ≠ 0 then .error .malformed
        else if totalLength.toNat < headerLength then .error .malformed
        else if packet.length < totalLength.toNat then .error .truncated
        else if checksum (packet.take headerLength) ≠ 0 then .error .malformed
        else .ok
          { version := version
            ihl := ihl
            dscpEcn := packet.getD 1 0
            totalLength := totalLength
            identification := readBe16 packet 4
            flagsFragment := readBe16 packet 6
            ttl := packet.getD 8 0
            protocol := packet.getD 9 0
            headerChecksum := readBe16 packet 10
            source := readAddress packet 12
            destination := readAddress packet 16
            optionsOffset := minHeaderLength
            optionsLength := headerLength - minHeaderLength
            payloadOffset := headerLength
            payloadLength := totalLength.toNat - headerLength }

/-! ## The builder -/

structure HeaderFields where
  dscpEcn : UInt8
  identification : UInt16
  flagsFragment : UInt16
  ttl : UInt8
  protocol : UInt8
  source : Ipv4Address
  destination : Ipv4Address
  options : Bytes
  deriving DecidableEq

def HeaderFields.headerLength (fields : HeaderFields) : Nat := minHeaderLength + fields.options.length

/-- The header of `fields` with a total length and a checksum. -/
def headerBytes (fields : HeaderFields) (totalLength checksum : UInt16) : Bytes :=
  [((4 : UInt8) <<< 4) ||| UInt8.ofNat (fields.headerLength / 4), fields.dscpEcn] ++
    be16Bytes totalLength ++ be16Bytes fields.identification ++ be16Bytes fields.flagsFragment ++
    [fields.ttl, fields.protocol] ++ be16Bytes checksum ++ fields.source.toList ++
    fields.destination.toList ++ fields.options

/-- The `*out_header_length` bytes stored to `destination`. -/
def buildHeader (fields : HeaderFields) (destinationCapacity : Nat) : Except Status Bytes :=
  if fields.options.length > maxOptionsLength ∨ fields.options.length % 4 ≠ 0 ∨
      fields.flagsFragment &&& 0x8000 ≠ 0 then .error .malformed
  else if destinationCapacity < fields.headerLength then .error .capacity
  else
    let header := headerBytes fields (UInt16.ofNat fields.headerLength) 0
    .ok (headerBytes fields (UInt16.ofNat fields.headerLength) (checksum header))

/-! ## The layout -/

/-- The fields that `tcpip_l03_build_header` accepts. -/
structure HeaderFields.Valid (fields : HeaderFields) : Prop where
  options_le : fields.options.length ≤ maxOptionsLength
  options_aligned : fields.options.length % 4 = 0
  reserved : fields.flagsFragment &&& 0x8000 = 0

theorem buildHeader_eq {fields : HeaderFields} (h : fields.Valid) {destinationCapacity : Nat}
    (hcap : fields.headerLength ≤ destinationCapacity) :
    buildHeader fields destinationCapacity =
      .ok (headerBytes fields (UInt16.ofNat fields.headerLength)
        (checksum (headerBytes fields (UInt16.ofNat fields.headerLength) 0))) := by
  have hok : ¬ (fields.options.length > maxOptionsLength ∨ fields.options.length % 4 ≠ 0 ∨
      fields.flagsFragment &&& 0x8000 ≠ 0) := by
    rintro (hgt | halign | hres)
    · exact absurd h.options_le (by omega)
    · exact halign h.options_aligned
    · exact hres h.reserved
  unfold buildHeader
  rw [if_neg hok, if_neg (by omega)]

@[simp] theorem length_headerBytes (fields : HeaderFields) (totalLength checksum : UInt16) :
    (headerBytes fields totalLength checksum).length = fields.headerLength := by
  simp [headerBytes, HeaderFields.headerLength, minHeaderLength]
  omega

/-- The ten bytes in front of the checksum. -/
def beforeChecksum (fields : HeaderFields) (totalLength : UInt16) : Bytes :=
  [((4 : UInt8) <<< 4) ||| UInt8.ofNat (fields.headerLength / 4), fields.dscpEcn] ++ be16Bytes totalLength ++
    (be16Bytes fields.identification ++ be16Bytes fields.flagsFragment ++ [fields.ttl, fields.protocol])

theorem length_beforeChecksum (fields : HeaderFields) (totalLength : UInt16) :
    (beforeChecksum fields totalLength).length = 10 := rfl

theorem headerBytes_split (fields : HeaderFields) (totalLength checksum : UInt16) :
    headerBytes fields totalLength checksum = beforeChecksum fields totalLength ++ be16Bytes checksum ++
      (fields.source.toList ++ fields.destination.toList ++ fields.options) := by
  simp only [headerBytes, beforeChecksum, List.append_assoc]

theorem overwrite_checksum (fields : HeaderFields) (totalLength old new : UInt16) :
    overwrite (headerBytes fields totalLength old) 10 (be16Bytes new) = headerBytes fields totalLength new := by
  rw [headerBytes_split, headerBytes_split]
  exact overwrite_middle (length_beforeChecksum fields totalLength) (by rfl) _

theorem overwrite_totalLength (fields : HeaderFields) (old new checksum : UInt16) :
    overwrite (headerBytes fields old checksum) 2 (be16Bytes new) = headerBytes fields new checksum := by
  rw [headerBytes_split, headerBytes_split, beforeChecksum, beforeChecksum, List.append_assoc _ (be16Bytes checksum),
    List.append_assoc _ (be16Bytes checksum), List.append_assoc _ _ (be16Bytes checksum ++ _),
    List.append_assoc _ _ (be16Bytes checksum ++ _)]
  exact overwrite_middle (by rfl) (by rfl) _

theorem address_toList (address : Ipv4Address) :
    address.toList = [address[0], address[1], address[2], address[3]] := by
  rcases address with ⟨⟨l⟩, h⟩
  match l, h with
  | [a, b, c, d], _ => rfl

theorem address_eta (address : Ipv4Address) :
    #v[address[0], address[1], address[2], address[3]] = address := by
  rcases address with ⟨⟨l⟩, h⟩
  match l, h with
  | [a, b, c, d], _ => rfl

theorem readAddress_middle {front : Bytes} {offset : Nat} (h : front.length = offset) (address : Ipv4Address)
    (rest : Bytes) : readAddress (front ++ (address.toList ++ rest)) offset = address := by
  have hget (k : Nat) : (front ++ (address.toList ++ rest)).getD (offset + k) 0 =
      (address.toList ++ rest).getD k 0 := by
    rw [List.getD_append_right _ _ _ _ (by omega), h, Nat.add_sub_cancel_left]
  have hfirst := hget 0
  rw [Nat.add_zero] at hfirst
  unfold readAddress
  rw [hfirst, hget, hget, hget, address_toList]
  exact address_eta address

theorem checksum_headerBytes (fields : HeaderFields) (totalLength : UInt16) :
    checksum (headerBytes fields totalLength (checksum (headerBytes fields totalLength 0))) = 0 := by
  unfold checksum
  rw [headerBytes_split, headerBytes_split]
  exact finish_addBytes_insert (by decide) (by rw [length_beforeChecksum])

/-! ## Reading a header back -/

theorem versionIhl {n : Nat} (h5 : 5 ≤ n) (h15 : n ≤ 15) :
    (((4 : UInt8) <<< 4) ||| UInt8.ofNat n) >>> 4 = 4 ∧
      (((4 : UInt8) <<< 4) ||| UInt8.ofNat n) &&& 0x0f = UInt8.ofNat n := by
  have : ∀ k : Fin 16, (((4 : UInt8) <<< 4) ||| UInt8.ofNat k) >>> 4 = 4 ∧
      (((4 : UInt8) <<< 4) ||| UInt8.ofNat k) &&& 0x0f = UInt8.ofNat k := by decide
  exact this ⟨n, by omega⟩

/-- **Header round trip.** A header with a total length of at least its own length and with the checksum of
its zeroed form is accepted in front of what follows it, and its fields are read back. -/
theorem parseIpv4_headerBytes {fields : HeaderFields} (h : fields.Valid) {totalLength : UInt16} {rest : Bytes}
    (hmin : fields.headerLength ≤ totalLength.toNat)
    (hrest : totalLength.toNat ≤ fields.headerLength + rest.length) :
    let header := headerBytes fields totalLength (checksum (headerBytes fields totalLength 0))
    parseIpv4 (header ++ rest) = .ok
      { version := 4
        ihl := UInt8.ofNat (fields.headerLength / 4)
        dscpEcn := fields.dscpEcn
        totalLength := totalLength
        identification := fields.identification
        flagsFragment := fields.flagsFragment
        ttl := fields.ttl
        protocol := fields.protocol
        headerChecksum := checksum (headerBytes fields totalLength 0)
        source := fields.source
        destination := fields.destination
        optionsOffset := minHeaderLength
        optionsLength := fields.options.length
        payloadOffset := fields.headerLength
        payloadLength := totalLength.toNat - fields.headerLength } := by
  intro header
  have h1 := h.options_le
  have h2 := h.options_aligned
  have hlen : header.length = fields.headerLength := length_headerBytes _ _ _
  have hlength : fields.headerLength = 20 + fields.options.length := rfl
  have hmax : maxOptionsLength = 40 := rfl
  obtain ⟨hversion, hihl⟩ := @versionIhl (fields.headerLength / 4) (by omega) (by omega)
  have hwords : (UInt8.ofNat (fields.headerLength / 4)).toNat * 4 = fields.headerLength :=
    toNat_wordCount (by omega) (by omega)
  have hlt : ¬ UInt8.ofNat (fields.headerLength / 4) < 5 :=
    not_wordCount_lt (by show 5 * 4 ≤ _; omega) (by omega)
  have h0 : (header ++ rest).getD 0 0 = ((4 : UInt8) <<< 4) ||| UInt8.ofNat (fields.headerLength / 4) := rfl
  have hdscp : (header ++ rest).getD 1 0 = fields.dscpEcn := rfl
  have htotal : readBe16 (header ++ rest) 2 = totalLength := be16_be16Bytes totalLength
  have hident : readBe16 (header ++ rest) 4 = fields.identification := be16_be16Bytes fields.identification
  have hflags : readBe16 (header ++ rest) 6 = fields.flagsFragment := be16_be16Bytes fields.flagsFragment
  have httl : (header ++ rest).getD 8 0 = fields.ttl := rfl
  have hprotocol : (header ++ rest).getD 9 0 = fields.protocol := rfl
  have hsum : readBe16 (header ++ rest) 10 = checksum (headerBytes fields totalLength 0) := be16_be16Bytes _
  have hbytes : header ++ rest = (beforeChecksum fields totalLength ++
      be16Bytes (checksum (headerBytes fields totalLength 0))) ++
        (fields.source.toList ++ (fields.destination.toList ++ (fields.options ++ rest))) := by
    simp only [header, headerBytes_split fields totalLength (checksum _), List.append_assoc]
  have hsource : readAddress (header ++ rest) 12 = fields.source := by
    rw [hbytes]
    exact readAddress_middle (by rw [List.length_append, length_beforeChecksum, length_be16Bytes]) _ _
  have hdestination : readAddress (header ++ rest) 16 = fields.destination := by
    rw [hbytes, ← List.append_assoc]
    refine readAddress_middle ?_ _ _
    rw [List.length_append, List.length_append, length_beforeChecksum, length_be16Bytes, Vector.length_toList]
  have htake : (header ++ rest).take fields.headerLength = header := by
    rw [← hlen, List.take_left]
  have hpacket : (header ++ rest).length = fields.headerLength + rest.length := by
    rw [List.length_append, hlen]
  have hmh : minHeaderLength = 20 := rfl
  have hmx : maxHeaderLength = 60 := rfl
  unfold parseIpv4
  simp only [h0, hversion, hihl, hwords, htotal, hflags, htake, hpacket, hdscp, hident, httl, hprotocol,
    hsum, hsource, hdestination, h.reserved]
  rw [if_neg (by omega), if_neg (by simp [hlt]), if_neg (by omega), if_neg (by omega), if_neg (by simp),
    if_neg (by omega), if_neg (by omega),
    if_neg (by rw [ne_eq, not_not]; exact checksum_headerBytes fields totalLength)]
  rw [hlength, hmh, Nat.add_sub_cancel_left]

/-! ## What the parser accepts -/

def ihlBytes (packet : Bytes) : Nat := (packet.getD 0 0 &&& 0x0f).toNat * 4

/-- The length checks: version 4, a header that is long enough, and both lengths inside the span. -/
def Structural (packet : Bytes) : Prop :=
  minHeaderLength ≤ packet.length ∧ packet.getD 0 0 >>> 4 = 4 ∧ minHeaderLength ≤ ihlBytes packet ∧
    ihlBytes packet ≤ (readBe16 packet 2).toNat ∧ (readBe16 packet 2).toNat ≤ packet.length

instance (packet : Bytes) : Decidable (Structural packet) := inferInstanceAs (Decidable (_ ∧ _ ∧ _ ∧ _ ∧ _))

theorem ihlBytes_le (packet : Bytes) : ihlBytes packet ≤ maxHeaderLength := by
  have hmod : (packet.getD 0 0 &&& 0x0f).toNat < 16 := by
    rw [UInt8.toNat_and, show UInt8.toNat 0x0f = 2 ^ 4 - 1 from rfl, Nat.and_two_pow_sub_one_eq_mod]
    omega
  unfold ihlBytes maxHeaderLength
  omega

theorem parseIpv4_ok_iff (packet : Bytes) :
    (∃ parsed, parseIpv4 packet = .ok parsed) ↔
      Structural packet ∧ readBe16 packet 6 &&& 0x8000 = 0 ∧ checksum (packet.take (ihlBytes packet)) = 0 := by
  have hmax := ihlBytes_le packet
  have hmin : minHeaderLength = 20 := rfl
  have hihl : packet.getD 0 0 &&& 0x0f < 5 ↔ ihlBytes packet < minHeaderLength := by
    rw [UInt8.lt_iff_toNat_lt, show UInt8.toNat 5 = 5 from rfl]
    unfold ihlBytes
    omega
  have hbytes : (packet.getD 0 0 &&& 0x0f).toNat * 4 = ihlBytes packet := rfl
  unfold parseIpv4
  dsimp only
  rw [hbytes]
  unfold Structural
  constructor
  · rintro ⟨parsed, hok⟩
    split at hok
    · cases hok
    · split at hok
      · cases hok
      · next hversion =>
        obtain ⟨hversion, hheader⟩ := not_or.mp hversion
        rw [hihl] at hheader
        split at hok
        · cases hok
        · split at hok
          · cases hok
          · split at hok
            · cases hok
            · next hreserved =>
              split at hok
              · cases hok
              · split at hok
                · cases hok
                · split at hok
                  · cases hok
                  · next hsum =>
                    exact ⟨⟨by omega, not_not.mp hversion, by omega, by omega, by omega⟩, not_not.mp hreserved,
                      not_not.mp hsum⟩
  · rintro ⟨⟨hlen, hversion, hheader, htotal, hfit⟩, hreserved, hsum⟩
    have hheader' : ¬ packet.getD 0 0 &&& 0x0f < 5 := by
      rw [hihl]
      omega
    rw [if_neg (by omega), if_neg (not_or.mpr ⟨not_not.mpr hversion, hheader'⟩), if_neg (by omega),
      if_neg (by omega), if_neg (not_not.mpr hreserved), if_neg (by omega), if_neg (by omega),
      if_neg (not_not.mpr hsum)]
    exact ⟨_, rfl⟩

end TcpipCourse.L03
