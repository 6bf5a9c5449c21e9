import Mathlib.Logic.Function.Iterate
import TcpipCourse.L03.Codec

/-!
# Lesson 03: decrementing the TTL

* `decrementTtl` : the in-place update, with the bytes it leaves;
* `decrementTtl_eq`, `hopPacket_eq_overwrite` : on an accepted packet it lowers the TTL in the layout;
* `checksum_congr` : the new checksum is the old one plus `0x0100`, in ones' complement;
* `parseIpv4_hopPacket`, `decrementTtl_refuses` : one hop;
* `forwarded_ok_iff` : how often a packet is forwarded; `decrementTtl_spec` : all of it.
-/

namespace TcpipCourse.L03
open Lib

/-- The status, and the bytes of `packet` afterwards. -/
def decrementTtl (packet : Bytes) : Status × Bytes :=
  match parseIpv4 packet with
  | .error status => (status, packet)
  | .ok parsed =>
    if parsed.ttl ≤ 1 then (.malformed, packet)
    else
      let headerLength := parsed.ihl.toNat * 4
      let zeroed := ((packet.set 8 (parsed.ttl - 1)).set 10 0).set 11 0
      (.ok, overwrite zeroed 10 (be16Bytes (checksum (zeroed.take headerLength))))

/-- RFC 1624: the checksum after a word of the header goes from `word` to `word'`. -/
def incrementalUpdate (checksum word word' : UInt16) : UInt16 :=
  finish (addWord (addWord (~~~checksum).toUInt32 (~~~word)) word')

/-! ## On the layout of a header -/

def HeaderFields.withTtl (fields : HeaderFields) (ttl : UInt8) : HeaderFields := { fields with ttl }

theorem HeaderFields.Valid.withTtl {fields : HeaderFields} (h : fields.Valid) (ttl : UInt8) :
    (fields.withTtl ttl).Valid := ⟨h.options_le, h.options_aligned, h.reserved⟩

@[simp] theorem headerLength_withTtl (fields : HeaderFields) (ttl : UInt8) :
    (fields.withTtl ttl).headerLength = fields.headerLength := rfl

theorem headerBytes_set_ttl (fields : HeaderFields) (totalLength checksum : UInt16) (ttl : UInt8) (rest : Bytes) :
    (headerBytes fields totalLength checksum ++ rest).set 8 ttl =
      headerBytes (fields.withTtl ttl) totalLength checksum ++ rest := rfl

theorem headerBytes_zero_checksum (fields : HeaderFields) (totalLength checksum : UInt16) (rest : Bytes) :
    ((headerBytes fields totalLength checksum ++ rest).set 10 0).set 11 0 =
      headerBytes fields totalLength 0 ++ rest := rfl

theorem overwrite_checksum_append (fields : HeaderFields) (totalLength old new : UInt16) (rest : Bytes) :
    overwrite (headerBytes fields totalLength old ++ rest) 10 (be16Bytes new) =
      headerBytes fields totalLength new ++ rest := by
  rw [headerBytes_split, headerBytes_split, List.append_assoc, List.append_assoc]
  simp only [← List.append_assoc (beforeChecksum fields totalLength)]
  exact overwrite_middle (length_beforeChecksum fields totalLength) (by rfl) _

theorem wordSum_headerBytes (fields : HeaderFields) (totalLength checksum : UInt16) :
    wordSum (headerBytes fields totalLength checksum) =
      wordSum (headerBytes fields totalLength 0) + checksum.toNat := by
  have hpre : (beforeChecksum fields totalLength).length % 2 = 0 := by rw [length_beforeChecksum]
  rw [headerBytes_split, headerBytes_split, wordSum_insert hpre, wordSum_insert hpre,
    show (0 : UInt16).toNat = 0 from rfl, Nat.add_zero]

/-- The TTL is the high byte of its word. -/
theorem wordSum_withTtl (fields : HeaderFields) (totalLength : UInt16) (ttl : UInt8) :
    wordSum (headerBytes (fields.withTtl ttl) totalLength 0) + 256 * fields.ttl.toNat =
      wordSum (headerBytes fields totalLength 0) + 256 * ttl.toNat := by
  have hlen : 8 < (headerBytes fields totalLength 0).length := by
    rw [length_headerBytes, HeaderFields.headerLength, minHeaderLength]
    omega
  exact wordSum_set (headerBytes fields totalLength 0) 8 hlen ttl

/-- The checksum of the zeroed header after a hop, for a header that verified before it. -/
theorem checksum_congr {fields : HeaderFields} {totalLength c : UInt16}
    (h : checksum (headerBytes fields totalLength c) = 0) {ttl : UInt8}
    (httl : ttl.toNat + 1 = fields.ttl.toNat) :
    (checksum (headerBytes (fields.withTtl ttl) totalLength 0)).toNat % 65535 = (c.toNat + 0x0100) % 65535 := by
  have hval : (checksum (headerBytes (fields.withTtl ttl) totalLength 0)).toNat =
      65535 - endAround (wordSum (headerBytes (fields.withTtl ttl) totalLength 0)) := by
    unfold checksum
    rw [toNat_finish_addBytes (by decide), show (0 : UInt32).toNat = 0 from rfl, Nat.zero_add]
  have hverifies : endAround (wordSum (headerBytes fields totalLength 0) + c.toNat) = 65535 := by
    unfold checksum at h
    rwa [finish_addBytes_eq_zero_iff (by decide), show (0 : UInt32).toNat = 0 from rfl, Nat.zero_add,
      wordSum_headerBytes] at h
  have hcomplement := complement_add_mod (wordSum (headerBytes (fields.withTtl ttl) totalLength 0))
  have hstep := wordSum_withTtl fields totalLength ttl
  rw [endAround_eq_ones_iff] at hverifies
  rw [hval]
  omega

/-- RFC 1624 gives the same number, up to the two zeros of ones' complement. -/
theorem incrementalUpdate_congr {c word word' : UInt16} (h : word'.toNat + 0x0100 = word.toNat) :
    (incrementalUpdate c word word').toNat % 65535 = (c.toNat + 0x0100) % 65535 := by
  have hc := c.toNat_lt
  have hword := word.toNat_lt
  have hnot : (~~~c).toUInt32.toNat = 65535 - c.toNat := by
    rw [UInt16.toNat_toUInt32, UInt16.toNat_not]
    rfl
  have hnotWord : (~~~word).toNat = 65535 - word.toNat := by
    rw [UInt16.toNat_not]
    rfl
  obtain ⟨hlt, heq⟩ := @addWord_spec (~~~c).toUInt32 (by omega) (~~~word)
  have hsum := (addWord_spec hlt word').2
  rw [endAround_add_congr heq, hnot, hnotWord] at hsum
  unfold incrementalUpdate
  rw [toNat_finish, hsum]
  have hcomplement := complement_add_mod (65535 - c.toNat + (65535 - word.toNat) + word'.toNat)
  omega

/-! ## One hop -/

section Hop
variable {packet : Bytes} {parsed : Ipv4Packet}

/-- The checksum that is stored with the lower TTL. -/
def hopChecksum (packet : Bytes) (parsed : Ipv4Packet) : UInt16 :=
  checksum (headerBytes ((parsed.toFields packet).withTtl (parsed.ttl - 1)) parsed.totalLength 0)

/-- The packet after a hop, as the layout of its header. -/
def hopPacket (packet : Bytes) (parsed : Ipv4Packet) : Bytes :=
  headerBytes ((parsed.toFields packet).withTtl (parsed.ttl - 1)) parsed.totalLength (hopChecksum packet parsed) ++
    packet.drop parsed.payloadOffset

theorem packet_split (h : parseIpv4 packet = .ok parsed) :
    headerBytes (parsed.toFields packet) parsed.totalLength parsed.headerChecksum ++
      packet.drop parsed.payloadOffset = packet := by
  rw [headerBytes_of_parseIpv4 h, List.take_append_drop]

theorem hopPacket_eq_overwrite (h : parseIpv4 packet = .ok parsed) :
    hopPacket packet parsed =
      overwrite (packet.set 8 (parsed.ttl - 1)) 10 (be16Bytes (hopChecksum packet parsed)) := by
  have hset : packet.set 8 (parsed.ttl - 1) =
      headerBytes ((parsed.toFields packet).withTtl (parsed.ttl - 1)) parsed.totalLength parsed.headerChecksum ++
        packet.drop parsed.payloadOffset := by
    rw [← headerBytes_set_ttl, packet_split h]
  rw [hset, overwrite_checksum_append]
  rfl

theorem decrementTtl_eq (h : parseIpv4 packet = .ok parsed) (httl : 2 ≤ parsed.ttl.toNat) :
    decrementTtl packet = (.ok, hopPacket packet parsed) := by
  have hbig : ¬ parsed.ttl ≤ 1 := by
    rw [UInt8.le_iff_toNat_le, show UInt8.toNat 1 = 1 from rfl]
    omega
  have hzeroed : ((packet.set 8 (parsed.ttl - 1)).set 10 0).set 11 0 =
      headerBytes ((parsed.toFields packet).withTtl (parsed.ttl - 1)) parsed.totalLength 0 ++
        packet.drop parsed.payloadOffset := by
    rw [← headerBytes_zero_checksum _ _ parsed.headerChecksum, ← headerBytes_set_ttl, packet_split h]
  have hlength : parsed.ihl.toNat * 4 =
      (headerBytes ((parsed.toFields packet).withTtl (parsed.ttl - 1)) parsed.totalLength 0).length := by
    rw [length_headerBytes, headerLength_withTtl, toFields_headerLength h, eq_readHeader h]
    rfl
  unfold decrementTtl
  rw [h]
  dsimp only
  rw [if_neg hbig, hzeroed, hlength, List.take_left, overwrite_checksum_append]
  rfl

theorem length_hopPacket (h : parseIpv4 packet = .ok parsed) :
    (hopPacket packet parsed).length = packet.length := by
  rw [hopPacket_eq_overwrite h, length_overwrite, List.length_set]

theorem getD_hopPacket (h : parseIpv4 packet = .ok parsed) {i : Nat} (h8 : i ≠ 8) (h10 : i ≠ 10) (h11 : i ≠ 11) :
    (hopPacket packet parsed).getD i 0 = packet.getD i 0 := by
  obtain ⟨⟨hlen, -⟩, -⟩ := parseIpv4_eq_ok_iff.mp h
  have h20 : minHeaderLength = 20 := rfl
  rw [hopPacket_eq_overwrite h, getD_overwrite (by simp; omega), if_neg (by simp; omega),
    List.getD_eq_getElem?_getD, List.getElem?_set_ne (by omega), List.getD_eq_getElem?_getD]

/-- After a hop the packet is read as before, but for the TTL and the checksum. -/
theorem parseIpv4_hopPacket (h : parseIpv4 packet = .ok parsed) :
    parseIpv4 (hopPacket packet parsed) =
      .ok { parsed with ttl := parsed.ttl - 1, headerChecksum := hopChecksum packet parsed } := by
  have hlength := toFields_headerLength h
  have hvalid := (toFields_valid h).withTtl (parsed.ttl - 1)
  obtain ⟨⟨-, hversion, hmin, htotal, hfit⟩, -, -, hread⟩ := parseIpv4_eq_ok_iff.mp h
  have hoffset : parsed.payloadOffset = ihlBytes packet := by rw [hread]; rfl
  have htotalLength : parsed.totalLength = readBe16 packet 2 := by rw [hread]; rfl
  have hdrop : (packet.drop parsed.payloadOffset).length = packet.length - parsed.payloadOffset := List.length_drop
  have hparse := @parseIpv4_headerBytes _ hvalid parsed.totalLength (packet.drop parsed.payloadOffset)
    (by rw [headerLength_withTtl, hlength, htotalLength]; omega)
    (by rw [headerLength_withTtl, hlength, htotalLength]; omega)
  refine hparse.trans (congrArg Except.ok ?_)
  have hihl : UInt8.ofNat (ihlBytes packet / 4) = packet.getD 0 0 &&& 0x0f := by
    rw [ihlBytes, Nat.mul_div_cancel _ (by omega), UInt8.ofNat_toNat]
  have hoptions : (parsed.toFields packet).options.length = ihlBytes packet - minHeaderLength := by
    have : 20 + (parsed.toFields packet).options.length = _ := hlength
    have : minHeaderLength = 20 := rfl
    omega
  rw [headerLength_withTtl, hlength, hoffset, hihl]
  subst hread
  rw [Ipv4Packet.mk.injEq]
  exact ⟨hversion.symm, rfl, rfl, rfl, rfl, rfl, rfl, rfl, rfl, rfl, rfl, rfl, hoptions, rfl, rfl⟩

theorem toNat_pred {b : UInt8} (h : 1 ≤ b.toNat) : (b - 1).toNat + 1 = b.toNat := by
  rw [UInt8.toNat_sub_of_le _ _ (by rw [UInt8.le_iff_toNat_le]; exact h)]
  show b.toNat - 1 + 1 = b.toNat
  omega

theorem hopChecksum_congr (h : parseIpv4 packet = .ok parsed) (httl : 1 ≤ parsed.ttl.toNat) :
    (hopChecksum packet parsed).toNat % 65535 = (parsed.headerChecksum.toNat + 0x0100) % 65535 := by
  obtain ⟨-, -, hsum, hread⟩ := parseIpv4_eq_ok_iff.mp h
  have hoffset : parsed.payloadOffset = ihlBytes packet := by rw [hread]; rfl
  rw [← hoffset, ← headerBytes_of_parseIpv4 h] at hsum
  exact checksum_congr hsum (toNat_pred httl)

theorem ttlWord_hopPacket (h : parseIpv4 packet = .ok parsed) (httl : 1 ≤ parsed.ttl.toNat) :
    (readBe16 (hopPacket packet parsed) 8).toNat + 0x0100 = (readBe16 packet 8).toNat := by
  have hb := toNat_pred httl
  have hold : parsed.ttl = packet.getD 8 0 := by rw [eq_readHeader h]; rfl
  have hnew : (hopPacket packet parsed).getD 8 0 = parsed.ttl - 1 := rfl
  rw [readBe16, readBe16, toNat_be16, toNat_be16, hnew, getD_hopPacket h (by omega) (by omega) (by omega), ← hold]
  omega

end Hop

theorem parseIpv4_ne_error_ok (packet : Bytes) : parseIpv4 packet ≠ .error .ok := by
  unfold parseIpv4
  dsimp only
  repeat' split
  all_goals nofun

theorem decrementTtl_refuses {packet : Bytes} (h : ∀ parsed, parseIpv4 packet = .ok parsed → parsed.ttl.toNat ≤ 1) :
    (decrementTtl packet).1 ≠ .ok ∧ (decrementTtl packet).2 = packet := by
  unfold decrementTtl
  cases hparse : parseIpv4 packet with
  | error status =>
    refine ⟨?_, rfl⟩
    rintro rfl
    exact parseIpv4_ne_error_ok packet hparse
  | ok parsed =>
    have hle : parsed.ttl ≤ 1 := UInt8.le_iff_toNat_le.mpr (h parsed hparse)
    dsimp only
    rw [if_pos hle]
    exact ⟨nofun, rfl⟩

/-! ## A chain of hops -/

def forwarded (k : Nat) (packet : Bytes) : Bytes := (fun p => (decrementTtl p).2)^[k] packet

theorem forwarded_succ (k : Nat) (packet : Bytes) :
    forwarded (k + 1) packet = (decrementTtl (forwarded k packet)).2 :=
  Function.iterate_succ_apply' _ k packet

/-- While hops are left, the packet is accepted and its TTL counts them. -/
theorem parseIpv4_forwarded {packet : Bytes} {parsed : Ipv4Packet} (h : parseIpv4 packet = .ok parsed) (k : Nat) :
    k < parsed.ttl.toNat →
      ∃ parsed', parseIpv4 (forwarded k packet) = .ok parsed' ∧ parsed'.ttl.toNat + k = parsed.ttl.toNat := by
  induction k with
  | zero => exact fun _ => ⟨parsed, h, rfl⟩
  | succ k ih =>
    intro hk
    obtain ⟨parsed', hparse, httl⟩ := ih (by omega)
    have hpred := @toNat_pred parsed'.ttl (by omega)
    rw [forwarded_succ, decrementTtl_eq hparse (by omega)]
    exact ⟨_, parseIpv4_hopPacket hparse, by dsimp only; omega⟩

theorem forwarded_of_refused {packet : Bytes} (h : (decrementTtl packet).2 = packet) (k : Nat) :
    forwarded k packet = packet := by
  induction k with
  | zero => rfl
  | succ k ih => rw [forwarded_succ, ih, h]

theorem forwarded_ok_iff {packet : Bytes} {parsed : Ipv4Packet} (h : parseIpv4 packet = .ok parsed)
    (httl : 1 ≤ parsed.ttl.toNat) (k : Nat) :
    (decrementTtl (forwarded k packet)).1 = .ok ↔ k < parsed.ttl.toNat - 1 := by
  constructor
  · intro hok
    by_contra hk
    obtain ⟨parsed', hparse, httl'⟩ := parseIpv4_forwarded h (parsed.ttl.toNat - 1) (by omega)
    have hrefused := @decrementTtl_refuses (forwarded (parsed.ttl.toNat - 1) packet) fun q hq => by
      rw [hparse] at hq
      obtain rfl := Except.ok.inj hq
      omega
    have hlast : forwarded k packet = forwarded (parsed.ttl.toNat - 1) packet := by
      rw [show k = (k - (parsed.ttl.toNat - 1)) + (parsed.ttl.toNat - 1) by omega, forwarded,
        Function.iterate_add_apply]
      exact forwarded_of_refused hrefused.2 _
    rw [hlast] at hok
    exact hrefused.1 hok
  · intro hk
    obtain ⟨parsed', hparse, httl'⟩ := parseIpv4_forwarded h k (by omega)
    rw [decrementTtl_eq hparse (by omega)]

/-- **Decrementing the TTL keeps a packet valid.** -/
theorem decrementTtl_spec (packet : Bytes) :
    (∀ parsed, parseIpv4 packet = .ok parsed → 2 ≤ parsed.ttl.toNat →
      ∃ packet' c, decrementTtl packet = (.ok, packet') ∧ packet'.length = packet.length ∧
        (∀ i, i ≠ 8 → i ≠ 10 → i ≠ 11 → packet'.getD i 0 = packet.getD i 0) ∧
        parseIpv4 packet' = .ok { parsed with ttl := parsed.ttl - 1, headerChecksum := c } ∧
        c.toNat % 65535 = (parsed.headerChecksum.toNat + 0x0100) % 65535 ∧
        c.toNat % 65535 = (incrementalUpdate parsed.headerChecksum (readBe16 packet 8)
          (readBe16 packet' 8)).toNat % 65535) ∧
    ((∀ parsed, parseIpv4 packet = .ok parsed → parsed.ttl.toNat ≤ 1) →
      (decrementTtl packet).1 ≠ .ok ∧ (decrementTtl packet).2 = packet) ∧
    ∀ parsed, parseIpv4 packet = .ok parsed → 1 ≤ parsed.ttl.toNat →
      ∀ k, (decrementTtl (forwarded k packet)).1 = .ok ↔ k < parsed.ttl.toNat - 1 := by
  refine ⟨fun parsed h httl => ?_, decrementTtl_refuses, fun parsed h httl => forwarded_ok_iff h httl⟩
  have hcongr := hopChecksum_congr h (by omega)
  refine ⟨_, _, decrementTtl_eq h httl, length_hopPacket h, fun i => getD_hopPacket h, parseIpv4_hopPacket h,
    hcongr, ?_⟩
  rw [hcongr, incrementalUpdate_congr (ttlWord_hopPacket h (by omega))]

/-- A header with options and TTL 64 is forwarded 63 times. -/
theorem decrementTtl_spec_options :
    ∃ packet parsed packet', parseIpv4 packet = .ok parsed ∧ decrementTtl packet = (.ok, packet') ∧
      (∃ parsed', parseIpv4 packet' = .ok parsed' ∧ parsed'.ttl = 63) ∧
      ∀ k, (decrementTtl (forwarded k packet)).1 = .ok ↔ k < 63 := by
  obtain ⟨header, parsed, -, -, hparse, hback⟩ :=
    @parseIpv4_of_buildHeader optionsFields ⟨by decide, by decide, by decide⟩ 24 (by decide) [7, 8]
  have httl : parsed.ttl.toNat = 64 := by rw [hback.ttl]; rfl
  obtain ⟨hhop, -, hchain⟩ := decrementTtl_spec (header ++ [7, 8])
  obtain ⟨packet', c, hok, -, -, hparse', -⟩ := hhop parsed hparse (by omega)
  have hcount := hchain parsed hparse (by omega)
  rw [httl] at hcount
  exact ⟨_, parsed, packet', hparse, hok, ⟨_, hparse', by rw [hback.ttl]; rfl⟩, hcount⟩

end TcpipCourse.L03
