import TcpipCourse.L01.Checksum
import TcpipCourse.L04.Echo
import TcpipCourse.L05.Canonical
import TcpipCourse.L06.Codec

/-!
# Corruption that the checksums detect

* `checksum16_replaceWord`, `checksum16_replaceLast` : one replaced word, or an odd last byte;
* `SumsWords.detectsFlips` : one flipped bit of a datagram, of a segment or of a pseudo-header address;
  `L04.parseMessage_flip` : of a message;
* `corruption_detected` : all of them.
-/

namespace TcpipCourse
open Lib

/-! ## One word -/

theorem checksum16_eq_zero_iff (data : Bytes) : L01.checksum16 data = 0 ↔ endAround (wordSum data) = 65535 := by
  rw [L01.checksum16_eq, finish_addBytes_eq_zero_iff (by decide), show (0 : UInt32).toNat = 0 from rfl, Nat.zero_add]

theorem checksum16_replaceWord {pre post : Bytes} (hpre : pre.length % 2 = 0) {w w' : UInt16}
    (h : L01.checksum16 (pre ++ be16Bytes w ++ post) = 0) (hne : w ≠ w') (hup : ¬ (w = 0 ∧ w' = 0xffff))
    (hdown : ¬ (w = 0xffff ∧ w' = 0)) : L01.checksum16 (pre ++ be16Bytes w' ++ post) ≠ 0 := by
  have hw := w.toNat_lt
  have hw' := w'.toNat_lt
  rw [checksum16_eq_zero_iff, wordSum_insert hpre] at h
  rw [ne_eq, checksum16_eq_zero_iff, wordSum_insert hpre]
  refine endAround_ne_of_replace h (by omega) (by omega) (fun e => hne (UInt16.toNat_inj.mp e)) ?_ ?_
  · rintro ⟨h0, h1⟩
    exact hup ⟨UInt16.toNat_inj.mp h0, UInt16.toNat_inj.mp h1⟩
  · rintro ⟨h0, h1⟩
    exact hdown ⟨UInt16.toNat_inj.mp h0, UInt16.toNat_inj.mp h1⟩

theorem checksum16_replaceLast {pre : Bytes} (hpre : pre.length % 2 = 0) {b b' : UInt8}
    (h : L01.checksum16 (pre ++ [b]) = 0) (hne : b ≠ b') : L01.checksum16 (pre ++ [b']) ≠ 0 := by
  have hb := b.toNat_lt
  have hb' := b'.toNat_lt
  have hne' : b.toNat ≠ b'.toNat := fun e => hne (UInt8.toNat_inj.mp e)
  rw [checksum16_eq_zero_iff, wordSum_append hpre] at h
  rw [ne_eq, checksum16_eq_zero_iff, wordSum_append hpre]
  have hword : ∀ c : UInt8, wordSum [c] = c.toNat * 256 := fun _ => rfl
  rw [hword] at h ⊢
  exact endAround_ne_of_replace h (by omega) (by omega) (by omega) (by omega) (by omega)

/-! ## One bit -/

/-- `verify` computes a pseudo-header checksum: with `protocol` and the length, the words sum to all ones exactly
when it is zero. -/
def SumsWords (verify : Bytes → Bytes → Bytes → Except Status UInt16) (protocol : Nat) : Prop :=
  ∀ source destination message : Bytes, source.length = 4 → destination.length = 4 →
    message.length ≤ uint16Max → ∃ checksum, verify source destination message = .ok checksum ∧
      (checksum = 0 ↔ endAround (wordSum source + wordSum destination + protocol + message.length +
        wordSum message) = 65535)

/-- A message that differs in one bit, or an address that does, has another checksum than zero. -/
structure DetectsFlips (verify : Bytes → Bytes → Bytes → Except Status UInt16)
    (source destination message : Bytes) : Prop where
  inMessage : ∀ i bit, i < message.length → bit < 8 →
    ∃ checksum, verify source destination (flipBit message i bit) = .ok checksum ∧ checksum ≠ 0
  inSource : ∀ i bit, i < 4 → bit < 8 →
    ∃ checksum, verify (flipBit source i bit) destination message = .ok checksum ∧ checksum ≠ 0
  inDestination : ∀ i bit, i < 4 → bit < 8 →
    ∃ checksum, verify source (flipBit destination i bit) message = .ok checksum ∧ checksum ≠ 0

theorem SumsWords.detectsFlips {verify : Bytes → Bytes → Bytes → Except Status UInt16} {protocol : Nat}
    (hverify : SumsWords verify protocol) {source destination message : Bytes} (hsource : source.length = 4)
    (hdestination : destination.length = 4) (hlen : message.length ≤ uint16Max)
    (h : verify source destination message = .ok 0) : DetectsFlips verify source destination message := by
  have hones : endAround (wordSum source + wordSum destination + protocol + message.length + wordSum message) =
      65535 := by
    obtain ⟨checksum, hok, hzero⟩ := hverify source destination message hsource hdestination hlen
    rw [h] at hok
    exact hzero.mp (Except.ok.inj hok).symm
  constructor
  · intro i bit hi hbit
    obtain ⟨checksum, hok, hzero⟩ := hverify source destination (flipBit message i bit) hsource hdestination
      (by rwa [length_flipBit])
    rw [length_flipBit] at hzero
    exact ⟨checksum, hok, fun hc => endAround_flipBit hi hbit hones (hzero.mp hc)⟩
  · intro i bit hi hbit
    obtain ⟨checksum, hok, hzero⟩ := hverify (flipBit source i bit) destination message
      (by rwa [length_flipBit]) hdestination hlen
    have hflip := @endAround_flipBit source i bit (wordSum destination + protocol + message.length + wordSum message)
      (by omega) hbit (by rw [← hones]; congr 1; omega)
    refine ⟨checksum, hok, fun hc => hflip ?_⟩
    rw [← hzero.mp hc]
    congr 1
    omega
  · intro i bit hi hbit
    obtain ⟨checksum, hok, hzero⟩ := hverify source (flipBit destination i bit) message hsource
      (by rwa [length_flipBit]) hlen
    have hflip := @endAround_flipBit destination i bit (wordSum source + protocol + message.length + wordSum message)
      (by omega) hbit (by rw [← hones]; congr 1; omega)
    refine ⟨checksum, hok, fun hc => hflip ?_⟩
    rw [← hzero.mp hc]
    congr 1
    omega

theorem L05.ipv4Checksum_ok {source destination datagram : Bytes} {checksum : UInt16}
    (h : L05.ipv4Checksum source destination datagram = .ok checksum) :
    source.length = 4 ∧ destination.length = 4 ∧ datagram.length ≤ uint16Max := by
  unfold L05.ipv4Checksum L05.validIpv4Span at h
  split at h
  · cases h
  · split at h
    · cases h
    · next hspans hlen =>
      simp only [Bool.or_eq_true, Bool.not_eq_true', decide_eq_false_iff_not, not_or, not_not] at hspans
      exact ⟨hspans.1, hspans.2, by omega⟩

theorem L06.ipv4Checksum_ok {source destination segment : Bytes} {checksum : UInt16}
    (h : L06.ipv4Checksum source destination segment = .ok checksum) :
    source.length = 4 ∧ destination.length = 4 ∧ segment.length ≤ uint16Max := by
  unfold L06.ipv4Checksum L06.validIpv4Span at h
  split at h
  · cases h
  · split at h
    · cases h
    · next hspans hlen =>
      simp only [Bool.or_eq_true, Bool.not_eq_true', decide_eq_false_iff_not, not_or, not_not] at hspans
      exact ⟨hspans.1, hspans.2, by omega⟩

theorem L05.sumsWords : SumsWords L05.ipv4Checksum 17 := fun _ _ _ hsource hdestination hlen =>
  ⟨_, L05.ipv4Checksum_eq hsource hdestination hlen, L05.checksumUnchecked_eq_zero_iff _ _ hlen⟩

theorem L06.sumsWords : SumsWords L06.ipv4Checksum 6 := fun _ _ _ hsource hdestination hlen =>
  ⟨_, L06.ipv4Checksum_eq hsource hdestination hlen, L06.checksumUnchecked_eq_zero_iff _ _ hlen⟩

theorem L04.parseMessage_flip {message : Bytes} {parsed : L04.Message}
    (h : L04.parseMessage message = .ok parsed) {i bit : Nat} (hi : i < message.length) (hbit : bit < 8) :
    L04.parseMessage (flipBit message i bit) = .error .malformed := by
  obtain ⟨hlen, hsum, -⟩ := L04.parseMessage_ok h
  have hzero : ∀ data : Bytes, L04.checksum data = 0 ↔ endAround (0 + wordSum data) = 65535 := fun data =>
    finish_addBytes_eq_zero_iff (by decide) data
  have hflip : L04.checksum (flipBit message i bit) ≠ 0 := by
    rw [ne_eq, hzero]
    exact endAround_flipBit hi hbit ((hzero message).mp hsum)
  unfold L04.parseMessage L04.headerLength
  rw [length_flipBit, if_neg (by omega), if_pos hflip]

/-- **Corruption is detected.** In data with checksum zero, any one aligned word or odd last byte that is replaced
is seen, but for the two zeros of ones' complement; and so is every single flipped bit of a UDP datagram, a TCP
segment, their addresses, or an ICMP message that verify. -/
theorem corruption_detected :
    (∀ (pre post : Bytes) (w w' : UInt16), pre.length % 2 = 0 →
      L01.checksum16 (pre ++ be16Bytes w ++ post) = 0 → w ≠ w' → ¬ (w = 0 ∧ w' = 0xffff) →
      ¬ (w = 0xffff ∧ w' = 0) → L01.checksum16 (pre ++ be16Bytes w' ++ post) ≠ 0) ∧
    (∀ (pre : Bytes) (b b' : UInt8), pre.length % 2 = 0 → L01.checksum16 (pre ++ [b]) = 0 → b ≠ b' →
      L01.checksum16 (pre ++ [b']) ≠ 0) ∧
    (∀ source destination datagram : Bytes, L05.ipv4Checksum source destination datagram = .ok 0 →
      DetectsFlips L05.ipv4Checksum source destination datagram) ∧
    (∀ source destination segment : Bytes, L06.ipv4Checksum source destination segment = .ok 0 →
      DetectsFlips L06.ipv4Checksum source destination segment) ∧
    ∀ (message : Bytes) (parsed : L04.Message), L04.parseMessage message = .ok parsed →
      ∀ i bit, i < message.length → bit < 8 → L04.parseMessage (flipBit message i bit) = .error .malformed := by
  refine ⟨fun _ _ _ _ hpre h hne hup hdown => checksum16_replaceWord hpre h hne hup hdown,
    fun _ _ _ hpre h hne => checksum16_replaceLast hpre h hne, fun source destination datagram h => ?_,
    fun source destination segment h => ?_, fun _ _ h i bit hi hbit => L04.parseMessage_flip h hi hbit⟩
  · obtain ⟨hsource, hdestination, hlen⟩ := L05.ipv4Checksum_ok h
    exact L05.sumsWords.detectsFlips hsource hdestination hlen h
  · obtain ⟨hsource, hdestination, hlen⟩ := L06.ipv4Checksum_ok h
    exact L06.sumsWords.detectsFlips hsource hdestination hlen h

/-- All ones in two bytes, a word and an odd byte that complete it, and an empty datagram that is verified. -/
theorem corruption_detected_example :
    L01.checksum16 [0, 1] ≠ 0 ∧ L01.checksum16 [0x54, 0xff, 0xaa] ≠ 0 ∧
      DetectsFlips L05.ipv4Checksum [0, 0, 0, 0] [0, 0, 0, 0] [0xff, 0xde, 0, 0, 0, 8, 0xff, 0xff] ∧
      L04.parseMessage (flipBit [0, 0, 0xff, 0xff] 3 7) = .error .malformed := by
  have hword : L01.checksum16 ([] ++ be16Bytes 0xffff ++ []) = 0 := (checksum16_eq_zero_iff _).mpr (by decide)
  have hodd : L01.checksum16 ([0x54, 0xff] ++ [0xab]) = 0 := (checksum16_eq_zero_iff _).mpr (by decide)
  have hudp : L05.ipv4Checksum [0, 0, 0, 0] [0, 0, 0, 0] [0xff, 0xde, 0, 0, 0, 8, 0xff, 0xff] = .ok 0 := by
    rw [L05.ipv4Checksum_eq rfl rfl (by decide), (L05.checksumUnchecked_eq_zero_iff _ _ (by decide)).mpr (by decide)]
  have hicmp : L04.checksum [0, 0, 0xff, 0xff] = 0 := (finish_addBytes_eq_zero_iff (by decide) _).mpr (by decide)
  have hparse : L04.parseMessage [0, 0, 0xff, 0xff] = .ok ⟨0, 0, 0xffff, 4, 0⟩ := by
    unfold L04.parseMessage
    rw [if_neg (by decide), if_neg (not_not.mpr hicmp)]
    rfl
  obtain ⟨hreplace, hlast, hflipUdp, -, hflipIcmp⟩ := corruption_detected
  exact ⟨hreplace [] [] 0xffff 1 rfl hword (by decide) (by decide) (by decide),
    hlast [0x54, 0xff] 0xab 0xaa rfl hodd (by decide), hflipUdp _ _ _ hudp,
    hflipIcmp _ _ hparse 3 7 (by decide) (by decide)⟩

end TcpipCourse
