import TcpipCourse.L01.Checksum
import TcpipCourse.L04.Icmp
import TcpipCourse.L12.Agree
import TcpipCourse.LinuxL03.Frame

/-!
# The Internet checksums of the lessons are one function

* `L01.checksum16Sums`, `L03.checksumSums`, `L04.checksumSums`, `LinuxL03.checksumSums` : what the accumulator of
  each holds before each of its folds, as exact sums; `checksumAddSums` : what the accumulator of lesson 12 holds
  after each word, as exact sums;
* `checksumAddSums_le` : short data keeps those below `2^32`;
* `checksums_agree` : one value for all of them.
-/

namespace TcpipCourse
open Lib

/-- The sums folded in the loop, for an odd last byte, and behind it. -/
def L01.checksum16Sums (data : Bytes) : List Nat := addBytesSums 0 data ++ [(addBytes 0 data).toNat]

def L03.checksumSums (data : Bytes) : List Nat := addBytesSums 0 data ++ foldCarriesSums (addBytes 0 data)

def L04.checksumSums (data : Bytes) : List Nat := addBytesSums 0 data ++ foldCarriesSums (addBytes 0 data)

/-- The sums on the way of `sumWords`; that of an odd last byte is left to the loop behind. -/
def LinuxL03.sumWordsSums : UInt32 → Bytes → List Nat
  | _, [] => []
  | sum, [a] => [sum.toNat + a.toNat * 256]
  | sum, a :: b :: rest => (sum.toNat + (be16 a b).toNat) :: LinuxL03.sumWordsSums (addWord sum (be16 a b)) rest

def LinuxL03.checksumSums (data : Bytes) : List Nat :=
  LinuxL03.sumWordsSums 0 data ++ foldCarriesSums (LinuxL03.sumWords 0 data)

/-- The sums of `tcpip_l12_checksum_add`, none of which is folded. -/
def L12.checksumAddSums : (sum : UInt32) → (data : Bytes) → (len : Nat) → List Nat
  | sum, data, len + 2 =>
    (sum.toNat + (L12.readU16 data 0).toNat) ::
      L12.checksumAddSums (sum + (L12.readU16 data 0).toUInt32) (data.drop 2) len
  | sum, data, 1 => [sum.toNat + (data.getD 0 0).toNat * 256]
  | _, _, 0 => []

/-! ## The accumulators -/

/-- Folding each word in at once, and once more or in a loop behind. -/
theorem checksumSums_le (data : Bytes) :
    (∀ n ∈ L01.checksum16Sums data, n ≤ 0x1fffe) ∧ ∀ n ∈ L03.checksumSums data, n ≤ 0x1fffe := by
  have hwords := addBytesSums_le data 0 (Nat.zero_le _)
  have hlast := addBytes_le data 0 (Nat.zero_le _)
  constructor
  · intro n hn
    rw [L01.checksum16Sums, List.mem_append, List.mem_singleton] at hn
    rcases hn with hn | rfl
    · exact hwords n hn
    · exact Nat.le_trans hlast (by decide)
  · intro n hn
    rw [L03.checksumSums, List.mem_append] at hn
    rcases hn with hn | hn
    · exact hwords n hn
    · exact foldCarriesSums_le _ (Nat.le_trans hlast (by decide)) n hn

theorem LinuxL03.sumWordsSums_le (data : Bytes) : ∀ sum : UInt32, sum.toNat ≤ 65535 →
    (LinuxL03.sumWords sum data).toNat ≤ 0x1fffe ∧ ∀ n ∈ LinuxL03.sumWordsSums sum data, n ≤ 0x1fffe := by
  induction data using wordSum.induct with
  | case1 =>
    intro sum hsum
    refine ⟨Nat.le_trans hsum (by decide), fun n hn => ?_⟩
    cases hn
  | case2 a =>
    intro sum hsum
    have ha := a.toNat_lt
    have hbyte : (a.toUInt32 <<< 8).toNat = a.toNat * 256 := by
      rw [UInt32.toNat_shiftLeft, UInt8.toNat_toUInt32]
      show a.toNat <<< 8 % 4294967296 = a.toNat * 256
      rw [Nat.shiftLeft_eq]
      omega
    constructor
    · rw [LinuxL03.sumWords, UInt32.toNat_add, hbyte]
      omega
    · intro n hn
      rw [LinuxL03.sumWordsSums, List.mem_singleton] at hn
      omega
  | case3 a b rest ih =>
    intro sum hsum
    have hword := (be16 a b).toNat_lt
    obtain ⟨hsums, hle⟩ := ih _ (addWord_le hsum (be16 a b))
    refine ⟨hsums, fun n hn => ?_⟩
    rw [LinuxL03.sumWordsSums, List.mem_cons] at hn
    rcases hn with rfl | hn
    · omega
    · exact hle n hn

theorem LinuxL03.checksumSums_le (data : Bytes) : ∀ n ∈ LinuxL03.checksumSums data, n ≤ 0x1fffe := by
  obtain ⟨hlast, hwords⟩ := LinuxL03.sumWordsSums_le data 0 (Nat.zero_le _)
  intro n hn
  rw [LinuxL03.checksumSums, List.mem_append] at hn
  rcases hn with hn | hn
  · exact hwords n hn
  · exact foldCarriesSums_le _ hlast n hn

/-- Without any fold the accumulator runs up to the sum of all words. -/
theorem L12.checksumAddSums_le (len : Nat) : ∀ (sum : UInt32) (data : Bytes), len ≤ data.length →
    sum.toNat + wordSum (data.take len) < 4294967296 →
    ∀ n ∈ L12.checksumAddSums sum data len, n ≤ sum.toNat + wordSum (data.take len) := by
  induction len using Nat.twoStepInduction with
  | zero =>
    intro sum data _ _ n hn
    cases hn
  | one =>
    intro sum data hlen _ n hn
    obtain ⟨a, rest, rfl⟩ := List.exists_cons_of_length_pos hlen
    rw [L12.checksumAddSums, List.mem_singleton] at hn
    exact Nat.le_of_eq hn
  | more len ih _ =>
    intro sum data hlen hsum n hn
    obtain ⟨a, rest, rfl⟩ := List.exists_cons_of_length_pos (show 0 < data.length by omega)
    rw [List.length_cons] at hlen
    obtain ⟨b, rest, rfl⟩ := List.exists_cons_of_length_pos (show 0 < rest.length by omega)
    rw [List.length_cons] at hlen
    have hmore : wordSum ((a :: b :: rest).take (len + 2)) = (be16 a b).toNat + wordSum (rest.take len) := by
      rw [toNat_be16]
      rfl
    rw [hmore] at hsum ⊢
    have hadd : (sum + (be16 a b).toUInt32).toNat = sum.toNat + (be16 a b).toNat := by
      rw [UInt32.toNat_add, UInt16.toNat_toUInt32]
      omega
    rw [L12.checksumAddSums, List.mem_cons] at hn
    rcases hn with hn | hn
    · have hfirst : n = sum.toNat + (be16 a b).toNat := hn
      omega
    · have hrest := ih (sum + (be16 a b).toUInt32) rest (by omega) (by rw [hadd]; omega) n hn
      omega

/-! ## One value -/

/-- **One checksum.** For data of any length the checksums of lessons 01, 03 and 04 and of the mini-stack have the
value that the exact sum of the words prescribes, and no accumulator is above `0x1fffe` when it is folded. For at
most 65535 bytes, wherever they stand in a capture, no unfolded sum of lesson 12 reaches `2^32`, and its test
accepts exactly the data whose common value is zero. -/
theorem checksums_agree (data : Bytes) :
    let value := if wordSum data = 0 then 0xffff else 0xffff - (1 + (wordSum data - 1) % 65535)
    ((L01.checksum16 data).toNat = value ∧ (L03.checksum data).toNat = value ∧ (L04.checksum data).toNat = value ∧
        (LinuxL03.checksum data).toNat = value) ∧
      ((∀ n ∈ L01.checksum16Sums data, n ≤ 0x1fffe) ∧ (∀ n ∈ L03.checksumSums data, n ≤ 0x1fffe) ∧
        (∀ n ∈ L04.checksumSums data, n ≤ 0x1fffe) ∧ ∀ n ∈ LinuxL03.checksumSums data, n ≤ 0x1fffe) ∧
      (data.length ≤ 65535 → ∀ rest : Bytes,
        (∀ n ∈ L12.checksumAddSums 0 (data ++ rest) data.length, n < 4294967296) ∧
          (L12.checksumAdd 0 (data ++ rest) data.length).toNat = wordSum data ∧
          (L12.checksumValid (data ++ rest) data.length = true ↔ value = 0)) := by
  intro value
  have hvalue : (L03.checksum data).toNat = value := by
    rw [L03.checksum, toNat_finish_addBytes (by decide), show UInt32.toNat 0 = 0 from rfl, Nat.zero_add, endAround]
    show _ = if wordSum data = 0 then 0xffff else 0xffff - (1 + (wordSum data - 1) % 65535)
    split <;> rfl
  obtain ⟨hl01, hl03⟩ := checksumSums_le data
  refine ⟨⟨?_, hvalue, hvalue, ?_⟩, ⟨hl01, hl03, hl03, LinuxL03.checksumSums_le data⟩, fun hlen rest => ?_⟩
  · rw [L01.checksum16_eq]
    exact hvalue
  · rw [LinuxL03.checksum_eq]
    exact hvalue
  · have hin : data.length ≤ (data ++ rest).length := by
      rw [List.length_append]
      omega
    have hlt := L12.wordSum_take_lt hin hlen
    have hzero : (0 : UInt32).toNat + wordSum ((data ++ rest).take data.length) = wordSum data := by
      rw [List.take_left]
      exact Nat.zero_add _
    rw [List.take_left] at hlt
    refine ⟨fun n hn => ?_, ?_, ?_⟩
    · have hle := L12.checksumAddSums_le data.length 0 (data ++ rest) hin (by omega) n hn
      omega
    · rw [L12.toNat_checksumAdd _ _ _ hin (by omega), hzero]
    · rw [L12.checksumValid_iff hin hlen, List.take_left, ← UInt16.toNat_inj, hvalue]
      rfl

/-- An odd number of bytes that sum to all ones. -/
theorem checksums_agree_odd :
    (L01.checksum16 [0xab, 0x00, 0x54, 0xff, 0x00]).toNat = 0 ∧
      L12.checksumValid ([0xab, 0x00, 0x54, 0xff, 0x00] ++ [7]) 5 = true := by
  obtain ⟨⟨hvalue, -⟩, -, hvalid⟩ := checksums_agree [0xab, 0x00, 0x54, 0xff, 0x00]
  exact ⟨hvalue.trans (by decide), (hvalid (by decide) [7]).2.2.mpr (by decide)⟩

end TcpipCourse
