import TcpipCourse.Common
import TcpipCourse.Lib.OnesComplement

/-!
# Lesson 01: the Internet checksum

* `checksum16` : one more fold behind the words, where other lessons loop;
* `checksum16_eq` : one is enough, since each word is folded in at once.
-/

namespace TcpipCourse.L01
open Lib

/-- `*out_checksum`; the extra fold of an odd last byte is the fold of `addBytes`. -/
def checksum16 (data : Bytes) : UInt16 :=
  let sum := foldOnce (addBytes 0 data)
  (~~~sum &&& 0xffff).toUInt16

theorem checksum16_eq (data : Bytes) : checksum16 data = finish (addBytes 0 data) := by
  have hle := addBytes_le data 0 (Nat.zero_le _)
  unfold checksum16
  generalize addBytes 0 data = sum at hle ⊢
  have hfold : foldOnce sum = sum := by
    apply UInt32.toNat_inj.mp
    rw [toNat_foldOnce]
    omega
  have hnot : (~~~sum &&& 0xffff).toNat = 65535 - sum.toNat := by
    rw [UInt32.toNat_and, UInt32.toNat_not, show UInt32.toNat 0xffff = 2 ^ 16 - 1 from rfl,
      Nat.and_two_pow_sub_one_eq_mod]
    show (4294967296 - 1 - sum.toNat) % 65536 = 65535 - sum.toNat
    omega
  apply UInt16.toNat_inj.mp
  dsimp only
  rw [hfold, UInt32.toNat_toUInt16, hnot, toNat_finish, endAround_of_lt (by omega)]
  omega

end TcpipCourse.L01
