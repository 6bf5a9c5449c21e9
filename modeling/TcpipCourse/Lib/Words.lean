import Mathlib.Algebra.Ring.Nat
import TcpipCourse.Lib.Span

/-!
# Big-endian words in byte lists

* `be16`, `be32` : the word of two and of four bytes, most significant first;
* `be16Bytes`, `be32Bytes` : the bytes of a word;
* `toNat_be16`, `toNat_be32` : their values; `be16_be16Bytes`, `be32_be32Bytes` : reading them back from the
  bytes of a word gives the word; `be16Bytes_be16`, `be32Bytes_be32` : and back;
* `be16Bytes_getD`, `be32Bytes_getD` : a word read from a byte string stands for the span it was read from;
* `toNat_wordCount`, `not_wordCount_lt` : a length counted in four-byte words, as headers store it.
-/

namespace TcpipCourse.Lib

def be16 (a b : UInt8) : UInt16 := (a.toUInt16 <<< 8) ||| b.toUInt16

def be32 (a b c d : UInt8) : UInt32 :=
  (a.toUInt32 <<< 24) ||| (b.toUInt32 <<< 16) ||| (c.toUInt32 <<< 8) ||| d.toUInt32

def be16Bytes (v : UInt16) : List UInt8 := [(v >>> 8).toUInt8, (v &&& 0xff).toUInt8]

def be32Bytes (v : UInt32) : List UInt8 :=
  [(v >>> 24).toUInt8, (v >>> 16).toUInt8, (v >>> 8).toUInt8, v.toUInt8]

@[simp] theorem length_be16Bytes (v : UInt16) : (be16Bytes v).length = 2 := rfl

@[simp] theorem length_be32Bytes (v : UInt32) : (be32Bytes v).length = 4 := rfl

/-- OR of a shifted value with a low field it does not overlap. -/
theorem mul_two_pow_or {b i : Nat} (a : Nat) (h : b < 2 ^ i) : a * 2 ^ i ||| b = a * 2 ^ i + b := by
  rw [← Nat.shiftLeft_eq, Nat.shiftLeft_add_eq_or_of_lt h]

theorem toNat_be16 (a b : UInt8) : (be16 a b).toNat = a.toNat * 256 + b.toNat := by
  have ha := a.toNat_lt
  have hb := b.toNat_lt
  have hshift : a.toNat <<< 8 % 65536 = a.toNat * 2 ^ 8 := by rw [Nat.shiftLeft_eq]; omega
  unfold be16
  simp only [UInt16.toNat_or, UInt16.toNat_shiftLeft, UInt8.toNat_toUInt16]
  rw [show a.toNat <<< (UInt16.toNat 8 % 16) % 2 ^ 16 = a.toNat <<< 8 % 65536 from rfl, hshift]
  exact (mul_two_pow_or _ (by omega)).trans (by omega)

theorem toNat_be32 (a b c d : UInt8) :
    (be32 a b c d).toNat = a.toNat * 16777216 + b.toNat * 65536 + c.toNat * 256 + d.toNat := by
  have ha := a.toNat_lt
  have hb := b.toNat_lt
  have hc := c.toNat_lt
  have hd := d.toNat_lt
  have h24 : a.toNat <<< 24 % 4294967296 = a.toNat * 2 ^ 24 := by rw [Nat.shiftLeft_eq]; omega
  have h16 : b.toNat <<< 16 % 4294967296 = b.toNat * 2 ^ 16 := by rw [Nat.shiftLeft_eq]; omega
  have h8 : c.toNat <<< 8 % 4294967296 = c.toNat * 2 ^ 8 := by rw [Nat.shiftLeft_eq]; omega
  unfold be32
  simp only [UInt32.toNat_or, UInt32.toNat_shiftLeft, UInt8.toNat_toUInt32]
  rw [show a.toNat <<< (UInt32.toNat 24 % 32) % 2 ^ 32 = a.toNat <<< 24 % 4294967296 from rfl,
    show b.toNat <<< (UInt32.toNat 16 % 32) % 2 ^ 32 = b.toNat <<< 16 % 4294967296 from rfl,
    show c.toNat <<< (UInt32.toNat 8 % 32) % 2 ^ 32 = c.toNat <<< 8 % 4294967296 from rfl, h24, h16, h8,
    mul_two_pow_or _ (by omega),
    show a.toNat * 2 ^ 24 + b.toNat * 2 ^ 16 = (a.toNat * 2 ^ 8 + b.toNat) * 2 ^ 16 by omega,
    mul_two_pow_or _ (by omega),
    show (a.toNat * 2 ^ 8 + b.toNat) * 2 ^ 16 + c.toNat * 2 ^ 8 =
      ((a.toNat * 2 ^ 8 + b.toNat) * 2 ^ 8 + c.toNat) * 2 ^ 8 by omega]
  exact (mul_two_pow_or _ (by omega)).trans (by omega)

theorem toNat_shiftRight_toUInt8 (v : UInt32) (k : Nat) (hk : k < 32) :
    (v >>> UInt32.ofNat k).toUInt8.toNat = v.toNat / 2 ^ k % 256 := by
  have hk' : (UInt32.ofNat k).toNat % 32 = k := by
    rw [UInt32.toNat_ofNat']
    omega
  rw [UInt32.toNat_toUInt8, UInt32.toNat_shiftRight, hk', Nat.shiftRight_eq_div_pow]

theorem be16_be16Bytes (v : UInt16) :
    be16 (v >>> 8).toUInt8 (v &&& 0xff).toUInt8 = v := by
  apply UInt16.toNat_inj.mp
  have hv := v.toNat_lt
  have hhi : (v >>> 8).toUInt8.toNat = v.toNat / 256 % 256 := by
    rw [UInt16.toNat_toUInt8, UInt16.toNat_shiftRight]
    exact congrArg (· % 256) (Nat.shiftRight_eq_div_pow _ 8)
  have hlo : (v &&& 0xff).toUInt8.toNat = v.toNat % 256 := by
    rw [UInt16.toNat_toUInt8, UInt16.toNat_and, show UInt16.toNat 0xff = 2 ^ 8 - 1 from rfl,
      Nat.and_two_pow_sub_one_eq_mod]
    omega
  rw [toNat_be16, hhi, hlo]
  omega

theorem be32_be32Bytes (v : UInt32) :
    be32 (v >>> 24).toUInt8 (v >>> 16).toUInt8 (v >>> 8).toUInt8 v.toUInt8 = v := by
  apply UInt32.toNat_inj.mp
  have hv := v.toNat_lt
  have h24 : (v >>> 24).toUInt8.toNat = v.toNat / 2 ^ 24 % 256 := toNat_shiftRight_toUInt8 v 24 (by omega)
  have h16 : (v >>> 16).toUInt8.toNat = v.toNat / 2 ^ 16 % 256 := toNat_shiftRight_toUInt8 v 16 (by omega)
  have h8 : (v >>> 8).toUInt8.toNat = v.toNat / 2 ^ 8 % 256 := toNat_shiftRight_toUInt8 v 8 (by omega)
  rw [toNat_be32, h24, h16, h8, UInt32.toNat_toUInt8]
  omega

theorem be16Bytes_be16 (a b : UInt8) : be16Bytes (be16 a b) = [a, b] := by
  have hv := toNat_be16 a b
  have ha := a.toNat_lt
  have hb := b.toNat_lt
  have hhi : (be16 a b >>> 8).toUInt8 = a := by
    apply UInt8.toNat_inj.mp
    rw [UInt16.toNat_toUInt8, UInt16.toNat_shiftRight,
      show (be16 a b).toNat >>> (UInt16.toNat 8 % 16) = (be16 a b).toNat / 2 ^ 8 from Nat.shiftRight_eq_div_pow _ 8, hv]
    omega
  have hlo : (be16 a b &&& 0xff).toUInt8 = b := by
    apply UInt8.toNat_inj.mp
    rw [UInt16.toNat_toUInt8, UInt16.toNat_and, show UInt16.toNat 0xff = 2 ^ 8 - 1 from rfl,
      Nat.and_two_pow_sub_one_eq_mod, hv]
    omega
  rw [be16Bytes, hhi, hlo]

theorem be32Bytes_be32 (a b c d : UInt8) : be32Bytes (be32 a b c d) = [a, b, c, d] := by
  have hv := toNat_be32 a b c d
  have ha := a.toNat_lt
  have hb := b.toNat_lt
  have hc := c.toNat_lt
  have hd := d.toNat_lt
  have h24 := toNat_shiftRight_toUInt8 (be32 a b c d) 24 (by omega)
  have h16 := toNat_shiftRight_toUInt8 (be32 a b c d) 16 (by omega)
  have h8 := toNat_shiftRight_toUInt8 (be32 a b c d) 8 (by omega)
  have h0 : (be32 a b c d).toUInt8.toNat = (be32 a b c d).toNat % 256 := UInt32.toNat_toUInt8 _
  rw [hv] at h24 h16 h8 h0
  have ea : (be32 a b c d >>> 24).toUInt8 = a := UInt8.toNat_inj.mp (h24.trans (by omega))
  have eb : (be32 a b c d >>> 16).toUInt8 = b := UInt8.toNat_inj.mp (h16.trans (by omega))
  have ec : (be32 a b c d >>> 8).toUInt8 = c := UInt8.toNat_inj.mp (h8.trans (by omega))
  have ed : (be32 a b c d).toUInt8 = d := UInt8.toNat_inj.mp (h0.trans (by omega))
  rw [be32Bytes, ea, eb, ec, ed]

/-! ## Words in a byte string -/

theorem be16Bytes_getD {l : List UInt8} {off : Nat} (h : off + 2 ≤ l.length) :
    be16Bytes (be16 (l.getD off 0) (l.getD (off + 1) 0)) = slice l off 2 := by
  rw [be16Bytes_be16, slice_succ (by omega) 1 0, slice_succ (by omega) 0 0]
  rfl

theorem be32Bytes_getD {l : List UInt8} {off : Nat} (h : off + 4 ≤ l.length) :
    be32Bytes (be32 (l.getD off 0) (l.getD (off + 1) 0) (l.getD (off + 2) 0) (l.getD (off + 3) 0)) =
      slice l off 4 := by
  rw [be32Bytes_be32, slice_succ (by omega) 3 0, slice_succ (by omega) 2 0, slice_succ (by omega) 1 0,
    slice_succ (by omega) 0 0]
  rfl

/-! ## Lengths in words -/

/-- A byte can count the four-byte words of a length below 1024. -/
theorem toNat_wordCount {n : Nat} (halign : n % 4 = 0) (hn : n < 1024) : (UInt8.ofNat (n / 4)).toNat * 4 = n := by
  rw [UInt8.toNat_ofNat_of_lt' (by show n / 4 < 256; omega)]
  omega

theorem not_wordCount_lt {n : Nat} {k : UInt8} (hk : k.toNat * 4 ≤ n) (hn : n < 1024) : ¬ UInt8.ofNat (n / 4) < k := by
  rw [UInt8.lt_iff_toNat_lt, UInt8.toNat_ofNat_of_lt' (by show n / 4 < 256; omega)]
  omega

end TcpipCourse.Lib
