import Mathlib.Data.Nat.Digits.Defs
import TcpipCourse.Lib.Words

/-!
# Bit prefixes of byte strings

A byte string is a number in base 256, most significant byte first; its first `p` bits end inside byte `p / 8`.

* `and_mask_eq_iff`, `and_not_mask_eq_zero_iff` : masks of the top bits as quotients and remainders;
* `div_cut_eq_iff`, `mod_cut_eq_zero_iff` : a number in base 256 cut inside one of its bytes;
* `bytesValue` : the number; `bytesValue_cut` : its three parts around one byte;
* `prefix_eq_iff`, `suffix_zero_iff` : equal prefixes and clear suffixes, byte by byte.
-/

namespace TcpipCourse.Lib

/-! ## Masks -/

section Masks
variable {w : Nat} (x y : BitVec w) (k : Nat)

theorem toNat_and_mask : (x &&& (BitVec.allOnes w <<< k)).toNat = x.toNat / 2 ^ k * 2 ^ k := by
  have hbits : x &&& (BitVec.allOnes w <<< k) = (x >>> k) <<< k := by
    ext i hi
    simp only [BitVec.getElem_and, BitVec.getElem_shiftLeft, BitVec.getElem_allOnes]
    by_cases h : i < k
    · simp [h]
    · simp [h]
      rw [show k + (i - k) = i by omega, ← BitVec.getLsbD_eq_getElem]
  have hx := x.isLt
  have hle := Nat.div_mul_le_self x.toNat (2 ^ k)
  rw [hbits, BitVec.toNat_shiftLeft, BitVec.toNat_ushiftRight, Nat.shiftLeft_eq, Nat.shiftRight_eq_div_pow,
    Nat.mod_eq_of_lt (by omega)]

/-- Two numbers agree under a mask when they agree above its low bits. -/
theorem and_mask_eq_iff :
    x &&& (BitVec.allOnes w <<< k) = y &&& (BitVec.allOnes w <<< k) ↔ x.toNat / 2 ^ k = y.toNat / 2 ^ k := by
  rw [← BitVec.toNat_inj, toNat_and_mask, toNat_and_mask]
  exact Nat.mul_left_inj (Nat.ne_of_gt (Nat.two_pow_pos k))

/-- No bit is set behind a mask. -/
theorem and_not_mask_eq_zero_iff : x &&& ~~~(BitVec.allOnes w <<< k) = 0 ↔ x.toNat % 2 ^ k = 0 := by
  have hbits : x &&& ~~~(BitVec.allOnes w <<< k) = 0 ↔ x &&& (BitVec.allOnes w <<< k) = x := by
    generalize BitVec.allOnes w <<< k = m
    constructor
    · intro h
      ext i hi
      have hbit := congrArg (·.getLsbD i) h
      simp only [BitVec.getLsbD_eq_getElem hi, BitVec.getElem_and, BitVec.getElem_not] at hbit ⊢
      simpa using hbit
    · intro h
      rw [← h, BitVec.and_assoc, BitVec.and_not_self]
      exact BitVec.and_zero
  have hdiv := Nat.div_add_mod x.toNat (2 ^ k)
  rw [hbits, ← BitVec.toNat_inj, toNat_and_mask, Nat.mul_comm]
  omega

end Masks

/-! ## A number cut inside one of its bytes -/

section Cut
variable {hi hi' x x' lo lo' base m q : Nat}

theorem div_cut (hlo : lo < base) (hm : m * q = 256) : ((hi * 256 + x) * base + lo) / (base * m) = hi * q + x / m := by
  have hmpos : 0 < m := by
    rcases Nat.eq_zero_or_pos m with rfl | h
    · omega
    · exact h
  rw [← Nat.div_div_eq_div_mul, Nat.mul_comm _ base, Nat.mul_add_div (by omega), Nat.div_eq_of_lt hlo, Nat.add_zero,
    show hi * 256 = m * (hi * q) by rw [← hm, Nat.mul_left_comm], Nat.mul_add_div hmpos]

/-- The bits above the cut are those of the bytes in front and the high bits of the byte that is cut. -/
theorem div_cut_eq_iff (hlo : lo < base) (hlo' : lo' < base) (hm : m * q = 256) (hx : x < 256) (hx' : x' < 256) :
    ((hi * 256 + x) * base + lo) / (base * m) = ((hi' * 256 + x') * base + lo') / (base * m) ↔
      hi = hi' ∧ x / m = x' / m := by
  have hq : x / m < q := Nat.div_lt_of_lt_mul (by omega)
  have hq' : x' / m < q := Nat.div_lt_of_lt_mul (by omega)
  rw [div_cut hlo hm, div_cut hlo' hm]
  constructor
  · intro h
    have hdiv := congrArg (· / q) h
    simp only [Nat.mul_comm _ q, Nat.mul_add_div (Nat.lt_of_le_of_lt (Nat.zero_le _) hq), Nat.div_eq_of_lt hq,
      Nat.div_eq_of_lt hq', Nat.add_zero] at hdiv
    subst hdiv
    exact ⟨rfl, Nat.add_left_cancel h⟩
  · rintro ⟨rfl, h⟩
    rw [h]

/-- The bits below the cut are the low bits of the byte that is cut and the bytes behind it. -/
theorem mod_cut_eq_zero_iff (hlo : lo < base) (hm : m * q = 256) :
    ((hi * 256 + x) * base + lo) % (base * m) = 0 ↔ x % m = 0 ∧ lo = 0 := by
  have hx : (hi * 256 + x) % m = x % m := by
    rw [show hi * 256 = m * (hi * q) by rw [← hm, Nat.mul_left_comm], Nat.mul_add_mod]
  rw [Nat.mod_mul, Nat.mul_comm _ base, Nat.mul_add_mod, Nat.mod_eq_of_lt hlo, Nat.mul_add_div (by omega),
    Nat.div_eq_of_lt hlo, Nat.add_zero, hx]
  constructor
  · intro h
    have hlow : lo = 0 := by omega
    have hprod : base * (x % m) = 0 := by omega
    exact ⟨(Nat.mul_eq_zero.mp hprod).resolve_left (by omega), hlow⟩
  · rintro ⟨h1, h2⟩
    rw [h1, h2]
    rfl

end Cut

/-! ## Byte strings as numbers -/

/-- The number of a byte string, most significant byte first. -/
def bytesValue (l : List UInt8) : Nat := Nat.ofDigits 256 (l.reverse.map UInt8.toNat)

theorem bytesValue_append (l l' : List UInt8) :
    bytesValue (l ++ l') = bytesValue l * 256 ^ l'.length + bytesValue l' := by
  simp only [bytesValue, List.reverse_append, List.map_append, Nat.ofDigits_append, List.length_map,
    List.length_reverse]
  rw [Nat.add_comm, Nat.mul_comm]

theorem bytesValue_cons (b : UInt8) (l : List UInt8) :
    bytesValue (b :: l) = b.toNat * 256 ^ l.length + bytesValue l := by
  have hone : bytesValue [b] = b.toNat := by simp [bytesValue]
  rw [← hone, ← bytesValue_append]
  rfl

theorem bytesValue_lt (l : List UInt8) : bytesValue l < 256 ^ l.length := by
  have h := @Nat.ofDigits_lt_base_pow_length 256 (l.reverse.map UInt8.toNat) (by decide) fun n hn => by
    obtain ⟨b, -, rfl⟩ := List.mem_map.mp hn
    exact b.toNat_lt
  simpa [bytesValue] using h

theorem bytesValue_inj {l l' : List UInt8} (hlen : l.length = l'.length) : bytesValue l = bytesValue l' ↔ l = l' := by
  constructor
  · intro h
    have hdigits : ∀ m : List UInt8, ∀ n ∈ m.reverse.map UInt8.toNat, n < 256 := by
      intro m n hn
      obtain ⟨b, -, rfl⟩ := List.mem_map.mp hn
      exact b.toNat_lt
    have heq := Nat.ofDigits_inj_of_len_eq (by decide) (by simpa using hlen) (hdigits l) (hdigits l') h
    have hinj : Function.Injective UInt8.toNat := fun a b hab => UInt8.toNat_inj.mp hab
    exact List.reverse_injective (List.map_injective_iff.mpr hinj heq)
  · rintro rfl
    rfl

theorem bytesValue_eq_zero_iff (l : List UInt8) : bytesValue l = 0 ↔ ∀ b ∈ l, b = 0 := by
  induction l with
  | nil => simp [bytesValue]
  | cons b l ih =>
    rw [bytesValue_cons, Nat.add_eq_zero_iff, Nat.mul_eq_zero, ih, List.forall_mem_cons, ← UInt8.toNat_inj]
    simp

/-- The bytes in front of byte `k`, that byte, and the bytes behind it. -/
theorem bytesValue_cut {l : List UInt8} {k : Nat} (hk : k < l.length) :
    bytesValue l = (bytesValue (l.take k) * 256 + (l.getD k 0).toNat) * 256 ^ (l.length - (k + 1)) +
      bytesValue (l.drop (k + 1)) := by
  have hsplit : l.take k ++ ([l.getD k 0] ++ l.drop (k + 1)) = l := by
    rw [List.getD_eq_getElem _ _ hk, List.singleton_append, ← List.drop_eq_getElem_cons hk, List.take_append_drop]
  have hone : bytesValue [l.getD k 0] = (l.getD k 0).toNat := by simp [bytesValue]
  calc bytesValue l = bytesValue ((l.take k ++ [l.getD k 0]) ++ l.drop (k + 1)) := by
        rw [List.append_assoc, hsplit]
    _ = _ := by
        rw [bytesValue_append, bytesValue_append, hone, List.length_singleton, Nat.pow_one, List.length_drop]

/-! ## Prefixes -/

section Prefixes
variable {l l' : List UInt8} {p : Nat}

/-- The bits behind a prefix: whole bytes and the rest of the byte it ends in. -/
theorem two_pow_suffix (hp : p < 8 * l.length) :
    2 ^ (8 * l.length - p) = 256 ^ (l.length - (p / 8 + 1)) * 2 ^ (8 - p % 8) := by
  rw [show (256 : Nat) = 2 ^ 8 from rfl, ← Nat.pow_mul, ← Nat.pow_add]
  congr 1
  omega

theorem two_pow_byte (r : Nat) (hr : r < 8) : 2 ^ (8 - r) * 2 ^ r = 256 := by
  rw [← Nat.pow_add, show 8 - r + r = 8 by omega]

/-- Two prefixes are equal when their whole bytes are, and the high bits of the next. -/
theorem prefix_eq_iff (hlen : l.length = l'.length) (hp : p < 8 * l.length) :
    bytesValue l / 2 ^ (8 * l.length - p) = bytesValue l' / 2 ^ (8 * l.length - p) ↔
      l.take (p / 8) = l'.take (p / 8) ∧
        (l.getD (p / 8) 0).toNat / 2 ^ (8 - p % 8) = (l'.getD (p / 8) 0).toNat / 2 ^ (8 - p % 8) := by
  have hk : p / 8 < l.length := by omega
  have hlow : bytesValue (l.drop (p / 8 + 1)) < 256 ^ (l.length - (p / 8 + 1)) := by
    rw [← List.length_drop]
    exact bytesValue_lt _
  have hlow' : bytesValue (l'.drop (p / 8 + 1)) < 256 ^ (l.length - (p / 8 + 1)) := by
    rw [hlen, ← List.length_drop]
    exact bytesValue_lt _
  rw [two_pow_suffix hp, bytesValue_cut hk, bytesValue_cut (show p / 8 < l'.length by omega), ← hlen,
    div_cut_eq_iff hlow hlow' (two_pow_byte (p % 8) (by omega)) (UInt8.toNat_lt _) (UInt8.toNat_lt _),
    bytesValue_inj (by rw [List.length_take, List.length_take, hlen])]

/-- Nothing is set behind a prefix when the low bits of the byte it ends in are clear and so are the bytes behind. -/
theorem suffix_zero_iff (hp : p < 8 * l.length) :
    bytesValue l % 2 ^ (8 * l.length - p) = 0 ↔
      (l.getD (p / 8) 0).toNat % 2 ^ (8 - p % 8) = 0 ∧ ∀ b ∈ l.drop (p / 8 + 1), b = 0 := by
  have hlow : bytesValue (l.drop (p / 8 + 1)) < 256 ^ (l.length - (p / 8 + 1)) := by
    rw [← List.length_drop]
    exact bytesValue_lt _
  rw [two_pow_suffix hp, bytesValue_cut (show p / 8 < l.length by omega),
    mod_cut_eq_zero_iff hlow (two_pow_byte (p % 8) (by omega)), bytesValue_eq_zero_iff]

end Prefixes

end TcpipCourse.Lib
