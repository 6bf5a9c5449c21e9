import TcpipCourse.L10.Stable
import TcpipCourse.L10.Fields

/-!
# Lesson 10: `Content-Length` in every width of `size_t`

`parseContentLength` counts without bound. Here the digits are added up in `size_t`, which wraps.

* `not_gt_div_iff` : the guard is exact; `toNat_mul_add` : what passes it does not wrap;
* `parseContentLengthSize` : the function in a `size_t` of `w` bits; `parseContentLengthSize_eq` : the two agree;
* `parseContentLength_of_denotes`, `parseContentLength_of_not` : what is returned for which values;
* `parseContentLength_size` : the function of the header loop is the one in 64 bits;
* `parseContentLength_exact` : the main result.
-/

namespace TcpipCourse.L10
open Lib

/-! ## The guard -/

section Guard
variable {w : Nat} {x base digit : BitVec w}

/-- `x > (MAX - digit) / base` is `x * base + digit > MAX`. -/
theorem not_gt_div_iff (hbase : 0 < base.toNat) :
    ¬ x > (BitVec.allOnes w - digit) / base ↔ x.toNat * base.toNat + digit.toNat ≤ 2 ^ w - 1 := by
  have hdigit := digit.isLt
  have hroom : (BitVec.allOnes w - digit).toNat = 2 ^ w - 1 - digit.toNat := by
    rw [BitVec.allOnes_sub_eq_not, BitVec.toNat_not]
  rw [gt_iff_lt, BitVec.not_lt, BitVec.le_def, BitVec.toNat_udiv, hroom, Nat.le_div_iff_mul_le hbase]
  omega

theorem toNat_mul_add (h : x.toNat * base.toNat + digit.toNat ≤ 2 ^ w - 1) :
    (x * base + digit).toNat = x.toNat * base.toNat + digit.toNat := by
  have hpos : 0 < 2 ^ w := Nat.two_pow_pos w
  rw [BitVec.toNat_add, BitVec.toNat_mul, Nat.mod_add_mod, Nat.mod_eq_of_lt (by omega)]

end Guard

/-! ## In `size_t` -/

/-- The digit loop in a `size_t` of `w` bits. -/
def contentLengthFromSize (w : Nat) : Bytes → (parsed : BitVec w) → Except Status (BitVec w)
  | [], parsed => .ok parsed
  | c :: rest, parsed =>
    if !isDigit c then .error .malformed
    else
      let digit := BitVec.ofNat w (c - 48).toNat
      if parsed > (BitVec.allOnes w - digit) / 10 then .error .malformed
      else contentLengthFromSize w rest (parsed * 10 + digit)

def parseContentLengthSize (w : Nat) (value : Bytes) : Except Status (BitVec w) :=
  if value.length = 0 then .error .malformed
  else match contentLengthFromSize w value 0 with
    | .error status => .error status
    | .ok parsed => if parsed > BitVec.ofNat w maxBodyBytes then .error .capacity else .ok parsed

theorem digitValue_le {c : UInt8} (h : isDigit c = true) : digitValue c ≤ 9 := by
  rw [isDigit, Bool.and_eq_true, decide_eq_true_iff, decide_eq_true_iff, UInt8.le_iff_toNat_le,
    UInt8.le_iff_toNat_le] at h
  obtain ⟨hlow, hhigh⟩ := h
  rw [digitValue, UInt8.toNat_sub_of_le _ _ (UInt8.le_iff_toNat_le.mpr hlow)]
  have h48 : (48 : UInt8).toNat = 48 := rfl
  have h57 : (57 : UInt8).toNat = 57 := rfl
  omega

section Size
variable {w : Nat}

theorem toNat_of_lt (hw : 16 ≤ w) {n : Nat} (hn : n < 65536) : (BitVec.ofNat w n).toNat = n := by
  have hpow : 2 ^ 16 ≤ 2 ^ w := Nat.pow_le_pow_right (by decide) hw
  rw [BitVec.toNat_ofNat, Nat.mod_eq_of_lt (by omega)]

theorem contentLengthFromSize_eq (hw : 16 ≤ w) {value : Bytes} : ∀ parsed : BitVec w,
    contentLengthFromSize w value parsed =
      (contentLengthFrom (2 ^ w - 1) value parsed.toNat).map (BitVec.ofNat w) := by
  induction value with
  | nil =>
    intro parsed
    rw [contentLengthFromSize, contentLengthFrom, Except.map, BitVec.ofNat_toNat, BitVec.setWidth_eq]
  | cons c rest ih =>
    intro parsed
    rw [contentLengthFromSize, contentLengthFrom]
    dsimp only
    by_cases hc : (!isDigit c) = true
    · rw [if_pos hc, if_pos hc]
      rfl
    · have hdigit := @digitValue_le c (by simpa using hc)
      rw [digitValue] at hdigit
      have hten : (10 : BitVec w).toNat = 10 := toNat_of_lt hw (by decide)
      have hvalue : (BitVec.ofNat w (c - 48).toNat).toNat = (c - 48).toNat := toNat_of_lt hw (by omega)
      have hguard := @not_gt_div_iff w parsed 10 (BitVec.ofNat w (c - 48).toNat) (by rw [hten]; decide)
      have hpow : 2 ^ 16 ≤ 2 ^ w := Nat.pow_le_pow_right (by decide) hw
      rw [hten, hvalue] at hguard
      rw [if_neg hc, if_neg hc]
      by_cases hfits : parsed.toNat * 10 + (c - 48).toNat ≤ 2 ^ w - 1
      · rw [if_neg (hguard.mpr hfits), if_neg (by omega), ih, toNat_mul_add (by rwa [hten, hvalue]), hten, hvalue]
      · rw [if_pos (not_not.mp fun hno => hfits (hguard.mp hno)), if_pos (by omega)]
        rfl

theorem contentLengthFrom_le {limit n : Nat} (hlimit : 9 ≤ limit) {value : Bytes} : ∀ {parsed : Nat},
    parsed ≤ limit → contentLengthFrom limit value parsed = .ok n → n ≤ limit := by
  induction value with
  | nil =>
    intro parsed hparsed h
    rwa [← Except.ok.inj h]
  | cons c rest ih =>
    intro parsed hparsed h
    rw [contentLengthFrom] at h
    split at h
    · cases h
    · next hc =>
      have hdigit := @digitValue_le c (by simpa using hc)
      rw [digitValue] at hdigit
      dsimp only at h
      split at h
      · cases h
      · exact ih (by omega) h

/-- The function in `size_t` returns what the function without bound returns. -/
theorem parseContentLengthSize_eq (hw : 16 ≤ w) (value : Bytes) :
    parseContentLengthSize w value = (parseContentLength (2 ^ w - 1) value).map (BitVec.ofNat w) := by
  have hpow : 2 ^ 16 ≤ 2 ^ w := Nat.pow_le_pow_right (by decide) hw
  have hzero : (0 : BitVec w).toNat = 0 := toNat_of_lt hw (by decide)
  rw [parseContentLengthSize, parseContentLength, contentLengthFromSize_eq hw, hzero]
  by_cases hnil : value.length = 0
  · rw [if_pos hnil, if_pos hnil]
    rfl
  · rw [if_neg hnil, if_neg hnil]
    cases hloop : contentLengthFrom (2 ^ w - 1) value 0 with
    | error status => rfl
    | ok parsed =>
      have hle := contentLengthFrom_le (by omega) (Nat.zero_le _) hloop
      have hparsed : (BitVec.ofNat w parsed).toNat = parsed := by
        rw [BitVec.toNat_ofNat, Nat.mod_eq_of_lt (by omega)]
      have hgt : BitVec.ofNat w parsed > BitVec.ofNat w maxBodyBytes ↔ parsed > maxBodyBytes := by
        rw [gt_iff_lt, BitVec.lt_def, hparsed, toNat_of_lt hw (by decide)]
      rw [Except.map]
      dsimp only
      by_cases hlarge : parsed > maxBodyBytes
      · rw [if_pos (hgt.mpr hlarge), if_pos hlarge]
        rfl
      · rw [if_neg (mt hgt.mp hlarge), if_neg hlarge]
        rfl

end Size

/-! ## What is returned -/

section Returned
variable {limit n : Nat} {value : Bytes}

theorem parseContentLength_of_denotes (h : Denotes value n) (hn : n ≤ limit) :
    parseContentLength limit value = if n > maxBodyBytes then .error .capacity else .ok n := by
  obtain ⟨hne, hdigits, hnumber⟩ := h
  have hloop : contentLengthFrom limit value 0 = .ok (0 * 10 ^ value.length + decimal value) :=
    contentLengthFrom_of_le hdigits (by omega)
  rw [Nat.zero_mul, Nat.zero_add, hnumber] at hloop
  rw [parseContentLength, if_neg (by simpa using hne), hloop]

theorem parseContentLength_of_not (hlimit : 9 ≤ limit) (h : ∀ n, Denotes value n → limit < n) :
    parseContentLength limit value = .error .malformed := by
  rw [parseContentLength]
  by_cases hnil : value.length = 0
  · rw [if_pos hnil]
  · rw [if_neg hnil]
    cases hloop : contentLengthFrom limit value 0 with
    | error status => rw [contentLengthFrom_error hloop]
    | ok parsed =>
      obtain ⟨hdigits, hnumber⟩ := contentLengthFrom_ok hloop
      have hle := contentLengthFrom_le hlimit (Nat.zero_le _) hloop
      have hlt := h _ ⟨fun hnil' => hnil (by rw [hnil']; rfl), hdigits, rfl⟩
      omega

theorem not_denotes_iff : (¬ ∃ n, Denotes value n ∧ n ≤ limit) ↔
    value = [] ∨ (∃ b ∈ value, isDigit b = false) ∨ ∃ n, Denotes value n ∧ limit < n := by
  constructor
  · intro h
    by_cases hnil : value = []
    · exact .inl hnil
    · by_cases hdigits : ∀ b ∈ value, isDigit b = true
      · have hdenotes : Denotes value (decimal value) := ⟨hnil, hdigits, rfl⟩
        exact .inr (.inr ⟨_, hdenotes, Nat.lt_of_not_le fun hle => h ⟨_, hdenotes, hle⟩⟩)
      · obtain ⟨b, hb, hdigit⟩ := not_forall₂.mp hdigits
        exact .inr (.inl ⟨b, hb, Bool.eq_false_iff.mpr hdigit⟩)
  · rintro h ⟨n, ⟨hne, hdigits, rfl⟩, hle⟩
    rcases h with hnil | ⟨b, hb, hdigit⟩ | ⟨m, ⟨-, -, rfl⟩, hlt⟩
    · exact hne hnil
    · rw [hdigits b hb] at hdigit
      cases hdigit
    · omega

theorem parseContentLength_zeros (hne : value ≠ []) (zeros : Nat) :
    parseContentLength limit (List.replicate zeros 48 ++ value) = parseContentLength limit value := by
  have hloop : contentLengthFrom limit (List.replicate zeros 48 ++ value) 0 = contentLengthFrom limit value 0 := by
    induction zeros with
    | zero => rfl
    | succ zeros ih =>
      rw [List.replicate_succ, List.cons_append, contentLengthFrom, if_neg (by decide)]
      dsimp only
      rw [if_neg (Nat.not_lt_zero _)]
      exact ih
  rw [parseContentLength, parseContentLength, hloop, if_neg, if_neg]
  · simpa using hne
  · simp [hne]

section
variable {w : Nat} (hw : 16 ≤ w)
include hw

theorem parseContentLengthSize_of_denotes (h : Denotes value n) (hn : n ≤ 2 ^ w - 1) :
    parseContentLengthSize w value = if n > maxBodyBytes then .error .capacity else .ok (BitVec.ofNat w n) := by
  rw [parseContentLengthSize_eq hw, parseContentLength_of_denotes h hn]
  exact apply_ite _ _ _ _

theorem parseContentLengthSize_of_not (h : ¬ ∃ n, Denotes value n ∧ n ≤ 2 ^ w - 1) :
    parseContentLengthSize w value = .error .malformed := by
  have hpow : 2 ^ 16 ≤ 2 ^ w := Nat.pow_le_pow_right (by decide) hw
  rw [parseContentLengthSize_eq hw, parseContentLength_of_not (by omega)]
  · rfl
  · exact fun n hn => Nat.lt_of_not_le fun hle => h ⟨n, hn, hle⟩

theorem parseContentLengthSize_malformed_iff :
    parseContentLengthSize w value = .error .malformed ↔ ¬ ∃ n, Denotes value n ∧ n ≤ 2 ^ w - 1 := by
  constructor
  · rintro h ⟨n, hdenotes, hn⟩
    rw [parseContentLengthSize_of_denotes hw hdenotes hn] at h
    split at h <;> cases h
  · exact parseContentLengthSize_of_not hw

theorem parseContentLengthSize_capacity_iff :
    parseContentLengthSize w value = .error .capacity ↔
      ∃ n, Denotes value n ∧ maxBodyBytes < n ∧ n ≤ 2 ^ w - 1 := by
  constructor
  · intro h
    by_cases hsome : ∃ n, Denotes value n ∧ n ≤ 2 ^ w - 1
    · obtain ⟨n, hdenotes, hn⟩ := hsome
      rw [parseContentLengthSize_of_denotes hw hdenotes hn] at h
      split at h
      · next hlarge => exact ⟨n, hdenotes, hlarge, hn⟩
      · cases h
    · rw [parseContentLengthSize_of_not hw hsome] at h
      cases h
  · rintro ⟨n, hdenotes, hlarge, hn⟩
    rw [parseContentLengthSize_of_denotes hw hdenotes hn, if_pos hlarge]

theorem parseContentLengthSize_ok_iff :
    (∃ result, parseContentLengthSize w value = .ok result ∧ result.toNat = n) ↔
      Denotes value n ∧ n ≤ maxBodyBytes := by
  have hpow : 2 ^ 16 ≤ 2 ^ w := Nat.pow_le_pow_right (by decide) hw
  have hmax : maxBodyBytes = 8192 := rfl
  constructor
  · rintro ⟨result, h, rfl⟩
    by_cases hsome : ∃ n, Denotes value n ∧ n ≤ 2 ^ w - 1
    · obtain ⟨n, hdenotes, hn⟩ := hsome
      rw [parseContentLengthSize_of_denotes hw hdenotes hn] at h
      split at h
      · cases h
      · next hsmall =>
        obtain rfl := Except.ok.inj h
        rw [toNat_of_lt hw (by omega)]
        exact ⟨hdenotes, Nat.le_of_not_lt hsmall⟩
    · rw [parseContentLengthSize_of_not hw hsome] at h
      cases h
  · rintro ⟨hdenotes, hn⟩
    refine ⟨BitVec.ofNat w n, ?_, toNat_of_lt hw (by omega)⟩
    rw [parseContentLengthSize_of_denotes hw hdenotes (by omega), if_neg (Nat.not_lt.mpr hn)]

end

end Returned

theorem parseContentLength_size (value : Bytes) :
    parseContentLength sizeMax value = (parseContentLengthSize 64 value).map BitVec.toNat := by
  rw [parseContentLengthSize_eq (by decide)]
  change _ = ((parseContentLength sizeMax value).map (BitVec.ofNat 64)).map BitVec.toNat
  cases h : parseContentLength sizeMax value with
  | error status => rfl
  | ok n =>
    obtain ⟨-, hn⟩ := parseContentLength_ok_iff.mp h
    have hmax : maxBodyBytes = 8192 := rfl
    exact congrArg Except.ok (toNat_of_lt (by decide) (by omega)).symm

/-- **The number is exact.** In a `size_t` of any width from 16 bits on, nothing wraps: a value is `MALFORMED` when
it is empty, holds a byte that is no digit, or denotes a number above `SIZE_MAX`; it is `CAPACITY` when its number is
above the body limit only; and otherwise its number is the result, whatever zeros stand in front. -/
theorem parseContentLength_exact {w : Nat} (hw : 16 ≤ w) (value : Bytes) :
    (parseContentLengthSize w value = .error .malformed ↔
      value = [] ∨ (∃ b ∈ value, isDigit b = false) ∨ ∃ n, Denotes value n ∧ 2 ^ w - 1 < n) ∧
    (parseContentLengthSize w value = .error .capacity ↔ ∃ n, Denotes value n ∧ 8192 < n ∧ n ≤ 2 ^ w - 1) ∧
    (∀ n, (∃ result, parseContentLengthSize w value = .ok result ∧ result.toNat = n) ↔
      Denotes value n ∧ n ≤ 8192) ∧
    (∀ zeros, value ≠ [] →
      parseContentLengthSize w (List.replicate zeros 48 ++ value) = parseContentLengthSize w value) ∧
    parseContentLengthSize w value = (parseContentLength (2 ^ w - 1) value).map (BitVec.ofNat w) := by
  refine ⟨?_, parseContentLengthSize_capacity_iff hw, fun n => parseContentLengthSize_ok_iff hw, ?_,
    parseContentLengthSize_eq hw value⟩
  · rw [← not_denotes_iff]
    exact parseContentLengthSize_malformed_iff hw
  · intro zeros hne
    rw [parseContentLengthSize_eq hw, parseContentLengthSize_eq hw, parseContentLength_zeros hne]

/-- One above `SIZE_MAX` in 16 bits is `MALFORMED`, and too large a body in 64 bits. -/
theorem parseContentLength_exact_65536 :
    parseContentLengthSize 16 (ascii "65536".toList) = .error .malformed ∧
      parseContentLengthSize 64 (ascii "65536".toList) = .error .capacity := by
  have hdenotes : Denotes (ascii "65536".toList) 65536 := ⟨by decide, List.all_eq_true.mp (by decide), rfl⟩
  obtain ⟨hmalformed, -⟩ := parseContentLength_exact (Nat.le_refl 16) (ascii "65536".toList)
  obtain ⟨-, hcapacity, -⟩ := parseContentLength_exact (show 16 ≤ 64 by decide) (ascii "65536".toList)
  exact ⟨hmalformed.mpr (.inr (.inr ⟨_, hdenotes, by decide⟩)), hcapacity.mpr ⟨_, hdenotes, by decide, by decide⟩⟩

end TcpipCourse.L10
