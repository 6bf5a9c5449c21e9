import Mathlib.Data.Rat.Floor
import Mathlib.Tactic.Linarith

/-!
# Signed arithmetic that must not overflow

A signed operation has no value when its result does not fit the type. `checked` computes one operation in a
type of `w` bits; a program of such operations returns `none` as soon as one overflows.

* `Fits` : the range of a type; it is an interval, and it grows with the width;
* `checked_bind` : an operation that fits goes on with its result; `checked_bind_eq_some` : when a program that
  starts with it returns;
* `le_ceil_mul`, `ceil_mul_lt` : a quotient rounded up is less than one unit too large.
-/

namespace TcpipCourse.Lib

/-- `x` is a value of the signed type with `w` bits. -/
def Fits (w : Nat) (x : Int) : Prop := -((2 ^ (w - 1) : Nat) : Int) ≤ x ∧ x < ((2 ^ (w - 1) : Nat) : Int)

instance (w : Nat) (x : Int) : Decidable (Fits w x) := inferInstanceAs (Decidable (_ ∧ _))

section
variable {v w : Nat} {x y : Int}

theorem Fits.mono (h : Fits v x) (hvw : v ≤ w) : Fits w x := by
  have hpow : 2 ^ (v - 1) ≤ 2 ^ (w - 1) := Nat.pow_le_pow_right (by decide) (by omega)
  obtain ⟨hlow, hhigh⟩ := h
  constructor <;> omega

theorem Fits.between {z : Int} (hx : Fits w x) (hz : Fits w z) (hxy : x ≤ y) (hyz : y ≤ z) : Fits w y :=
  ⟨le_trans hx.1 hxy, lt_of_le_of_lt hyz hz.2⟩

theorem fits_zero (w : Nat) : Fits w 0 := by
  have hpos : 0 < 2 ^ (w - 1) := Nat.two_pow_pos _
  constructor <;> omega

/-- There is one value more below zero than above, so that the predecessor of a difference fits too. -/
theorem Fits.sub (hx : Fits w x) (hy : Fits w y) (hx0 : 0 ≤ x) (hy0 : 0 ≤ y) :
    Fits w (x - y) ∧ Fits w (x - y - 1) := by
  obtain ⟨-, hx1⟩ := hx
  obtain ⟨-, hy1⟩ := hy
  refine ⟨⟨?_, ?_⟩, ⟨?_, ?_⟩⟩ <;> omega

theorem fits_64 (h0 : 0 ≤ x) (h1 : x < 9223372036854775808) : Fits 64 x :=
  ⟨by omega, h1⟩

/-- What fits 32 bits fits every type that is at least as wide. -/
theorem fits_of_int (hw : 32 ≤ w) (hlow : -2147483648 ≤ x) (hhigh : x ≤ 2147483647) : Fits w x := by
  have h32 : Fits 32 x := ⟨hlow, show x < 2147483648 by omega⟩
  exact h32.mono hw

end

/-- One operation in a type of `w` bits, whose result would be `x`. -/
def checked (w : Nat) (x : Int) : Option Int := if Fits w x then some x else none

section
variable {α : Type} {w : Nat} {x : Int}

theorem checked_of_fits (h : Fits w x) : checked w x = some x := if_pos h

theorem checked_bind (h : Fits w x) (f : Int → Option α) : (checked w x >>= f) = f x := by
  rw [checked_of_fits h]
  rfl

theorem checked_eq_some {y : Int} : checked w x = some y ↔ Fits w x ∧ x = y := by
  unfold checked
  split <;> simp_all

theorem checked_bind_eq_some {f : Int → Option α} {a : α} :
    (checked w x >>= f) = some a ↔ Fits w x ∧ f x = some a := by
  by_cases h : Fits w x
  · rw [checked_bind h]
    exact ⟨fun hf => ⟨h, hf⟩, fun hf => hf.2⟩
  · constructor
    · intro hf
      rw [checked, if_neg h] at hf
      cases hf
    · exact fun hf => absurd hf.1 h

end

/-! ## Rounding up -/

section
variable {d : Nat} (x : Int) (hd : 0 < d)
include hd

theorem le_ceil_mul : x ≤ ⌈(x : ℚ) / d⌉ * d := by
  have hq : (0 : ℚ) < d := by exact_mod_cast hd
  have h : (x : ℚ) ≤ ⌈(x : ℚ) / d⌉ * d := (div_le_iff₀ hq).mp (Int.le_ceil _)
  exact_mod_cast h

theorem ceil_mul_lt : ⌈(x : ℚ) / d⌉ * d < x + d := by
  have hq : (0 : ℚ) < d := by exact_mod_cast hd
  have h := (lt_div_iff₀ hq).mp (sub_lt_iff_lt_add.mpr (Int.ceil_lt_add_one ((x : ℚ) / d)))
  have h' : (⌈(x : ℚ) / d⌉ : ℚ) * d < x + d := by linarith
  exact_mod_cast h'

/-- The quotient rounded up is the only multiple of `d` in this range. -/
theorem ceil_eq {q : Int} (hlow : x ≤ q * d) (hhigh : q * d < x + d) : ⌈(x : ℚ) / d⌉ = q := by
  have hpos : (0 : Int) < d := by exact_mod_cast hd
  have h1 := le_ceil_mul x hd
  have h2 := ceil_mul_lt x hd
  apply le_antisymm
  · apply Int.le_of_lt_add_one
    apply lt_of_mul_lt_mul_right (a := (d : Int)) _ hpos.le
    linarith
  · apply Int.le_of_lt_add_one
    apply lt_of_mul_lt_mul_right (a := (d : Int)) _ hpos.le
    linarith

end

end TcpipCourse.Lib
