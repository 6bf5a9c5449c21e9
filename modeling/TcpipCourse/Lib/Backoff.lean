import Mathlib.Tactic.Ring

/-!
# Exponential backoff on a clock that saturates

Rounds follow each other on a clock that stops at `limit`; the first interval is `r`, and every later one is
twice the one before it, at most `limit`.

* `interval`, `roundStart` : the closed forms;
* `interval_succ`, `roundStart_succ` : the recurrences, with the saturation in each step;
* `roundStart_lt_succ` : a round that starts below the limit is not empty.
-/

namespace TcpipCourse.Lib

/-- The interval of round `k`. -/
def interval (limit r k : Nat) : Nat := min limit (r * 2 ^ k)

/-- The clock at the start of round `k`: the sum of the intervals before it. -/
def roundStart (limit r k : Nat) : Nat := min limit (r * (2 ^ k - 1))

section Rounds
variable {limit r k : Nat}

theorem interval_zero (h : r ≤ limit) : interval limit r 0 = r := by
  rw [interval, Nat.pow_zero, Nat.mul_one, Nat.min_eq_right h]

@[simp] theorem roundStart_zero : roundStart limit r 0 = 0 := by
  rw [roundStart, Nat.pow_zero, Nat.sub_self, Nat.mul_zero, Nat.min_eq_right (Nat.zero_le _)]

theorem interval_le : interval limit r k ≤ limit := Nat.min_le_left _ _

theorem roundStart_le : roundStart limit r k ≤ limit := Nat.min_le_left _ _

theorem interval_succ : interval limit r (k + 1) = min limit (2 * interval limit r k) := by
  have hpow : r * 2 ^ (k + 1) = 2 * (r * 2 ^ k) := by ring
  rw [interval, interval, hpow]
  omega

theorem roundStart_succ :
    roundStart limit r (k + 1) = min limit (roundStart limit r k + interval limit r k) := by
  have hpos : 1 ≤ 2 ^ k := Nat.one_le_two_pow
  have hsum : r * (2 ^ (k + 1) - 1) = r * (2 ^ k - 1) + r * 2 ^ k := by
    rw [← Nat.mul_add, Nat.pow_succ]
    congr 1
    omega
  rw [roundStart, roundStart, interval, hsum]
  omega

theorem interval_pos (hlimit : 0 < limit) (hr : 0 < r) : 0 < interval limit r k := by
  rw [interval, Nat.lt_min]
  exact ⟨hlimit, Nat.mul_pos hr (Nat.two_pow_pos k)⟩

theorem roundStart_lt_iff : roundStart limit r k < limit ↔ r * (2 ^ k - 1) < limit := by
  rw [roundStart]
  omega

theorem roundStart_lt_succ (hr : 0 < r) (h : roundStart limit r k < limit) :
    roundStart limit r k < roundStart limit r (k + 1) := by
  have hpos := interval_pos (k := k) (Nat.lt_of_le_of_lt (Nat.zero_le _) h) hr
  rw [roundStart_succ, Nat.lt_min]
  omega

theorem roundStart_mono {m n : Nat} (h : m ≤ n) : roundStart limit r m ≤ roundStart limit r n := by
  have hpow : 2 ^ m ≤ 2 ^ n := Nat.pow_le_pow_right (by omega) h
  have hmul : r * (2 ^ m - 1) ≤ r * (2 ^ n - 1) := Nat.mul_le_mul_left r (by omega)
  rw [roundStart, roundStart]
  omega

end Rounds

end TcpipCourse.Lib
