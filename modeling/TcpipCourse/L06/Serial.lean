import TcpipCourse.Common

/-!
# Lesson 06: sequence numbers that wrap

* `seqBefore`, `seqDistance` : the comparison and the distance of two sequence numbers;
* `seqAt` : the sequence number of a stream position; `seqDistance_seqAt`, `seqBefore_seqAt` : positions less than half
  the number space apart are compared and measured as they are;
* `seqBefore_asymm`, `seqBefore_total` : of two numbers at most one is before the other, and one is unless they are the
  same or half the space apart.
-/

namespace TcpipCourse.L06

def serialHalfRange : UInt32 := 0x80000000

def seqBefore (first second : UInt32) : Bool :=
  let distance := second - first
  distance ≠ 0 && distance < serialHalfRange

def seqDistance (first second : UInt32) : UInt32 := second - first

/-- The sequence number of position `i` of a stream, which may be longer than the number space. -/
def seqAt (initialSeq : UInt32) (i : Nat) : UInt32 := initialSeq + UInt32.ofNat i

theorem seqBefore_iff {first second : UInt32} :
    seqBefore first second = true ↔
      0 < (seqDistance first second).toNat ∧ (seqDistance first second).toNat < 2147483648 := by
  unfold seqBefore seqDistance serialHalfRange
  rw [Bool.and_eq_true, decide_eq_true_eq, decide_eq_true_eq, UInt32.lt_iff_toNat_lt, Ne, ← UInt32.toNat_inj]
  exact and_congr_left' Nat.pos_iff_ne_zero.symm

section Positions
variable (initialSeq : UInt32) {i j : Nat}

theorem toNat_seqDistance_seqAt : (seqDistance (seqAt initialSeq i) (seqAt initialSeq j)).toNat =
    (4294967296 - i % 4294967296 + j) % 4294967296 := by
  have hbase := initialSeq.toNat_lt
  unfold seqDistance seqAt
  rw [UInt32.toNat_sub, UInt32.toNat_add, UInt32.toNat_add, UInt32.toNat_ofNat', UInt32.toNat_ofNat']
  omega

theorem seqDistance_seqAt (hle : i ≤ j) (hlt : j < i + 4294967296) :
    (seqDistance (seqAt initialSeq i) (seqAt initialSeq j)).toNat = j - i := by
  rw [toNat_seqDistance_seqAt]
  omega

/-- Less than half the number space apart, the order of the numbers is that of the positions. -/
theorem seqBefore_seqAt (hij : j < i + 2147483648) (hji : i < j + 2147483648) :
    seqBefore (seqAt initialSeq i) (seqAt initialSeq j) = true ↔ i < j := by
  rw [seqBefore_iff, toNat_seqDistance_seqAt]
  omega

end Positions

/-! ## Any two numbers -/

theorem toNat_seqDistance_add {first second : UInt32} (hne : first ≠ second) :
    (seqDistance first second).toNat + (seqDistance second first).toNat = 4294967296 := by
  have hfirst := first.toNat_lt
  have hsecond := second.toNat_lt
  have hne' : first.toNat ≠ second.toNat := fun h => hne (UInt32.toNat_inj.mp h)
  unfold seqDistance
  rw [UInt32.toNat_sub, UInt32.toNat_sub]
  omega

theorem seqBefore_asymm {first second : UInt32} (h : seqBefore first second = true) :
    seqBefore second first = false := by
  rw [← Bool.not_eq_true, seqBefore_iff]
  rw [seqBefore_iff] at h
  by_cases hne : first = second
  · have hzero : (seqDistance first second).toNat = 0 := by rw [hne, seqDistance, UInt32.sub_self]; rfl
    omega
  · have hsum := toNat_seqDistance_add hne
    omega

/-- Numbers half the space apart are the only two that are not ordered. -/
theorem seqBefore_total {first second : UInt32} (hne : first ≠ second)
    (hhalf : seqDistance first second ≠ serialHalfRange) :
    seqBefore first second = true ∨ seqBefore second first = true := by
  have hsum := toNat_seqDistance_add hne
  have hhalf' : (seqDistance first second).toNat ≠ 2147483648 := fun h => hhalf (UInt32.toNat_inj.mp h)
  have hlt := (seqDistance first second).toNat_lt
  have hlt' := (seqDistance second first).toNat_lt
  rw [seqBefore_iff, seqBefore_iff]
  omega

end TcpipCourse.L06
