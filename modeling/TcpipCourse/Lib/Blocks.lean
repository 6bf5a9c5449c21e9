import Mathlib

/-!
# Aligned blocks of numbers

* `block k n` : the numbers that agree with `n` above their low `k` bits;
* `block_subset`, `block_nested` : of two blocks that meet, the one with fewer free bits lies in the other.
-/

namespace TcpipCourse.Lib

variable {k m n n' x : Nat}

/-- The numbers that agree with `n` above their low `k` bits. -/
def block (k n : Nat) : Set Nat := {x | x / 2 ^ k = n / 2 ^ k}

theorem mem_block : x ∈ block k n ↔ x / 2 ^ k = n / 2 ^ k := Iff.rfl

theorem block_eq_of_mem (h : x ∈ block k n) : block k n = block k x := by
  ext y
  rw [mem_block, mem_block, mem_block.mp h]

theorem block_mono (hle : k ≤ m) : block k n ⊆ block m n := by
  intro y hy
  have hpow : 2 ^ m = 2 ^ k * 2 ^ (m - k) := by rw [← Nat.pow_add, Nat.add_sub_cancel' hle]
  rw [mem_block, hpow, ← Nat.div_div_eq_div_mul, ← Nat.div_div_eq_div_mul, mem_block.mp hy]

theorem block_subset (h : x ∈ block k n) (h' : x ∈ block m n') (hle : k ≤ m) : block k n ⊆ block m n' := by
  rw [block_eq_of_mem h, block_eq_of_mem h']
  exact block_mono hle

/-- Two blocks are nested or have nothing in common. -/
theorem block_nested (k m n n' : Nat) :
    block k n ⊆ block m n' ∨ block m n' ⊆ block k n ∨ Disjoint (block k n) (block m n') := by
  by_cases hmeet : ∃ x, x ∈ block k n ∧ x ∈ block m n'
  · obtain ⟨x, h, h'⟩ := hmeet
    rcases Nat.le_total k m with hle | hle
    · exact .inl (block_subset h h' hle)
    · exact .inr (.inl (block_subset h' h hle))
  · refine .inr (.inr (Set.disjoint_left.mpr fun x h h' => hmeet ⟨x, h, h'⟩))

end TcpipCourse.Lib
