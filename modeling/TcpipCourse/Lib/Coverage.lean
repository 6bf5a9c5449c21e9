import Mathlib.Data.Finset.Card
import Mathlib.Data.Nat.Find
import Mathlib.Order.Interval.Finset.Nat

/-!
# Coverage of a stream by segments

A segment covers the positions `[o, o + n)`. What a list of segments covers is a finite set, so it does
not depend on their order (`covered_perm`), and `firstGap` is the length of the longest covered prefix.

* `stretch o n` : the positions of one segment; `covered`, `mem_covered`, `covered_append_singleton`;
* `firstGap s` : the least position not in `s`; `mem_of_lt_firstGap`, `firstGap_notMem`, `le_firstGap`.
-/

namespace TcpipCourse.Lib

/-- The positions `[o, o + n)`. -/
def stretch (o n : Nat) : Finset Nat := Finset.Ico o (o + n)

@[simp] theorem mem_stretch {o n i : Nat} : i ∈ stretch o n ↔ o ≤ i ∧ i < o + n := Finset.mem_Ico

/-- What a list of segments covers. -/
def covered : List (Nat × Nat) → Finset Nat
  | [] => ∅
  | s :: ss => stretch s.1 s.2 ∪ covered ss

theorem mem_covered {ss : List (Nat × Nat)} {i : Nat} :
    i ∈ covered ss ↔ ∃ s ∈ ss, s.1 ≤ i ∧ i < s.1 + s.2 := by
  induction ss with
  | nil => simp [covered]
  | cons s ss ih => simp [covered, ih]

/-- The order in which segments arrive does not matter. -/
theorem covered_perm {ss ts : List (Nat × Nat)} (h : ss.Perm ts) : covered ss = covered ts := by
  ext i
  rw [mem_covered, mem_covered]
  exact ⟨fun ⟨s, hs, hi⟩ => ⟨s, h.mem_iff.mp hs, hi⟩, fun ⟨s, hs, hi⟩ => ⟨s, h.mem_iff.mpr hs, hi⟩⟩

theorem covered_append_singleton (ss : List (Nat × Nat)) (s : Nat × Nat) :
    covered (ss ++ [s]) = stretch s.1 s.2 ∪ covered ss := by
  ext i
  simp only [mem_covered, Finset.mem_union, mem_stretch, List.mem_append, List.mem_singleton]
  constructor
  · rintro ⟨t, ht | rfl, hi⟩
    · exact .inr ⟨t, ht, hi⟩
    · exact .inl hi
  · rintro (hi | ⟨t, ht, hi⟩)
    · exact ⟨s, .inr rfl, hi⟩
    · exact ⟨t, .inl ht, hi⟩

theorem exists_gap (s : Finset Nat) : ∃ i, i ∉ s := Infinite.exists_notMem_finset s

/-- The least position outside `s`: the length of the longest prefix of the positions inside it. -/
def firstGap (s : Finset Nat) : Nat := Nat.find (exists_gap s)

theorem firstGap_notMem (s : Finset Nat) : firstGap s ∉ s := Nat.find_spec (exists_gap s)

theorem mem_of_lt_firstGap {s : Finset Nat} {i : Nat} (h : i < firstGap s) : i ∈ s :=
  not_not.mp (Nat.find_min (exists_gap s) h)

theorem le_firstGap {s : Finset Nat} {n : Nat} (h : ∀ i < n, i ∈ s) : n ≤ firstGap s := by
  by_contra hlt
  exact firstGap_notMem s (h _ (not_le.mp hlt))

theorem firstGap_le {s : Finset Nat} {n : Nat} (h : s ⊆ Finset.range n) : firstGap s ≤ n := by
  by_contra hlt
  have := Finset.mem_range.mp (h (mem_of_lt_firstGap (not_le.mp hlt)))
  omega

theorem firstGap_eq {s : Finset Nat} {n : Nat} (h : ∀ i < n, i ∈ s) (hn : n ∉ s) : firstGap s = n :=
  le_antisymm (not_lt.mp fun hlt => hn (mem_of_lt_firstGap hlt)) (le_firstGap h)

end TcpipCourse.Lib
