import Mathlib.Data.List.Perm.Subperm
import Mathlib.Order.Bounds.Defs

/-!
# The first candidate that fits

* `find?_first` : in a sorted list, what `find?` returns comes before everything else that fits;
* `findIdx?_eq_some_iff_isLeast` : `findIdx?` returns the least index that fits;
* `exists_mem_notMem_of_length_lt` : a list without duplicates has an entry outside any shorter list.
-/

namespace TcpipCourse.Lib

variable {α : Type*} {l : List α} {p : α → Bool} {a : α}

theorem find?_first {r : α → α → Prop} (hl : l.Pairwise r) (h : l.find? p = some a) {b : α} (hb : b ∈ l)
    (hp : p b = true) : b = a ∨ r a b := by
  obtain ⟨-, before, after, rfl, hbefore⟩ := List.find?_eq_some_iff_append.mp h
  rcases List.mem_append.mp hb with hb | hb
  · have := hbefore b hb
    simp [hp] at this
  · rcases List.mem_cons.mp hb with rfl | hb
    · exact .inl rfl
    · exact .inr ((List.pairwise_cons.mp (List.pairwise_append.mp hl).2.1).1 b hb)

theorem findIdx?_eq_some_iff_isLeast {i : Nat} :
    l.findIdx? p = some i ↔ IsLeast {j | ∃ b, l[j]? = some b ∧ p b = true} i := by
  rw [List.findIdx?_eq_some_iff_getElem]
  constructor
  · rintro ⟨hi, hp, hbefore⟩
    refine ⟨⟨l[i], List.getElem?_eq_getElem hi, hp⟩, ?_⟩
    rintro j ⟨b, hb, hpb⟩
    obtain ⟨hj, rfl⟩ := List.getElem?_eq_some_iff.mp hb
    apply Nat.le_of_not_lt
    intro hji
    exact hbefore j hji hpb
  · rintro ⟨⟨b, hb, hpb⟩, hleast⟩
    obtain ⟨hi, rfl⟩ := List.getElem?_eq_some_iff.mp hb
    refine ⟨hi, hpb, fun j hji hpj => ?_⟩
    have hle : i ≤ j := hleast ⟨l[j], List.getElem?_eq_getElem (by omega), hpj⟩
    omega

theorem exists_mem_notMem_of_length_lt {used : List α} (hl : l.Nodup) (h : used.length < l.length) :
    ∃ b ∈ l, b ∉ used := by
  by_contra hnone
  push Not at hnone
  have := (List.subperm_of_subset hl hnone).length_le
  omega

end TcpipCourse.Lib
