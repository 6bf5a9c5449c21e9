import Mathlib.Data.List.Nodup
import Mathlib.Data.List.Perm.Basic
import Mathlib.Data.List.Perm.Subperm
import Mathlib.Data.List.ReduceOption
import Mathlib.Tactic.Choose

/-!
# Tables of slots

A list of slots, each free or taken; what is in the taken ones is its `reduceOption`.

* `reduceOption_fill` : a free slot takes an element;
* `reduceOption_clear` : a taken slot is cleared;
* `length_le_of_charge` : a list is no longer than the numbers that its elements are charged to.
-/

namespace TcpipCourse.Lib

variable {α : Type*} {slots : List (Option α)} {i : Nat} {a : α}

/-- A table holds what is in one slot and what is in the others. -/
theorem reduceOption_perm {slot : Option α} (h : slots[i]? = some slot) :
    slots.reduceOption.Perm (slot.toList ++ (slots.eraseIdx i).reduceOption) := by
  obtain ⟨hlt, rfl⟩ := List.getElem?_eq_some_iff.mp h
  have hperm := (List.getElem_cons_eraseIdx_perm hlt).symm.filterMap id
  cases hslot : slots[i] with
  | none => simpa [List.reduceOption, hslot] using hperm
  | some a => simpa [List.reduceOption, hslot] using hperm

theorem reduceOption_set_perm (h : i < slots.length) (slot : Option α) :
    (slots.set i slot).reduceOption.Perm (slot.toList ++ (slots.eraseIdx i).reduceOption) := by
  have hget : (slots.set i slot)[i]? = some slot := List.getElem?_set_self h
  have hperm := reduceOption_perm hget
  rwa [List.eraseIdx_set_eq] at hperm

theorem reduceOption_fill (h : slots[i]? = some none) :
    (slots.set i (some a)).reduceOption.Perm (a :: slots.reduceOption) := by
  obtain ⟨hlt, -⟩ := List.getElem?_eq_some_iff.mp h
  exact (reduceOption_set_perm hlt (some a)).trans (List.Perm.cons a (reduceOption_perm h).symm)

theorem reduceOption_clear (h : slots[i]? = some (some a)) :
    slots.reduceOption.Perm (a :: (slots.set i none).reduceOption) := by
  obtain ⟨hlt, -⟩ := List.getElem?_eq_some_iff.mp h
  exact (reduceOption_perm h).trans (List.Perm.cons a (reduceOption_set_perm hlt none).symm)

/-- Different elements are charged to different numbers below `n`. -/
theorem length_le_of_charge {l : List α} (hl : l.Nodup) {charged : α → Nat → Prop} {n : Nat}
    (hsome : ∀ a ∈ l, ∃ m < n, charged a m)
    (hone : ∀ a ∈ l, ∀ b ∈ l, ∀ m, charged a m → charged b m → a = b) : l.length ≤ n := by
  choose! f hlt hf using hsome
  have hnodup : (l.map f).Nodup := by
    refine List.Nodup.map_on (fun a ha b hb heq => ?_) hl
    exact hone a ha b hb (f a) (hf a ha) (heq ▸ hf b hb)
  have hsub : l.map f ⊆ List.range n := by
    intro m hm
    obtain ⟨a, ha, rfl⟩ := List.mem_map.mp hm
    exact List.mem_range.mpr (hlt a ha)
  have hle := (hnodup.subperm hsub).length_le
  rwa [List.length_map, List.length_range] at hle

end TcpipCourse.Lib
