import Mathlib.Data.List.Basic

/-!
# Sweeping a table

* `sweep expired blank l` : every entry that `expired` holds of is replaced by `blank`;
* `countP_sweep_add`, `sweep_sweep` : a sweep followed by a wider one is the wider one, and the two
  counts add up;
* `countP_sweep_self`, `sweep_sweep_self` : a sweep leaves nothing for the same sweep.
-/

namespace TcpipCourse.Lib

variable {α : Type*} {expired wider : α → Bool} {blank : α}

def sweep (expired : α → Bool) (blank : α) (l : List α) : List α :=
  l.map fun a => if expired a then blank else a

theorem getElem?_sweep (expired : α → Bool) (blank : α) (l : List α) (i : Nat) :
    (sweep expired blank l)[i]? = l[i]?.map fun a => if expired a then blank else a := by
  simp [sweep]

theorem sweep_sweep (h : ∀ a, expired a = true → wider a = true) (hblank : wider blank = false) (l : List α) :
    sweep wider blank (sweep expired blank l) = sweep wider blank l := by
  simp only [sweep, List.map_map]
  apply List.map_congr_left
  intro a _
  by_cases ha : expired a = true
  · simp [ha, hblank, h a ha]
  · simp [ha]

theorem countP_sweep_add (h : ∀ a, expired a = true → wider a = true) (hblank : wider blank = false)
    (l : List α) : l.countP expired + (sweep expired blank l).countP wider = l.countP wider := by
  induction l with
  | nil => rfl
  | cons a l ih =>
    simp only [sweep, List.map_cons, List.countP_cons] at ih ⊢
    by_cases ha : expired a = true
    · simp only [ha, h a ha, hblank, if_true, Bool.false_eq_true, if_false]
      omega
    · simp only [ha, Bool.false_eq_true, if_false]
      omega

theorem countP_sweep_self (hblank : expired blank = false) (l : List α) :
    (sweep expired blank l).countP expired = 0 := by
  have := countP_sweep_add (fun _ h => h) hblank l
  omega

theorem sweep_sweep_self (hblank : expired blank = false) (l : List α) :
    sweep expired blank (sweep expired blank l) = sweep expired blank l :=
  sweep_sweep (fun _ h => h) hblank l

end TcpipCourse.Lib
