import Mathlib.Logic.Relation
import Mathlib.Order.WellFounded

/-!
# Endless paths of a relation

* `Endless r a` : from `a` one can follow `r` forever;
* `endless_iff_not_acc` : that is, `a` is not accessible backwards;
* `endless_of_cycle` : a point that reaches a cycle is endless.
-/

namespace TcpipCourse.Lib
open Relation

variable {α : Type*} {r : α → α → Prop} {a b : α}

/-- An infinite path of `r` starts at `a`. -/
def Endless (r : α → α → Prop) (a : α) : Prop := ∃ path : Nat → α, path 0 = a ∧ ∀ n, r (path n) (path (n + 1))

theorem endless_iff_not_acc : Endless r a ↔ ¬ Acc (flip r) a :=
  (@not_acc_iff_exists_descending_chain α (flip r) a).symm

theorem acc_of_reaches (ha : Acc (flip r) a) (hab : ReflTransGen r a b) : Acc (flip r) b := by
  induction hab with
  | refl => exact ha
  | tail _ hstep ih => exact ih.inv hstep

/-- No accessible point lies on a cycle. -/
theorem not_acc_of_cycle (hcycle : TransGen r a a) : ¬ Acc (flip r) a := by
  intro hacc
  induction hacc with
  | intro x _ ih =>
    obtain ⟨y, hxy, hyx⟩ := TransGen.head'_iff.mp hcycle
    exact ih y hxy (TransGen.tail' hyx hxy)

theorem endless_of_cycle (hab : ReflTransGen r a b) (hcycle : TransGen r b b) : Endless r a := by
  rw [endless_iff_not_acc]
  intro ha
  exact not_acc_of_cycle hcycle (acc_of_reaches ha hab)

end TcpipCourse.Lib
