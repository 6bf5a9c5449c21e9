import Mathlib.Data.List.Basic

/-!
# Items read one behind the other

`item s a t` : at position `s` stands the item `a`, and the next one starts at `t`.

* `Reads item s as t` : the items `as` stand one behind the other from `s` to `t`;
* `reads_cons_iff`, `reads_append_iff` : sequences cut in two, and put together.
-/

namespace TcpipCourse.Lib

variable {σ α : Type*}

/-- The items `as`, one behind the other, from `s` to `t`. -/
inductive Reads (item : σ → α → σ → Prop) : σ → List α → σ → Prop
  | nil (s : σ) : Reads item s [] s
  | cons {s t u : σ} {a : α} {as : List α} (head : item s a t) (tail : Reads item t as u) : Reads item s (a :: as) u

section Reads
variable {item : σ → α → σ → Prop} {s t u : σ} {as bs : List α}

theorem reads_nil_iff : Reads item s [] t ↔ s = t := by
  constructor
  · rintro ⟨⟩
    rfl
  · rintro rfl
    exact .nil s

theorem reads_cons_iff {a : α} : Reads item s (a :: as) u ↔ ∃ t, item s a t ∧ Reads item t as u := by
  constructor
  · rintro (_ | ⟨head, tail⟩)
    exact ⟨_, head, tail⟩
  · rintro ⟨t, head, tail⟩
    exact .cons head tail

theorem reads_append_iff : Reads item s (as ++ bs) u ↔ ∃ t, Reads item s as t ∧ Reads item t bs u := by
  induction as generalizing s with
  | nil => simp [reads_nil_iff]
  | cons a as ih =>
    simp only [List.cons_append, reads_cons_iff, ih]
    constructor
    · rintro ⟨v, head, t, tail, hbs⟩
      exact ⟨t, ⟨v, head, tail⟩, hbs⟩
    · rintro ⟨t, ⟨v, head, tail⟩, hbs⟩
      exact ⟨v, head, t, tail, hbs⟩

end Reads

end TcpipCourse.Lib
