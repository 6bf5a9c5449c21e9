import TcpipCourse.Lib.Logged
import TcpipCourse.Lib.Span

/-!
# Loops over a span

`for (i = first; i < first + count; i++)` with one element a turn and a way out.

* `loopList` : the loop over a list; `loopSpan` : the same loop over positions, with the reads of each turn logged;
* `loopSpan_value` : the loop over positions returns what the loop over the span returns;
* `loopSpan_all` : it reads inside the span only.
-/

namespace TcpipCourse.Lib

variable {α β σ ω : Type} (turn : σ → α → β ⊕ σ) (done : σ → β)

/-- `.inl` leaves the loop with a result, `.inr` goes on. -/
def loopList : List α → σ → β
  | [], s => done s
  | a :: l, s =>
    match turn s a with
    | .inl b => b
    | .inr s => loopList l s

namespace Logged

def loopSpan (read : Nat → Logged ω α) : (count index : Nat) → σ → Logged ω β
  | 0, _, s => pure (done s)
  | count + 1, index, s => do
    let a ← read index
    match turn s a with
    | .inl b => pure b
    | .inr s => loopSpan read count (index + 1) s

variable {turn done} {read : Nat → Logged ω α}

theorem loopSpan_value {l : List α} {d : α} (hread : ∀ index, (read index).value = l.getD index d) {count : Nat} :
    ∀ {index : Nat} (s : σ), index + count ≤ l.length →
      (loopSpan turn done read count index s).value = loopList turn done (slice l index count) s := by
  induction count with
  | zero => exact fun _ _ => rfl
  | succ count ih =>
    intro index s hin
    rw [loopSpan, value_bind, hread, slice_succ (by omega) count d, loopList]
    cases turn s (l.getD index d) with
    | inl b => rfl
    | inr s => exact ih s (by omega)

theorem loopSpan_all {P : ω → Prop} {count : Nat} : ∀ {index : Nat} (s : σ),
    (∀ i, index ≤ i → i < index + count → All P (read i)) → All P (loopSpan turn done read count index s) := by
  induction count with
  | zero => exact fun _ _ => all_pure _
  | succ count ih =>
    intro index s hread
    rw [loopSpan]
    refine (hread index (Nat.le_refl _) (by omega)).bind ?_
    cases turn s (read index).value with
    | inl b => exact all_pure b
    | inr s => exact ih s fun i hfirst hlast => hread i (by omega) (by omega)

end Logged

end TcpipCourse.Lib
