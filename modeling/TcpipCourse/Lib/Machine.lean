import Mathlib.Data.List.Induction

/-!
# Runs of a deterministic machine

A `Machine` answers every input with an output and a successor state.

* `run` : the state after a list of inputs (`run_append`); `answers` : what they were answered;
* `run_invariant` : what every step preserves, every run preserves; `trace_invariant` : the same for what
  relates the state to the answers so far;
* `Along P` : every step of a run meets `P` (`along_of_take`); `run_invariant_of_along` is the rule for
  invariants that only hold while the environment keeps its side;
* `run_done` : a rank that every step lowers bounds the length of a run; `Stalling`, `run_done_of_stalling` : the same
  where some steps do not lower it;
* `exists_establishing_step` : a property false at the start and true at the end was established by
  one step and has held ever since.
-/

namespace TcpipCourse.Lib

/-- A deterministic machine over states `σ`, inputs `ι` and outputs `ο`. -/
structure Machine (σ ι ο : Type*) where
  step : σ → ι → σ × ο

namespace Machine

variable {σ ι ο : Type*} (M : Machine σ ι ο)

/-- The state after one input. -/
def next (s : σ) (i : ι) : σ := (M.step s i).1

/-- The answer to one input. -/
def out (s : σ) (i : ι) : ο := (M.step s i).2

/-- The state after a list of inputs. -/
def run : σ → List ι → σ
  | s, [] => s
  | s, i :: is => run (M.next s i) is

@[simp] theorem run_nil (s : σ) : M.run s [] = s := rfl

@[simp] theorem run_cons (s : σ) (i : ι) (is : List ι) :
    M.run s (i :: is) = M.run (M.next s i) is := rfl

theorem run_append (s : σ) (is js : List ι) : M.run s (is ++ js) = M.run (M.run s is) js := by
  induction is generalizing s with
  | nil => rfl
  | cons i is ih => exact ih (M.next s i)

/-- The answers to a list of inputs. -/
def answers : σ → List ι → List ο
  | _, [] => []
  | s, i :: is => M.out s i :: answers (M.next s i) is

theorem answers_append (s : σ) (is js : List ι) :
    M.answers s (is ++ js) = M.answers s is ++ M.answers (M.run s is) js := by
  induction is generalizing s with
  | nil => rfl
  | cons i is ih => exact congrArg (M.out s i :: ·) (ih (M.next s i))

/-- What every step preserves, every run preserves. -/
theorem run_invariant {Inv : σ → Prop} (hstep : ∀ s i, Inv s → Inv (M.next s i)) {s : σ} (hs : Inv s)
    (is : List ι) : Inv (M.run s is) := by
  induction is generalizing s with
  | nil => exact hs
  | cons i is ih => exact ih (hstep s i hs)

/-- What every step preserves of the state and of the answers so far, every run preserves. -/
theorem trace_invariant {Inv : List ο → σ → Prop}
    (hstep : ∀ os s i, Inv os s → Inv (os ++ [M.out s i]) (M.next s i)) {s : σ} (hs : Inv [] s)
    (is : List ι) : Inv (M.answers s is) (M.run s is) := by
  induction is using List.reverseRecOn with
  | nil => exact hs
  | append_singleton is i ih =>
    rw [run_append, answers_append]
    exact hstep _ _ i ih

/-- A run is done after as many steps as the rank of its first state allows. -/
theorem run_done {Inv Done : σ → Prop} {rank : σ → Nat} (hinv : ∀ s i, Inv s → Inv (M.next s i))
    (hdone : ∀ s i, Done s → Done (M.next s i))
    (hrank : ∀ s i, Inv s → ¬ Done s → rank (M.next s i) < rank s) {s : σ} (hs : Inv s) {is : List ι}
    (hlen : rank s < is.length) : Done (M.run s is) := by
  induction is generalizing s with
  | nil => simp at hlen
  | cons i is ih =>
    by_cases hd : Done s
    · exact M.run_invariant hdone (hdone s i hd) is
    · have hlt := hrank s i hs hd
      rw [List.length_cons] at hlen
      exact ih (hinv s i hs) (by omega)

/-- Every step of the run from `s` is a `Move`, but for `k` that are a `Stall`. -/
inductive Stalling (Move Stall : σ → ι → Prop) : Nat → σ → List ι → Prop
  | nil (s : σ) : Stalling Move Stall 0 s []
  | move {k : Nat} {s : σ} {i : ι} {is : List ι} (h : Move s i) (rest : Stalling Move Stall k (M.next s i) is) :
      Stalling Move Stall k s (i :: is)
  | stall {k : Nat} {s : σ} {i : ι} {is : List ι} (h : Stall s i) (rest : Stalling Move Stall k (M.next s i) is) :
      Stalling Move Stall (k + 1) s (i :: is)

theorem stalling_of_moves {Move Stall : σ → ι → Prop} {is : List ι} (h : ∀ s, ∀ i ∈ is, Move s i) (s : σ) :
    M.Stalling Move Stall 0 s is := by
  induction is generalizing s with
  | nil => exact .nil s
  | cons i is ih =>
    exact .move (h s i List.mem_cons_self) (ih (fun s j hj => h s j (List.mem_cons_of_mem _ hj)) (M.next s i))

/-- Moves lower a rank and stalls raise it by `c` at most: a run is done after as many steps as the rank of its first
state and its stalls allow. -/
theorem run_done_of_stalling {Inv Done : σ → Prop} {Move Stall : σ → ι → Prop} {rank : σ → Nat} {c : Nat}
    (hinv : ∀ s i, Inv s → Move s i ∨ Stall s i → Inv (M.next s i)) (hdone : ∀ s i, Done s → Done (M.next s i))
    (hmove : ∀ s i, Inv s → ¬ Done s → Move s i → rank (M.next s i) < rank s)
    (hstall : ∀ s i, Inv s → ¬ Done s → Stall s i → rank (M.next s i) ≤ rank s + c) {k : Nat} {s : σ} {is : List ι}
    (h : M.Stalling Move Stall k s is) (hs : Inv s) (hlen : rank s + (c + 1) * k < is.length) :
    Inv (M.run s is) ∧ Done (M.run s is) := by
  have hkeep : Inv (M.run s is) := by
    clear hlen
    induction h with
    | nil s => exact hs
    | move hi _ ih => exact ih (hinv _ _ hs (.inl hi))
    | stall hi _ ih => exact ih (hinv _ _ hs (.inr hi))
  refine ⟨hkeep, ?_⟩
  clear hkeep
  induction h with
  | nil s => simp at hlen
  | @move k s i is hi _ ih =>
    by_cases hd : Done s
    · exact M.run_invariant hdone (hdone s i hd) is
    · have hlt := hmove s i hs hd hi
      rw [List.length_cons] at hlen
      exact ih (hinv s i hs (.inl hi)) (by omega)
  | @stall k s i is hi _ ih =>
    by_cases hd : Done s
    · exact M.run_invariant hdone (hdone s i hd) is
    · have hle := hstall s i hs hd hi
      rw [List.length_cons, Nat.mul_succ] at hlen
      exact ih (hinv s i hs (.inr hi)) (by omega)

/-- Every step of the run from `s` meets `P` at the state where it is taken. -/
def Along (P : σ → ι → Prop) : σ → List ι → Prop
  | _, [] => True
  | s, i :: is => P s i ∧ Along P (M.next s i) is

theorem along_of_take {P : σ → ι → Prop} {s : σ} {is : List ι}
    (h : ∀ k i, is[k]? = some i → P (M.run s (is.take k)) i) : M.Along P s is := by
  induction is generalizing s with
  | nil => trivial
  | cons i is ih => exact ⟨h 0 i rfl, ih fun k j hj => h (k + 1) j hj⟩

/-- What every step that meets `P` preserves, a run along `P` preserves. -/
theorem run_invariant_of_along {Inv : σ → Prop} {P : σ → ι → Prop}
    (hstep : ∀ s i, Inv s → P s i → Inv (M.next s i)) {s : σ} (hs : Inv s) {is : List ι}
    (hP : M.Along P s is) : Inv (M.run s is) := by
  induction is generalizing s with
  | nil => exact hs
  | cons i is ih => exact ih (hstep s i hs hP.1) hP.2

/-- A property that fails at the start and holds at the end of a run was established by one step of
it and has held after every step since. -/
theorem exists_establishing_step (Q : σ → Prop) {s : σ} (h0 : ¬ Q s) {is : List ι}
    (h1 : Q (M.run s is)) :
    ∃ pre i post, is = pre ++ i :: post ∧ ¬ Q (M.run s pre) ∧
      ∀ mid rest, post = mid ++ rest → Q (M.run (M.next (M.run s pre) i) mid) := by
  induction is using List.reverseRecOn with
  | nil => exact absurd h1 h0
  | append_singleton is i ih =>
    by_cases hq : Q (M.run s is)
    · obtain ⟨pre, j, post, rfl, hpre, hpost⟩ := ih hq
      refine ⟨pre, j, post ++ [i], by simp, hpre, fun mid rest hmid => ?_⟩
      rcases List.eq_nil_or_concat rest with rfl | ⟨rest', k, rfl⟩
      · rw [List.append_nil] at hmid
        subst hmid
        simpa [run_append] using h1
      · rw [List.concat_eq_append, ← List.append_assoc] at hmid
        exact hpost mid rest' (List.append_inj_left' hmid rfl)
    · refine ⟨is, i, [], rfl, hq, fun mid rest hmid => ?_⟩
      obtain ⟨rfl, -⟩ := List.append_eq_nil_iff.mp hmid.symm
      simpa [run_append] using h1

end Machine

end TcpipCourse.Lib
