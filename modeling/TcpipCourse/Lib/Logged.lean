import Mathlib.Data.List.Basic

/-!
# Computations that log what they do

A `Logged ω α` returns a value and the events on the way to it, in order. What a function does to memory, or how
often it does something, is read off the log of a second copy of it whose values are those of the function.

* `Logged.tell` : one event; `value_bind`, `log_bind` : values and logs of a sequence;
* `Logged.All` : every event meets a condition; `all_bind` : one condition for each part of a sequence;
* `Logged.count` : how many events meet a test; `count_bind`.
-/

namespace TcpipCourse.Lib

structure Logged (ω α : Type) where
  log : List ω
  value : α

namespace Logged
variable {ω α β : Type}

instance : Monad (Logged ω) where
  pure a := ⟨[], a⟩
  bind t f := ⟨t.log ++ (f t.value).log, (f t.value).value⟩

/-- An event, and nothing else. -/
def tell (e : ω) : Logged ω Unit := ⟨[e], ()⟩

@[simp] theorem value_pure (a : α) : (pure a : Logged ω α).value = a := rfl

@[simp] theorem log_pure (a : α) : (pure a : Logged ω α).log = [] := rfl

@[simp] theorem value_bind (t : Logged ω α) (f : α → Logged ω β) : (t >>= f).value = (f t.value).value := rfl

@[simp] theorem log_bind (t : Logged ω α) (f : α → Logged ω β) : (t >>= f).log = t.log ++ (f t.value).log := rfl

@[simp] theorem log_tell (e : ω) : (tell e).log = [e] := rfl

@[simp] theorem value_ite (c : Prop) [Decidable c] (t u : Logged ω α) :
    (if c then t else u).value = if c then t.value else u.value := apply_ite _ _ _ _

/-! ## Every event -/

/-- Every event that is logged meets the condition. -/
def All (P : ω → Prop) (t : Logged ω α) : Prop := ∀ e ∈ t.log, P e

section
variable {P : ω → Prop}

@[simp] theorem all_pure (a : α) : All P (pure a : Logged ω α) := fun _ he => nomatch he

@[simp] theorem all_tell (e : ω) : All P (tell e) ↔ P e := by simp [All]

@[simp] theorem all_mk (e : ω) (a : α) : All P ⟨[e], a⟩ ↔ P e := by simp [All]

theorem all_bind {t : Logged ω α} {f : α → Logged ω β} : All P (t >>= f) ↔ All P t ∧ All P (f t.value) := by
  simp [All, or_imp, forall_and]

/-- The rule to go on with: the rest of a sequence starts from the value of its first part. -/
theorem All.bind {t : Logged ω α} {f : α → Logged ω β} (ht : All P t) (hf : All P (f t.value)) : All P (t >>= f) :=
  all_bind.mpr ⟨ht, hf⟩

theorem All.mono {Q : ω → Prop} {t : Logged ω α} (h : All P t) (hPQ : ∀ e, P e → Q e) : All Q t :=
  fun e he => hPQ e (h e he)

theorem All.ite {c : Prop} [Decidable c] {t u : Logged ω α} (ht : c → All P t) (hu : ¬c → All P u) :
    All P (if c then t else u) := by
  split
  · next h => exact ht h
  · next h => exact hu h

end

/-! ## How many events -/

/-- How many of the events meet the test. -/
def count (p : ω → Bool) (t : Logged ω α) : Nat := t.log.countP p

section
variable {p : ω → Bool}

@[simp] theorem count_pure (a : α) : count p (pure a : Logged ω α) = 0 := rfl

@[simp] theorem count_bind (t : Logged ω α) (f : α → Logged ω β) :
    count p (t >>= f) = count p t + count p (f t.value) := by
  simp [count, List.countP_append]

/-- Nothing is counted when no event meets the test. -/
theorem count_eq_zero {t : Logged ω α} (h : All (fun e => p e = false) t) : count p t = 0 := by
  unfold count
  rw [List.countP_eq_zero]
  exact fun e he => by simp [h e he]

end

end Logged

end TcpipCourse.Lib
