import Mathlib.Data.Set.Basic

/-!
# Code words that cannot be mistaken for one another

A list of words is sent as the concatenation of their codes, and may be cut anywhere.

* `PrefixFree` : no code starts with another one, and none is empty;
* `PrefixFree.prefix_of_flatMap` : whoever reads whole codes off a concatenation reads its first words;
* `PrefixFree.prefix_of_cut` : a code that was cut short is not read.
-/

namespace TcpipCourse.Lib

variable {π α : Type*} {S : Set π} {code : π → List α}

/-- Two words of `S` whose codes start one list are the same word, and no code is empty. -/
structure PrefixFree (S : Set π) (code : π → List α) : Prop where
  ne_nil : ∀ p ∈ S, code p ≠ []
  inj : ∀ p ∈ S, ∀ q ∈ S, ∀ r s, code p ++ r = code q ++ s → p = q

theorem PrefixFree.prefix_of_flatMap (h : PrefixFree S code) {xs : List π} :
    ∀ {ys : List π}, (∀ p ∈ xs, p ∈ S) → (∀ q ∈ ys, q ∈ S) → xs.flatMap code <+: ys.flatMap code → xs <+: ys := by
  induction xs with
  | nil => exact fun _ _ _ => List.nil_prefix
  | cons p xs ih =>
    intro ys hxs hys hpre
    obtain ⟨r, hr⟩ := hpre
    rw [List.flatMap_cons, List.append_assoc] at hr
    cases ys with
    | nil =>
      have hnil := (List.append_eq_nil_iff.mp hr).1
      exact absurd hnil (h.ne_nil p (hxs p (by simp)))
    | cons q ys =>
      rw [List.flatMap_cons] at hr
      obtain rfl := h.inj p (hxs p (by simp)) q (hys q (by simp)) _ _ hr
      apply List.cons_prefix_cons.mpr
      refine ⟨rfl, ih (fun x hx => hxs x (by simp [hx])) (fun y hy => hys y (by simp [hy])) ⟨r, ?_⟩⟩
      exact List.append_cancel_left hr

/-- Behind the codes of `ys` comes a part of one more code: it adds nothing to what can be read. -/
theorem PrefixFree.prefix_of_cut (h : PrefixFree S code) {xs ys : List π} {q : π} {n : Nat} (hxs : ∀ p ∈ xs, p ∈ S)
    (hys : ∀ p ∈ ys, p ∈ S) (hq : q ∈ S) (hn : n < (code q).length)
    (hpre : xs.flatMap code <+: ys.flatMap code ++ (code q).take n) : xs <+: ys := by
  have hmore : xs.flatMap code <+: (ys ++ [q]).flatMap code := by
    rw [List.flatMap_append, List.flatMap_singleton]
    exact hpre.trans ((List.prefix_append_right_inj _).mpr (List.take_prefix _ _))
  have hmem : ∀ p ∈ ys ++ [q], p ∈ S := by
    intro p hp
    rcases List.mem_append.mp hp with hp | hp
    · exact hys p hp
    · rwa [List.mem_singleton.mp hp]
  rcases List.prefix_concat_iff.mp (h.prefix_of_flatMap hxs hmem hmore) with hall | hfront
  · have hlen := hpre.length_le
    rw [hall, List.flatMap_append, List.flatMap_singleton, List.length_append, List.length_append,
      List.length_take] at hlen
    omega
  · exact hfront

end TcpipCourse.Lib
