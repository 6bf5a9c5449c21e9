import TcpipCourse.Lib.PrefixCode

/-!
# Automata that come home

A partial step function, and a state that runs leave and come back to. `ways s` are the words that lead from `s`
home and are home at their end only.

* `follow` : the state behind a word, if every letter of it is accepted;
* `Homing` : one step takes the first letter off the ways; `Homing.prefixFree` : no way starts with another one;
* `Homing.follow_home_iff` : the words that lead from home to home are the lists of ways;
* `Homing.isSome_follow_iff` : the words that are accepted are those, and a part of one more way;
* `Homing.split_unique` : in one manner only.
-/

namespace TcpipCourse.Lib

variable {σ ι : Type*}

/-- The state behind a word. -/
def follow (step : σ → ι → Option σ) : σ → List ι → Option σ
  | s, [] => some s
  | s, i :: is => (step s i).bind fun t => follow step t is

theorem follow_append (step : σ → ι → Option σ) (s : σ) (is js : List ι) :
    follow step s (is ++ js) = (follow step s is).bind fun t => follow step t js := by
  induction is generalizing s with
  | nil => rfl
  | cons i is ih =>
    rw [List.cons_append, follow, follow, Option.bind_assoc]
    apply congrArg
    funext t
    exact ih t

/-- What is behind the first letter of a way is nothing, when the letter leads home, and else a way. -/
structure Homing (step : σ → ι → Option σ) (home : σ) (ways : σ → List (List ι)) : Prop where
  ne_nil : ∀ s, [] ∉ ways s
  exists_way : ∀ s, ∃ w, w ∈ ways s
  stuck : ∀ s i w, step s i = none → i :: w ∉ ways s
  lands : ∀ s i w, step s i = some home → (i :: w ∈ ways s ↔ w = [])
  goes : ∀ s i t w, step s i = some t → t ≠ home → (i :: w ∈ ways s ↔ w ∈ ways t)

namespace Homing

variable {step : σ → ι → Option σ} {home : σ} {ways : σ → List (List ι)}

/-- The words that lead home. -/
theorem follow_eq_home_iff (h : Homing step home ways) {is : List ι} :
    ∀ {s : σ}, follow step s is = some home ↔ (s = home ∧ is = []) ∨
      ∃ w ∈ ways s, ∃ ws : List (List ι), (∀ v ∈ ws, v ∈ ways home) ∧ is = w ++ ws.flatten := by
  induction is with
  | nil =>
    intro s
    constructor
    · intro hs
      exact .inl ⟨Option.some.inj hs, rfl⟩
    · rintro (⟨rfl, -⟩ | ⟨w, hw, ws, -, hnil⟩)
      · rfl
      · rw [(List.append_eq_nil_iff.mp hnil.symm).1] at hw
        exact absurd hw (h.ne_nil s)
  | cons i is ih =>
    intro s
    have hcons : (∃ w ∈ ways s, ∃ ws : List (List ι), (∀ v ∈ ws, v ∈ ways home) ∧ i :: is = w ++ ws.flatten) ↔
        ∃ w, i :: w ∈ ways s ∧ ∃ ws : List (List ι), (∀ v ∈ ws, v ∈ ways home) ∧ is = w ++ ws.flatten := by
      constructor
      · rintro ⟨w, hw, ws, hws, heq⟩
        cases w with
        | nil => exact absurd hw (h.ne_nil s)
        | cons j w =>
          obtain ⟨rfl, rfl⟩ := List.cons.inj heq
          exact ⟨w, hw, ws, hws, rfl⟩
      · rintro ⟨w, hw, ws, hws, rfl⟩
        exact ⟨i :: w, hw, ws, hws, rfl⟩
    rw [hcons, follow]
    cases hstep : step s i with
    | none => simp [h.stuck s i _ hstep]
    | some t =>
      rw [Option.bind_some, ih]
      by_cases ht : t = home
      · subst ht
        simp only [h.lands s i _ hstep, true_and, reduceCtorEq, and_false, false_or, exists_eq_left, List.nil_append]
        constructor
        · rintro (rfl | ⟨w, hw, ws, hws, rfl⟩)
          · exact ⟨[], by simp, rfl⟩
          · exact ⟨w :: ws, List.forall_mem_cons.mpr ⟨hw, hws⟩, rfl⟩
        · rintro ⟨ws, hws, rfl⟩
          cases ws with
          | nil => exact .inl rfl
          | cons w ws =>
            obtain ⟨hw, hws⟩ := List.forall_mem_cons.mp hws
            exact .inr ⟨w, hw, ws, hws, rfl⟩
      · simp only [h.goes s i t _ hstep ht, ht, false_and, false_or, reduceCtorEq, and_false]

theorem follow_home_iff (h : Homing step home ways) {is : List ι} :
    follow step home is = some home ↔ ∃ ws : List (List ι), (∀ w ∈ ws, w ∈ ways home) ∧ is = ws.flatten := by
  rw [h.follow_eq_home_iff]
  constructor
  · rintro (⟨-, rfl⟩ | ⟨w, hw, ws, hws, rfl⟩)
    · exact ⟨[], by simp, rfl⟩
    · exact ⟨w :: ws, List.forall_mem_cons.mpr ⟨hw, hws⟩, rfl⟩
  · rintro ⟨ws, hws, rfl⟩
    cases ws with
    | nil => exact .inl ⟨rfl, rfl⟩
    | cons w ws =>
      obtain ⟨hw, hws⟩ := List.forall_mem_cons.mp hws
      exact .inr ⟨w, hw, ws, hws, rfl⟩

/-- Two ways of one state that start one word are the same. -/
theorem way_eq (h : Homing step home ways) {w : List ι} :
    ∀ {s : σ} {v r q : List ι}, w ∈ ways s → v ∈ ways s → w ++ r = v ++ q → w = v := by
  induction w with
  | nil => exact fun hw _ _ => absurd hw (h.ne_nil _)
  | cons i w ih =>
    intro s v r q hw hv heq
    cases v with
    | nil => exact absurd hv (h.ne_nil s)
    | cons j v =>
      obtain ⟨rfl, hrest⟩ := List.cons.inj (show i :: (w ++ r) = j :: (v ++ q) from heq)
      cases hstep : step s i with
      | none => exact absurd hw (h.stuck s i w hstep)
      | some t =>
        by_cases ht : t = home
        · subst ht
          rw [(h.lands s i w hstep).mp hw, (h.lands s i v hstep).mp hv]
        · rw [ih ((h.goes s i t w hstep ht).mp hw) ((h.goes s i t v hstep ht).mp hv) hrest]

theorem prefixFree (h : Homing step home ways) (s : σ) : PrefixFree {w | w ∈ ways s} id where
  ne_nil w hw hnil := h.ne_nil s (by rwa [← show w = [] from hnil])
  inj _ hw _ hv _ _ heq := h.way_eq hw hv heq

/-- A word is a list of ways and a part of one more in one manner at most. -/
theorem split_unique (h : Homing step home ways) {s : σ} {ws vs : List (List ι)} {a b w v : List ι}
    (hws : ∀ w ∈ ws, w ∈ ways s) (hvs : ∀ v ∈ vs, v ∈ ways s) (hw : w ∈ ways s) (hv : v ∈ ways s)
    (ha : a <+: w ∧ a ≠ w) (hb : b <+: v ∧ b ≠ v) (heq : ws.flatten ++ a = vs.flatten ++ b) : ws = vs ∧ a = b := by
  have hcut : ∀ {ws vs : List (List ι)} {a b v : List ι}, (∀ w ∈ ws, w ∈ ways s) → (∀ v ∈ vs, v ∈ ways s) →
      v ∈ ways s → b <+: v ∧ b ≠ v → ws.flatten ++ a = vs.flatten ++ b → ws <+: vs := by
    intro ws vs a b v hws hvs hv ⟨hfront, hne⟩ heq
    have hlt : b.length < v.length :=
      Nat.lt_of_le_of_ne hfront.length_le fun hlen => hne (hfront.eq_of_length hlen)
    apply (h.prefixFree s).prefix_of_cut hws hvs hv hlt
    rw [List.flatMap_id, List.flatMap_id]
    show ws.flatten <+: vs.flatten ++ v.take b.length
    rw [← List.prefix_iff_eq_take.mp hfront, ← heq]
    exact List.prefix_append _ _
  have hle := hcut hws hvs hv hb heq
  have hge := hcut hvs hws hw ha heq.symm
  obtain rfl := hle.eq_of_length (Nat.le_antisymm hle.length_le hge.length_le)
  exact ⟨rfl, List.append_cancel_left heq⟩

/-- A front of a list of ways is a list of them, and a part of one more. -/
theorem prefix_flatten {is : List ι} {ws : List (List ι)} (h : is <+: ws.flatten) :
    ∃ (us : List (List ι)) (a : List ι), (∀ u ∈ us, u ∈ ws) ∧ (a = [] ∨ ∃ w ∈ ws, a <+: w ∧ a ≠ w) ∧
      is = us.flatten ++ a := by
  induction ws generalizing is with
  | nil => exact ⟨[], [], by simp, .inl rfl, List.prefix_nil.mp h⟩
  | cons w ws ih =>
    rw [List.flatten_cons] at h
    rcases List.prefix_or_prefix_of_prefix h (List.prefix_append w ws.flatten) with hw | ⟨r, rfl⟩
    · by_cases hall : is = w
      · exact ⟨[w], [], by simp, .inl rfl, by simp [hall]⟩
      · exact ⟨[], is, by simp, .inr ⟨w, by simp, hw, hall⟩, rfl⟩
    · obtain ⟨us, a, hus, ha, rfl⟩ := ih ((List.prefix_append_right_inj w).mp h)
      refine ⟨w :: us, a, ?_, ?_, by simp⟩
      · intro u hu
        rcases List.mem_cons.mp hu with rfl | hu
        · exact List.mem_cons_self
        · exact List.mem_cons_of_mem _ (hus u hu)
      · rcases ha with rfl | ⟨v, hv, hfront⟩
        · exact .inl rfl
        · exact .inr ⟨v, List.mem_cons_of_mem _ hv, hfront⟩

/-- What is accepted: every word can be led home, so it is a front of a list of ways. -/
theorem isSome_follow_iff (h : Homing step home ways) {is : List ι} :
    (follow step home is).isSome ↔ ∃ (ws : List (List ι)) (a : List ι), (∀ w ∈ ws, w ∈ ways home) ∧
      (∃ w ∈ ways home, a <+: w ∧ a ≠ w) ∧
      is = ws.flatten ++ a := by
  constructor
  · intro hsome
    obtain ⟨s, hs⟩ := Option.isSome_iff_exists.mp hsome
    obtain ⟨w, hw⟩ := h.exists_way s
    have hback : follow step s w = some home := h.follow_eq_home_iff.mpr (.inr ⟨w, hw, [], by simp, by simp⟩)
    have hround : follow step home (is ++ w) = some home := by rw [follow_append, hs, Option.bind_some, hback]
    obtain ⟨ws, hws, hflat⟩ := h.follow_home_iff.mp hround
    obtain ⟨us, a, hus, ha, rfl⟩ := prefix_flatten (show is <+: ws.flatten from ⟨w, hflat⟩)
    refine ⟨us, a, fun u hu => hws u (hus u hu), ?_, rfl⟩
    rcases ha with rfl | ⟨v, hv, hfront⟩
    · obtain ⟨v, hv⟩ := h.exists_way home
      exact ⟨v, hv, List.nil_prefix, fun hnil => h.ne_nil home (by rwa [hnil])⟩
    · exact ⟨v, hws v hv, hfront⟩
  · rintro ⟨ws, a, hws, ⟨w, hw, ⟨r, rfl⟩, -⟩, rfl⟩
    have hround : follow step home ((ws.flatten ++ a) ++ r) = some home := by
      apply h.follow_home_iff.mpr
      refine ⟨ws ++ [a ++ r], fun v hv => ?_, by simp⟩
      rcases List.mem_append.mp hv with hv | hv
      · exact hws v hv
      · rwa [List.mem_singleton.mp hv]
    rw [follow_append] at hround
    obtain ⟨s, hs, -⟩ := Option.bind_eq_some_iff.mp hround
    rw [hs]
    rfl

/-- The state behind a list of ways and the front of one more is the one behind that front. -/
theorem follow_flatten_append (h : Homing step home ways) {ws : List (List ι)} (hws : ∀ w ∈ ws, w ∈ ways home)
    (a : List ι) : follow step home (ws.flatten ++ a) = follow step home a := by
  rw [follow_append, h.follow_home_iff.mpr ⟨ws, hws, rfl⟩, Option.bind_some]

end Homing

end TcpipCourse.Lib
