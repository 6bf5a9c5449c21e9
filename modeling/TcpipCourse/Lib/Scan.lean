import Mathlib.Data.List.Basic
import Mathlib.Order.Lattice

/-!
# A scan for the best element

One pass over a list with an index, keeping the best of the elements that pass a test so far.

* `scanBest view better` : `view` is the test, with what it makes of an element; a later element replaces the
  best one only when it is `better`;
* `scanBest_some` : the element found stands in the list at its index and passes the test;
* `scanBest_none` : nothing is found only if no element passes;
* `FirstLeast` : the first element with the least key; `scanBest_firstLeast` : when `better` compares keys, that
  is what is found; `FirstLeast.unique`, `FirstLeast.key_eq` : there is one, and its key depends only on the
  elements that pass.
-/

namespace TcpipCourse.Lib

variable {α β : Type*} (view : α → Option β) (better : β → β → Bool)

/-- The scan from `index` on, with the best element so far. -/
def scanFrom : List α → Nat → Option (Nat × β) → Option (Nat × β)
  | [], _, best => best
  | a :: rest, index, best =>
    match view a with
    | none => scanFrom rest (index + 1) best
    | some candidate =>
      if best.all fun found => better candidate found.2 then scanFrom rest (index + 1) (some (index, candidate))
      else scanFrom rest (index + 1) best

/-- The best element that passes the test, with its index. -/
def scanBest (l : List α) : Option (Nat × β) := scanFrom view better l 0 none

/-- The element of `l` at `index` passes the test as `found`. -/
def Passes (l : List α) (index : Nat) (found : β) : Prop := ∃ a, l[index]? = some a ∧ view a = some found

theorem scanFrom_some {l : List α} {index : Nat} {found : β} : ∀ (passed : List α) (best : Option (Nat × β)),
    (∀ i b, best = some (i, b) → Passes view (passed ++ l) i b) →
    scanFrom view better l passed.length best = some (index, found) → Passes view (passed ++ l) index found := by
  induction l with
  | nil =>
    intro passed best hbest h
    exact hbest index found h
  | cons a rest ih =>
    intro passed best hbest h
    have hsplit : passed ++ a :: rest = (passed ++ [a]) ++ rest := by simp
    have hlen : passed.length + 1 = (passed ++ [a]).length := by simp
    rw [hsplit] at hbest ⊢
    unfold scanFrom at h
    rw [hlen] at h
    cases hview : view a with
    | none =>
      rw [hview] at h
      exact ih _ best hbest h
    | some candidate =>
      simp only [hview] at h
      split at h
      · refine ih _ _ (fun i b hib => ?_) h
        obtain ⟨rfl, rfl⟩ := Prod.mk.inj (Option.some.inj hib)
        exact ⟨a, by simp, hview⟩
      · exact ih _ best hbest h

theorem scanBest_some {l : List α} {index : Nat} {found : β} (h : scanBest view better l = some (index, found)) :
    Passes view l index found := by
  have hnone : ∀ i b, (none : Option (Nat × β)) = some (i, b) → Passes view ([] ++ l) i b := by
    intro i b hib
    cases hib
  simpa using scanFrom_some view better [] none hnone h

theorem scanFrom_none {l : List α} : ∀ (index : Nat) (best : Option (Nat × β)),
    scanFrom view better l index best = none → best = none ∧ ∀ a ∈ l, view a = none := by
  induction l with
  | nil =>
    intro index best h
    exact ⟨h, by simp⟩
  | cons a rest ih =>
    intro index best h
    unfold scanFrom at h
    split at h
    · next hview =>
      obtain ⟨hbest, hrest⟩ := ih _ _ h
      exact ⟨hbest, List.forall_mem_cons.mpr ⟨hview, hrest⟩⟩
    · split at h
      · obtain ⟨hsome, -⟩ := ih _ _ h
        cases hsome
      · next hno =>
        obtain ⟨rfl, -⟩ := ih _ _ h
        exact absurd rfl hno

theorem scanBest_none {l : List α} (h : scanBest view better l = none) : ∀ a ∈ l, view a = none :=
  (scanFrom_none view better 0 none h).2

/-! ## The least key -/

section Keys
variable {γ : Type*} [LinearOrder γ] (key : β → γ)

/-- Of the elements that pass, `found` at `index` is the first one with the least key. -/
structure FirstLeast (l : List α) (index : Nat) (found : β) : Prop where
  passes : Passes view l index found
  least : ∀ j b, Passes view l j b → key found ≤ key b
  first : ∀ j b, j < index → Passes view l j b → key found < key b

/-- What the scan holds after the elements of `l`. -/
def ScanInvariant (l : List α) (best : Option (Nat × β)) : Prop :=
  (best = none → ∀ j b, ¬ Passes view l j b) ∧ ∀ i b, best = some (i, b) → FirstLeast view key l i b

variable {view key}

theorem passes_append_singleton {l : List α} {a : α} {j : Nat} {b : β} :
    Passes view (l ++ [a]) j b ↔ Passes view l j b ∨ j = l.length ∧ view a = some b := by
  unfold Passes
  rcases Nat.lt_trichotomy j l.length with hlt | rfl | hgt
  · rw [List.getElem?_append_left hlt]
    constructor
    · exact .inl
    · rintro (h | ⟨rfl, -⟩)
      · exact h
      · exact absurd hlt (Nat.lt_irrefl _)
  · simp
  · have hnone : (l ++ [a])[j]? = none := List.getElem?_eq_none (by simp; omega)
    have hnone' : l[j]? = none := List.getElem?_eq_none (by omega)
    rw [hnone, hnone']
    constructor
    · rintro ⟨_, h, -⟩
      cases h
    · rintro (⟨_, h, -⟩ | ⟨h, -⟩)
      · cases h
      · omega

theorem Passes.lt_length {l : List α} {j : Nat} {b : β} (h : Passes view l j b) : j < l.length := by
  obtain ⟨a, hget, -⟩ := h
  exact (List.getElem?_eq_some_iff.mp hget).1

/-- An element that fails the test, or whose key is not smaller, changes nothing. -/
theorem ScanInvariant.skip {l : List α} {best : Option (Nat × β)} (h : ScanInvariant view key l best) {a : α}
    (hskip : ∀ candidate, view a = some candidate → ∃ found, best = some found ∧ key found.2 ≤ key candidate) :
    ScanInvariant view key (l ++ [a]) best := by
  obtain ⟨hnone, hsome⟩ := h
  constructor
  · intro hbest j b hpass
    rw [passes_append_singleton] at hpass
    rcases hpass with hpass | ⟨-, hview⟩
    · exact hnone hbest j b hpass
    · obtain ⟨found, hfound, -⟩ := hskip b hview
      rw [hbest] at hfound
      cases hfound
  · intro i b hbest
    have hfirst := hsome i b hbest
    refine ⟨passes_append_singleton.mpr (.inl hfirst.passes), fun j c hpass => ?_, fun j c hlt hpass => ?_⟩
    · rw [passes_append_singleton] at hpass
      rcases hpass with hpass | ⟨-, hview⟩
      · exact hfirst.least j c hpass
      · obtain ⟨found, hfound, hle⟩ := hskip c hview
        rw [hbest] at hfound
        cases hfound
        exact hle
    · rw [passes_append_singleton] at hpass
      rcases hpass with hpass | ⟨rfl, -⟩
      · exact hfirst.first j c hlt hpass
      · exact absurd hlt (Nat.not_lt_of_lt hfirst.passes.lt_length)

/-- An element with a smaller key than all before it takes over. -/
theorem ScanInvariant.take {l : List α} {best : Option (Nat × β)} (h : ScanInvariant view key l best) {a : α}
    {candidate : β} (hview : view a = some candidate)
    (hsmaller : ∀ found, best = some found → key candidate < key found.2) :
    ScanInvariant view key (l ++ [a]) (some (l.length, candidate)) := by
  obtain ⟨hnone, hsome⟩ := h
  have hbefore : ∀ j b, Passes view l j b → key candidate < key b := by
    intro j b hpass
    cases best with
    | none => exact absurd hpass (hnone rfl j b)
    | some found =>
      exact lt_of_lt_of_le (hsmaller found rfl) ((hsome found.1 found.2 rfl).least j b hpass)
  refine ⟨fun hbest => (Option.some_ne_none _ hbest).elim, fun i b hbest => ?_⟩
  obtain ⟨rfl, rfl⟩ := Prod.mk.inj (Option.some.inj hbest)
  refine ⟨passes_append_singleton.mpr (.inr ⟨rfl, hview⟩), fun j c hpass => ?_, fun j c hlt hpass => ?_⟩
  · rw [passes_append_singleton] at hpass
    rcases hpass with hpass | ⟨-, hview'⟩
    · exact le_of_lt (hbefore j c hpass)
    · rw [hview] at hview'
      cases hview'
      exact le_refl _
  · rw [passes_append_singleton] at hpass
    rcases hpass with hpass | ⟨rfl, -⟩
    · exact hbefore j c hpass
    · exact absurd hlt (Nat.lt_irrefl _)

theorem scanFrom_invariant (hbetter : ∀ a b, better a b = true ↔ key a < key b) {l : List α} :
    ∀ (passed : List α) (best : Option (Nat × β)), ScanInvariant view key passed best →
      ScanInvariant view key (passed ++ l) (scanFrom view better l passed.length best) := by
  induction l with
  | nil =>
    intro passed best h
    rwa [List.append_nil, scanFrom]
  | cons a rest ih =>
    intro passed best h
    have hsplit : passed ++ a :: rest = (passed ++ [a]) ++ rest := by simp
    have hlen : passed.length + 1 = (passed ++ [a]).length := by simp
    rw [hsplit]
    unfold scanFrom
    rw [hlen]
    cases hview : view a with
    | none =>
      dsimp only
      apply ih
      apply h.skip
      intro candidate hcandidate
      rw [hview] at hcandidate
      cases hcandidate
    | some candidate =>
      dsimp only
      split
      · next hall =>
        apply ih
        apply h.take hview
        intro found hfound
        rw [hfound] at hall
        exact (hbetter candidate found.2).mp hall
      · next hnot =>
        apply ih
        apply h.skip
        intro c hc
        rw [hview] at hc
        cases hc
        cases best with
        | none => exact absurd rfl hnot
        | some found =>
          refine ⟨found, rfl, le_of_not_gt fun hlt => hnot ?_⟩
          exact (hbetter candidate found.2).mpr hlt

/-- **The scan finds the first element with the least key.** -/
theorem scanBest_firstLeast (hbetter : ∀ a b, better a b = true ↔ key a < key b) {l : List α} {index : Nat}
    {found : β} (h : scanBest view better l = some (index, found)) : FirstLeast view key l index found := by
  have hnil : ScanInvariant view key ([] : List α) none := by
    refine ⟨fun _ j b hpass => ?_, fun i b hbest => (Option.some_ne_none _ hbest.symm).elim⟩
    exact absurd hpass.lt_length (Nat.not_lt_zero j)
  exact (scanFrom_invariant better hbetter [] none hnil).2 index found h

theorem FirstLeast.unique {l : List α} {i j : Nat} {a b : β} (h : FirstLeast view key l i a)
    (h' : FirstLeast view key l j b) : i = j := by
  rcases Nat.lt_trichotomy i j with hlt | heq | hgt
  · exact absurd (h'.first i a hlt h.passes) (not_lt_of_ge (h.least j b h'.passes))
  · exact heq
  · exact absurd (h.first j b hgt h'.passes) (not_lt_of_ge (h'.least i a h.passes))

/-- The least key does not depend on the order of the elements. -/
theorem FirstLeast.key_eq {l l' : List α} (hperm : l.Perm l') {i j : Nat} {a b : β}
    (h : FirstLeast view key l i a) (h' : FirstLeast view key l' j b) : key a = key b := by
  have hle : ∀ {l l' : List α}, l.Perm l' → ∀ {i j : Nat} {a b : β}, FirstLeast view key l i a →
      FirstLeast view key l' j b → key a ≤ key b := by
    intro l l' hperm i j a b h h'
    obtain ⟨c, hget, hview⟩ := h'.passes
    obtain ⟨k, hk⟩ := List.getElem?_of_mem (hperm.mem_iff.mpr (List.mem_of_getElem? hget))
    exact h.least k b ⟨c, hk, hview⟩
  exact le_antisymm (hle hperm h h') (hle hperm.symm h' h)

end Keys

end TcpipCourse.Lib
