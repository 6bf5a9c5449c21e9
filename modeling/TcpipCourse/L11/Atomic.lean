import TcpipCourse.L11.Session

/-!
# Lesson 11: failed calls and frames

No law here assumes the table invariant: they hold of corrupted storage and of clocks that run back.

* `Refreshes`, `Fills` : the two ways a translation may change one slot;
* `KeepsUse`, `SameActive` : what it may not do to the others (`Refreshes.keepsUse`, `Fills.keepsUse`);
* `OutboundFrame`, `InboundFrame` : what a translation leaves alone, failed or not;
* `natCalls_atomic` : every call of the three operations keeps to its frame.
-/

namespace TcpipCourse.L11
open Lib

/-- `nat'` is `nat` with at most the `last_used` of slot `i`, which holds `m`, moved forward: to `now`
or later. -/
def Refreshes (nat nat' : NatState) (now : UInt64) (i : Nat) (m : Mapping) : Prop :=
  nat.storage[i]? = some m ∧
    ∃ lastUsed, m.lastUsed ≤ lastUsed ∧ now ≤ lastUsed ∧ nat' = nat.store i { m with lastUsed }

/-- `nat'` is `nat` with `m` put into slot `i`, which was free. -/
def Fills (nat nat' : NatState) (i : Nat) (m : Mapping) : Prop :=
  (∃ old, nat.storage[i]? = some old ∧ old.active = 0) ∧ nat' = nat.store i m

/-- Every active mapping is still there, and its last use has not moved back. -/
def KeepsUse (nat nat' : NatState) : Prop :=
  ∀ (j : Nat) (m : Mapping), nat.storage[j]? = some m → m.active ≠ 0 →
    ∃ lastUsed, m.lastUsed ≤ lastUsed ∧ nat'.storage[j]? = some { m with lastUsed }

/-- No slot was activated or deactivated. -/
def SameActive (nat nat' : NatState) : Prop :=
  nat'.storage.map (·.active) = nat.storage.map (·.active)

/-! ## The two changes -/

theorem getElem?_store (nat : NatState) (i j : Nat) (m : Mapping) :
    (nat.store i m).storage[j]? =
      if i = j then nat.storage[j]?.map fun _ => m else nat.storage[j]? := by
  rw [NatState.store, List.getElem?_set']
  rfl

theorem Mapping.touch_eq (m : Mapping) (now : UInt64) :
    m.touch now = { m with lastUsed := (m.touch now).lastUsed } := by
  unfold touch
  split <;> rfl

theorem Mapping.le_lastUsed_touch (m : Mapping) (now : UInt64) : m.lastUsed ≤ (m.touch now).lastUsed := by
  unfold touch
  split
  · next hlt => exact UInt64.le_of_lt hlt
  · exact UInt64.le_refl _

theorem Mapping.now_le_lastUsed_touch (m : Mapping) (now : UInt64) : now ≤ (m.touch now).lastUsed := by
  unfold touch
  split
  · exact UInt64.le_refl _
  · next hle => exact UInt64.not_lt.mp hle

theorem refreshes_touch {nat : NatState} {i : Nat} (hi : i < nat.storage.length) (now : UInt64) :
    Refreshes nat (nat.store i ((nat.storage.get ⟨i, hi⟩).touch now)) now i (nat.storage.get ⟨i, hi⟩) :=
  ⟨List.getElem?_eq_getElem hi, _, Mapping.le_lastUsed_touch _ now, Mapping.now_le_lastUsed_touch _ now,
    congrArg _ (Mapping.touch_eq _ now)⟩

theorem Refreshes.keepsUse {nat nat' : NatState} {now : UInt64} {i : Nat} {m : Mapping}
    (h : Refreshes nat nat' now i m) : KeepsUse nat nat' := by
  obtain ⟨hi, lastUsed, hle, -, rfl⟩ := h
  intro j b hb _
  rw [getElem?_store]
  split
  · next hij =>
    subst hij
    rw [hi] at hb ⊢
    obtain rfl := Option.some.inj hb
    exact ⟨lastUsed, hle, rfl⟩
  · exact ⟨b.lastUsed, UInt64.le_refl _, hb⟩

theorem Refreshes.sameActive {nat nat' : NatState} {now : UInt64} {i : Nat} {m : Mapping}
    (h : Refreshes nat nat' now i m) : SameActive nat nat' := by
  obtain ⟨hi, lastUsed, -, -, rfl⟩ := h
  apply List.ext_getElem?
  intro j
  rw [List.getElem?_map, List.getElem?_map, getElem?_store]
  split
  · next hij =>
    subst hij
    rw [hi]
    rfl
  · rfl

theorem Fills.keepsUse {nat nat' : NatState} {i : Nat} {m : Mapping} (h : Fills nat nat' i m) :
    KeepsUse nat nat' := by
  obtain ⟨⟨old, hold, hfree⟩, rfl⟩ := h
  intro j b hb hb0
  have hij : i ≠ j := by
    rintro rfl
    rw [hold] at hb
    obtain rfl := Option.some.inj hb
    exact hb0 hfree
  rw [getElem?_store, if_neg hij]
  exact ⟨b.lastUsed, UInt64.le_refl _, hb⟩

/-! ## Outbound -/

structure OutboundFrame (nat : NatState) (now : UInt64) (tuple : Option Tuple) (r : Reply) : Prop where
  failed : r.status ≠ .ok → r.nat = nat ∧ r.out = Tuple.zero
  changes : r.status = .ok → ∃ t i, tuple = some t ∧
    ((∃ m, mappingMatchesOutbound m t = true ∧ Refreshes nat r.nat now i m) ∨
      ∃ port, Fills nat r.nat i (.ofTuple t port now))
  keepsUse : r.status = .ok → KeepsUse nat r.nat

theorem outboundFrame (nat : NatState) (now : UInt64) (tuple : Option Tuple) :
    OutboundFrame nat now tuple (natTranslateOutbound nat now tuple) := by
  have hcase := natTranslateOutbound_case nat now tuple
  generalize natTranslateOutbound nat now tuple = r at hcase
  cases hcase with
  | failed hne _ => exact ⟨fun _ => ⟨rfl, rfl⟩, fun hok => absurd hok hne, fun hok => absurd hok hne⟩
  | @refreshed t i hi _ hm =>
    have hstep := refreshes_touch hi now
    exact ⟨fun hne => absurd rfl hne, fun _ => ⟨t, i, rfl, .inl ⟨_, hm, hstep⟩⟩, fun _ => hstep.keepsUse⟩
  | @created t i port hi _ hfree _ _ =>
    have hstep : Fills nat (nat.store i (.ofTuple t port now)) i (.ofTuple t port now) :=
      ⟨⟨_, List.getElem?_eq_getElem hi, hfree⟩, rfl⟩
    exact ⟨fun hne => absurd rfl hne, fun _ => ⟨t, i, rfl, .inr ⟨port, hstep⟩⟩, fun _ => hstep.keepsUse⟩

/-! ## Inbound -/

/-- What an inbound call leaves alone; the mapping it matches is the only one of the table that does. -/
structure InboundFrame (nat : NatState) (now : UInt64) (tuple : Option Tuple) (r : Reply) : Prop where
  failed : r.status ≠ .ok → r.nat = nat ∧ r.out = Tuple.zero
  changes : r.status = .ok → ∃ t i m, tuple = some t ∧ mappingMatchesInbound m t = true ∧
    Refreshes nat r.nat now i m ∧
    ∀ j m', nat.storage[j]? = some m' → mappingMatchesInbound m' t = true → j = i
  sameActive : r.status = .ok → SameActive nat r.nat
  keepsUse : r.status = .ok → KeepsUse nat r.nat

theorem tableInv_of_inbound_ok {nat : NatState} {now : UInt64} {tuple : Option Tuple}
    (h : (natTranslateInbound nat now tuple).status = .ok) : TableInv nat := by
  rw [← validateMappings_eq_ok_iff]
  unfold natTranslateInbound at h
  cases tuple with
  | none => nomatch h
  | some t =>
    dsimp only at h
    split at h
    · nomatch h
    · split at h
      · nomatch h
      · split at h
        · nomatch h
        · split at h
          · exact h
          · next hv => exact Decidable.not_not.mp hv

/-- In a table that keeps its invariant, one slot at most answers an inbound tuple. -/
theorem TableInv.inbound_unique {nat : NatState} (h : TableInv nat) {t : Tuple} {i j : Nat}
    {a b : Mapping} (ha : nat.storage[i]? = some a) (hb : nat.storage[j]? = some b)
    (hma : mappingMatchesInbound a t = true) (hmb : mappingMatchesInbound b t = true) : j = i := by
  obtain ⟨hi, rfl⟩ := List.getElem?_eq_some_iff.mp ha
  obtain ⟨hj, rfl⟩ := List.getElem?_eq_some_iff.mp hb
  obtain ⟨ha0, -, hap, -⟩ := (mappingMatchesInbound_iff _ t).mp hma
  obtain ⟨hb0, -, hbp, -⟩ := (mappingMatchesInbound_iff _ t).mp hmb
  by_contra hne
  exact (h.apart hj hi hne hb0 ha0).1 (hbp.trans hap.symm)

theorem inboundFrame (nat : NatState) (now : UInt64) (tuple : Option Tuple) :
    InboundFrame nat now tuple (natTranslateInbound nat now tuple) := by
  have hcase := natTranslateInbound_case nat now tuple
  have hinv := @tableInv_of_inbound_ok nat now tuple
  generalize natTranslateInbound nat now tuple = r at hcase hinv
  cases hcase with
  | failed hne _ =>
    exact ⟨fun _ => ⟨rfl, rfl⟩, fun hok => absurd hok hne, fun hok => absurd hok hne, fun hok => absurd hok hne⟩
  | @refreshed t i hi hm =>
    have hstep := refreshes_touch hi now
    exact
      { failed := fun hne => absurd rfl hne
        changes := fun _ => ⟨t, i, _, rfl, hm, hstep,
          fun j m' hj hm' => (hinv rfl).inbound_unique hstep.1 hj hm hm'⟩
        sameActive := fun _ => hstep.sameActive
        keepsUse := fun _ => hstep.keepsUse }

/-! ## All three operations -/

theorem natExpire_failed (nat : NatState) (now idle : UInt64) (h : (natExpire nat now idle).status ≠ .ok) :
    (natExpire nat now idle).nat = nat ∧ (natExpire nat now idle).count = 0 := by
  unfold natExpire at h ⊢
  split
  · exact ⟨rfl, rfl⟩
  · split
    · exact ⟨rfl, rfl⟩
    · next hv hm =>
      rw [if_neg hv, if_neg hm] at h
      exact absurd rfl h

/-- **NAT calls are atomic.** Whatever the storage holds, a call that fails changes nothing and zeroes its
output; one that succeeds stays in its frame. -/
theorem natCalls_atomic (nat : NatState) (now idle : UInt64) (tuple : Option Tuple) :
    OutboundFrame nat now tuple (natTranslateOutbound nat now tuple) ∧
    InboundFrame nat now tuple (natTranslateInbound nat now tuple) ∧
    ((natExpire nat now idle).status ≠ .ok →
      (natExpire nat now idle).nat = nat ∧ (natExpire nat now idle).count = 0) :=
  ⟨outboundFrame nat now tuple, inboundFrame nat now tuple, natExpire_failed nat now idle⟩

theorem natCalls_atomic_oneSlotNat :
    let nat := (natTranslateOutbound oneSlotNat 5 (some ⟨6, #v[10, 0, 0, 2], #v[198, 51, 100, 7], 1234, 80⟩)).nat
    let second := some ⟨17, #v[10, 0, 0, 3], #v[198, 51, 100, 7], 1234, 53⟩
    let answer := some ⟨6, #v[198, 51, 100, 7], #v[203, 0, 113, 1], 80, 40000⟩
    ((natTranslateOutbound nat 9 second).status = .capacity ∧ (natTranslateOutbound nat 9 second).nat = nat ∧
        (natTranslateOutbound nat 9 second).out = Tuple.zero) ∧
      (natTranslateInbound nat 9 answer).status = .ok ∧ SameActive nat (natTranslateInbound nat 9 answer).nat ∧
      KeepsUse nat (natTranslateInbound nat 9 answer).nat := by
  intro nat second answer
  have hfull : (natTranslateOutbound nat 9 second).status = .capacity := by decide +kernel
  have hfound : (natTranslateInbound nat 9 answer).status = .ok := by decide +kernel
  have hoffered := (natCalls_atomic nat 9 1 second).1
  have hanswered := (natCalls_atomic nat 9 1 answer).2.1
  exact ⟨⟨hfull, hoffered.failed (by rw [hfull]; decide)⟩, hfound, hanswered.sameActive hfound,
    hanswered.keepsUse hfound⟩

end TcpipCourse.L11
