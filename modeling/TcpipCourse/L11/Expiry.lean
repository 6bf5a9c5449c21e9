import TcpipCourse.Lib.Sweep
import TcpipCourse.L11.Atomic

/-!
# Lesson 11: the laws of expiry

* `Expired` : the mappings an expiry clears, in natural numbers;
* `natExpire_eq` : an expiry of a valid table is a sweep;
* `UsedSince` : a mapping last used at `t` or later; `run_usedSince` : it survives every expiry that comes
  less than its idle time after `t`;
* `natExpire_laws` : what an expiry clears, repeating it, two in a row, and longer idle times.
-/

namespace TcpipCourse.L11
open Lib

/-- The mapping is active and has been idle for `idle` at time `now`. A last use in the future counts as
no idleness at all. -/
def Expired (now idle : UInt64) (m : Mapping) : Prop :=
  m.active ≠ 0 ∧ m.lastUsed.toNat ≤ now.toNat ∧ idle.toNat ≤ now.toNat - m.lastUsed.toNat

instance (now idle : UInt64) : DecidablePred (Expired now idle) := fun _ => by
  unfold Expired
  infer_instance

theorem mappingExpires_iff (now idle : UInt64) (m : Mapping) :
    mappingExpires now idle m = true ↔ Expired now idle m := by
  simp only [mappingExpires, Expired, Bool.and_eq_true, decide_eq_true_eq, and_assoc]
  refine and_congr_right fun _ => ?_
  rw [UInt64.le_iff_toNat_le, UInt64.le_iff_toNat_le]
  refine and_congr_right fun hle => ?_
  rw [UInt64.toNat_sub_of_le _ _ (UInt64.le_iff_toNat_le.mpr hle)]

theorem mappingExpires_zero (now idle : UInt64) : mappingExpires now idle Mapping.zero = false := by
  simp [mappingExpires, Mapping.zero]

/-- What has expired stays expired, and a shorter idle time expires it too. -/
theorem mappingExpires_mono {now now' idle idle' : UInt64} (hnow : now ≤ now') (hidle : idle' ≤ idle)
    (m : Mapping) (h : mappingExpires now idle m = true) : mappingExpires now' idle' m = true := by
  rw [mappingExpires_iff] at h ⊢
  rw [UInt64.le_iff_toNat_le] at hnow hidle
  obtain ⟨h0, hle, hage⟩ := h
  exact ⟨h0, by omega, by omega⟩

/-! ## An expiry is a sweep -/

theorem natExpire_eq {nat : NatState} (hv : natIsValid nat = true) (hm : validateMappings nat = .ok)
    (now idle : UInt64) :
    natExpire nat now idle = ⟨.ok, nat.storage.countP (mappingExpires now idle),
      { nat with storage := sweep (mappingExpires now idle) Mapping.zero nat.storage }⟩ := by
  rw [natExpire, hv, hm]
  rfl

theorem natExpire_nat (nat : NatState) (now idle : UInt64) :
    (natExpire nat now idle).nat = nat ∨ (natExpire nat now idle).nat =
      { nat with storage := sweep (mappingExpires now idle) Mapping.zero nat.storage } := by
  unfold natExpire
  split
  · exact .inl rfl
  · split
    · exact .inl rfl
    · exact .inr rfl

theorem validateMappings_natExpire {nat : NatState} (hm : validateMappings nat = .ok) (now idle : UInt64) :
    validateMappings (natExpire nat now idle).nat = .ok := by
  rw [validateMappings_eq_ok_iff] at hm ⊢
  exact hm.expire now idle

theorem natIsValid_natExpire {nat : NatState} (hv : natIsValid nat = true) (now idle : UInt64) :
    natIsValid (natExpire nat now idle).nat = true :=
  (sameBox_next nat (.expire now idle)).natIsValid hv

/-! ## A used mapping survives -/

/-- The table maps flow `f` to `port`, and the mapping was last used at `t` or later. -/
def UsedSince (f : Flow) (port : UInt16) (t : UInt64) (nat : NatState) : Prop :=
  ∃ (j : Nat) (m : Mapping), nat.storage[j]? = some m ∧ m.active ≠ 0 ∧ m.flow = f ∧ m.publicPort = port ∧
    t ≤ m.lastUsed

theorem UsedSince.holds {f : Flow} {port : UInt16} {t : UInt64} {nat : NatState}
    (h : UsedSince f port t nat) : Holds nat f port := by
  obtain ⟨j, m, hm, h0, hf, hp, -⟩ := h
  exact ⟨m, List.mem_of_getElem? hm, h0, hf, hp⟩

theorem KeepsUse.usedSince {nat nat' : NatState} (hk : KeepsUse nat nat') {f : Flow} {port : UInt16}
    {t : UInt64} (h : UsedSince f port t nat) : UsedSince f port t nat' := by
  obtain ⟨j, m, hm, h0, hf, hp, ht⟩ := h
  obtain ⟨lastUsed, hle, hm'⟩ := hk j m hm h0
  exact ⟨j, _, hm', h0, hf, hp, UInt64.le_trans ht hle⟩

theorem usedSince_natExpire {nat : NatState} {f : Flow} {port : UInt16} {t : UInt64}
    (h : UsedSince f port t nat) {now idle : UInt64} (hlt : now.toNat < t.toNat + idle.toNat) :
    UsedSince f port t (natExpire nat now idle).nat := by
  rcases natExpire_nat nat now idle with he | he
  · rwa [he]
  · rw [he]
    obtain ⟨j, m, hm, h0, hf, hp, ht⟩ := h
    have hkeep : ¬ mappingExpires now idle m = true := by
      rw [mappingExpires_iff]
      rintro ⟨-, hle, hage⟩
      rw [UInt64.le_iff_toNat_le] at ht
      omega
    refine ⟨j, m, ?_, h0, hf, hp, ht⟩
    rw [getElem?_sweep, hm, Option.map_some, if_neg hkeep]

/-- If the mapping is still there after an expiry, whatever its times, it is the same mapping. -/
theorem usedSince_of_holds_natExpire {nat : NatState} (hinv : TableInv nat) {f : Flow} {port : UInt16}
    {t now idle : UInt64} (h : UsedSince f port t nat) (hleft : Holds (natExpire nat now idle).nat f port) :
    UsedSince f port t (natExpire nat now idle).nat := by
  rcases natExpire_nat nat now idle with he | he
  · rwa [he]
  · rw [he] at hleft ⊢
    obtain ⟨b, hb, hb0, hbf, hbp⟩ := hleft
    obtain ⟨j, hj⟩ := List.mem_iff_getElem?.mp hb
    obtain ⟨i, m, hm, h0, hf, hp, ht⟩ := h
    obtain ⟨m', hm', hbm⟩ := List.mem_map.mp hb
    split at hbm
    · subst hbm
      exact absurd rfl hb0
    · subst hbm
      have hsame : m' = m :=
        hinv.eq_of_shared hm' (List.mem_of_getElem? hm) hb0 h0 (.inr (hbf.trans hf.symm))
      exact ⟨j, m', hj, hb0, hbf, hbp, hsame ▸ ht⟩

/-- The call, if it is an expiry, comes less than its idle time after `t`, or leaves the mapping anyway. -/
def Spares (f : Flow) (port : UInt16) (t : UInt64) (nat : NatState) : Call → Prop
  | .outbound _ _ => True
  | .inbound _ _ => True
  | .expire now idle => now.toNat < t.toNat + idle.toNat ∨ Holds (natExpire nat now idle).nat f port

theorem keepsUse_of_eq {nat nat' : NatState} (h : nat' = nat) : KeepsUse nat nat' := by
  subst h
  exact fun _ m hm _ => ⟨m.lastUsed, UInt64.le_refl _, hm⟩

theorem usedSince_step {f : Flow} {port : UInt16} {t : UInt64} (nat : NatState) (c : Call)
    (h : TableInv nat ∧ UsedSince f port t nat) (hc : Spares f port t nat c) :
    TableInv (natMachine.next nat c) ∧ UsedSince f port t (natMachine.next nat c) := by
  refine ⟨tableInv_step nat c h.1, ?_⟩
  cases c with
  | outbound now tuple =>
    have hframe := outboundFrame nat now tuple
    apply KeepsUse.usedSince _ h.2
    by_cases hok : (natTranslateOutbound nat now tuple).status = .ok
    · exact hframe.keepsUse hok
    · exact keepsUse_of_eq (hframe.failed hok).1
  | inbound now tuple =>
    have hframe := inboundFrame nat now tuple
    apply KeepsUse.usedSince _ h.2
    by_cases hok : (natTranslateInbound nat now tuple).status = .ok
    · exact hframe.keepsUse hok
    · exact keepsUse_of_eq (hframe.failed hok).1
  | expire now idle =>
    rcases hc with hlt | hleft
    · exact usedSince_natExpire h.2 hlt
    · exact usedSince_of_holds_natExpire h.1 h.2 hleft

theorem run_usedSince {f : Flow} {port : UInt16} {t : UInt64} {nat : NatState} (hinv : TableInv nat)
    (h : UsedSince f port t nat) {cs : List Call} (hcs : natMachine.Along (Spares f port t) nat cs) :
    UsedSince f port t (natMachine.run nat cs) :=
  (natMachine.run_invariant_of_along usedSince_step ⟨hinv, h⟩ hcs).2

theorem usedSince_of_outbound_ok {nat : NatState} {t : UInt64} {tuple out : Tuple}
    (h : natMachine.out nat (.outbound t (some tuple)) = .translated .ok out) :
    UsedSince tuple.flow out.sourcePort t (natMachine.next nat (.outbound t (some tuple))) := by
  have hcase := natTranslateOutbound_case nat t (some tuple)
  change Answer.translated (natTranslateOutbound nat t (some tuple)).status
    (natTranslateOutbound nat t (some tuple)).out = .translated .ok out at h
  change UsedSince _ _ _ (natTranslateOutbound nat t (some tuple)).nat
  generalize natTranslateOutbound nat t (some tuple) = r at hcase h ⊢
  cases hcase with
  | failed hne _ =>
    injection h with h
    exact absurd h hne
  | @refreshed tuple i hi _ hm =>
    injection h with _ h
    subst h
    obtain ⟨h0, hflow⟩ := (mappingMatchesOutbound_iff _ tuple).mp hm
    refine ⟨i, _, List.getElem?_set_self hi, ?_⟩
    rw [Mapping.touch_active, Mapping.touch_flow, Mapping.touch_publicPort]
    exact ⟨h0, hflow, rfl, Mapping.now_le_lastUsed_touch _ t⟩
  | @created tuple i port hi _ _ _ _ =>
    injection h with _ h
    subst h
    exact ⟨i, _, List.getElem?_set_self hi, by simp [Mapping.ofTuple], rfl, rfl, UInt64.le_refl t⟩

theorem usedSince_of_inbound_ok {nat : NatState} {t : UInt64} {tuple out : Tuple}
    (h : natMachine.out nat (.inbound t (some tuple)) = .translated .ok out) :
    UsedSince (inboundFlow tuple out) tuple.destinationPort t
      (natMachine.next nat (.inbound t (some tuple))) := by
  have hcase := natTranslateInbound_case nat t (some tuple)
  change Answer.translated (natTranslateInbound nat t (some tuple)).status
    (natTranslateInbound nat t (some tuple)).out = .translated .ok out at h
  change UsedSince _ _ _ (natTranslateInbound nat t (some tuple)).nat
  generalize natTranslateInbound nat t (some tuple) = r at hcase h ⊢
  cases hcase with
  | failed hne _ =>
    injection h with h
    exact absurd h hne
  | @refreshed tuple i hi hm =>
    injection h with _ h
    subst h
    obtain ⟨h0, hproto, hport, hip, hrport⟩ := (mappingMatchesInbound_iff _ tuple).mp hm
    refine ⟨i, _, List.getElem?_set_self hi, ?_⟩
    rw [Mapping.touch_active, Mapping.touch_flow, Mapping.touch_publicPort]
    refine ⟨h0, ?_, hport, Mapping.now_le_lastUsed_touch _ t⟩
    simp only [Mapping.flow, inboundFlow, hproto, hip, hrport]

/-! ## The laws -/

/-- What an expiry of `nat` does. -/
structure ExpiryLaws (nat : NatState) : Prop where
  clears : ∀ now idle, ∃ nat', natExpire nat now idle =
      ⟨.ok, nat.storage.countP fun m => Expired now idle m, nat'⟩ ∧
    nat'.publicIp = nat.publicIp ∧ nat'.firstPort = nat.firstPort ∧
    ∀ i : Nat, nat'.storage[i]? = nat.storage[i]?.map fun m => if Expired now idle m then Mapping.zero else m
  idempotent : ∀ now idle, natExpire (natExpire nat now idle).nat now idle =
    ⟨.ok, 0, (natExpire nat now idle).nat⟩
  compose : ∀ t₁ t₂ idle, t₁ ≤ t₂ →
    (natExpire (natExpire nat t₁ idle).nat t₂ idle).nat = (natExpire nat t₂ idle).nat ∧
    (natExpire nat t₁ idle).count + (natExpire (natExpire nat t₁ idle).nat t₂ idle).count =
      (natExpire nat t₂ idle).count
  longer : ∀ now idle idle', idle ≤ idle' →
    (natExpire nat now idle').count ≤ (natExpire nat now idle).count ∧
    ∀ (i : Nat) (m : Mapping), m.active ≠ 0 → (natExpire nat now idle).nat.storage[i]? = some m →
      (natExpire nat now idle').nat.storage[i]? = some m

theorem expiryLaws {nat : NatState} (hv : natIsValid nat = true) (hm : validateMappings nat = .ok) :
    ExpiryLaws nat where
  clears now idle := by
    refine ⟨{ nat with storage := sweep (mappingExpires now idle) Mapping.zero nat.storage },
      (natExpire_eq hv hm now idle).trans ?_, rfl, rfl, fun i => ?_⟩
    · simp only [← mappingExpires_iff, Bool.decide_eq_true]
    · rw [getElem?_sweep]
      simp only [mappingExpires_iff]
  idempotent now idle := by
    rw [natExpire_eq (natIsValid_natExpire hv now idle) (validateMappings_natExpire hm now idle),
      natExpire_eq hv hm]
    simp only [countP_sweep_self (mappingExpires_zero now idle),
      sweep_sweep_self (mappingExpires_zero now idle)]
  compose t₁ t₂ idle ht := by
    have hwider := mappingExpires_mono ht (UInt64.le_refl idle)
    rw [natExpire_eq (natIsValid_natExpire hv t₁ idle) (validateMappings_natExpire hm t₁ idle),
      natExpire_eq hv hm, natExpire_eq hv hm]
    simp only [sweep_sweep hwider (mappingExpires_zero t₂ idle),
      countP_sweep_add hwider (mappingExpires_zero t₂ idle), and_self]
  longer now idle idle' hidle := by
    have hwider := mappingExpires_mono (UInt64.le_refl now) hidle
    rw [natExpire_eq hv hm, natExpire_eq hv hm]
    refine ⟨List.countP_mono_left fun m _ h => hwider m h, fun i m h0 hi => ?_⟩
    simp only [getElem?_sweep, Option.map_eq_some_iff] at hi ⊢
    obtain ⟨b, hb, hbm⟩ := hi
    refine ⟨b, hb, ?_⟩
    by_cases he : mappingExpires now idle b = true
    · rw [if_pos he] at hbm
      subst hbm
      exact absurd rfl h0
    · rw [if_neg he] at hbm
      rw [if_neg fun h => he (hwider b h), hbm]

/-- What a use of a mapping at `t` promises: the mapping is there after every run whose expiries all
spare it, as each does that comes less than its idle time after `t`. -/
structure UseLaws (nat : NatState) : Prop where
  outbound : ∀ t tuple out cs, natMachine.out nat (.outbound t (some tuple)) = .translated .ok out →
    natMachine.Along (Spares tuple.flow out.sourcePort t) (natMachine.next nat (.outbound t (some tuple))) cs →
    Holds (natMachine.run nat (.outbound t (some tuple) :: cs)) tuple.flow out.sourcePort
  inbound : ∀ t tuple out cs, natMachine.out nat (.inbound t (some tuple)) = .translated .ok out →
    natMachine.Along (Spares (inboundFlow tuple out) tuple.destinationPort t)
      (natMachine.next nat (.inbound t (some tuple))) cs →
    Holds (natMachine.run nat (.inbound t (some tuple) :: cs)) (inboundFlow tuple out) tuple.destinationPort

theorem useLaws {nat : NatState} (h : TableInv nat) : UseLaws nat where
  outbound _ _ _ _ hout hcs :=
    (run_usedSince (tableInv_step nat _ h) (usedSince_of_outbound_ok hout) hcs).holds
  inbound _ _ _ _ hout hcs :=
    (run_usedSince (tableInv_step nat _ h) (usedSince_of_inbound_ok hout) hcs).holds

/-- **The laws of expiry** on every valid NAT. -/
theorem natExpire_laws {nat : NatState} (hv : natIsValid nat = true) (hm : validateMappings nat = .ok) :
    ExpiryLaws nat ∧ UseLaws nat :=
  ⟨expiryLaws hv hm, useLaws ((validateMappings_eq_ok_iff nat).mp hm)⟩

theorem natExpire_laws_oneSlotNat :
    (ExpiryLaws (natMachine.run oneSlotNat oneSlotCalls) ∧ UseLaws (natMachine.run oneSlotNat oneSlotCalls)) ∧
    (natExpire (natMachine.run oneSlotNat oneSlotCalls) 14 10).count = 0 ∧
    (natExpire (natMachine.run oneSlotNat oneSlotCalls) 15 10).count = 1 :=
  ⟨natExpire_laws (by decide +kernel) (by decide +kernel), by decide +kernel, by decide +kernel⟩

end TcpipCourse.L11
