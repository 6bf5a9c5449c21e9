import TcpipCourse.Lib.Machine
import TcpipCourse.L11.Nat

/-!
# Lesson 11: the mapping table in every reachable state

* `Flow` : the outbound key of a mapping or of a tuple; `Apart` : two slots that may stand in one table;
* `TableInv` : the table invariant; `validateMappings_eq_ok_iff` : it is what the code checks;
* `OutboundCase`, `InboundCase` : what one translation can do;
* `natMachine` : the NAT as a machine over `Call`; `tableInv_step`, and from it
  `run_tableInv_of_natInit` over every run from a successful `natInit`.
-/

namespace TcpipCourse.L11
open Lib

/-! ## The table invariant -/

/-- The outbound key: protocol, private endpoint and remote endpoint. -/
structure Flow where
  protocol : UInt8
  privateIp : Ipv4Address
  privatePort : UInt16
  remoteIp : Ipv4Address
  remotePort : UInt16
  deriving DecidableEq

def Mapping.flow (m : Mapping) : Flow :=
  ⟨m.protocol, m.privateIp, m.privatePort, m.remoteIp, m.remotePort⟩

/-- The flow an outbound tuple belongs to. -/
def Tuple.flow (t : Tuple) : Flow :=
  ⟨t.protocol, t.sourceIp, t.sourcePort, t.destinationIp, t.destinationPort⟩

/-- Two slots may stand in one table: if both are in use, neither the public port nor the flow is shared. -/
def Apart (a b : Mapping) : Prop :=
  a.active ≠ 0 → b.active ≠ 0 → a.publicPort ≠ b.publicPort ∧ a.flow ≠ b.flow

structure LiveSlot (firstPort : UInt16) (m : Mapping) : Prop where
  active : m.active = 1
  protocol : m.protocol = 6 ∨ m.protocol = 17
  privatePort : m.privatePort ≠ 0
  remotePort : m.remotePort ≠ 0
  publicPort : firstPort ≤ m.publicPort

/-- The invariant of the mapping table. -/
structure TableInv (nat : NatState) : Prop where
  slots : ∀ m ∈ nat.storage, m.active = 0 ∨ LiveSlot nat.firstPort m
  distinct : nat.storage.Pairwise Apart

theorem Apart.symm {a b : Mapping} (h : Apart a b) : Apart b a :=
  fun hb ha => ⟨fun e => (h ha hb).1 e.symm, fun e => (h ha hb).2 e.symm⟩

theorem apart_of_inactive {a b : Mapping} (ha : a.active = 0) : Apart a b := fun h => absurd ha h

theorem natIsValid_iff (nat : NatState) :
    natIsValid nat = true ↔ nat.firstPort ≠ 0 ∧ nat.storage.length ≠ 0 := by
  simp [natIsValid, NatState.capacity]

theorem mappingsHaveSameOutboundKey_iff (a b : Mapping) :
    mappingsHaveSameOutboundKey a b = true ↔ a.flow = b.flow := by
  simp only [mappingsHaveSameOutboundKey, Mapping.flow, Flow.mk.injEq, Bool.and_eq_true,
    decide_eq_true_eq]
  tauto

theorem mappingIsValid_iff (nat : NatState) (m : Mapping) :
    mappingIsValid nat m = true ↔ m.active = 0 ∨ LiveSlot nat.firstPort m := by
  unfold mappingIsValid protocolIsSupported
  split
  · next h => simp [h]
  · next h =>
    simp only [Bool.and_eq_true, decide_eq_true_eq, Bool.or_eq_true, ne_eq, h, false_or]
    exact ⟨fun ⟨⟨⟨⟨h1, h2⟩, h3⟩, h4⟩, h5⟩ => ⟨h1, h2, h3, h4, h5⟩,
      fun ⟨h1, h2, h3, h4, h5⟩ => ⟨⟨⟨⟨h1, h2⟩, h3⟩, h4⟩, h5⟩⟩

theorem any_clash_eq_false_iff (previous : List Mapping) (m : Mapping) (hm : m.active ≠ 0) :
    (previous.any fun p => p.active ≠ 0 &&
      (p.publicPort = m.publicPort || mappingsHaveSameOutboundKey p m)) = false ↔
      ∀ p ∈ previous, Apart p m := by
  rw [List.any_eq_false]
  refine forall₂_congr fun p _ => ?_
  by_cases hp : p.active = 0
  · simp [hp, apart_of_inactive]
  · simp [Apart, hp, hm, ← mappingsHaveSameOutboundKey_iff]

theorem validateFrom_eq_ok_iff (nat : NatState) : ∀ (rest previous : List Mapping),
    validateFrom nat previous rest = .ok ↔
      (∀ m ∈ rest, m.active = 0 ∨ LiveSlot nat.firstPort m) ∧ rest.Pairwise Apart ∧
        ∀ p ∈ previous, ∀ m ∈ rest, Apart p m
  | [], previous => by simp [validateFrom]
  | m :: rest, previous => by
    rw [validateFrom]
    by_cases hv : mappingIsValid nat m = true
    · have hslot := (mappingIsValid_iff nat m).mp hv
      have ih := validateFrom_eq_ok_iff nat rest (previous ++ [m])
      simp only [hv, Bool.not_true, Bool.false_eq_true, if_false]
      by_cases hm : m.active = 0
      · have hl : ∀ b, Apart m b := fun b => apart_of_inactive hm
        have hr : ∀ p, Apart p m := fun p => (hl p).symm
        rw [if_pos hm, ih]
        simp [or_imp, forall_and, hm, hl, hr]
      · rw [if_neg hm]
        by_cases hc : ∀ p ∈ previous, Apart p m
        · rw [(any_clash_eq_false_iff previous m hm).mpr hc, if_neg (by simp), ih]
          simp only [List.mem_append, List.mem_cons, List.not_mem_nil, or_false, or_imp, forall_and,
            forall_eq, List.pairwise_cons, hslot, true_and]
          exact ⟨fun ⟨h1, h2, h3, h4⟩ => ⟨h1, ⟨h4, h2⟩, hc, h3⟩,
            fun ⟨h1, ⟨h4, h2⟩, _, h3⟩ => ⟨h1, h2, h3, h4⟩⟩
        · have hany := mt (any_clash_eq_false_iff previous m hm).mp hc
          rw [Bool.not_eq_false] at hany
          rw [if_pos hany]
          exact ⟨fun h => (nomatch h), fun ⟨_, _, h3⟩ => absurd (fun p hp => h3 p hp m (by simp)) hc⟩
    · have hslot := mt (mappingIsValid_iff nat m).mpr hv
      simp only [Bool.not_eq_true] at hv
      simp only [hv, Bool.not_false, if_true]
      exact ⟨fun h => (nomatch h), fun ⟨h1, _, _⟩ => absurd (h1 m (by simp)) hslot⟩

/-- **The validation loop decides the table invariant.** -/
theorem validateMappings_eq_ok_iff (nat : NatState) : validateMappings nat = .ok ↔ TableInv nat := by
  rw [validateMappings, validateFrom_eq_ok_iff]
  simp only [List.not_mem_nil, false_implies, implies_true, and_true]
  exact ⟨fun ⟨h1, h2⟩ => ⟨h1, h2⟩, fun ⟨h1, h2⟩ => ⟨h1, h2⟩⟩

/-! ## Changing one slot -/

theorem pairwise_set {α : Type*} {R : α → α → Prop} (hsymm : ∀ a b, R a b → R b a) {l : List α}
    (h : l.Pairwise R) {i : Nat} {x : α}
    (hx : ∀ j (hj : j < l.length), j ≠ i → R (l.get ⟨j, hj⟩) x) : (l.set i x).Pairwise R := by
  rw [List.pairwise_iff_getElem] at h ⊢
  intro a b ha hb hab
  rw [List.length_set] at ha hb
  rw [List.getElem_set, List.getElem_set]
  split
  · next hia =>
    rw [if_neg (by omega)]
    exact hsymm _ _ (hx b hb (by omega))
  · split
    · exact hx a ha (by omega)
    · exact h a b ha hb hab

theorem TableInv.store {nat : NatState} (h : TableInv nat) {i : Nat} {m : Mapping}
    (hm : m.active = 0 ∨ LiveSlot nat.firstPort m)
    (hd : ∀ j (hj : j < nat.storage.length), j ≠ i → Apart (nat.storage.get ⟨j, hj⟩) m) :
    TableInv (nat.store i m) where
  slots := fun b hb => by
    rcases List.mem_or_eq_of_mem_set hb with hb | rfl
    · exact h.slots b hb
    · exact hm
  distinct := pairwise_set (fun _ _ => Apart.symm) h.distinct hd

theorem TableInv.apart {nat : NatState} (h : TableInv nat) {i j : Nat} (hi : i < nat.storage.length)
    (hj : j < nat.storage.length) (hij : i ≠ j) :
    Apart (nat.storage.get ⟨i, hi⟩) (nat.storage.get ⟨j, hj⟩) := by
  have hd := List.pairwise_iff_getElem.mp h.distinct
  rcases Nat.lt_or_gt_of_ne hij with hlt | hgt
  · exact hd i j hi hj hlt
  · exact (hd j i hj hi hgt).symm

@[simp] theorem Mapping.touch_active (m : Mapping) (now : UInt64) : (m.touch now).active = m.active := by
  unfold touch; split <;> rfl

@[simp] theorem Mapping.touch_publicPort (m : Mapping) (now : UInt64) :
    (m.touch now).publicPort = m.publicPort := by
  unfold touch; split <;> rfl

@[simp] theorem Mapping.touch_flow (m : Mapping) (now : UInt64) : (m.touch now).flow = m.flow := by
  unfold touch; split <;> rfl

theorem LiveSlot.touch {firstPort : UInt16} {m : Mapping} (h : LiveSlot firstPort m) (now : UInt64) :
    LiveSlot firstPort (m.touch now) := by
  unfold Mapping.touch
  split
  · exact ⟨h.active, h.protocol, h.privatePort, h.remotePort, h.publicPort⟩
  · exact h

/-- Refreshing a slot keeps the invariant. -/
theorem TableInv.touch {nat : NatState} (h : TableInv nat) {i : Nat} (hi : i < nat.storage.length)
    (now : UInt64) : TableInv (nat.store i ((nat.storage.get ⟨i, hi⟩).touch now)) := by
  refine h.store ?_ fun j hj hji => ?_
  · rcases h.slots _ (List.get_mem nat.storage ⟨i, hi⟩) with h0 | h1
    · exact .inl (by rw [Mapping.touch_active]; exact h0)
    · exact .inr (h1.touch now)
  · have := h.apart hj hi hji
    simpa only [Apart, Mapping.touch_active, Mapping.touch_publicPort, Mapping.touch_flow] using this

/-! ## What one translation can do -/

theorem mappingMatchesOutbound_iff (m : Mapping) (t : Tuple) :
    mappingMatchesOutbound m t = true ↔ m.active ≠ 0 ∧ m.flow = t.flow := by
  simp only [mappingMatchesOutbound, Mapping.flow, Tuple.flow, Flow.mk.injEq, Bool.and_eq_true,
    decide_eq_true_eq]
  tauto

theorem mappingMatchesInbound_iff (m : Mapping) (t : Tuple) :
    mappingMatchesInbound m t = true ↔ m.active ≠ 0 ∧ m.protocol = t.protocol ∧
      m.publicPort = t.destinationPort ∧ m.remoteIp = t.sourceIp ∧ m.remotePort = t.sourcePort := by
  simp only [mappingMatchesInbound, Bool.and_eq_true, decide_eq_true_eq]
  tauto

theorem portInUse_eq_false_iff (nat : NatState) (port : UInt16) :
    portInUse nat port = false ↔ ∀ m ∈ nat.storage, m.active ≠ 0 → m.publicPort ≠ port := by
  simp [portInUse, List.any_eq_false]

theorem scanOutbound_fst (t : Tuple) : ∀ (l : List Mapping) (i : Nat) (free : Option Nat),
    (scanOutbound t l i free).1 = (l.findIdx? fun m => mappingMatchesOutbound m t).map (· + i)
  | [], _, _ => rfl
  | m :: l, i, free => by
    have hshift : ∀ o : Option Nat, (o.map (· + 1)).map (· + i) = o.map (· + (i + 1)) := by
      intro o; cases o <;> simp; omega
    rw [scanOutbound, List.findIdx?_cons]
    split
    · simp
    · rw [hshift]
      split <;> exact scanOutbound_fst t l (i + 1) _

theorem scanOutbound_snd (t : Tuple) : ∀ (l : List Mapping) (i : Nat) (free : Option Nat),
    (l.findIdx? fun m => mappingMatchesOutbound m t) = none →
    (scanOutbound t l i free).2 = free.or ((l.findIdx? fun m => m.active = 0).map (· + i))
  | [], _, free, _ => by cases free <;> rfl
  | m :: l, i, free, h => by
    have hshift : ∀ o : Option Nat, (o.map (· + 1)).map (· + i) = o.map (· + (i + 1)) := by
      intro o; cases o <;> simp; omega
    rw [List.findIdx?_cons] at h
    split at h
    · simp at h
    · next hm =>
      have hl : (l.findIdx? fun m => mappingMatchesOutbound m t) = none := by simpa using h
      rw [scanOutbound, if_neg hm, List.findIdx?_cons]
      split
      · next hf =>
        simp only [Bool.and_eq_true, decide_eq_true_eq] at hf
        rw [scanOutbound_snd t l (i + 1) _ hl, hf.1]
        simp [hf.2]
      · next hf =>
        rw [scanOutbound_snd t l (i + 1) _ hl]
        cases free with
        | some k => rfl
        | none =>
          have : m.active ≠ 0 := by simpa using hf
          simp only [this, decide_false, Bool.false_eq_true, if_false, hshift]

theorem findAvailablePort_eq_some {nat : NatState} {port : UInt16} (h : findAvailablePort nat = some port) :
    nat.firstPort ≤ port ∧ portInUse nat port = false := by
  refine ⟨?_, by simpa using List.find?_some h⟩
  obtain ⟨c, hc, rfl⟩ := List.mem_map.mp (List.mem_of_find?_eq_some h)
  obtain ⟨k, hk, rfl⟩ := List.mem_range'.mp hc
  have hlt : nat.firstPort.toNat + 1 * k < 2 ^ 16 := by
    have : uint16Max = 65535 := rfl
    omega
  rw [UInt16.le_iff_toNat_le, UInt16.toNat_ofNat_of_lt' hlt]
  omega

theorem mappingAt_eq {nat : NatState} {i : Nat} (hi : i < nat.storage.length) :
    nat.mappingAt i = nat.storage.get ⟨i, hi⟩ := by
  simp [NatState.mappingAt, hi]

/-- Why a translation may answer `MALFORMED`. -/
def Blames (nat : NatState) (tuple : Option Tuple) (status : Status) : Prop :=
  status = .malformed → (∃ t, tuple = some t ∧ tupleIsValid t = false) ∨ validateMappings nat ≠ .ok

theorem blames_of_ne {nat : NatState} {tuple : Option Tuple} {status : Status} (h : status ≠ .malformed) :
    Blames nat tuple status := fun e => absurd e h

/-- What an outbound call can do: fail and leave the table alone, refresh the slot of its flow, or
claim a free slot and an unused port for a flow that has none. -/
inductive OutboundCase (nat : NatState) (now : UInt64) : Option Tuple → Reply → Prop
  | failed {tuple : Option Tuple} {status : Status} (h : status ≠ .ok) (hb : Blames nat tuple status) :
      OutboundCase nat now tuple (.fail nat status)
  | refreshed {t : Tuple} {i : Nat} (hi : i < nat.storage.length) (ht : tupleIsValid t = true)
      (hm : mappingMatchesOutbound (nat.storage.get ⟨i, hi⟩) t = true) :
      OutboundCase nat now (some t)
        ⟨.ok, { t with sourceIp := nat.publicIp, sourcePort := (nat.storage.get ⟨i, hi⟩).publicPort },
          nat.store i ((nat.storage.get ⟨i, hi⟩).touch now)⟩
  | created {t : Tuple} {i : Nat} {port : UInt16} (hi : i < nat.storage.length)
      (ht : tupleIsValid t = true) (hfree : (nat.storage.get ⟨i, hi⟩).active = 0)
      (hnew : ∀ m ∈ nat.storage, mappingMatchesOutbound m t = false)
      (hport : findAvailablePort nat = some port) :
      OutboundCase nat now (some t)
        ⟨.ok, { t with sourceIp := nat.publicIp, sourcePort := port }, nat.store i (.ofTuple t port now)⟩

theorem natTranslateOutbound_case (nat : NatState) (now : UInt64) (tuple : Option Tuple) :
    OutboundCase nat now tuple (natTranslateOutbound nat now tuple) := by
  unfold natTranslateOutbound
  cases tuple with
  | none => exact .failed (by decide) (blames_of_ne (by decide))
  | some t =>
    dsimp only
    split
    · exact .failed (by decide) (blames_of_ne (by decide))
    · split
      · next ht => exact .failed (by decide) fun _ => .inl ⟨t, rfl, by simpa using ht⟩
      · next ht =>
        have ht : tupleIsValid t = true := by simpa using ht
        split
        · next hv => exact .failed hv fun _ => .inr hv
        · have hfst := scanOutbound_fst t nat.storage 0 none
          simp only [Nat.add_zero, Option.map_id'] at hfst
          split
          · next i free hscan =>
            rw [hscan] at hfst
            obtain ⟨hi, hm, -⟩ := List.findIdx?_eq_some_iff_getElem.mp hfst.symm
            rw [mappingAt_eq hi]
            exact .refreshed hi ht hm
          · exact .failed (by decide) (blames_of_ne (by decide))
          · next i hscan =>
            rw [hscan] at hfst
            have hsnd := scanOutbound_snd t nat.storage 0 none hfst.symm
            rw [hscan] at hsnd
            simp only [Nat.add_zero, Option.map_id', Option.none_or] at hsnd
            obtain ⟨hi, hfree, -⟩ := List.findIdx?_eq_some_iff_getElem.mp hsnd.symm
            split
            · exact .failed (by decide) (blames_of_ne (by decide))
            · next port hport =>
              exact .created hi ht (by simpa using hfree) (List.findIdx?_eq_none_iff.mp hfst.symm) hport

/-- What an inbound call can do: fail and leave the table alone, or refresh the slot it matched. -/
inductive InboundCase (nat : NatState) (now : UInt64) : Option Tuple → Reply → Prop
  | failed {tuple : Option Tuple} {status : Status} (h : status ≠ .ok) (hb : Blames nat tuple status) :
      InboundCase nat now tuple (.fail nat status)
  | refreshed {t : Tuple} {i : Nat} (hi : i < nat.storage.length)
      (hm : mappingMatchesInbound (nat.storage.get ⟨i, hi⟩) t = true) :
      InboundCase nat now (some t)
        ⟨.ok, { t with
            destinationIp := (nat.storage.get ⟨i, hi⟩).privateIp
            destinationPort := (nat.storage.get ⟨i, hi⟩).privatePort },
          nat.store i ((nat.storage.get ⟨i, hi⟩).touch now)⟩

theorem natTranslateInbound_case (nat : NatState) (now : UInt64) (tuple : Option Tuple) :
    InboundCase nat now tuple (natTranslateInbound nat now tuple) := by
  unfold natTranslateInbound
  cases tuple with
  | none => exact .failed (by decide) (blames_of_ne (by decide))
  | some t =>
    dsimp only
    split
    · exact .failed (by decide) (blames_of_ne (by decide))
    · split
      · next ht => exact .failed (by decide) fun _ => .inl ⟨t, rfl, by simpa using ht⟩
      · split
        · exact .failed (by decide) (blames_of_ne (by decide))
        · split
          · next hv => exact .failed hv fun _ => .inr hv
          · split
            · exact .failed (by decide) (blames_of_ne (by decide))
            · next i hfind =>
              obtain ⟨hi, hm, -⟩ := List.findIdx?_eq_some_iff_getElem.mp hfind
              rw [mappingAt_eq hi]
              exact .refreshed hi hm

/-! ## The NAT as a machine -/

inductive Call where
  | outbound (now : UInt64) (tuple : Option Tuple)
  | inbound (now : UInt64) (tuple : Option Tuple)
  | expire (now idle : UInt64)
  deriving DecidableEq

/-- What one call returns: its status and the translated tuple, or the count of an expiry. -/
inductive Answer where
  | translated (status : Status) (out : Tuple)
  | expired (status : Status) (count : Nat)
  deriving DecidableEq

def Answer.status : Answer → Status
  | translated status _ => status
  | expired status _ => status

def natStep (nat : NatState) : Call → NatState × Answer
  | .outbound now tuple =>
    let r := natTranslateOutbound nat now tuple
    (r.nat, .translated r.status r.out)
  | .inbound now tuple =>
    let r := natTranslateInbound nat now tuple
    (r.nat, .translated r.status r.out)
  | .expire now idle =>
    let r := natExpire nat now idle
    (r.nat, .expired r.status r.count)

def natMachine : Machine NatState Call Answer := ⟨natStep⟩

/-- The call's tuple, if it has one, is well formed. -/
def Call.WellFormed : Call → Prop
  | .outbound _ tuple => ∀ t, tuple = some t → tupleIsValid t = true
  | .inbound _ tuple => ∀ t, tuple = some t → tupleIsValid t = true
  | .expire _ _ => True

/-! ## The invariant over runs -/

theorem tableInv_natInit {firstPort : UInt16} {publicIp : Ipv4Address} {storage : List Mapping}
    {nat : NatState} (h : natInit firstPort publicIp storage = .ok nat) :
    TableInv nat ∧ natIsValid nat = true := by
  unfold natInit at h
  split at h
  · cases h
  · next hbad =>
    split at h
    · cases h
    · cases h
      simp only [Bool.or_eq_true, decide_eq_true_eq, not_or] at hbad
      refine ⟨⟨fun m hm => .inl (by rw [List.eq_of_mem_replicate hm]; rfl), ?_⟩,
        (natIsValid_iff _).mpr (by simpa using hbad)⟩
      exact List.pairwise_replicate.mpr (.inr (apart_of_inactive rfl))

theorem TableInv.outbound {nat : NatState} (h : TableInv nat) (now : UInt64) (tuple : Option Tuple) :
    TableInv (natTranslateOutbound nat now tuple).nat := by
  cases hr : natTranslateOutbound nat now tuple with
  | mk status out nat' =>
    have hc := natTranslateOutbound_case nat now tuple
    rw [hr] at hc
    cases hc with
    | failed _ _ => exact h
    | refreshed hi _ _ => exact h.touch hi now
    | @created t i port hi ht hfree hnew hport =>
      obtain ⟨hge, hunused⟩ := findAvailablePort_eq_some hport
      simp only [tupleIsValid, protocolIsSupported, Bool.and_eq_true, Bool.or_eq_true,
        decide_eq_true_eq] at ht
      refine h.store (.inr ⟨rfl, ht.1.1, ht.1.2, ht.2, hge⟩) fun j hj _ ha _ => ?_
      have hmem := List.get_mem nat.storage ⟨j, hj⟩
      refine ⟨(portInUse_eq_false_iff nat port).mp hunused _ hmem ha, fun hflow => ?_⟩
      have := hnew _ hmem
      rw [(mappingMatchesOutbound_iff _ t).mpr ⟨ha, hflow⟩] at this
      cases this

theorem TableInv.inbound {nat : NatState} (h : TableInv nat) (now : UInt64) (tuple : Option Tuple) :
    TableInv (natTranslateInbound nat now tuple).nat := by
  cases hr : natTranslateInbound nat now tuple with
  | mk status out nat' =>
    have hc := natTranslateInbound_case nat now tuple
    rw [hr] at hc
    cases hc with
    | failed _ _ => exact h
    | refreshed hi _ => exact h.touch hi now

theorem TableInv.clear {nat : NatState} (h : TableInv nat) (p : Mapping → Bool) :
    TableInv { nat with storage := nat.storage.map fun m => if p m then Mapping.zero else m } where
  slots := fun b hb => by
    obtain ⟨m, hm, rfl⟩ := List.mem_map.mp hb
    split
    · exact .inl rfl
    · exact h.slots m hm
  distinct := by
    refine List.pairwise_map.mpr (h.distinct.imp fun {a b} hab => ?_)
    split
    · exact apart_of_inactive rfl
    · split
      · exact (apart_of_inactive rfl).symm
      · exact hab

theorem TableInv.expire {nat : NatState} (h : TableInv nat) (now idle : UInt64) :
    TableInv (natExpire nat now idle).nat := by
  unfold natExpire
  split
  · exact h
  · split
    · exact h
    · exact h.clear _

/-- **One call preserves the table invariant.** -/
theorem tableInv_step (nat : NatState) (c : Call) (h : TableInv nat) : TableInv (natMachine.next nat c) := by
  cases c with
  | outbound now tuple => exact h.outbound now tuple
  | inbound now tuple => exact h.inbound now tuple
  | expire now idle => exact h.expire now idle

theorem run_tableInv {nat : NatState} (h : TableInv nat) (cs : List Call) :
    TableInv (natMachine.run nat cs) :=
  natMachine.run_invariant tableInv_step h cs

/-- While the invariant holds, only a malformed tuple is answered with `MALFORMED`. -/
theorem status_ne_malformed {nat : NatState} (h : TableInv nat) {c : Call} (hc : c.WellFormed) :
    (natMachine.out nat c).status ≠ .malformed := by
  have hv := (validateMappings_eq_ok_iff nat).mpr h
  have hblame : ∀ tuple status, (∀ t, tuple = some t → tupleIsValid t = true) → Blames nat tuple status →
      status ≠ .malformed := by
    rintro tuple status hwf hb rfl
    rcases hb rfl with ⟨t, ht, hbad⟩ | hbad
    · rw [hwf t ht] at hbad
      cases hbad
    · exact hbad hv
  cases c with
  | outbound now tuple =>
    have hcase := natTranslateOutbound_case nat now tuple
    change (natTranslateOutbound nat now tuple).status ≠ .malformed
    generalize natTranslateOutbound nat now tuple = r at hcase ⊢
    cases hcase with
    | failed _ hb => exact hblame _ _ hc hb
    | refreshed _ _ _ => nofun
    | created _ _ _ _ _ => nofun
  | inbound now tuple =>
    have hcase := natTranslateInbound_case nat now tuple
    change (natTranslateInbound nat now tuple).status ≠ .malformed
    generalize natTranslateInbound nat now tuple = r at hcase ⊢
    cases hcase with
    | failed _ hb => exact hblame _ _ hc hb
    | refreshed _ _ => nofun
  | expire now idle =>
    change (natExpire nat now idle).status ≠ .malformed
    rw [natExpire, hv]
    split
    · nofun
    · rw [if_neg (by decide)]
      nofun

/-- **The table invariant in every reachable state.** From a successful initialization, every run of
calls keeps the table well formed, so its validation never fails and no call with a well-formed tuple
is answered with `MALFORMED`. -/
theorem run_tableInv_of_natInit {firstPort : UInt16} {publicIp : Ipv4Address} {storage : List Mapping}
    {nat : NatState} (h : natInit firstPort publicIp storage = .ok nat) (cs : List Call) :
    TableInv (natMachine.run nat cs) ∧ validateMappings (natMachine.run nat cs) = .ok ∧
      ∀ c : Call, c.WellFormed → (natMachine.out (natMachine.run nat cs) c).status ≠ .malformed := by
  have hinv := run_tableInv (tableInv_natInit h).1 cs
  exact ⟨hinv, (validateMappings_eq_ok_iff _).mpr hinv, fun c hc => status_ne_malformed hinv hc⟩

/-- A one-slot NAT, a flow that claims the slot, and a second flow that finds none. -/
def oneSlotNat : NatState := ⟨#v[203, 0, 113, 1], 40000, [Mapping.zero]⟩

def oneSlotCalls : List Call :=
  [.outbound 5 (some ⟨6, #v[10, 0, 0, 2], #v[198, 51, 100, 7], 1234, 80⟩),
    .outbound 6 (some ⟨6, #v[10, 0, 0, 3], #v[198, 51, 100, 7], 1234, 80⟩)]

theorem natInit_oneSlotNat :
    natInit 40000 #v[203, 0, 113, 1] [⟨9, 9, #v[1, 1, 1, 1], #v[2, 2, 2, 2], 3, 4, 5, 6⟩] =
      .ok oneSlotNat := rfl

theorem run_tableInv_oneSlotNat :
    TableInv (natMachine.run oneSlotNat oneSlotCalls) ∧
      validateMappings (natMachine.run oneSlotNat oneSlotCalls) = .ok ∧
      ∀ c : Call, c.WellFormed →
        (natMachine.out (natMachine.run oneSlotNat oneSlotCalls) c).status ≠ .malformed :=
  run_tableInv_of_natInit natInit_oneSlotNat oneSlotCalls

end TcpipCourse.L11
