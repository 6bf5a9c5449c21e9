import TcpipCourse.L11.Table

/-!
# Lesson 11: sessions over whole runs

* `Holds nat f port` : the table maps flow `f` to `port`; `TableInv.eq_of_shared` : at most one slot does;
* `inbound_solicited` : an inbound packet is only translated for a flow that an earlier outbound call
  mapped to that port, with no expiry of the mapping in between;
* `SpareFlow` : an expiry that leaves a flow's mapping alone; `holds_next` : such calls keep the mapping;
* `session_safety` : both halves over every run from a successful `natInit`.
-/

namespace TcpipCourse.L11
open Lib

/-- The table maps flow `f` to public port `port`. -/
def Holds (nat : NatState) (f : Flow) (port : UInt16) : Prop :=
  ∃ m ∈ nat.storage, m.active ≠ 0 ∧ m.flow = f ∧ m.publicPort = port

/-- The call removes the mapping of flow `f`. -/
def Removes (nat : NatState) (c : Call) (f : Flow) : Prop :=
  (∃ port, Holds nat f port) ∧ ¬ ∃ port, Holds (natMachine.next nat c) f port

/-! ## One slot for a flow, one slot for a port -/

theorem TableInv.eq_of_shared {nat : NatState} (h : TableInv nat) {a b : Mapping} (ha : a ∈ nat.storage)
    (hb : b ∈ nat.storage) (ha0 : a.active ≠ 0) (hb0 : b.active ≠ 0)
    (hs : a.publicPort = b.publicPort ∨ a.flow = b.flow) : a = b := by
  obtain ⟨i, hi, rfl⟩ := List.getElem_of_mem ha
  obtain ⟨j, hj, rfl⟩ := List.getElem_of_mem hb
  by_contra hne
  have hij : i ≠ j := by rintro rfl; exact hne rfl
  obtain ⟨hport, hflow⟩ := h.apart hi hj hij ha0 hb0
  exact hs.elim hport hflow

theorem TableInv.holds_unique {nat : NatState} (h : TableInv nat) {f g : Flow} {p q : UInt16}
    (hf : Holds nat f p) (hg : Holds nat g q) (hs : p = q ∨ f = g) : f = g ∧ p = q := by
  obtain ⟨a, ha, ha0, rfl, rfl⟩ := hf
  obtain ⟨b, hb, hb0, rfl, rfl⟩ := hg
  rw [h.eq_of_shared ha hb ha0 hb0 hs]
  exact ⟨rfl, rfl⟩

/-! ## How a call changes the mappings -/

theorem holds_of_holds_store {nat : NatState} {i : Nat} {m : Mapping} {f : Flow} {port : UInt16}
    (h : Holds (nat.store i m) f port) :
    Holds nat f port ∨ m.active ≠ 0 ∧ m.flow = f ∧ m.publicPort = port := by
  obtain ⟨b, hb, hprop⟩ := h
  rcases List.mem_or_eq_of_mem_set hb with hb | rfl
  · exact .inl ⟨b, hb, hprop⟩
  · exact .inr hprop

/-- Overwriting a slot keeps every mapping that the slot did not hold. -/
theorem holds_store_of_holds {nat : NatState} {i : Nat} (hi : i < nat.storage.length) {m : Mapping} {f : Flow}
    {port : UInt16} (h : Holds nat f port)
    (hm : (nat.storage.get ⟨i, hi⟩).active ≠ 0 → (nat.storage.get ⟨i, hi⟩).flow = f →
      (nat.storage.get ⟨i, hi⟩).publicPort = port → m.active ≠ 0 ∧ m.flow = f ∧ m.publicPort = port) :
    Holds (nat.store i m) f port := by
  obtain ⟨b, hb, hb0, hbf, hbp⟩ := h
  obtain ⟨j, hj, rfl⟩ := List.getElem_of_mem hb
  by_cases hij : i = j
  · subst hij
    exact ⟨m, List.mem_set hi m, hm hb0 hbf hbp⟩
  · refine ⟨nat.storage[j], ?_, hb0, hbf, hbp⟩
    exact List.mem_iff_getElem.mpr ⟨j, by simpa [NatState.store] using hj, by
      simp [NatState.store, List.getElem_set_ne hij]⟩

theorem holds_touch_iff {nat : NatState} {i : Nat} (hi : i < nat.storage.length) (now : UInt64) (f : Flow)
    (port : UInt16) :
    Holds (nat.store i ((nat.storage.get ⟨i, hi⟩).touch now)) f port ↔ Holds nat f port := by
  constructor
  · intro h
    rcases holds_of_holds_store h with h | ⟨h0, hf, hp⟩
    · exact h
    · simp only [Mapping.touch_active, Mapping.touch_flow, Mapping.touch_publicPort] at h0 hf hp
      exact ⟨_, List.get_mem nat.storage ⟨i, hi⟩, h0, hf, hp⟩
  · intro h
    refine holds_store_of_holds hi h fun h0 hf hp => ?_
    simp only [Mapping.touch_active, Mapping.touch_flow, Mapping.touch_publicPort]
    exact ⟨h0, hf, hp⟩

theorem holds_natExpire {nat : NatState} {now idle : UInt64} {f : Flow} {port : UInt16}
    (h : Holds (natExpire nat now idle).nat f port) : Holds nat f port := by
  unfold natExpire at h
  split at h
  · exact h
  · split at h
    · exact h
    · obtain ⟨b, hb, hb0, hbf⟩ := h
      obtain ⟨m, hm, rfl⟩ := List.mem_map.mp hb
      split at hb0
      · exact absurd rfl hb0
      · next hexp =>
        rw [if_neg hexp] at hbf
        exact ⟨m, hm, hb0, hbf⟩

/-- Only an outbound call of the flow itself, answered with that port, creates a mapping. -/
theorem outbound_of_holds_next {nat : NatState} {c : Call} {f : Flow} {port : UInt16}
    (h0 : ¬ Holds nat f port) (h1 : Holds (natMachine.next nat c) f port) :
    ∃ now t out, c = .outbound now (some t) ∧ t.flow = f ∧
      natMachine.out nat c = .translated .ok out ∧ out.sourcePort = port := by
  cases c with
  | outbound now tuple =>
    have hcase := natTranslateOutbound_case nat now tuple
    change Holds (natTranslateOutbound nat now tuple).nat f port at h1
    change ∃ now' t out, Call.outbound now tuple = Call.outbound now' (some t) ∧ t.flow = f ∧
      Answer.translated (natTranslateOutbound nat now tuple).status (natTranslateOutbound nat now tuple).out =
        Answer.translated .ok out ∧ out.sourcePort = port
    generalize natTranslateOutbound nat now tuple = r at hcase h1 ⊢
    cases hcase with
    | failed _ _ => exact absurd h1 h0
    | refreshed hi _ _ => exact absurd ((holds_touch_iff hi now f port).mp h1) h0
    | @created t i port' hi _ _ _ _ =>
      rcases holds_of_holds_store h1 with h | ⟨-, hf, hp⟩
      · exact absurd h h0
      · exact ⟨now, t, _, rfl, hf, rfl, hp⟩
  | inbound now tuple =>
    have hcase := natTranslateInbound_case nat now tuple
    change Holds (natTranslateInbound nat now tuple).nat f port at h1
    generalize natTranslateInbound nat now tuple = r at hcase h1
    cases hcase with
    | failed _ _ => exact absurd h1 h0
    | refreshed hi _ => exact absurd ((holds_touch_iff hi now f port).mp h1) h0
  | expire now idle => exact absurd (holds_natExpire h1) h0

/-! ## No unsolicited inbound packet -/

theorem not_holds_natInit {firstPort : UInt16} {publicIp : Ipv4Address} {storage : List Mapping}
    {nat : NatState} (h : natInit firstPort publicIp storage = .ok nat) (f : Flow) (port : UInt16) :
    ¬ Holds nat f port := by
  unfold natInit at h
  split at h
  · cases h
  · split at h
    · cases h
    · cases h
      rintro ⟨m, hm, hm0, -⟩
      rw [List.eq_of_mem_replicate hm] at hm0
      exact hm0 rfl

/-- The flow an inbound packet is translated for. -/
def inboundFlow (t out : Tuple) : Flow :=
  ⟨t.protocol, out.destinationIp, out.destinationPort, t.sourceIp, t.sourcePort⟩

theorem holds_of_inbound_ok {nat : NatState} {now : UInt64} {t out : Tuple}
    (h : natMachine.out nat (.inbound now (some t)) = .translated .ok out) :
    Holds nat (inboundFlow t out) t.destinationPort := by
  have hcase := natTranslateInbound_case nat now (some t)
  change Answer.translated (natTranslateInbound nat now (some t)).status
    (natTranslateInbound nat now (some t)).out = .translated .ok out at h
  generalize natTranslateInbound nat now (some t) = r at hcase h
  cases hcase with
  | failed hne _ =>
    injection h with h
    exact absurd h hne
  | refreshed hi hm =>
    obtain ⟨h0, hproto, hport, hip, hrport⟩ := (mappingMatchesInbound_iff _ t).mp hm
    injection h with _ h
    subst h
    refine ⟨_, List.get_mem nat.storage ⟨_, hi⟩, h0, ?_, hport⟩
    simp only [Mapping.flow, inboundFlow, hproto, hip, hrport]

/-- No unsolicited inbound: a translated inbound packet belongs to a flow that an earlier outbound
call was given this port for, and no call in between removed the flow's mapping. -/
theorem inbound_solicited {firstPort : UInt16} {publicIp : Ipv4Address} {storage : List Mapping}
    {nat : NatState} (hinit : natInit firstPort publicIp storage = .ok nat) {cs : List Call} {now : UInt64}
    {t out : Tuple}
    (h : natMachine.out (natMachine.run nat cs) (.inbound now (some t)) = .translated .ok out) :
    ∃ pre now' t' out' mid, cs = pre ++ .outbound now' (some t') :: mid ∧ t'.flow = inboundFlow t out ∧
      natMachine.out (natMachine.run nat pre) (.outbound now' (some t')) = .translated .ok out' ∧
      out'.sourcePort = t.destinationPort ∧
      ∀ a e b, mid = a ++ e :: b →
        ¬ Removes (natMachine.run nat (pre ++ .outbound now' (some t') :: a)) e (inboundFlow t out) := by
  obtain ⟨pre, c, mid, hcs, hpre, hmid⟩ := natMachine.exists_establishing_step
    (fun s => Holds s (inboundFlow t out) t.destinationPort)
    (not_holds_natInit hinit (inboundFlow t out) t.destinationPort) (holds_of_inbound_ok h)
  obtain ⟨now', t', out', rfl, hflow, hout, hport⟩ :=
    outbound_of_holds_next hpre (hmid [] mid (List.nil_append mid).symm)
  refine ⟨pre, now', t', out', mid, hcs, hflow, hout, hport, fun a e b hab hrem => hrem.2 ?_⟩
  -- the mapping is still there after `e`, which is a state of the run since it was created
  have hafter := hmid (a ++ [e]) b (by simp [hab])
  rw [natMachine.run_append] at hafter ⊢
  exact ⟨t.destinationPort, by simpa [natMachine.run_append] using hafter⟩

/-! ## Session stability -/

/-- A call that does not expire the mapping of `f`: the expiry was made before the mapping's last use, or
less than `idle` after it. -/
def SpareFlow (f : Flow) (nat : NatState) : Call → Prop
  | .outbound _ _ => True
  | .inbound _ _ => True
  | .expire now idle =>
    ∀ m ∈ nat.storage, m.active ≠ 0 → m.flow = f → now < m.lastUsed ∨ now - m.lastUsed < idle

theorem holds_next {nat : NatState} {c : Call} {f : Flow} {port : UInt16} (h : Holds nat f port)
    (hc : SpareFlow f nat c) : Holds (natMachine.next nat c) f port := by
  cases c with
  | outbound now tuple =>
    have hcase := natTranslateOutbound_case nat now tuple
    change Holds (natTranslateOutbound nat now tuple).nat f port
    generalize natTranslateOutbound nat now tuple = r at hcase
    cases hcase with
    | failed _ _ => exact h
    | refreshed hi _ _ => exact (holds_touch_iff hi now f port).mpr h
    | created hi _ hfree _ _ => exact holds_store_of_holds hi h fun h0 => absurd hfree h0
  | inbound now tuple =>
    have hcase := natTranslateInbound_case nat now tuple
    change Holds (natTranslateInbound nat now tuple).nat f port
    generalize natTranslateInbound nat now tuple = r at hcase
    cases hcase with
    | failed _ _ => exact h
    | refreshed hi _ => exact (holds_touch_iff hi now f port).mpr h
  | expire now idle =>
    change Holds (natExpire nat now idle).nat f port
    unfold natExpire
    split
    · exact h
    · split
      · exact h
      · obtain ⟨m, hm, h0, hf, hp⟩ := h
        have hkeep : ¬ mappingExpires now idle m = true := by
          rcases hc m hm h0 hf with hlt | hlt
          · simp [mappingExpires, UInt64.not_le.mpr hlt]
          · simp [mappingExpires, UInt64.not_le.mpr hlt]
        exact ⟨m, List.mem_map.mpr ⟨m, hm, if_neg hkeep⟩, h0, hf, hp⟩

structure SameBox (nat nat' : NatState) : Prop where
  publicIp : nat'.publicIp = nat.publicIp
  firstPort : nat'.firstPort = nat.firstPort
  capacity : nat'.storage.length = nat.storage.length

theorem SameBox.refl (nat : NatState) : SameBox nat nat := ⟨rfl, rfl, rfl⟩

theorem SameBox.trans {a b c : NatState} (h : SameBox a b) (h' : SameBox b c) : SameBox a c :=
  ⟨h'.1.trans h.1, h'.2.trans h.2, h'.3.trans h.3⟩

theorem sameBox_store (nat : NatState) (i : Nat) (m : Mapping) : SameBox nat (nat.store i m) :=
  ⟨rfl, rfl, by simp [NatState.store]⟩

theorem sameBox_next (nat : NatState) (c : Call) : SameBox nat (natMachine.next nat c) := by
  cases c with
  | outbound now tuple =>
    have hcase := natTranslateOutbound_case nat now tuple
    change SameBox nat (natTranslateOutbound nat now tuple).nat
    generalize natTranslateOutbound nat now tuple = r at hcase
    cases hcase with
    | failed _ _ => exact .refl nat
    | refreshed _ _ _ => exact sameBox_store nat _ _
    | created _ _ _ _ _ => exact sameBox_store nat _ _
  | inbound now tuple =>
    have hcase := natTranslateInbound_case nat now tuple
    change SameBox nat (natTranslateInbound nat now tuple).nat
    generalize natTranslateInbound nat now tuple = r at hcase
    cases hcase with
    | failed _ _ => exact .refl nat
    | refreshed _ _ => exact sameBox_store nat _ _
  | expire now idle =>
    change SameBox nat (natExpire nat now idle).nat
    unfold natExpire
    split
    · exact .refl nat
    · split
      · exact .refl nat
      · exact ⟨rfl, rfl, by simp⟩

theorem SameBox.natIsValid {nat nat' : NatState} (h : SameBox nat nat') (hv : natIsValid nat = true) :
    natIsValid nat' = true := by
  rw [natIsValid_iff] at hv ⊢
  rwa [h.firstPort, h.capacity]

/-! ### Calls of a flow that has a mapping -/

theorem TableInv.live {nat : NatState} (h : TableInv nat) {m : Mapping} (hm : m ∈ nat.storage)
    (h0 : m.active ≠ 0) : LiveSlot nat.firstPort m := (h.slots m hm).resolve_left h0

theorem tupleIsValid_of_holds {nat : NatState} (h : TableInv nat) {t : Tuple} {port : UInt16}
    (hf : Holds nat t.flow port) : tupleIsValid t = true := by
  obtain ⟨m, hm, h0, hflow, -⟩ := hf
  have hlive := h.live hm h0
  simp only [Mapping.flow, Tuple.flow, Flow.mk.injEq] at hflow
  obtain ⟨hproto, -, hpp, -, hrp⟩ := hflow
  simp only [tupleIsValid, protocolIsSupported, Bool.and_eq_true, Bool.or_eq_true, decide_eq_true_eq]
  exact ⟨⟨hproto ▸ hlive.protocol, hpp ▸ hlive.privatePort⟩, hrp ▸ hlive.remotePort⟩

theorem natTranslateOutbound_of_holds {nat : NatState} (h : TableInv nat) (hv : natIsValid nat = true)
    (now : UInt64) {t : Tuple} {port : UInt16} (hf : Holds nat t.flow port) :
    natMachine.out nat (.outbound now (some t)) =
      .translated .ok { t with sourceIp := nat.publicIp, sourcePort := port } := by
  have ht := tupleIsValid_of_holds h hf
  obtain ⟨m, hm, h0, hflow, hport⟩ := hf
  have hmatch := (mappingMatchesOutbound_iff m t).mpr ⟨h0, hflow⟩
  have hfst := scanOutbound_fst t nat.storage 0 none
  simp only [Nat.add_zero, Option.map_id'] at hfst
  change Answer.translated (natTranslateOutbound nat now (some t)).status
    (natTranslateOutbound nat now (some t)).out = _
  simp only [natTranslateOutbound, hv, ht, (validateMappings_eq_ok_iff nat).mpr h, Bool.not_true,
    Bool.false_eq_true, if_false, ne_eq, not_true_eq_false]
  split
  · next i free hscan =>
    rw [hscan] at hfst
    obtain ⟨hi, hmi, -⟩ := List.findIdx?_eq_some_iff_getElem.mp hfst.symm
    obtain ⟨hi0, hiflow⟩ := (mappingMatchesOutbound_iff _ t).mp hmi
    have hsame := h.eq_of_shared (List.getElem_mem hi) hm hi0 h0 (.inr (hiflow.trans hflow.symm))
    rw [mappingAt_eq hi, List.get_eq_getElem, hsame, hport]
  all_goals
    next hscan =>
    rw [hscan] at hfst
    rw [List.findIdx?_eq_none_iff.mp hfst.symm m hm] at hmatch
    cases hmatch

/-- An inbound packet from the remote endpoint of a mapped flow reaches its private endpoint. -/
theorem natTranslateInbound_of_holds {nat : NatState} (h : TableInv nat) (hv : natIsValid nat = true)
    (now : UInt64) {t : Tuple} {f : Flow} (hf : Holds nat f t.destinationPort)
    (hproto : t.protocol = f.protocol) (hip : t.sourceIp = f.remoteIp) (hrp : t.sourcePort = f.remotePort)
    (hdst : t.destinationIp = nat.publicIp) :
    natMachine.out nat (.inbound now (some t)) =
      .translated .ok { t with destinationIp := f.privateIp, destinationPort := f.privatePort } := by
  obtain ⟨m, hm, h0, rfl, hport⟩ := hf
  have hlive := h.live hm h0
  have hpos : t.destinationPort ≠ 0 := by
    intro hz
    have h1 := hlive.publicPort
    rw [hport, hz] at h1
    exact ((natIsValid_iff nat).mp hv).1 (UInt16.le_zero_iff.mp h1)
  have ht : tupleIsValid t = true := by
    simp only [tupleIsValid, protocolIsSupported, Bool.and_eq_true, Bool.or_eq_true, decide_eq_true_eq]
    exact ⟨⟨hproto ▸ hlive.protocol, hrp ▸ hlive.remotePort⟩, hpos⟩
  have hmatch := (mappingMatchesInbound_iff m t).mpr ⟨h0, hproto.symm, hport, hip.symm, hrp.symm⟩
  change Answer.translated (natTranslateInbound nat now (some t)).status
    (natTranslateInbound nat now (some t)).out = _
  simp only [natTranslateInbound, hv, ht, (validateMappings_eq_ok_iff nat).mpr h, hdst, Bool.not_true,
    Bool.false_eq_true, if_false, ne_eq, not_true_eq_false]
  split
  · next hnone =>
    rw [List.findIdx?_eq_none_iff.mp hnone m hm] at hmatch
    cases hmatch
  · next i hsome =>
    obtain ⟨hi, hmi, -⟩ := List.findIdx?_eq_some_iff_getElem.mp hsome
    obtain ⟨hi0, -, hiport, -, -⟩ := (mappingMatchesInbound_iff _ t).mp hmi
    have hsame := h.eq_of_shared (List.getElem_mem hi) hm hi0 h0 (.inl (hiport.trans hport.symm))
    rw [mappingAt_eq hi, List.get_eq_getElem, hsame]
    rfl

/-- After a successful outbound call the table maps its flow to the returned port. -/
theorem holds_next_of_outbound_ok {nat : NatState} {now : UInt64} {t out : Tuple}
    (h : natMachine.out nat (.outbound now (some t)) = .translated .ok out) :
    Holds (natMachine.next nat (.outbound now (some t))) t.flow out.sourcePort := by
  have hcase := natTranslateOutbound_case nat now (some t)
  change Answer.translated (natTranslateOutbound nat now (some t)).status
    (natTranslateOutbound nat now (some t)).out = .translated .ok out at h
  change Holds (natTranslateOutbound nat now (some t)).nat t.flow out.sourcePort
  generalize natTranslateOutbound nat now (some t) = r at hcase h ⊢
  cases hcase with
  | failed hne _ =>
    injection h with h
    exact absurd h hne
  | refreshed hi _ hm =>
    injection h with _ h
    subst h
    obtain ⟨h0, hflow⟩ := (mappingMatchesOutbound_iff _ t).mp hm
    exact (holds_touch_iff hi now _ _).mpr ⟨_, List.get_mem nat.storage ⟨_, hi⟩, h0, hflow, rfl⟩
  | created hi _ _ _ _ =>
    injection h with _ h
    subst h
    exact ⟨_, List.mem_set hi _, by simp [Mapping.ofTuple], rfl, rfl⟩

/-! ## Session safety -/

/-- What a flow with public port `port` is promised in state `nat`. -/
structure SessionOpen (nat : NatState) (f : Flow) (publicIp : Ipv4Address) (port : UInt16) : Prop where
  outbound : ∀ now t, t.flow = f → natMachine.out nat (.outbound now (some t)) =
    .translated .ok { t with sourceIp := publicIp, sourcePort := port }
  inbound : ∀ now t, t.protocol = f.protocol → t.sourceIp = f.remoteIp → t.sourcePort = f.remotePort →
    t.destinationIp = publicIp → t.destinationPort = port →
    natMachine.out nat (.inbound now (some t)) =
      .translated .ok { t with destinationIp := f.privateIp, destinationPort := f.privatePort }
  exclusive : ∀ now t out, t.flow ≠ f →
    natMachine.out nat (.outbound now (some t)) = .translated .ok out → out.sourcePort ≠ port

theorem sessionOpen_of_holds {nat : NatState} (h : TableInv nat) (hv : natIsValid nat = true) {f : Flow}
    {port : UInt16} (hf : Holds nat f port) : SessionOpen nat f nat.publicIp port where
  outbound := fun now t ht => natTranslateOutbound_of_holds h hv now (ht ▸ hf)
  inbound := fun now t hproto hip hrp hdst hport =>
    natTranslateInbound_of_holds h hv now (hport ▸ hf) hproto hip hrp hdst
  exclusive := fun now t out hne hout hport => by
    have hafter := holds_next_of_outbound_ok hout
    have hkept : Holds (natMachine.next nat (.outbound now (some t))) f port := holds_next hf trivial
    exact hne ((tableInv_step nat _ h).holds_unique hafter hkept (.inl hport)).1

/-- What holds of a mapping from the moment it is made until a call removes it. -/
structure Established (publicIp : Ipv4Address) (f : Flow) (port : UInt16) (nat : NatState) : Prop where
  table : TableInv nat
  valid : natIsValid nat = true
  publicIp : nat.publicIp = publicIp
  holds : Holds nat f port

theorem established_step {publicIp : Ipv4Address} {f : Flow} {port : UInt16} (nat : NatState) (c : Call)
    (h : Established publicIp f port nat) (hc : SpareFlow f nat c) :
    Established publicIp f port (natMachine.next nat c) where
  table := tableInv_step nat c h.table
  valid := (sameBox_next nat c).natIsValid h.valid
  publicIp := (sameBox_next nat c).publicIp.trans h.publicIp
  holds := holds_next h.holds hc

theorem publicIp_natInit {firstPort : UInt16} {publicIp : Ipv4Address} {storage : List Mapping}
    {nat : NatState} (h : natInit firstPort publicIp storage = .ok nat) : nat.publicIp = publicIp := by
  unfold natInit at h
  split at h
  · cases h
  · split at h
    · cases h
    · cases h
      rfl

/-- Session stability: after an outbound call gave a flow its port, the session stays open for as long
as every expiry spares the flow. -/
theorem session_stable {firstPort : UInt16} {publicIp : Ipv4Address} {storage : List Mapping}
    {nat : NatState} (hinit : natInit firstPort publicIp storage = .ok nat) {pre : List Call} {now : UInt64}
    {t out : Tuple}
    (hout : natMachine.out (natMachine.run nat pre) (.outbound now (some t)) = .translated .ok out)
    {cs : List Call}
    (hcs : natMachine.Along (SpareFlow t.flow) (natMachine.run nat (pre ++ [.outbound now (some t)])) cs) :
    SessionOpen (natMachine.run nat (pre ++ .outbound now (some t) :: cs)) t.flow publicIp out.sourcePort := by
  have hbox : SameBox nat (natMachine.run nat pre) :=
    natMachine.run_invariant (fun s c h => h.trans (sameBox_next s c)) (SameBox.refl nat) pre
  obtain ⟨htable, hvalid⟩ := tableInv_natInit hinit
  rw [natMachine.run_append] at hcs ⊢
  have hstart : Established publicIp t.flow out.sourcePort
      (natMachine.next (natMachine.run nat pre) (.outbound now (some t))) :=
    { table := tableInv_step _ _ (run_tableInv htable pre)
      valid := (hbox.trans (sameBox_next _ _)).natIsValid hvalid
      publicIp := ((hbox.trans (sameBox_next _ _)).publicIp).trans (publicIp_natInit hinit)
      holds := holds_next_of_outbound_ok hout }
  have hend := natMachine.run_invariant_of_along established_step hstart hcs
  have hopen := sessionOpen_of_holds hend.table hend.valid hend.holds
  rwa [hend.publicIp] at hopen

/-- **Session safety over whole runs** from a successful initialization: an inbound packet is translated
only for a session that an outbound call opened and no call has removed since, and a session stays open
until an expiry hits it. -/
theorem session_safety {firstPort : UInt16} {publicIp : Ipv4Address} {storage : List Mapping}
    {nat : NatState} (hinit : natInit firstPort publicIp storage = .ok nat) :
    (∀ cs now t out,
      natMachine.out (natMachine.run nat cs) (.inbound now (some t)) = .translated .ok out →
      ∃ pre now' t' out' mid, cs = pre ++ .outbound now' (some t') :: mid ∧ t'.flow = inboundFlow t out ∧
        natMachine.out (natMachine.run nat pre) (.outbound now' (some t')) = .translated .ok out' ∧
        out'.sourcePort = t.destinationPort ∧
        ∀ a e b, mid = a ++ e :: b →
          ¬ Removes (natMachine.run nat (pre ++ .outbound now' (some t') :: a)) e (inboundFlow t out)) ∧
    ∀ pre now t out,
      natMachine.out (natMachine.run nat pre) (.outbound now (some t)) = .translated .ok out →
      ∀ cs, natMachine.Along (SpareFlow t.flow) (natMachine.run nat (pre ++ [.outbound now (some t)])) cs →
        SessionOpen (natMachine.run nat (pre ++ .outbound now (some t) :: cs)) t.flow publicIp
          out.sourcePort :=
  ⟨fun _ _ _ _ h => inbound_solicited hinit h, fun _ _ _ _ hout _ hcs => session_stable hinit hout hcs⟩

theorem session_safety_oneSlotNat :
    (∃ pre now' t' out' mid, oneSlotCalls = pre ++ .outbound now' (some t') :: mid ∧
      t'.flow = ⟨6, #v[10, 0, 0, 2], 1234, #v[198, 51, 100, 7], 80⟩ ∧
      natMachine.out (natMachine.run oneSlotNat pre) (.outbound now' (some t')) = .translated .ok out' ∧
      out'.sourcePort = 40000 ∧
      ∀ a e b, mid = a ++ e :: b →
        ¬ Removes (natMachine.run oneSlotNat (pre ++ .outbound now' (some t') :: a)) e
          ⟨6, #v[10, 0, 0, 2], 1234, #v[198, 51, 100, 7], 80⟩) ∧
    SessionOpen (natMachine.run oneSlotNat oneSlotCalls)
      ⟨6, #v[10, 0, 0, 2], 1234, #v[198, 51, 100, 7], 80⟩ #v[203, 0, 113, 1] 40000 :=
  ⟨(session_safety natInit_oneSlotNat).1 oneSlotCalls 9
      ⟨6, #v[198, 51, 100, 7], #v[203, 0, 113, 1], 80, 40000⟩
      ⟨6, #v[198, 51, 100, 7], #v[10, 0, 0, 2], 80, 1234⟩ (by decide +kernel),
    (session_safety natInit_oneSlotNat).2 [] 5 ⟨6, #v[10, 0, 0, 2], #v[198, 51, 100, 7], 1234, 80⟩
      ⟨6, #v[203, 0, 113, 1], #v[198, 51, 100, 7], 40000, 80⟩ (by decide +kernel)
      [.outbound 6 (some ⟨6, #v[10, 0, 0, 3], #v[198, 51, 100, 7], 1234, 80⟩)] ⟨trivial, trivial⟩⟩

end TcpipCourse.L11
