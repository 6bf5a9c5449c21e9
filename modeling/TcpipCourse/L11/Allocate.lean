import TcpipCourse.Lib.FirstFit
import TcpipCourse.L11.Session

/-!
# Lesson 11: what an outbound call allocates

* `HasFlow`, `UsesPort` : what the active mappings of a table hold;
* `natTranslateOutbound_eq` : an outbound call on a valid table, by the two searches it makes;
* `findAvailablePort_eq_none_iff`, `findAvailablePort_isLeast` : the port search;
* `exists_port` : a table that fits in the port range and has a free slot has a free port;
* `natTranslateOutbound_exact` : the status, the tuple and the table of every outbound call.
-/

namespace TcpipCourse.L11
open Lib

/-- An active mapping belongs to flow `f`. -/
def HasFlow (nat : NatState) (f : Flow) : Prop := ∃ m ∈ nat.storage, m.active ≠ 0 ∧ m.flow = f

/-- An active mapping uses the public port. -/
def UsesPort (nat : NatState) (port : UInt16) : Prop :=
  ∃ m ∈ nat.storage, m.active ≠ 0 ∧ m.publicPort = port

theorem hasFlow_iff (nat : NatState) (t : Tuple) :
    HasFlow nat t.flow ↔ ∃ m ∈ nat.storage, mappingMatchesOutbound m t = true := by
  simp only [HasFlow, mappingMatchesOutbound_iff]

theorem portInUse_iff (nat : NatState) (port : UInt16) : portInUse nat port = true ↔ UsesPort nat port := by
  simp [portInUse, UsesPort]

/-! ## The port search -/

/-- The ports `findAvailablePort` tries, in its order. -/
def candidatePorts (nat : NatState) : List UInt16 :=
  (List.range' nat.firstPort.toNat (uint16Max + 1 - nat.firstPort.toNat)).map UInt16.ofNat

theorem mem_candidatePorts (nat : NatState) (port : UInt16) :
    port ∈ candidatePorts nat ↔ nat.firstPort ≤ port := by
  have hmax : uint16Max = 65535 := rfl
  rw [candidatePorts, List.mem_map, UInt16.le_iff_toNat_le]
  constructor
  · rintro ⟨k, hk, rfl⟩
    rw [List.mem_range'_1] at hk
    rw [UInt16.toNat_ofNat_of_lt' (show k < 2 ^ 16 by omega)]
    exact hk.1
  · intro h
    have hlt : port.toNat < 2 ^ 16 := port.toNat_lt
    refine ⟨port.toNat, List.mem_range'_1.mpr ⟨h, by omega⟩, ?_⟩
    exact UInt16.ofNat_toNat

theorem pairwise_candidatePorts (nat : NatState) : (candidatePorts nat).Pairwise (· < ·) := by
  have hmax : uint16Max = 65535 := rfl
  refine List.pairwise_map.mpr ((List.pairwise_lt_range' 1).imp_of_mem fun {a b} ha hb hab => ?_)
  rw [List.mem_range'_1] at ha hb
  rw [UInt16.lt_iff_toNat_lt, UInt16.toNat_ofNat_of_lt' (show a < 2 ^ 16 by omega),
    UInt16.toNat_ofNat_of_lt' (show b < 2 ^ 16 by omega)]
  exact hab

theorem length_candidatePorts (nat : NatState) :
    (candidatePorts nat).length = 65536 - nat.firstPort.toNat := by
  simp [candidatePorts, uint16Max]

theorem findAvailablePort_eq_none_iff (nat : NatState) :
    findAvailablePort nat = none ↔ ∀ port, nat.firstPort ≤ port → UsesPort nat port := by
  change (candidatePorts nat).find? (fun port => !portInUse nat port) = none ↔ _
  rw [List.find?_eq_none]
  refine forall_congr' fun port => ?_
  rw [mem_candidatePorts, ← portInUse_iff]
  simp

theorem findAvailablePort_isLeast {nat : NatState} {port : UInt16} (h : findAvailablePort nat = some port) :
    IsLeast {p | nat.firstPort ≤ p ∧ ¬ UsesPort nat p} port := by
  obtain ⟨hge, hfree⟩ := findAvailablePort_eq_some h
  constructor
  · refine ⟨hge, ?_⟩
    rw [← portInUse_iff, hfree]
    simp
  · rintro q ⟨hq, hqfree⟩
    have hunused : (!portInUse nat q) = true := by
      rw [Bool.not_eq_true', ← Bool.not_eq_true, portInUse_iff]
      exact hqfree
    rcases find?_first (pairwise_candidatePorts nat) h ((mem_candidatePorts nat q).mpr hq) hunused with rfl | hlt
    · exact UInt16.le_refl q
    · exact UInt16.le_of_lt hlt

/-- A table no larger than the port range that has a free slot has a free port. -/
theorem exists_port {nat : NatState} (hcap : nat.capacity ≤ 65536 - nat.firstPort.toNat)
    (hfree : ∃ m ∈ nat.storage, m.active = 0) : ∃ port, nat.firstPort ≤ port ∧ ¬ UsesPort nat port := by
  have hnodup : (candidatePorts nat).Nodup :=
    (pairwise_candidatePorts nat).imp fun hab => UInt16.ne_of_lt hab
  have hlen : ((nat.storage.filter (·.active ≠ 0)).map (·.publicPort)).length < (candidatePorts nat).length := by
    rw [List.length_map, length_candidatePorts]
    refine lt_of_lt_of_le (List.length_filter_lt_length_iff_exists.mpr ?_) hcap
    obtain ⟨m, hm, h0⟩ := hfree
    exact ⟨m, hm, by simpa using h0⟩
  obtain ⟨port, hport, hnot⟩ := exists_mem_notMem_of_length_lt hnodup hlen
  refine ⟨port, (mem_candidatePorts nat port).mp hport, ?_⟩
  rintro ⟨m, hm, h0, hp⟩
  apply hnot
  exact List.mem_map.mpr ⟨m, List.mem_filter.mpr ⟨hm, by simpa using h0⟩, hp⟩

/-! ## One outbound call -/

/-- What an outbound call on a valid table does, by the two searches of its scan and the port search. -/
theorem natTranslateOutbound_eq {nat : NatState} (hv : natIsValid nat = true)
    (hm : validateMappings nat = .ok) {t : Tuple} (ht : tupleIsValid t = true) (now : UInt64) :
    natTranslateOutbound nat now (some t) =
      match nat.storage.findIdx? (mappingMatchesOutbound · t), nat.storage.findIdx? (·.active = 0),
        findAvailablePort nat with
      | some i, _, _ => ⟨.ok, { t with sourceIp := nat.publicIp, sourcePort := (nat.mappingAt i).publicPort },
          nat.store i ((nat.mappingAt i).touch now)⟩
      | none, some i, some port => ⟨.ok, { t with sourceIp := nat.publicIp, sourcePort := port },
          nat.store i (.ofTuple t port now)⟩
      | none, _, _ => .fail nat .capacity := by
  have hfst := scanOutbound_fst t nat.storage 0 none
  have hsnd := scanOutbound_snd t nat.storage 0 none
  simp only [Nat.add_zero, Option.map_id', Option.none_or] at hfst hsnd
  simp only [natTranslateOutbound, hv, ht, hm, Bool.not_true, Bool.false_eq_true, if_false, ne_eq,
    not_true_eq_false]
  split
  · next i _ hscan =>
    rw [hscan] at hfst
    rw [← hfst]
  · next hscan =>
    rw [hscan] at hfst hsnd
    rw [← hfst, ← hsnd hfst.symm]
  · next i hscan =>
    rw [hscan] at hfst hsnd
    rw [← hfst, ← hsnd hfst.symm]
    cases findAvailablePort nat <;> rfl

/-- The answer to an outbound call of a well-formed tuple, exactly. -/
structure ExactOutbound (nat : NatState) (now : UInt64) (t : Tuple) (r : Reply) : Prop where
  ok_or_capacity : r.status = .ok ∨ r.status = .capacity
  capacity_iff : r.status = .capacity ↔ ¬ HasFlow nat t.flow ∧
    ((∀ m ∈ nat.storage, m.active ≠ 0) ∨ ∀ port, nat.firstPort ≤ port → UsesPort nat port)
  translated : r.status = .ok →
    r.out = { t with sourceIp := nat.publicIp, sourcePort := r.out.sourcePort }
  reused : r.status = .ok → ∀ m ∈ nat.storage, m.active ≠ 0 → m.flow = t.flow →
    r.out.sourcePort = m.publicPort
  created : r.status = .ok → ¬ HasFlow nat t.flow →
    IsLeast {port | nat.firstPort ≤ port ∧ ¬ UsesPort nat port} r.out.sourcePort ∧
      ∃ i, IsLeast {j | ∃ m, nat.storage[j]? = some m ∧ m.active = 0} i ∧
        r.nat = nat.store i (.ofTuple t r.out.sourcePort now)
  slots_first : nat.capacity ≤ 65536 - nat.firstPort.toNat → r.status = .capacity →
    ∀ m ∈ nat.storage, m.active ≠ 0

theorem ExactOutbound.reuse {nat : NatState} (h : TableInv nat) (now : UInt64) {t : Tuple} {i : Nat}
    (hfind : nat.storage.findIdx? (mappingMatchesOutbound · t) = some i) :
    ExactOutbound nat now t
      ⟨.ok, { t with sourceIp := nat.publicIp, sourcePort := (nat.mappingAt i).publicPort },
        nat.store i ((nat.mappingAt i).touch now)⟩ := by
  obtain ⟨hi, hmatch, -⟩ := List.findIdx?_eq_some_iff_getElem.mp hfind
  rw [mappingAt_eq hi, List.get_eq_getElem]
  have hmem := List.getElem_mem hi
  have hhas : HasFlow nat t.flow := (hasFlow_iff nat t).mpr ⟨_, hmem, hmatch⟩
  obtain ⟨h0, hflow⟩ := (mappingMatchesOutbound_iff _ t).mp hmatch
  exact
    { ok_or_capacity := .inl rfl
      capacity_iff := ⟨nofun, fun hc => absurd hhas hc.1⟩
      translated := fun _ => rfl
      reused := fun _ m hm hm0 hmf =>
        congrArg Mapping.publicPort (h.eq_of_shared hmem hm h0 hm0 (.inr (hflow.trans hmf.symm)))
      created := fun _ hnone => absurd hhas hnone
      slots_first := nofun }

theorem ExactOutbound.create {nat : NatState} {t : Tuple} (hnone : ¬ HasFlow nat t.flow) (now : UInt64)
    {i : Nat} (hslot : nat.storage.findIdx? (·.active = 0) = some i) {port : UInt16}
    (hport : findAvailablePort nat = some port) :
    ExactOutbound nat now t
      ⟨.ok, { t with sourceIp := nat.publicIp, sourcePort := port }, nat.store i (.ofTuple t port now)⟩ := by
  have hleast := findAvailablePort_isLeast hport
  have hslot := findIdx?_eq_some_iff_isLeast.mp hslot
  simp only [decide_eq_true_eq] at hslot
  refine
    { ok_or_capacity := .inl rfl
      capacity_iff := ⟨nofun, ?_⟩
      translated := fun _ => rfl
      reused := fun _ m hm hm0 hmf => absurd ⟨m, hm, hm0, hmf⟩ hnone
      created := fun _ _ => ⟨hleast, i, hslot, rfl⟩
      slots_first := nofun }
  rintro ⟨-, hall | hall⟩
  · obtain ⟨m, hm, h0⟩ := hslot.1
    exact absurd h0 (hall m (List.mem_of_getElem? hm))
  · exact absurd (hall port hleast.1.1) hleast.1.2

theorem ExactOutbound.refuse {nat : NatState} {t : Tuple} (hnone : ¬ HasFlow nat t.flow) (now : UInt64)
    (hfull : (∀ m ∈ nat.storage, m.active ≠ 0) ∨ ∀ port, nat.firstPort ≤ port → UsesPort nat port) :
    ExactOutbound nat now t (.fail nat .capacity) := by
  refine
    { ok_or_capacity := .inr rfl
      capacity_iff := ⟨fun _ => ⟨hnone, hfull⟩, fun _ => rfl⟩
      translated := nofun
      reused := nofun
      created := nofun
      slots_first := fun hcap _ m hm h0 => ?_ }
  -- a free slot leaves a port over, so neither search can have failed
  obtain ⟨port, hge, hfree⟩ := exists_port hcap ⟨m, hm, h0⟩
  rcases hfull with hall | hports
  · exact hall m hm h0
  · exact hfree (hports port hge)

/-- **Outbound allocation is exact.** -/
theorem natTranslateOutbound_exact {nat : NatState} (hv : natIsValid nat = true)
    (hm : validateMappings nat = .ok) {t : Tuple} (ht : tupleIsValid t = true) (now : UInt64) :
    ExactOutbound nat now t (natTranslateOutbound nat now (some t)) := by
  have hinv := (validateMappings_eq_ok_iff nat).mp hm
  rw [natTranslateOutbound_eq hv hm ht]
  cases hfind : nat.storage.findIdx? (mappingMatchesOutbound · t) with
  | some i => exact .reuse hinv now hfind
  | none =>
    have hnone : ¬ HasFlow nat t.flow := by
      rw [hasFlow_iff]
      rintro ⟨m, hmem, hmatch⟩
      rw [List.findIdx?_eq_none_iff.mp hfind m hmem] at hmatch
      cases hmatch
    cases hslot : nat.storage.findIdx? (·.active = 0) with
    | none =>
      apply ExactOutbound.refuse hnone now (.inl _)
      intro m hmem
      simpa using List.findIdx?_eq_none_iff.mp hslot m hmem
    | some i =>
      cases hport : findAvailablePort nat with
      | none => exact .refuse hnone now (.inr ((findAvailablePort_eq_none_iff nat).mp hport))
      | some port => exact .create hnone now hslot hport

/-- The one-slot NAT has room for its first flow. -/
theorem natTranslateOutbound_exact_oneSlotNat :
    (natTranslateOutbound oneSlotNat 5 (some ⟨6, #v[10, 0, 0, 2], #v[198, 51, 100, 7], 1234, 80⟩)).status = .ok ∧
    ExactOutbound oneSlotNat 5 ⟨6, #v[10, 0, 0, 2], #v[198, 51, 100, 7], 1234, 80⟩
      (natTranslateOutbound oneSlotNat 5 (some ⟨6, #v[10, 0, 0, 2], #v[198, 51, 100, 7], 1234, 80⟩)) :=
  ⟨by decide +kernel,
    natTranslateOutbound_exact (by decide) (by decide) (t := ⟨6, #v[10, 0, 0, 2], #v[198, 51, 100, 7], 1234, 80⟩)
      (by decide) 5⟩

end TcpipCourse.L11
