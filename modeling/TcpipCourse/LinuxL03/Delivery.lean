import TcpipCourse.L07.Order
import TcpipCourse.LinuxL03.Frame

/-!
# Linux lab 03: what a delivery does

* `acknowledgedSet` : the positions of the payload that the acknowledged chunks cover;
* `Inv` : the invariant of a run. Every queued frame is the frame of its chunk, and the window holds the payload
  at the positions of the acknowledged chunks;
* `acceptFrame_spec`, `deliver_spec` : a delivery succeeds and keeps the invariant, or the kernel failed.
-/

namespace TcpipCourse.LinuxL03
open Lib L07

/-! ## Acknowledged positions -/

/-- The positions of the payload whose chunk is acknowledged. -/
def acknowledgedSet (scenario : Scenario) (acknowledged : Bytes) : Finset Nat :=
  (Finset.range scenario.payload.length).filter fun i => acknowledged.getD (i / chunkPayload) 0 ≠ 0

section Positions
variable {scenario : Scenario} {chunkIndex : Nat} {acknowledged : Bytes}

theorem mem_acknowledgedSet {i : Nat} :
    i ∈ acknowledgedSet scenario acknowledged ↔
      i < scenario.payload.length ∧ acknowledged.getD (i / chunkPayload) 0 ≠ 0 := by
  simp [acknowledgedSet]

theorem acknowledgedSet_replicate (n : Nat) : acknowledgedSet scenario (List.replicate n 0) = ∅ := by
  ext i
  have hzero : (List.replicate n (0 : UInt8)).getD (i / chunkPayload) 0 = 0 := by
    rw [List.getD_eq_getElem?_getD, List.getElem?_replicate]
    split <;> rfl
  rw [mem_acknowledgedSet, hzero]
  simp

theorem mem_chunk {i : Nat} :
    i ∈ stretch (chunkIndex * chunkPayload) (chunkLength scenario chunkIndex) ↔
      i < scenario.payload.length ∧ i / chunkPayload = chunkIndex := by
  rw [mem_stretch, chunkLength_eq]
  unfold chunkPayload
  omega

theorem getD_set (hlt : chunkIndex < acknowledged.length) (b : UInt8) (j : Nat) :
    (acknowledged.set chunkIndex b).getD j 0 = if j = chunkIndex then b else acknowledged.getD j 0 := by
  simp only [List.getD_eq_getElem?_getD, List.getElem?_set]
  by_cases hj : chunkIndex = j
  · subst hj
    simp [hlt]
  · simp [hj, Ne.symm hj]

theorem acknowledgedSet_set (hlt : chunkIndex < acknowledged.length) :
    acknowledgedSet scenario (acknowledged.set chunkIndex 1) =
      stretch (chunkIndex * chunkPayload) (chunkLength scenario chunkIndex) ∪
        acknowledgedSet scenario acknowledged := by
  ext i
  rw [Finset.mem_union, mem_acknowledgedSet, mem_acknowledgedSet, mem_chunk, getD_set hlt]
  by_cases hi : i / chunkPayload = chunkIndex
  · rw [if_pos hi]
    have h1 : (1 : UInt8) ≠ 0 := by decide
    simp only [hi, h1, ne_eq, not_false_eq_true, and_true, iff_self_or, and_imp]
    exact fun hlt _ => hlt
  · simp [hi]

theorem card_chunk_sdiff :
    (stretch (chunkIndex * chunkPayload) (chunkLength scenario chunkIndex) \
        acknowledgedSet scenario acknowledged).card =
      if acknowledged.getD chunkIndex 0 ≠ 0 then 0 else chunkLength scenario chunkIndex := by
  split
  · next hack =>
    rw [Finset.card_eq_zero, Finset.sdiff_eq_empty_iff_subset]
    intro i hi
    obtain ⟨hlt, rfl⟩ := mem_chunk.mp hi
    exact mem_acknowledgedSet.mpr ⟨hlt, hack⟩
  · next hack =>
    rw [Finset.sdiff_eq_self_of_disjoint, stretch, Nat.card_Ico, Nat.add_sub_cancel_left]
    rw [Finset.disjoint_left]
    intro i hi hmem
    obtain ⟨-, rfl⟩ := mem_chunk.mp hi
    exact hack (mem_acknowledgedSet.mp hmem).2

theorem acknowledgedSet_eq_range (h : allAcknowledged acknowledged (chunkCount scenario) = true) :
    acknowledgedSet scenario acknowledged = Finset.range scenario.payload.length := by
  ext i
  rw [mem_acknowledgedSet, Finset.mem_range, and_iff_left_iff_imp]
  intro hi
  have hchunk : i / chunkPayload < chunkCount scenario := by
    unfold chunkCount chunkPayload
    omega
  unfold allAcknowledged at h
  simpa using List.all_eq_true.mp h _ (List.mem_range.mpr hchunk)

end Positions

/-! ## The invariant -/

theorem validate_ok {scenario : Scenario} (h : validate scenario = .ok) :
    1 ≤ scenario.payload.length ∧ scenario.payload.length ≤ maxPayload ∧
      scenario.payload.length ≤ scenario.output.length := by
  unfold validate at h
  split at h
  · cases h
  · split at h
    · cases h
    · omega

/-- What holds at every control point of a run. -/
structure Inv {ρ : Type} (scenario : Scenario) (s : State ρ) : Prop where
  validated : validate scenario = .ok
  frames : ∀ event, some event ∈ s.events.slots →
    event.chunkIndex < chunkCount scenario ∧ event.frame = frameOf scenario event.chunkIndex
  acknowledged_length : s.acknowledged.length = maxChunks
  reassembly : Refines scenario.payload scenario.senderInitialSeq s.reassembly
    ⟨acknowledgedSet scenario s.acknowledged, 0⟩
  pair : s.pair = []
  output : s.output = scenario.output
  attempt_lt : s.phase ≠ .attempt → s.attempt < scenario.maxAttempts

section Delivery
variable {ρ : Type} {scenario : Scenario} {s : State ρ} {index : Nat} {event : Event} (diagnose : Bytes → ρ)

theorem Inv.chunkIndex_lt (h : Inv scenario s) {chunkIndex : Nat} (hchunk : chunkIndex < chunkCount scenario) :
    chunkIndex < s.acknowledged.length := by
  have hcount := chunkCount_le (validate_ok h.validated).2.1
  rw [h.acknowledged_length]
  omega

/-- The window takes a chunk: all of it the first time, nothing of a duplicate. -/
theorem Inv.push (h : Inv scenario s) {chunkIndex : Nat} (hchunk : chunkIndex < chunkCount scenario) :
    ∃ ctx, reassemblyPush s.reassembly (scenario.senderInitialSeq + UInt32.ofNat (chunkIndex * chunkPayload))
        (chunkBytes scenario chunkIndex) =
      ⟨.ok, if s.acknowledged.getD chunkIndex 0 ≠ 0 then 0 else chunkLength scenario chunkIndex, ctx⟩ ∧
      Refines scenario.payload scenario.senderInitialSeq ctx
        ⟨acknowledgedSet scenario (s.acknowledged.set chunkIndex 1), 0⟩ := by
  obtain ⟨ctx, hpush, href⟩ := h.reassembly.push (chunk_spec hchunk).1
  rw [card_chunk_sdiff] at hpush
  rw [acknowledgedSet_set (h.chunkIndex_lt hchunk)]
  exact ⟨ctx, hpush, href⟩

/-- A count that is `0` for a duplicate and `n` otherwise passes the test on it. -/
theorem counts_agree {duplicate : Prop} [Decidable duplicate] (n : Nat) :
    ¬ ((duplicate ∧ (if duplicate then 0 else n) ≠ 0) ∨ (¬ duplicate ∧ (if duplicate then 0 else n) ≠ n)) := by
  by_cases hd : duplicate
  · simp [hd]
  · simp [hd]

/-- The state after a successful delivery. -/
def delivered (index : Nat) (event : Event) (ctx : Reassembly) (s : State ρ) : State ρ :=
  { s with
    pair := []
    reassembly := ctx
    acknowledged := s.acknowledged.set event.chunkIndex 1
    result := { s.result with finalFrame := some (diagnose event.frame) }
    events := s.events.set index none }

/-- **Step lemma.** Every queued frame passes the checks of the receiver. -/
theorem acceptFrame_spec (h : Inv scenario s) (hslot : s.events.slots[index]? = some (some event)) :
    ∃ ctx, acceptFrame scenario diagnose event.frame index event s = (.ok, delivered diagnose index event ctx s) ∧
      Refines scenario.payload scenario.senderInitialSeq ctx
        ⟨acknowledgedSet scenario (s.acknowledged.set event.chunkIndex 1), 0⟩ := by
  obtain ⟨hchunk, hframe⟩ := h.frames event (List.mem_of_getElem? hslot)
  obtain ⟨tcp, hreceive, hseq, hlength, hpayload⟩ := receiveSegment_frameOf hchunk
  obtain ⟨ctx, hpush, href⟩ := h.push hchunk
  refine ⟨ctx, ?_, href⟩
  rw [hlength] at hpayload
  unfold acceptFrame
  rw [hframe, hreceive]
  simp only [hseq, hlength, hpayload, hpush]
  rw [if_neg, delivered, h.pair, hframe]
  rintro (hstatus | hcounts)
  · exact hstatus rfl
  · exact counts_agree _ hcounts

/-- **Step lemma.** When the pair carries the datagram, the delivery of a queued event succeeds. -/
theorem deliver_reliable (h : Inv scenario s) (hslot : s.events.slots[index]? = some (some event)) :
    ∃ ctx, deliver scenario diagnose ⟨true, true⟩ index event s = (.ok, delivered diagnose index event ctx s) ∧
      Refines scenario.payload scenario.senderInitialSeq ctx
        ⟨acknowledgedSet scenario (s.acknowledged.set event.chunkIndex 1), 0⟩ := by
  obtain ⟨hchunk, hframe⟩ := h.frames event (List.mem_of_getElem? hslot)
  have hfits : event.frame.length ≤ maxFrame := by
    rw [hframe]
    exact length_frameOf_le hchunk
  obtain ⟨ctx, haccept, href⟩ := acceptFrame_spec diagnose h hslot
  refine ⟨ctx, ?_, href⟩
  have hsame : { s with pair := [] } = s := by rw [← h.pair]
  simp [deliver, sendDatagram, receiveDatagram, h.pair, List.take_of_length_le hfits, hsame, haccept]

/-- **Step lemma.** A delivery of a queued event succeeds, unless the kernel failed. -/
theorem deliver_spec (h : Inv scenario s) (hslot : s.events.slots[index]? = some (some event)) (turn : PairTurn) :
    (turn ≠ ⟨true, true⟩ ∧
      ∃ pair, deliver scenario diagnose turn index event s = (.systemError, { s with pair := pair })) ∨
    (turn = ⟨true, true⟩ ∧ ∃ ctx,
      deliver scenario diagnose turn index event s = (.ok, delivered diagnose index event ctx s) ∧
      Refines scenario.payload scenario.senderInitialSeq ctx
        ⟨acknowledgedSet scenario (s.acknowledged.set event.chunkIndex 1), 0⟩) := by
  obtain ⟨sendOk, recvOk⟩ := turn
  cases sendOk with
  | false => exact .inl ⟨by simp, s.pair, rfl⟩
  | true =>
    cases recvOk with
    | false =>
      refine .inl ⟨by simp, [event.frame], ?_⟩
      simp [deliver, sendDatagram, receiveDatagram, h.pair]
    | true => exact .inr ⟨rfl, deliver_reliable diagnose h hslot⟩

end Delivery

end TcpipCourse.LinuxL03
