import TcpipCourse.LinuxL03.Delivery

/-!
# Linux lab 03: end-to-end integrity

* `Config.Sound` : the invariant at a control point, and what the caller sees of a run that has returned;
* `Transmits`, `Drains` : all that a step of the chunk loop and of the event loop can do; `start_cases` : the same for
  the code in front of the attempts;
* `step_sound` : every step keeps it, one lemma for each control point; `run_sound` : so does every run;
* `rank`, `stepBound` : how many steps a run takes at most;
* `miniStack_integrity` : a run returns, `OK` delivers the payload, everything else leaves the output alone,
  and no delivery on the way finds a frame malformed.
-/

namespace TcpipCourse.LinuxL03
open Lib L07

variable {ρ : Type} {scenario : Scenario} {diagnose : Bytes → ρ} {s : State ρ}

/-- A run that returned `OK` has stored the payload, and any other one has not touched the output. -/
def Config.Sound (scenario : Scenario) : Config ρ → Prop
  | .running s => Inv scenario s
  | .returned status result output =>
    if status = .ok then
      scenario.payload.length ≤ scenario.output.length ∧
        output = scenario.payload ++ scenario.output.drop scenario.payload.length ∧
        result.reassembledLength = scenario.payload.length
    else output = scenario.output

theorem sound_error_iff {status : Status} (hstatus : status ≠ .ok) {result : Result ρ} {output : Bytes} :
    Config.Sound scenario (.returned status result output) ↔ output = scenario.output := by
  show (if status = .ok then _ else _) ↔ _
  rw [if_neg hstatus]

theorem sound_error {status : Status} (hstatus : status ≠ .ok) {result : Result ρ} {output : Bytes}
    (h : output = scenario.output) : Config.Sound scenario (.returned status result output) :=
  (sound_error_iff hstatus).mpr h

theorem sound_ok_iff {result : Result ρ} {output : Bytes} :
    Config.Sound scenario (.returned .ok result output) ↔
      scenario.payload.length ≤ scenario.output.length ∧
        output = scenario.payload ++ scenario.output.drop scenario.payload.length ∧
        result.reassembledLength = scenario.payload.length := Iff.rfl

/-! ## One step -/

theorem stepAttempt_sound (h : Inv scenario s) : Config.Sound scenario (stepAttempt scenario s) := by
  unfold stepAttempt
  split
  · next hlt => exact { h with attempt_lt := fun _ => hlt }
  · exact sound_error (by decide) h.output

theorem mem_set_slot {events : EventTable} {index : Nat} {slot : Option Event} {event : Event}
    (h : some event ∈ (events.set index slot).slots) : some event ∈ events.slots ∨ slot = some event := by
  rcases List.mem_or_eq_of_mem_set h with hold | hnew
  · exact .inl hold
  · exact .inr hnew.symm

/-- The table is full, or a free slot takes the frame of the chunk. -/
theorem enqueue_spec {chunkIndex : Nat} (hchunk : chunkIndex < chunkCount scenario) (events : EventTable)
    (dueMs order : Nat) :
    enqueue events scenario chunkIndex dueMs order = .error .capacity ∨
      ∃ index, events.slots[index]? = some none ∧ enqueue events scenario chunkIndex dueMs order =
        .ok (events.set index (some ⟨frameOf scenario chunkIndex, chunkIndex, dueMs, order⟩)) := by
  unfold enqueue
  cases hfree : events.slots.findIdx? Option.isNone with
  | none => exact .inl rfl
  | some index =>
    obtain ⟨hlt, hnone, -⟩ := List.findIdx?_eq_some_iff_getElem.mp hfree
    refine .inr ⟨index, ?_, by rw [buildFrame_eq hchunk]⟩
    rw [List.getElem?_eq_getElem hlt, Option.isNone_iff_eq_none.mp hnone]

def State.retried (s : State ρ) : Result ρ :=
  { s.result with retransmits := if s.attempt ≠ 0 then s.result.retransmits + 1 else s.result.retransmits }

/-- What the chunk loop can do in front of `chunk`. -/
inductive Transmits (scenario : Scenario) (chunk : Nat) (s : State ρ) : Config ρ → Prop where
  | done (hchunk : ¬ chunk < chunkCount scenario) : Transmits scenario chunk s (.running { s with phase := .drain })
  | skipped (hchunk : chunk < chunkCount scenario) (hack : s.acknowledged.getD chunk 0 ≠ 0) :
      Transmits scenario chunk s (.running { s with phase := .transmit (chunk + 1) })
  | dropped (hchunk : chunk < chunkCount scenario) (hopen : s.acknowledged.getD chunk 0 = 0)
      (hdrop : (faultAt scenario s.faultIndex).action = .drop) :
      Transmits scenario chunk s
        (.running { s with result := s.retried, faultIndex := s.faultIndex + 1, phase := .transmit (chunk + 1) })
  | late (hchunk : chunk < chunkCount scenario) (hopen : s.acknowledged.getD chunk 0 = 0)
      (hdrop : (faultAt scenario s.faultIndex).action ≠ .drop)
      (hdue : dueTime (faultAt scenario s.faultIndex) s.now s.rto = none) :
      Transmits scenario chunk s (.returned .capacity s.retried s.output)
  | full (hchunk : chunk < chunkCount scenario) (hopen : s.acknowledged.getD chunk 0 = 0)
      (hdrop : (faultAt scenario s.faultIndex).action ≠ .drop) {due : Nat}
      (hfull : enqueue s.events scenario chunk due s.eventOrder = .error .capacity) :
      Transmits scenario chunk s (.returned .capacity s.retried s.output)
  | queued (hchunk : chunk < chunkCount scenario) (hopen : s.acknowledged.getD chunk 0 = 0)
      (hdrop : (faultAt scenario s.faultIndex).action ≠ .drop) {due index : Nat}
      (hdue : dueTime (faultAt scenario s.faultIndex) s.now s.rto = some due)
      (hfree : s.events.slots[index]? = some none) :
      Transmits scenario chunk s
        (.running { s with
          result := s.retried
          faultIndex := s.faultIndex + 1
          events := s.events.set index (some ⟨frameOf scenario chunk, chunk, due, s.eventOrder⟩)
          eventOrder := s.eventOrder + 1
          phase := .transmit (chunk + 1) })

theorem stepTransmit_spec (scenario : Scenario) (chunk : Nat) (s : State ρ) :
    Transmits scenario chunk s (stepTransmit scenario chunk s) := by
  unfold stepTransmit
  split
  · next hchunk =>
    split
    · next hack => exact .skipped hchunk hack
    · next hopen =>
      rw [not_not] at hopen
      dsimp only
      split
      · next hdrop => exact .dropped hchunk hopen hdrop
      · next hdrop =>
        split
        · next hdue => exact .late hchunk hopen hdrop hdue
        · next due hdue =>
          rcases enqueue_spec hchunk s.events due s.eventOrder with hfull | ⟨index, hfree, hok⟩
          · rw [hfull]
            exact .full hchunk hopen hdrop hfull
          · rw [hok]
            exact .queued hchunk hopen hdrop hdue hfree
  · next hchunk => exact .done hchunk

theorem stepTransmit_sound {chunk : Nat} (hphase : s.phase = .transmit chunk) (h : Inv scenario s) :
    Config.Sound scenario (stepTransmit scenario chunk s) := by
  have hlt : s.attempt < scenario.maxAttempts := h.attempt_lt (by simp [hphase])
  have hspec := stepTransmit_spec scenario chunk s
  generalize stepTransmit scenario chunk s = c at hspec ⊢
  cases hspec with
  | done | skipped | dropped => exact { h with attempt_lt := fun _ => hlt }
  | late | full => exact sound_error (by decide) h.output
  | queued hchunk =>
    refine { h with attempt_lt := fun _ => hlt, frames := fun event hmem => ?_ }
    rcases mem_set_slot hmem with hold | hnew
    · exact h.frames event hold
    · cases hnew
      exact ⟨hchunk, rfl⟩

/-- The next event stands in its slot, and is due before the deadline. -/
theorem nextEvent_some {events : EventTable} {deadline index : Nat} {event : Event}
    (h : nextEvent events deadline = some (index, event)) :
    events.slots[index]? = some (some event) ∧ event.dueMs < deadline := by
  obtain ⟨slot, hget, hview⟩ := scanBest_some _ _ h
  obtain ⟨rfl, hdue⟩ := Option.filter_eq_some_iff.mp hview
  exact ⟨hget, by simpa using hdue⟩

theorem delivered_inv {index : Nat} {event : Event} {ctx : Reassembly} (h : Inv scenario s)
    (hctx : Refines scenario.payload scenario.senderInitialSeq ctx
      ⟨acknowledgedSet scenario (s.acknowledged.set event.chunkIndex 1), 0⟩) :
    Inv scenario (delivered diagnose index event ctx s) :=
  { h with
    reassembly := hctx
    pair := rfl
    acknowledged_length := by
      show (s.acknowledged.set event.chunkIndex 1).length = maxChunks
      rw [List.length_set, h.acknowledged_length]
    frames := fun other hmem => by
      rcases mem_set_slot hmem with hold | hnew
      · exact h.frames other hold
      · cases hnew }

theorem Inv.at_time (h : Inv scenario s) (now : Nat) : Inv scenario { s with now := now } := { h with }

inductive Drains (scenario : Scenario) (diagnose : Bytes → ρ) (turn : PairTurn) (s : State ρ) : Config ρ → Prop where
  | settled (hnone : nextEvent s.events s.deadline = none) :
      Drains scenario diagnose turn s (.running { s with phase := .check })
  | failed (hturn : turn ≠ ⟨true, true⟩) : Drains scenario diagnose turn s (.returned .systemError s.result s.output)
  | delivered {index : Nat} {event : Event} {ctx : Reassembly} (hslot : s.events.slots[index]? = some (some event))
      (hdue : event.dueMs < s.deadline)
      (hctx : Refines scenario.payload scenario.senderInitialSeq ctx
        ⟨acknowledgedSet scenario (s.acknowledged.set event.chunkIndex 1), 0⟩) :
      Drains scenario diagnose turn s
        (.running (LinuxL03.delivered diagnose index event ctx { s with now := event.dueMs }))

theorem stepDrain_spec (h : Inv scenario s) (turn : PairTurn) :
    Drains scenario diagnose turn s (stepDrain scenario diagnose turn s) := by
  unfold stepDrain
  split
  · next hnone => exact .settled hnone
  · next index event hnext =>
    obtain ⟨hslot, hdue⟩ := nextEvent_some hnext
    rcases deliver_spec diagnose (h.at_time event.dueMs) hslot turn with
      ⟨hturn, pair, hdeliver⟩ | ⟨-, ctx, hdeliver, hctx⟩
    · rw [hdeliver]
      exact .failed hturn
    · rw [hdeliver]
      exact .delivered hslot hdue hctx

theorem stepDrain_sound (hphase : s.phase = .drain) (h : Inv scenario s) (turn : PairTurn) :
    Config.Sound scenario (stepDrain scenario diagnose turn s) := by
  have hlt : s.attempt < scenario.maxAttempts := h.attempt_lt (by simp [hphase])
  have hspec : Drains scenario diagnose turn s _ := stepDrain_spec h turn
  generalize stepDrain scenario diagnose turn s = c at hspec ⊢
  cases hspec with
  | settled => exact { h with attempt_lt := fun _ => hlt }
  | failed => exact sound_error (by decide) h.output
  | delivered hslot hdue hctx => exact delivered_inv (h.at_time _) hctx

/-- With every chunk acknowledged, the read delivers the whole payload. -/
theorem read_all (h : Inv scenario s) (hall : allAcknowledged s.acknowledged (chunkCount scenario) = true) :
    ∃ ctx, reassemblyRead s.reassembly s.output.length = ⟨.ok, scenario.payload, ctx⟩ := by
  have hset := acknowledgedSet_eq_range hall
  have hgap : firstGap (Finset.range scenario.payload.length) = scenario.payload.length :=
    firstGap_eq (fun i hi => Finset.mem_range.mpr hi) (by simp)
  have href := h.reassembly
  have hroom := (validate_ok h.validated).2.2
  rw [hset] at href
  rcases href.read s.output.length with ⟨hgt, -⟩ | ⟨-, ctx, hread, -⟩
  · rw [h.output, hgap] at hgt
    omega
  · rw [hgap, Nat.sub_zero, slice_zero_length] at hread
    exact ⟨ctx, hread⟩

theorem stepCheck_sound (h : Inv scenario s) : Config.Sound scenario (stepCheck scenario s) := by
  unfold stepCheck
  split
  · next hall =>
    obtain ⟨ctx, hread⟩ := read_all h hall
    rw [hread]
    dsimp only
    have hroom := (validate_ok h.validated).2.2
    rw [if_neg (by simp), h.output, overwrite_zero_append _ _ hroom, sound_ok_iff]
    exact ⟨hroom, rfl, rfl⟩
  · exact { h with attempt_lt := fun hne => absurd rfl hne }

/-- **Step lemma.** Every step keeps the invariant, or returns as promised. -/
theorem step_sound (turn : PairTurn) {c : Config ρ} (h : c.Sound scenario) :
    (step scenario diagnose turn c).Sound scenario := by
  cases c with
  | returned status result output => exact h
  | running s =>
    unfold step
    dsimp only
    split
    · exact stepAttempt_sound h
    · next chunk hphase => exact stepTransmit_sound hphase h
    · next hphase => exact stepDrain_sound hphase h turn
    · exact stepCheck_sound h

/-! ## Runs -/

/-- What is there at the head of the first attempt. -/
structure Initial (scenario : Scenario) (s : State ρ) : Prop where
  validated : validate scenario = .ok
  phase : s.phase = .attempt
  attempt : s.attempt = 0
  faultIndex : s.faultIndex = 0
  now : s.now = 0
  rto : s.rto = scenario.initialRtoMs.toNat
  events : s.events = .empty
  acknowledged : s.acknowledged = List.replicate maxChunks 0
  reassembly : ∃ data, data.length = scenario.payload.length ∧
    reassemblyInit scenario.senderInitialSeq data = .ok s.reassembly
  pair : s.pair = []
  output : s.output = scenario.output

/-- A run fails in front of its first attempt, or it gets there. -/
theorem start_cases (scenario : Scenario) (env : Environment) :
    (∃ status result, status ≠ .ok ∧ start (ρ := ρ) scenario env = .returned status result scenario.output) ∨
      ∃ s, Initial (ρ := ρ) scenario s ∧ start scenario env = .running s := by
  unfold start
  split
  · next hinvalid => exact .inl ⟨_, _, hinvalid, rfl⟩
  · next hvalid =>
    rw [not_not] at hvalid
    split
    · exact .inl ⟨_, _, Status.noConfusion, rfl⟩
    · exact .inl ⟨_, _, Status.noConfusion, rfl⟩
    · exact .inl ⟨_, _, Status.noConfusion, rfl⟩
    · split
      · exact .inl ⟨_, _, Status.noConfusion, rfl⟩
      · dsimp only
        split
        · exact .inl ⟨_, _, Status.noConfusion, rfl⟩
        · next reassembly hinit =>
          split
          · exact .inl ⟨_, _, Status.noConfusion, rfl⟩
          · refine .inr ⟨_, ⟨hvalid, rfl, rfl, rfl, rfl, rfl, rfl, rfl, ⟨_, ?_, hinit⟩, rfl, rfl⟩, rfl⟩
            rw [List.length_map, List.length_range]

theorem Initial.inv (h : Initial scenario s) : Inv scenario s where
  validated := h.validated
  frames event hmem := by
    rw [h.events] at hmem
    cases List.eq_of_mem_replicate hmem
  acknowledged_length := by rw [h.acknowledged, List.length_replicate]
  reassembly := by
    obtain ⟨data, hlength, hinit⟩ := h.reassembly
    rw [h.acknowledged, acknowledgedSet_replicate]
    exact refines_init hlength hinit
  pair := h.pair
  output := h.output
  attempt_lt hne := absurd h.phase hne

theorem start_sound (env : Environment) : (start (ρ := ρ) scenario env).Sound scenario := by
  rcases start_cases (ρ := ρ) scenario env with ⟨status, result, hstatus, hstart⟩ | ⟨s, hinitial, hstart⟩
  · rw [hstart]
    exact sound_error hstatus rfl
  · rw [hstart]
    exact hinitial.inv

/-- **Run lemma.** -/
theorem run_sound (env : Environment) (turns : List PairTurn) :
    (run scenario diagnose env turns).Sound scenario :=
  (miniStack scenario diagnose).run_invariant (fun _ turn h => step_sound turn h) (start_sound env) turns

/-! ## Termination -/

def EventTable.used (events : EventTable) : Nat := events.slots.countP Option.isSome

theorem EventTable.used_le (events : EventTable) : events.used ≤ maxEvents := by
  unfold EventTable.used
  rw [← events.length_slots]
  exact List.countP_le_length

/-- More steps than one attempt takes: its chunks, its deliveries, and the control points around them. -/
def attemptCost : Nat := maxChunks + maxEvents + 4

/-- A bound on the steps that are left. -/
def rank (scenario : Scenario) : Config ρ → Nat
  | .returned _ _ _ => 0
  | .running s =>
    let later := (scenario.maxAttempts - s.attempt - 1) * attemptCost
    match s.phase with
    | .attempt => (scenario.maxAttempts - s.attempt) * attemptCost + 1
    | .transmit chunk => later + (chunkCount scenario - chunk) + maxEvents + 4
    | .drain => later + s.events.used + 3
    | .check => later + 2

def Config.Returned (c : Config ρ) : Prop := ∃ status result output, c = .returned status result output

theorem used_set_none {events : EventTable} {index : Nat} {event : Event}
    (h : events.slots[index]? = some (some event)) : (events.set index none).used + 1 = events.used := by
  obtain ⟨hlt, hget⟩ := List.getElem?_eq_some_iff.mp h
  have hpos : 0 < events.slots.countP Option.isSome := by
    rw [List.countP_pos_iff]
    exact ⟨some event, List.mem_of_getElem? h, rfl⟩
  unfold EventTable.used EventTable.set
  rw [List.countP_set hlt, hget]
  simp only [Option.isSome_some, Option.isSome_none, if_true, Bool.false_eq_true, if_false]
  omega

theorem rank_stepAttempt (h : Inv scenario s) (hphase : s.phase = .attempt) :
    rank scenario (stepAttempt scenario s) < rank scenario (.running s) := by
  have hcount := chunkCount_le (validate_ok h.validated).2.1
  have hcost : attemptCost = maxChunks + maxEvents + 4 := rfl
  unfold stepAttempt
  split
  · next hlt =>
    have hsucc : scenario.maxAttempts - s.attempt = (scenario.maxAttempts - s.attempt - 1) + 1 := by omega
    simp only [rank, hphase]
    rw [hsucc, Nat.add_sub_cancel, Nat.add_mul, Nat.one_mul]
    omega
  · simp [rank, hphase]

theorem rank_stepTransmit {chunk : Nat} (hphase : s.phase = .transmit chunk) :
    rank scenario (stepTransmit scenario chunk s) < rank scenario (.running s) := by
  have hspec := stepTransmit_spec scenario chunk s
  generalize stepTransmit scenario chunk s = c at hspec ⊢
  cases hspec with
  | done =>
    have hused := s.events.used_le
    simp only [rank, hphase]
    omega
  | skipped | dropped | late | full | queued =>
    simp only [rank, hphase]
    omega

theorem rank_stepDrain (h : Inv scenario s) (hphase : s.phase = .drain) (turn : PairTurn) :
    rank scenario (stepDrain scenario diagnose turn s) < rank scenario (.running s) := by
  have hspec : Drains scenario diagnose turn s _ := stepDrain_spec h turn
  generalize stepDrain scenario diagnose turn s = c at hspec ⊢
  cases hspec with
  | settled | failed =>
    simp only [rank, hphase]
    omega
  | delivered hslot =>
    have hused := used_set_none hslot
    simp only [rank, delivered, hphase]
    omega

theorem rank_stepCheck (hphase : s.phase = .check) :
    rank scenario (stepCheck scenario s) < rank scenario (.running s) := by
  unfold stepCheck
  split
  · dsimp only
    split <;> simp [rank, hphase]
  · simp only [rank, hphase, Nat.sub_add_eq]
    omega

/-- **Step lemma.** Every step of a run that has not returned lowers the rank. -/
theorem rank_step (turn : PairTurn) {c : Config ρ} (h : c.Sound scenario) (hc : ¬ c.Returned) :
    rank scenario (step scenario diagnose turn c) < rank scenario c := by
  cases c with
  | returned status result output => exact absurd ⟨status, result, output, rfl⟩ hc
  | running s =>
    unfold step
    dsimp only
    split
    · next hphase => exact rank_stepAttempt h hphase
    · next chunk hphase => exact rank_stepTransmit hphase
    · next hphase => exact rank_stepDrain h hphase turn
    · next hphase => exact rank_stepCheck hphase

theorem rank_start (env : Environment) :
    rank scenario (start (ρ := ρ) scenario env) < scenario.maxAttempts * attemptCost + 2 := by
  rcases start_cases (ρ := ρ) scenario env with ⟨status, result, -, hstart⟩ | ⟨s, hinitial, hstart⟩
  · rw [hstart]
    exact Nat.succ_pos _
  · rw [hstart]
    simp only [rank, hinitial.phase, hinitial.attempt, Nat.sub_zero]
    omega

/-- The number of steps after which a run has returned. -/
def stepBound (scenario : Scenario) : Nat := scenario.maxAttempts * attemptCost + 2

theorem run_returned (env : Environment) {turns : List PairTurn} (hlen : stepBound scenario ≤ turns.length) :
    (run scenario diagnose env turns).Returned := by
  have hdone : ∀ (c : Config ρ) (turn : PairTurn), c.Returned →
      ((miniStack scenario diagnose).next c turn).Returned := by
    rintro c turn ⟨status, result, output, rfl⟩
    exact ⟨status, result, output, rfl⟩
  exact (miniStack scenario diagnose).run_done (fun c turn h => step_sound turn h) hdone
    (fun c turn h hc => rank_step turn h hc) (start_sound env) (Nat.lt_of_lt_of_le (rank_start env) hlen)

theorem deliver_not_malformed {index : Nat} {event : Event} (h : Inv scenario s)
    (hslot : s.events.slots[index]? = some (some event)) (turn : PairTurn) :
    (deliver scenario diagnose turn index event { s with now := event.dueMs }).1 ≠ .malformed := by
  rcases deliver_spec diagnose (h.at_time event.dueMs) hslot turn with
    ⟨-, pair, hdeliver⟩ | ⟨-, ctx, hdeliver, -⟩
  · rw [hdeliver]
    exact Status.noConfusion
  · rw [hdeliver]
    exact Status.noConfusion

/-- **Main result.** For every scenario and every answer of the kernel: the run returns; if it returns `OK` then
the output holds the payload and is untouched behind it; if it returns anything else then the output is
untouched; and at every control point every queued frame passes the checks of the receiver, so that no delivery
returns `MALFORMED`. -/
theorem miniStack_integrity (scenario : Scenario) (diagnose : Bytes → ρ) (env : Environment)
    (turns : List PairTurn) :
    (stepBound scenario ≤ turns.length →
      ∃ status result output, run scenario diagnose env turns = .returned status result output) ∧
    (∀ result output, run scenario diagnose env turns = .returned .ok result output →
      output.take scenario.payload.length = scenario.payload ∧
      output.drop scenario.payload.length = scenario.output.drop scenario.payload.length ∧
      output.length = scenario.output.length ∧ result.reassembledLength = scenario.payload.length) ∧
    (∀ status result output, run scenario diagnose env turns = .returned status result output →
      status ≠ .ok → output = scenario.output) ∧
    (∀ s, run scenario diagnose env turns = .running s →
      (∀ index event, s.events.slots[index]? = some (some event) →
        (receiveSegment scenario event.frame).isSome ∧
        ∀ turn, (deliver scenario diagnose turn index event { s with now := event.dueMs }).1 ≠ .malformed) ∧
      (∀ index event, s.phase = .drain → nextEvent s.events s.deadline = some (index, event) →
        ∀ turn, (deliver scenario diagnose turn index event { s with now := event.dueMs }).1 ≠ .malformed)) := by
  have hsound := @run_sound ρ scenario diagnose env turns
  refine ⟨fun hlen => run_returned env hlen, fun result output hrun => ?_, fun status result output hrun hne => ?_,
    fun s hrun => ?_⟩
  · rw [hrun, sound_ok_iff] at hsound
    obtain ⟨hroom, rfl, hlength⟩ := hsound
    refine ⟨List.take_left, List.drop_left, ?_, hlength⟩
    rw [List.length_append, List.length_drop]
    omega
  · rw [hrun] at hsound
    exact (sound_error_iff hne).mp hsound
  · rw [hrun] at hsound
    have hdeliver : ∀ index event, s.events.slots[index]? = some (some event) → ∀ turn,
        (deliver scenario diagnose turn index event { s with now := event.dueMs }).1 ≠ .malformed :=
      fun _ _ hslot => deliver_not_malformed hsound hslot
    refine ⟨fun index event hslot => ⟨?_, hdeliver index event hslot⟩, fun index event _ hnext =>
      hdeliver index event (nextEvent_some hnext).1⟩
    obtain ⟨hchunk, hframe⟩ := hsound.frames event (List.mem_of_getElem? hslot)
    obtain ⟨tcp, hreceive, -⟩ := receiveSegment_frameOf hchunk
    rw [hframe, hreceive]
    rfl

/-- Five bytes whose sequence numbers wrap past `2^32`; the first transmission is dropped. -/
def retryScenario : Scenario where
  payload := [114, 101, 116, 114, 121]
  output := [9, 9, 9, 9, 9, 9]
  routes := [⟨#v[198, 51, 96, 0], 20, 10⟩]
  sourceIpv4 := #v[192, 0, 2, 10]
  destinationIpv4 := #v[198, 51, 100, 8]
  sourcePort := 40000
  destinationPort := 443
  senderInitialSeq := 0xfffffffe
  receiverInitialSeq := 9000
  initialRtoMs := 100
  maxAttempts := 3
  faults := [⟨.drop, 0⟩, ⟨.deliver, 0⟩]

theorem miniStack_integrity_retry :
    ∃ result output, run retryScenario List.length ⟨true, fun _ => 7⟩ (List.replicate 20 ⟨true, true⟩) =
        .returned .ok result output ∧
      output.take 5 = retryScenario.payload ∧ output.drop 5 = [9] ∧ result.reassembledLength = 5 := by
  have hrun : run retryScenario List.length ⟨true, fun _ => 7⟩ (List.replicate 20 ⟨true, true⟩) =
      .returned .ok ⟨0, 100, 2, 1, .established, 5, some 59⟩ [114, 101, 116, 114, 121, 9] := by decide +kernel
  obtain ⟨-, hok, -⟩ := miniStack_integrity retryScenario List.length ⟨true, fun _ => 7⟩
    (List.replicate 20 ⟨true, true⟩)
  obtain ⟨htake, hdrop, -, hlength⟩ := hok _ _ hrun
  exact ⟨_, _, hrun, htake, hdrop, hlength⟩

end TcpipCourse.LinuxL03
