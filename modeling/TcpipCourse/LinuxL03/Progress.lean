import TcpipCourse.LinuxL03.Clock

/-!
# Linux lab 03: retransmission makes progress

* `EventTable.late`, `Queued` : what waits behind the deadline, and what is still due before it; `Arrives` : the
  chunks that the event loop will have acknowledged;
* `Ahead` : every attempt uses up an action of the script, and the events that linger are charged to the actions
  that made them, so that the table has room;
* `ahead_step` : a step keeps this, or returns `OK`, while no attempt starts with the clock at its limit;
* `ok_of_windowed`, `windowed_of_ok` : exactly then the run returns `OK`;
* `ok_of_small` : no script can stall a timeout with `initialRtoMs * (2 ^ faults.length - 1) < UINT64_MAX`.
-/

namespace TcpipCourse.LinuxL03
open Lib L07

/-! ## The event table -/

/-- How many events are due at the deadline or later. -/
def EventTable.late (events : EventTable) (deadline : Nat) : Nat :=
  events.slots.countP fun slot => slot.any fun event => deadline ≤ event.dueMs

/-- A frame of the chunk is due before the deadline. -/
def Queued (events : EventTable) (deadline chunk : Nat) : Prop :=
  ∃ event, some event ∈ events.slots ∧ event.chunkIndex = chunk ∧ event.dueMs < deadline

section Table
variable {events : EventTable} {deadline index : Nat} {event : Event}

theorem late_le_used : events.late deadline ≤ events.used := by
  refine List.countP_mono_left fun slot _ h => ?_
  cases slot with
  | none => cases h
  | some event => rfl

theorem used_le_late (h : DueFrom deadline events) : events.used ≤ events.late deadline := by
  refine List.countP_mono_left fun slot hmem hused => ?_
  cases slot with
  | none => cases hused
  | some event => simpa using h event hmem

theorem used_set_some (h : events.slots[index]? = some none) :
    (events.set index (some event)).used = events.used + 1 := by
  obtain ⟨hlt, hget⟩ := List.getElem?_eq_some_iff.mp h
  unfold EventTable.used EventTable.set
  rw [List.countP_set hlt, hget]
  simp

theorem late_set_some (h : events.slots[index]? = some none) :
    (events.set index (some event)).late deadline =
      events.late deadline + if deadline ≤ event.dueMs then 1 else 0 := by
  obtain ⟨hlt, hget⟩ := List.getElem?_eq_some_iff.mp h
  unfold EventTable.late EventTable.set
  rw [List.countP_set hlt, hget]
  simp

/-- An event that was due before the deadline leaves the late ones as they are. -/
theorem late_set_none (h : events.slots[index]? = some (some event)) (hdue : event.dueMs < deadline) :
    (events.set index none).late deadline = events.late deadline := by
  obtain ⟨hlt, hget⟩ := List.getElem?_eq_some_iff.mp h
  unfold EventTable.late EventTable.set
  rw [List.countP_set hlt, hget]
  simp [Nat.not_le.mpr hdue]

theorem mem_set_of_ne {slot : Option Event} {other : Event} (hmem : some other ∈ events.slots)
    (hne : events.slots[index]? ≠ some (some other)) : some other ∈ (events.set index slot).slots := by
  obtain ⟨i, hi⟩ := List.mem_iff_getElem?.mp hmem
  have hindex : index ≠ i := by
    rintro rfl
    exact hne hi
  refine List.mem_iff_getElem?.mpr ⟨i, ?_⟩
  rw [EventTable.set, List.getElem?_set_ne hindex, hi]

theorem mem_set_self {slot : Option Event} (h : events.slots[index]? = some slot) (event : Event) :
    some event ∈ (events.set index (some event)).slots := by
  obtain ⟨hlt, -⟩ := List.getElem?_eq_some_iff.mp h
  exact List.mem_set hlt _

theorem exists_free (hroom : events.used < maxEvents) : ∃ index, events.slots.findIdx? Option.isNone = some index := by
  rw [← Option.ne_none_iff_exists']
  intro hnone
  have hall : events.used = maxEvents := by
    rw [← events.length_slots]
    refine List.countP_eq_length.mpr fun slot hmem => ?_
    have := List.findIdx?_eq_none_iff.mp hnone slot hmem
    cases slot with
    | none => cases this
    | some event => rfl
  omega

/-- A table that is not full takes the frame. -/
theorem enqueue_room {scenario : Scenario} {chunk : Nat} (hchunk : chunk < chunkCount scenario)
    (hroom : events.used < maxEvents) (dueMs order : Nat) :
    enqueue events scenario chunk dueMs order ≠ .error .capacity := by
  obtain ⟨index, hfree⟩ := exists_free hroom
  rw [enqueue, hfree]
  dsimp only
  rw [buildFrame_eq hchunk]
  intro hfull
  cases hfull

/-- Each of the first `n` chunks is acknowledged, or a frame of it is due before the deadline. -/
def Arrives (acknowledged : Bytes) (events : EventTable) (deadline n : Nat) : Prop :=
  ∀ j < n, acknowledged.getD j 0 ≠ 0 ∨ Queued events deadline j

section Arrives
variable {acknowledged : Bytes} {chunk n : Nat}

theorem Arrives.skip (h : Arrives acknowledged events deadline chunk) (hack : acknowledged.getD chunk 0 ≠ 0) :
    Arrives acknowledged events deadline (chunk + 1) := by
  intro j hj
  rcases Nat.lt_succ_iff_lt_or_eq.mp hj with hlt | rfl
  · exact h j hlt
  · exact .inl hack

theorem Arrives.queue {due : Nat} (h : Arrives acknowledged events deadline chunk)
    (hfree : events.slots[index]? = some none) (hdue : due < deadline) (frame : Bytes) (order : Nat) :
    Arrives acknowledged (events.set index (some ⟨frame, chunk, due, order⟩)) deadline (chunk + 1) := by
  intro j hj
  rcases Nat.lt_succ_iff_lt_or_eq.mp hj with hlt | rfl
  · refine (h j hlt).imp_right ?_
    rintro ⟨other, hmem, hother, hbefore⟩
    exact ⟨other, mem_set_of_ne hmem (by rw [hfree]; simp), hother, hbefore⟩
  · exact .inr ⟨_, mem_set_self hfree _, rfl, hdue⟩

/-- A delivery acknowledges its chunk and leaves the other events where they are. -/
theorem Arrives.deliver (h : Arrives acknowledged events deadline n)
    (hslot : events.slots[index]? = some (some event)) (hchunk : event.chunkIndex < acknowledged.length) :
    Arrives (acknowledged.set event.chunkIndex 1) (events.set index none) deadline n := by
  intro j hj
  rw [getD_set hchunk]
  by_cases hj' : j = event.chunkIndex
  · rw [if_pos hj']
    exact .inl (by decide)
  · rw [if_neg hj']
    refine (h j hj).imp_right ?_
    rintro ⟨other, hmem, hother, hbefore⟩
    refine ⟨other, mem_set_of_ne hmem ?_, hother, hbefore⟩
    rw [hslot]
    rintro ⟨⟩
    exact hj' hother.symm

end Arrives

end Table

/-! ## The invariant -/

variable {ρ : Type} {scenario : Scenario} {diagnose : Bytes → ρ} {s : State ρ}

/-- How many actions of the script have been used. -/
def scripted (scenario : Scenario) (s : State ρ) : Nat := min s.faultIndex scenario.faults.length

/-- The chunk loop of an attempt, in front of `chunk`. -/
structure Transmitting (scenario : Scenario) (chunk : Nat) (s : State ρ) : Prop where
  window : s.now < s.deadline
  index : s.attempt ≤ s.faultIndex
  consumed : (∃ j < chunk, s.acknowledged.getD j 0 = 0) → s.attempt < s.faultIndex
  used : s.events.used ≤ scripted scenario s + chunk
  late : s.events.late s.deadline ≤ scripted scenario s
  last : s.attempt = scenario.faults.length →
    ∀ j < chunk, s.acknowledged.getD j 0 ≠ 0 ∨ Queued s.events s.deadline j

/-- The event loop of an attempt: in the attempt behind the last action, every chunk that is missing is due. -/
structure Draining (scenario : Scenario) (s : State ρ) : Prop where
  consumed : s.attempt < s.faultIndex
  late : s.events.late s.deadline ≤ scripted scenario s
  last : s.attempt = scenario.faults.length →
    ∀ j < chunkCount scenario, s.acknowledged.getD j 0 ≠ 0 ∨ Queued s.events s.deadline j

def AheadAt (scenario : Scenario) (s : State ρ) : Phase → Prop
  | .attempt => s.attempt ≤ s.faultIndex ∧ s.events.used ≤ scripted scenario s
  | .transmit chunk => Transmitting scenario chunk s
  | .drain | .check => Draining scenario s

/-- Every attempt so far has used up an action, and the script is not behind. -/
structure Ahead (scenario : Scenario) (s : State ρ) : Prop where
  attempts : s.attempt ≤ scenario.faults.length
  phase : AheadAt scenario s s.phase

def Config.Ahead (scenario : Scenario) : Config ρ → Prop
  | .running s => LinuxL03.Ahead scenario s
  | .returned status _ _ => status = .ok

/-! ## One step -/

theorem faults_le (h : validate scenario = .ok) : scenario.faults.length ≤ maxFaultActions := by
  unfold validate at h
  split at h
  · cases h
  · next hvalid =>
    by_contra hlong
    exact hvalid (.inr (.inr (.inl (Nat.lt_of_not_le hlong))))

theorem faultAt_of_le {faultIndex : Nat} (h : scenario.faults.length ≤ faultIndex) :
    faultAt scenario faultIndex = ⟨.deliver, 0⟩ := List.getD_eq_default _ _ h

/-- An attempt that starts below the limit has a window, and there is an attempt for every action and one more. -/
theorem stepAttempt_ahead (hvalid : validate scenario = .ok) (hattempts : scenario.faults.length < scenario.maxAttempts)
    (htimed : Timed scenario s) (hphase : s.phase = .attempt) (hnow : s.now < uint64Max) (h : Ahead scenario s) :
    (stepAttempt scenario s).Ahead scenario := by
  have hlimit := h.attempts
  have hat := h.phase
  have hclock := htimed.clock
  rw [hphase] at hat hclock
  obtain ⟨hindex, hused⟩ := hat
  have hwindow : s.now < deadlineAfter s.now s.rto := by
    rw [hclock.1] at hnow ⊢
    rw [htimed.rto, deadlineAfter_attempt]
    exact roundStart_lt_succ (rto_pos hvalid) hnow
  unfold stepAttempt
  rw [if_pos (by omega)]
  exact ⟨hlimit,
    { window := hwindow
      index := hindex
      consumed := fun ⟨j, hj, _⟩ => absurd hj (Nat.not_lt_zero j)
      used := hused
      late := Nat.le_trans late_le_used hused
      last := fun _ j hj => absurd hj (Nat.not_lt_zero j) }⟩

theorem Transmitting.skip {chunk : Nat} (h : Transmitting scenario chunk s) (hack : s.acknowledged.getD chunk 0 ≠ 0) :
    Transmitting scenario (chunk + 1) s where
  window := h.window
  index := h.index
  consumed := by
    rintro ⟨j, hj, hzero⟩
    refine h.consumed ⟨j, ?_, hzero⟩
    rcases Nat.lt_succ_iff_lt_or_eq.mp hj with hlt | rfl
    · exact hlt
    · exact absurd hzero hack
  used := Nat.le_trans h.used (Nat.le_succ _)
  late := h.late
  last := fun hlast => Arrives.skip (h.last hlast) hack

/-- A transmission that is dropped uses up an action of the script. -/
theorem Transmitting.drop {chunk : Nat} (h : Transmitting scenario chunk s)
    (hscript : s.faultIndex < scenario.faults.length) :
    Transmitting scenario (chunk + 1) { s with faultIndex := s.faultIndex + 1 } := by
  have hindex := h.index
  have hnext : min (s.faultIndex + 1) scenario.faults.length = scripted scenario s + 1 := by
    unfold scripted
    omega
  exact
    { window := h.window
      index := Nat.le_succ_of_le h.index
      consumed := fun _ => Nat.lt_succ_of_le h.index
      used := by
        show s.events.used ≤ min (s.faultIndex + 1) scenario.faults.length + (chunk + 1)
        have := h.used
        omega
      late := by
        show s.events.late s.deadline ≤ min (s.faultIndex + 1) scenario.faults.length
        have := h.late
        omega
      last := fun hlast => by
        have : s.attempt = scenario.faults.length := hlast
        omega }

/-- A transmission that is queued is charged to its action; without one it is due at once. -/
theorem Transmitting.queue {chunk index due order : Nat} (h : Transmitting scenario chunk s)
    (hfree : s.events.slots[index]? = some none)
    (hdue : scenario.faults.length ≤ s.faultIndex → due = s.now) (frame : Bytes) :
    Transmitting scenario (chunk + 1)
      { s with
        faultIndex := s.faultIndex + 1
        events := s.events.set index (some ⟨frame, chunk, due, order⟩) } := by
  have hindex := h.index
  have hwindow := h.window
  have hused := h.used
  have hlate := h.late
  have hused' : (s.events.set index (some ⟨frame, chunk, due, order⟩)).used = _ := used_set_some hfree
  have hlate' : (s.events.set index (some ⟨frame, chunk, due, order⟩)).late s.deadline = _ := late_set_some hfree
  have hnext : min (s.faultIndex + 1) scenario.faults.length =
      scripted scenario s + if s.faultIndex < scenario.faults.length then 1 else 0 := by
    unfold scripted
    split <;> omega
  exact
    { window := hwindow
      index := Nat.le_succ_of_le hindex
      consumed := fun _ => Nat.lt_succ_of_le hindex
      used := by
        show (s.events.set index _).used ≤ min (s.faultIndex + 1) scenario.faults.length + (chunk + 1)
        rw [hused', hnext]
        omega
      late := by
        show (s.events.set index _).late s.deadline ≤ min (s.faultIndex + 1) scenario.faults.length
        rw [hlate', hnext]
        by_cases hscript : s.faultIndex < scenario.faults.length
        · rw [if_pos hscript]
          split <;> omega
        · rw [if_neg hscript, hdue (Nat.le_of_not_lt hscript), if_neg (Nat.not_le.mpr hwindow)]
          omega
      last := fun hlast => by
        have hlast : s.attempt = scenario.faults.length := hlast
        apply Arrives.queue (h.last hlast) hfree
        rw [hdue (by omega)]
        exact hwindow }

theorem stepTransmit_ahead {chunk : Nat} (hinv : Inv scenario s) (htimed : Timed scenario s)
    (hphase : s.phase = .transmit chunk) (h : Ahead scenario s)
    (hdue : chunk < chunkCount scenario → s.acknowledged.getD chunk 0 = 0 →
      dueTime (faultAt scenario s.faultIndex) s.now s.rto ≠ none) :
    (stepTransmit scenario chunk s).Ahead scenario := by
  have hlimit := h.attempts
  have hat := h.phase
  have hclock := htimed.clock
  rw [hphase] at hat hclock
  have hat : Transmitting scenario chunk s := hat
  have hspec := stepTransmit_spec scenario chunk s
  generalize stepTransmit scenario chunk s = c at hspec ⊢
  cases hspec with
  | done hchunk =>
    -- one of the chunks behind is missing, so that an action has been used
    obtain ⟨j, hj, hzero⟩ := open_iff.mp hclock.2.2
    exact ⟨hlimit,
      { consumed := hat.consumed ⟨j, by omega, hzero⟩
        late := hat.late
        last := fun hlast j hj => hat.last hlast j (by omega) }⟩
  | skipped hchunk hack => exact ⟨hlimit, { hat.skip hack with }⟩
  | dropped hchunk hopen hdrop =>
    have hscript : s.faultIndex < scenario.faults.length := by
      by_contra hout
      rw [faultAt_of_le (Nat.le_of_not_lt hout)] at hdrop
      cases hdrop
    exact ⟨hlimit, { hat.drop hscript with }⟩
  | late hchunk hopen hdrop hnone => exact absurd hnone (hdue hchunk hopen)
  | full hchunk hopen hdrop hfull =>
    have hroom : s.events.used < maxEvents := by
      have hused := hat.used
      have hcount := chunkCount_le (validate_ok hinv.validated).2.1
      have hscript : scripted scenario s ≤ maxFaultActions :=
        Nat.le_trans (Nat.min_le_right _ _) (faults_le hinv.validated)
      unfold maxEvents
      omega
    exact absurd hfull (enqueue_room hchunk hroom _ _)
  | queued hchunk hopen hdrop hsome hfree =>
    refine ⟨hlimit, { hat.queue hfree (fun hout => ?_) (frameOf scenario chunk) with }⟩
    rw [faultAt_of_le hout] at hsome
    exact (Option.some.inj hsome).symm

theorem Draining.deliver {index : Nat} {event : Event} {ctx : Reassembly} (hinv : Inv scenario s)
    (h : Draining scenario s) (hslot : s.events.slots[index]? = some (some event)) (hdue : event.dueMs < s.deadline) :
    Draining scenario (delivered diagnose index event ctx { s with now := event.dueMs }) where
  consumed := h.consumed
  late := by
    show (s.events.set index none).late s.deadline ≤ scripted scenario s
    rw [late_set_none hslot hdue]
    exact h.late
  last := fun hlast => by
    obtain ⟨hchunk, -⟩ := hinv.frames event (List.mem_of_getElem? hslot)
    exact Arrives.deliver (h.last hlast) hslot (hinv.chunkIndex_lt hchunk)

theorem stepDrain_ahead (hinv : Inv scenario s) (hphase : s.phase = .drain) (h : Ahead scenario s) :
    (stepDrain scenario diagnose ⟨true, true⟩ s).Ahead scenario := by
  have hat := h.phase
  rw [hphase] at hat
  have hat : Draining scenario s := hat
  have hspec : Drains scenario diagnose ⟨true, true⟩ s _ := stepDrain_spec hinv ⟨true, true⟩
  generalize stepDrain scenario diagnose ⟨true, true⟩ s = c at hspec ⊢
  cases hspec with
  | settled => exact ⟨h.attempts, { hat with }⟩
  | failed hturn => exact absurd rfl hturn
  | @delivered index event ctx hslot hdue =>
    have hnext : AheadAt scenario (delivered diagnose index event ctx { s with now := event.dueMs }) .drain :=
      hat.deliver hinv hslot hdue
    rw [← hphase] at hnext
    exact ⟨h.attempts, hnext⟩

theorem stepCheck_ahead (hinv : Inv scenario s) (htimed : Timed scenario s) (hphase : s.phase = .check)
    (h : Ahead scenario s) : (stepCheck scenario s).Ahead scenario := by
  have hat := h.phase
  have hclock := htimed.clock
  rw [hphase] at hat hclock
  have hat : Draining scenario s := hat
  obtain ⟨-, hdue⟩ := hclock
  unfold stepCheck
  by_cases hall : allAcknowledged s.acknowledged (chunkCount scenario) = true
  · obtain ⟨ctx, hread⟩ := read_all hinv hall
    rw [if_pos hall, hread]
    dsimp only
    rw [if_neg (by simp)]
    rfl
  · rw [if_neg hall]
    have hlast : s.attempt ≠ scenario.faults.length := by
      intro hlast
      obtain ⟨j, hj, hzero⟩ := open_iff.mp (Bool.eq_false_iff.mpr hall)
      rcases hat.last hlast j hj with hack | ⟨event, hmem, -, hbefore⟩
      · exact hack hzero
      · have := hdue event hmem
        omega
    have hlimit := h.attempts
    refine ⟨?_, Nat.succ_le_of_lt hat.consumed, Nat.le_trans (used_le_late hdue) hat.late⟩
    show s.attempt + 1 ≤ scenario.faults.length
    omega

/-- The kernel carries the datagrams, and no transmission is due past the limit. -/
def Smooth (scenario : Scenario) (c : Config ρ) (turn : PairTurn) : Prop :=
  turn = ⟨true, true⟩ ∧ ∀ s chunk, c = .running s → s.phase = .transmit chunk → chunk < chunkCount scenario →
    s.acknowledged.getD chunk 0 = 0 → dueTime (faultAt scenario s.faultIndex) s.now s.rto ≠ none

/-- The attempt that starts here, if any, starts below the limit. -/
def Windowed (scenario : Scenario) (c : Config ρ) : Prop :=
  ∀ s, c = .running s → s.phase = .attempt → s.attempt < scenario.maxAttempts → s.now < uint64Max

/-- **Step lemma.** -/
theorem ahead_step (hattempts : scenario.faults.length < scenario.maxAttempts) {turn : PairTurn} {c : Config ρ}
    (hsound : c.Sound scenario) (htimed : c.Timed scenario) (h : c.Ahead scenario) (hsmooth : Smooth scenario c turn)
    (hwindow : Windowed scenario c) : (step scenario diagnose turn c).Ahead scenario := by
  obtain ⟨rfl, hdue⟩ := hsmooth
  cases c with
  | returned status result output => exact h
  | running s =>
    have hinv : Inv scenario s := hsound
    unfold step
    dsimp only
    split
    · next hphase =>
      have hlimit := h.attempts
      exact stepAttempt_ahead hinv.validated hattempts htimed hphase (hwindow s rfl hphase (by omega)) h
    · next chunk hphase => exact stepTransmit_ahead hinv htimed hphase h (hdue s chunk rfl hphase)
    · next hphase => exact stepDrain_ahead hinv hphase h
    · next hphase => exact stepCheck_ahead hinv htimed hphase h

/-! ## Runs -/

/-- A valid scenario with a route, an attempt more than there are actions, and a socket pair. -/
structure Eligible (scenario : Scenario) (env : Environment) : Prop where
  valid : validate scenario = .ok
  route : ∃ routeIndex, L11.longestPrefix scenario.routes scenario.destinationIpv4 = .ok routeIndex
  attempts : scenario.faults.length < scenario.maxAttempts
  paired : env.paired = true

/-- The pair carries every datagram, for as many steps as a run can take. -/
structure Reliable (scenario : Scenario) (turns : List PairTurn) : Prop where
  carried : ∀ turn ∈ turns, turn = ⟨true, true⟩
  enough : stepBound scenario ≤ turns.length

theorem reliable_replicate {m : Nat} (h : stepBound scenario ≤ m) :
    Reliable scenario (List.replicate m ⟨true, true⟩) where
  carried _ hmem := List.eq_of_mem_replicate hmem
  enough := by
    rw [List.length_replicate]
    exact h

section Runs
variable {env : Environment} {turns : List PairTurn}

/-- No transmission of the run is due past `UINT64_MAX`. -/
def Schedulable (scenario : Scenario) (diagnose : Bytes → ρ) (env : Environment) (turns : List PairTurn) : Prop :=
  ∀ k s chunk, run scenario diagnose env (turns.take k) = .running s → s.phase = .transmit chunk →
    chunk < chunkCount scenario → s.acknowledged.getD chunk 0 = 0 →
    dueTime (faultAt scenario s.faultIndex) s.now s.rto ≠ none

theorem schedulable_of_immediate
    (h : ∀ fault ∈ scenario.faults, fault.action = .deliver ∨ fault.action = .drop) :
    Schedulable scenario diagnose env turns := by
  intro k s chunk _ _ _ _
  have hfault : (faultAt scenario s.faultIndex).action = .deliver ∨ (faultAt scenario s.faultIndex).action = .drop := by
    by_cases hlt : s.faultIndex < scenario.faults.length
    · unfold faultAt
      rw [List.getD_eq_getElem _ _ hlt]
      exact h _ (List.getElem_mem hlt)
    · rw [faultAt_of_le (Nat.le_of_not_lt hlt)]
      exact .inl rfl
  unfold dueTime
  rcases hfault with hdeliver | hdrop
  · rw [hdeliver]
    exact Option.some_ne_none _
  · rw [hdrop]
    exact Option.some_ne_none _

/-- An eligible run gets to its first attempt. -/
theorem start_running (h : Eligible scenario env) :
    ∃ s, Initial (ρ := ρ) scenario s ∧ start scenario env = .running s := by
  rcases start_cases (ρ := ρ) scenario env with ⟨status, result, -, hstart⟩ | hrunning
  · obtain ⟨routeIndex, hroute⟩ := h.route
    have hlen := (validate_ok h.valid).2.1
    unfold start at hstart
    rw [if_neg (not_not.mpr h.valid), hroute] at hstart
    dsimp only at hstart
    split at hstart
    · next hno => cases hno
    · split at hstart
      · next hinit =>
        unfold reassemblyInit at hinit
        have hmax : maxPayload = 1024 := rfl
        have hbound : ¬ ((List.range scenario.payload.length).map env.scratch).length > uint32Max := by
          have : uint32Max = 4294967295 := rfl
          rw [List.length_map, List.length_range]
          omega
        rw [if_neg hbound] at hinit
        cases hinit
      · rw [h.paired] at hstart
        cases hstart
  · exact hrunning

theorem start_ahead (h : Eligible scenario env) : (start (ρ := ρ) scenario env).Ahead scenario := by
  obtain ⟨s, hinitial, hstart⟩ := start_running (ρ := ρ) h
  have hattempt := hinitial.attempt
  have hindex := hinitial.faultIndex
  rw [hstart]
  refine ⟨by omega, ?_⟩
  rw [hinitial.phase]
  refine ⟨by omega, ?_⟩
  rw [hinitial.events]
  exact Nat.zero_le _

def Config.Going (scenario : Scenario) (c : Config ρ) : Prop :=
  c.Sound scenario ∧ c.Timed scenario ∧ c.Ahead scenario

theorem smooth_of_schedulable (hrel : Reliable scenario turns) (hsched : Schedulable scenario diagnose env turns)
    {k : Nat} {turn : PairTurn} (hk : turns[k]? = some turn) :
    Smooth scenario (run scenario diagnose env (turns.take k)) turn :=
  ⟨hrel.carried turn (List.mem_of_getElem? hk), fun s chunk => hsched k s chunk⟩

/-- A run that is going, and has had all the answers it can take, has returned `OK`. -/
theorem ok_of_going (hrel : Reliable scenario turns)
    (h : (run scenario diagnose env turns).Going scenario) :
    ∃ result output, run scenario diagnose env turns = .returned .ok result output := by
  have hdone : (run scenario diagnose env turns).Returned := run_returned env hrel.enough
  obtain ⟨status, result, output, hrun⟩ := hdone
  have hstatus := h.2.2
  rw [hrun] at hstatus ⊢
  exact ⟨result, output, by rw [show status = .ok from hstatus]⟩

/-- Every attempt has a window: the run returns `OK`. -/
theorem ok_of_windowed (hel : Eligible scenario env) (hrel : Reliable scenario turns)
    (hsched : Schedulable scenario diagnose env turns)
    (hwindow : ∀ k, Windowed scenario (run scenario diagnose env (turns.take k))) :
    ∃ result output, run scenario diagnose env turns = .returned .ok result output := by
  have hstep : ∀ (c : Config ρ) turn, c.Going scenario → (Smooth scenario c turn ∧ Windowed scenario c) →
      ((miniStack scenario diagnose).next c turn).Going scenario :=
    fun c turn h hc => ⟨step_sound turn h.1, timed_step turn h.1 h.2.1,
      ahead_step hel.attempts h.1 h.2.1 h.2.2 hc.1 hc.2⟩
  have halong : (miniStack scenario diagnose).Along (fun c turn => Smooth scenario c turn ∧ Windowed scenario c)
      (start scenario env) turns :=
    (miniStack scenario diagnose).along_of_take fun k turn hk =>
      ⟨smooth_of_schedulable hrel hsched hk, hwindow k⟩
  exact ok_of_going hrel ((miniStack scenario diagnose).run_invariant_of_along hstep
    ⟨start_sound env, start_timed env, start_ahead hel⟩ halong)

/-- An attempt without a window: the run does not return `OK`. -/
theorem windowed_of_ok (h : ∃ result output, run scenario diagnose env turns = .returned .ok result output) (k : Nat) :
    Windowed scenario (run scenario diagnose env (turns.take k)) := by
  intro s hrun hphase _
  obtain ⟨result, output, hok⟩ := h
  by_contra hnow
  have htimed : (run scenario diagnose env (turns.take k)).Timed scenario := timed_run env (turns.take k)
  rw [hrun] at htimed
  have hstuck : ((miniStack scenario diagnose).run (.running s) (turns.drop k)).Stuck scenario :=
    stuck_run (htimed.stuck hphase (Nat.le_of_not_lt hnow)) (turns.drop k)
  have hsplit : run scenario diagnose env turns = (miniStack scenario diagnose).run (.running s) (turns.drop k) := by
    rw [← hrun, run, run, ← (miniStack scenario diagnose).run_append, List.take_append_drop]
  rw [← hsplit, hok] at hstuck
  exact hstuck rfl

/-- A timeout that is small enough for the script: every attempt that is needed has a window. -/
theorem ok_of_small (hel : Eligible scenario env) (hrel : Reliable scenario turns)
    (hsched : Schedulable scenario diagnose env turns)
    (hsmall : scenario.initialRtoMs.toNat * (2 ^ scenario.faults.length - 1) < uint64Max) :
    ∃ result output, run scenario diagnose env turns = .returned .ok result output := by
  have hwindow : ∀ c : Config ρ, c.Going scenario → Windowed scenario c := by
    rintro c ⟨-, htimed, hahead⟩ s rfl hphase -
    have hclock := htimed.clock
    rw [hphase] at hclock
    rw [hclock.1]
    exact Nat.lt_of_le_of_lt (roundStart_mono hahead.attempts) (roundStart_lt_iff.mpr hsmall)
  have hstep : ∀ (c : Config ρ) turn, c.Going scenario → Smooth scenario c turn →
      ((miniStack scenario diagnose).next c turn).Going scenario :=
    fun c turn h hc => ⟨step_sound turn h.1, timed_step turn h.1 h.2.1,
      ahead_step hel.attempts h.1 h.2.1 h.2.2 hc (hwindow c h)⟩
  have halong : (miniStack scenario diagnose).Along (Smooth scenario) (start scenario env) turns :=
    (miniStack scenario diagnose).along_of_take fun k turn hk => smooth_of_schedulable hrel hsched hk
  exact ok_of_going hrel ((miniStack scenario diagnose).run_invariant_of_along hstep
    ⟨start_sound env, start_timed env, start_ahead hel⟩ halong)

end Runs

end TcpipCourse.LinuxL03
