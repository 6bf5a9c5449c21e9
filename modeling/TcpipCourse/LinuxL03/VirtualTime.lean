import TcpipCourse.Lib.Slots
import TcpipCourse.LinuxL03.Elapsed

/-!
# Linux lab 03: the law of virtual time

* `VirtualTime` : what holds of a history: attempts follow each other at the times of the closed form, and events
  are delivered once, in order, and before the deadline;
* `Recorded` : what ties a history to the state behind it; `recorded_moves` : a step and its entry keep it;
* `miniStack_virtualTime` : the law for every run, and what the result of a run says about its history.
-/

namespace TcpipCourse.LinuxL03
open Lib L07

variable {ρ : Type} {scenario : Scenario} {diagnose : Bytes → ρ} {s : State ρ}

/-! ## The law -/

structure Entry.Timely (scenario : Scenario) (entry : Entry) : Prop where
  number : 1 ≤ entry.number
  deadline : entry.deadline = attemptStart scenario entry.number
  start : entry.act = .start → entry.now = attemptStart scenario (entry.number - 1)
  delivery : ∀ event, entry.act = .delivery event → entry.now = event.dueMs ∧ entry.now < entry.deadline

/-- Two deliveries of one attempt are in the order of the events. -/
def InTurn (entry later : Entry) : Prop :=
  ∀ event event', entry.act = .delivery event → later.act = .delivery event' → entry.number = later.number →
    eventKey event < eventKey event'

/-- Attempts are numbered from one, events from zero; no event is delivered more often than it is queued. -/
structure VirtualTime (scenario : Scenario) (log : List Entry) : Prop where
  starts : ∃ n, starts log = List.range' 1 n
  timely : ∀ entry ∈ log, entry.Timely scenario
  tickets : (queuedEvents log).map Event.order = List.range (queuedEvents log).length
  once : (deliveries log).Subperm (queuedEvents log)
  inTurn : log.Pairwise InTurn

/-! ## The invariant -/

/-- While events are delivered, what has been delivered in the attempt is in front of what has not. -/
def LeadsAt (log : List Entry) (s : State ρ) : Phase → Prop
  | .transmit _ => ∀ entry ∈ log, ∀ event, entry.act = .delivery event → entry.number ≤ s.attempt
  | .drain => ∀ entry ∈ log, ∀ event, entry.act = .delivery event →
      entry.number ≤ s.attempt ∨ ∀ other ∈ s.events.slots.reduceOption, eventKey event < eventKey other
  | .attempt | .check => True

structure Recorded (scenario : Scenario) (log : List Entry) (s : State ρ) : Prop where
  numbers : ∀ entry ∈ log, entry.number ≤ s.result.attempts
  starts : starts log = List.range' 1 s.result.attempts
  timely : ∀ entry ∈ log, entry.Timely scenario
  sent : transmissions log = s.faultIndex
  tickets : (queuedEvents log).map Event.order = List.range s.eventOrder
  conserved : (deliveries log ++ s.events.slots.reduceOption).Perm (queuedEvents log)
  inTurn : log.Pairwise InTurn
  leads : LeadsAt log s s.phase

def Config.Recorded (scenario : Scenario) (log : List Entry) : Config ρ → Prop
  | .running s => LinuxL03.Recorded scenario log s
  | .returned status result _ =>
    VirtualTime scenario log ∧ (status = .ok ∨ status = .retryExhausted →
      starts log = List.range' 1 result.attempts ∧
        result.retransmits + chunkCount scenario = transmissions log)

section Log
variable {log : List Entry} {entry : Entry}

theorem Recorded.virtualTime (h : Recorded scenario log s) : VirtualTime scenario log where
  starts := ⟨_, h.starts⟩
  timely := h.timely
  tickets := by
    have hlength := congrArg List.length h.tickets
    rw [List.length_map, List.length_range] at hlength
    rw [h.tickets, hlength]
  once := (List.sublist_append_left _ _).subperm.trans h.conserved.subperm
  inTurn := h.inTurn

/-- The events in the table have different numbers. -/
theorem Recorded.nodup (h : Recorded scenario log s) : (s.events.slots.reduceOption.map Event.order).Nodup := by
  have hperm := h.conserved.map Event.order
  rw [h.tickets, List.map_append] at hperm
  exact (List.nodup_append.mp (hperm.nodup_iff.mpr List.nodup_range)).2.1

theorem inTurn_append (h : log.Pairwise InTurn) (hact : ∀ event, entry.act ≠ .delivery event) :
    (log ++ [entry]).Pairwise InTurn := by
  rw [List.pairwise_append]
  refine ⟨h, List.pairwise_singleton _ _, fun _ _ later hlater => ?_⟩
  obtain rfl := List.mem_singleton.mp hlater
  intro _ event _ hdelivery
  exact absurd hdelivery (hact event)

theorem forall_mem_concat {p : Entry → Prop} (h : ∀ e ∈ log, p e) (hentry : p entry) : ∀ e ∈ log ++ [entry], p e := by
  intro e he
  rcases List.mem_append.mp he with hold | hnew
  · exact h e hold
  · rwa [List.mem_singleton.mp hnew]

theorem Recorded.transmit (htimed : Timed scenario s) (hpaced : Paced scenario s) {chunk : Nat}
    (hphase : s.phase = .transmit chunk) (h : Recorded scenario log s) (queued : Option Event) {events : EventTable}
    {eventOrder : Nat}
    (htickets : (queuedEvents log ++ queued.toList).map Event.order = List.range eventOrder)
    (hevents : events.slots.reduceOption.Perm (queued.toList ++ s.events.slots.reduceOption)) :
    Recorded scenario (log ++ [⟨s.attempt + 1, s.now, s.deadline, .transmission queued⟩])
      { s with
        result := s.retried
        faultIndex := s.faultIndex + 1
        events := events
        eventOrder := eventOrder
        phase := .transmit (chunk + 1) } := by
  have hattempts := hpaced.attempts
  have hclock := htimed.clock
  have hleads := h.leads
  rw [hphase] at hattempts hclock hleads
  have hattempts : s.result.attempts = s.attempt + 1 := hattempts
  exact
    { numbers := forall_mem_concat h.numbers hattempts.symm.le
      starts := by simpa [State.retried] using h.starts
      timely := forall_mem_concat h.timely
        { number := Nat.succ_pos _
          deadline := hclock.2.1
          start := fun hact => Act.noConfusion hact
          delivery := fun event hact => Act.noConfusion hact }
      sent := by simp [h.sent, Act.isTransmission]
      tickets := by rwa [queuedEvents_concat]
      conserved := by
        simp only [queuedEvents_concat, deliveries_concat, Act.queued, Act.delivered, Option.toList_none,
          List.append_nil]
        calc deliveries log ++ events.slots.reduceOption
          _ |>.Perm (deliveries log ++ (queued.toList ++ s.events.slots.reduceOption)) := hevents.append_left _
          _ |>.Perm (deliveries log ++ (s.events.slots.reduceOption ++ queued.toList)) :=
            List.perm_append_comm.append_left _
          _ |>.Perm (queuedEvents log ++ queued.toList) := by
            rw [← List.append_assoc]
            exact h.conserved.append_right _
      inTurn := inTurn_append h.inTurn fun event => Act.noConfusion
      leads := forall_mem_concat hleads fun event hact => Act.noConfusion hact }

theorem Recorded.start (htimed : Timed scenario s) (hpaced : Paced scenario s) (hphase : s.phase = .attempt)
    (h : Recorded scenario log s) :
    Recorded scenario (log ++ [⟨s.attempt + 1, s.now, deadlineAfter s.now s.rto, .start⟩])
      { s with
        deadline := deadlineAfter s.now s.rto
        result := { s.result with attempts := s.attempt + 1 }
        phase := .transmit 0 } := by
  have hattempts := hpaced.attempts
  have hclock := htimed.clock
  rw [hphase] at hattempts hclock
  have hattempts : s.result.attempts = s.attempt := hattempts
  have hnumbers := h.numbers
  rw [hattempts] at hnumbers
  exact
    { numbers := forall_mem_concat (fun e he => Nat.le_succ_of_le (hnumbers e he)) (Nat.le_refl _)
      starts := by
        rw [starts_concat, h.starts, hattempts, List.range'_1_concat, Nat.add_comm 1 s.attempt, if_pos rfl]
      timely := forall_mem_concat h.timely
        { number := Nat.succ_pos _
          deadline := by
            show deadlineAfter s.now s.rto = _
            rw [hclock.1, htimed.rto, deadlineAfter_attempt]
          start := fun _ => hclock.1
          delivery := fun event hact => Act.noConfusion hact }
      sent := by simpa [Act.isTransmission] using h.sent
      tickets := by simpa [Act.queued] using h.tickets
      conserved := by simpa [Act.queued, Act.delivered] using h.conserved
      inTurn := inTurn_append h.inTurn fun event => Act.noConfusion
      leads := forall_mem_concat (fun e he _ _ => hnumbers e he) fun event hact => Act.noConfusion hact }

theorem mem_of_mem_clear {events : EventTable} {index : Nat} {other : Event}
    (h : other ∈ (events.set index none).slots.reduceOption) : other ∈ events.slots.reduceOption := by
  rw [List.reduceOption_mem_iff] at h ⊢
  rcases mem_set_slot h with hold | hnew
  · exact hold
  · cases hnew

/-- The next event is in front of what is left, for no other one has its number. -/
theorem Recorded.front (h : Recorded scenario log s) {index : Nat} {event other : Event}
    (hnext : nextEvent s.events s.deadline = some (index, event))
    (hother : other ∈ (s.events.set index none).slots.reduceOption) : eventKey event < eventKey other := by
  have hleast := nextEvent_least hnext (List.reduceOption_mem_iff.mp (mem_of_mem_clear hother))
  have hclear := reduceOption_clear (nextEvent_some hnext).1
  have hnodup := (hclear.map Event.order).nodup_iff.mp h.nodup
  rw [List.map_cons, List.nodup_cons] at hnodup
  have hne : event.order ≠ other.order := fun heq => hnodup.1 (heq ▸ List.mem_map_of_mem hother)
  rw [eventKey_le_iff] at hleast
  rw [eventKey_lt_iff]
  omega

/-- A delivery is behind all earlier ones of its attempt, and in front of what is left. -/
theorem Recorded.deliver (htimed : Timed scenario s) (hpaced : Paced scenario s) (hphase : s.phase = .drain)
    {index : Nat} {event : Event} (hnext : nextEvent s.events s.deadline = some (index, event)) (ctx : Reassembly)
    (h : Recorded scenario log s) :
    Recorded scenario (log ++ [⟨s.attempt + 1, event.dueMs, s.deadline, .delivery event⟩])
      (delivered diagnose index event ctx { s with now := event.dueMs }) := by
  obtain ⟨hslot, hbefore⟩ := nextEvent_some hnext
  have hattempts := hpaced.attempts
  have hclock := htimed.clock
  have hleads := h.leads
  rw [hphase] at hattempts hclock hleads
  have hattempts : s.result.attempts = s.attempt + 1 := hattempts
  have hclear := reduceOption_clear hslot
  exact
    { numbers := forall_mem_concat h.numbers hattempts.symm.le
      starts := by simpa [delivered] using h.starts
      timely := forall_mem_concat h.timely
        { number := Nat.succ_pos _
          deadline := hclock
          start := fun hact => Act.noConfusion hact
          delivery := fun event' hact => by
            cases hact
            exact ⟨rfl, hbefore⟩ }
      sent := by simpa [delivered, Act.isTransmission] using h.sent
      tickets := by simpa [delivered, Act.queued] using h.tickets
      conserved := by
        have hperm := (hclear.symm.append_left (deliveries log)).trans h.conserved
        simpa [delivered, EventTable.set, Act.queued, Act.delivered] using hperm
      inTurn := by
        rw [List.pairwise_append]
        refine ⟨h.inTurn, List.pairwise_singleton _ _, fun e he later hlater => ?_⟩
        obtain rfl := List.mem_singleton.mp hlater
        intro earlier event' hearlier hevent hnumber
        cases hevent
        rcases hleads e he earlier hearlier with hpast | hlead
        · have hnumber : e.number = s.attempt + 1 := hnumber
          omega
        · exact hlead _ (hclear.mem_iff.mpr List.mem_cons_self)
      leads := by
        show LeadsAt _ _ s.phase
        rw [hphase]
        apply forall_mem_concat
        · intro e he earlier hearlier
          apply (hleads e he earlier hearlier).imp_right
          intro hlead other hother
          exact hlead other (mem_of_mem_clear hother)
        · intro event' hevent
          cases hevent
          exact .inr fun other hother => h.front hnext hother }

end Log

/-! ## Runs -/

theorem attempts_pos (h : validate scenario = .ok) : 0 < scenario.maxAttempts := by
  unfold validate at h
  split at h
  · cases h
  · next hvalid =>
    apply Nat.pos_of_ne_zero
    intro hzero
    exact hvalid (.inr (.inr (.inr (.inl hzero))))

/-- **Step lemma.** -/
theorem recorded_moves (hinv : Inv scenario s) (htimed : Timed scenario s) (hpaced : Paced scenario s)
    (hcounted : Counted scenario s) {log : List Entry} (h : Recorded scenario log s) {c : Config ρ}
    {entry : Option Entry} (hmoves : Moves scenario diagnose s c entry) :
    c.Recorded scenario (log ++ entry.toList) := by
  have hattempts := hpaced.attempts
  have hsent := hcounted.retransmits
  have hleads := h.leads
  unfold firstSent at hsent
  rw [h.sent.symm] at hsent
  cases hmoves with
  | starts hphase hlt => exact h.start htimed hpaced hphase
  | exhausted hphase hge =>
    have hlater : s.attempt ≠ 0 := by
      have := attempts_pos hinv.validated
      omega
    rw [if_pos hlater] at hsent
    rw [Option.toList_none, List.append_nil]
    exact ⟨h.virtualTime, fun _ => ⟨h.starts, hsent⟩⟩
  | sent hphase =>
    rw [hphase] at hleads
    rw [Option.toList_none, List.append_nil]
    exact { h with leads := fun e he event hact => .inl (hleads e he event hact) }
  | skipped hphase =>
    rw [hphase] at hleads
    rw [Option.toList_none, List.append_nil]
    exact { h with leads := hleads }
  | dropped hphase =>
    exact h.transmit htimed hpaced hphase none (by simpa using h.tickets) (List.Perm.refl _)
  | refused hphase =>
    have hnext := h.transmit htimed hpaced hphase none (by simpa using h.tickets) (List.Perm.refl _)
    exact ⟨hnext.virtualTime, fun hstatus => by simp at hstatus⟩
  | queued hphase hchunk hopen hdrop hdue hfree =>
    refine h.transmit htimed hpaced hphase (some _) ?_ (reduceOption_fill hfree)
    rw [List.map_append, h.tickets, List.range_succ]
    rfl
  | settled hphase =>
    rw [Option.toList_none, List.append_nil]
    exact { h with leads := trivial }
  | failed hphase =>
    rw [Option.toList_none, List.append_nil]
    exact ⟨h.virtualTime, fun hstatus => by simp at hstatus⟩
  | @delivered index event ctx hphase hnext => exact h.deliver htimed hpaced hphase hnext ctx
  | finished hphase hall =>
    rw [hphase] at hsent
    rw [Option.toList_none, List.append_nil]
    exact ⟨h.virtualTime, fun _ => ⟨h.starts, by simpa using hsent⟩⟩
  | again hphase hopen =>
    rw [Option.toList_none, List.append_nil]
    exact { h with leads := trivial }

/-- What ties the steps so far to where they have led. -/
structure Config.Traced (scenario : Scenario) (seen : List (Option Entry)) (c : Config ρ) : Prop where
  onTime : c.OnTime scenario
  counted : c.Counted scenario
  recorded : c.Recorded scenario seen.reduceOption

theorem traced_step (turn : PairTurn) {seen : List (Option Entry)} {c : Config ρ} (h : c.Traced scenario seen) :
    (step scenario diagnose turn c).Traced scenario (seen ++ [observe scenario diagnose turn c]) := by
  have hseen : (seen ++ [observe scenario diagnose turn c]).reduceOption =
      seen.reduceOption ++ (observe scenario diagnose turn c).toList := by
    rw [← List.concat_eq_append, List.reduceOption_concat]
  cases c with
  | returned status result output =>
    refine ⟨onTime_step turn h.onTime, trivial, ?_⟩
    rw [hseen, observe, Option.toList_none, List.append_nil]
    exact h.recorded
  | running s =>
    have hmoves := @moves_step ρ scenario diagnose s h.onTime.sound turn
    refine ⟨onTime_step turn h.onTime, counted_moves h.counted hmoves, ?_⟩
    rw [hseen]
    exact recorded_moves h.onTime.sound h.onTime.timed h.onTime.paced h.counted h.recorded hmoves

theorem virtualTime_nil : VirtualTime scenario [] where
  starts := ⟨0, rfl⟩
  timely := by simp
  tickets := rfl
  once := List.Subperm.refl _
  inTurn := List.Pairwise.nil

theorem start_traced (env : Environment) : (start (ρ := ρ) scenario env).Traced scenario [] := by
  have hunstarted := @start_unstarted ρ scenario env
  rcases start_cases (ρ := ρ) scenario env with ⟨status, result, hstatus, hstart⟩ | ⟨s, hinitial, hstart⟩
  · rw [hstart] at hunstarted
    refine ⟨start_onTime env, ?_, ?_⟩
    · rw [hstart]
      trivial
    · rw [hstart]
      exact ⟨virtualTime_nil, fun h => h.elim (absurd · hstatus) (absurd · hunstarted)⟩
  · rw [hstart] at hunstarted
    obtain ⟨hattempts, hretransmits, horder⟩ := hunstarted
    refine ⟨start_onTime env, ?_, ?_⟩
    · rw [hstart]
      refine ⟨?_, fun _ _ _ chunk => ?_⟩
      · unfold firstSent
        rw [hretransmits, hinitial.attempt, hinitial.phase, hinitial.faultIndex]
        rfl
      · rw [hinitial.acknowledged, List.getD_eq_getElem?_getD, List.getElem?_replicate]
        split <;> rfl
    · rw [hstart]
      exact
        { numbers := by simp
          starts := by
            rw [hattempts]
            rfl
          timely := by simp
          sent := hinitial.faultIndex.symm
          tickets := by
            rw [horder]
            rfl
          conserved := by
            rw [hinitial.events]
            decide
          inTurn := List.Pairwise.nil
          leads := by
            rw [hinitial.phase]
            trivial }

/-- **Run lemma.** -/
theorem traced_run (env : Environment) (turns : List PairTurn) :
    (run scenario diagnose env turns).Traced scenario
      ((observed scenario diagnose).answers (start scenario env) turns) := by
  have htraced := (observed scenario diagnose).trace_invariant (fun _ _ turn h => traced_step turn h)
    (@start_traced ρ scenario env) turns
  rwa [observed_run] at htraced

/-- **Main result.** For every scenario and every answer of the kernel: the history obeys the law of virtual time,
and the clock never runs back. A run that gives up has made all its attempts and takes until the last deadline; a
run that returns `OK` takes until some time of its last attempt. Both count every transmission but the first of
each chunk as a retransmission. -/
theorem miniStack_virtualTime (scenario : Scenario) (diagnose : Bytes → ρ) (env : Environment)
    (turns : List PairTurn) :
    VirtualTime scenario (history scenario diagnose env turns) ∧
    (∀ k s, run scenario diagnose env (turns.take k) = .running s →
      (run scenario diagnose env turns).NotBefore s.now) ∧
    (∀ result output, run scenario diagnose env turns = .returned .retryExhausted result output →
      result.attempts = scenario.maxAttempts ∧
      result.virtualElapsedMs = attemptStart scenario scenario.maxAttempts) ∧
    (∀ result output, run scenario diagnose env turns = .returned .ok result output →
      1 ≤ result.attempts ∧ attemptStart scenario (result.attempts - 1) ≤ result.virtualElapsedMs ∧
      result.virtualElapsedMs < attemptStart scenario result.attempts) ∧
    (∀ status result output, run scenario diagnose env turns = .returned status result output →
      status = .ok ∨ status = .retryExhausted →
      starts (history scenario diagnose env turns) = List.range' 1 result.attempts ∧
      result.retransmits + chunkCount scenario = transmissions (history scenario diagnose env turns)) := by
  have htraced := @traced_run ρ scenario diagnose env turns
  have hpaced := htraced.onTime.paced
  have hrecorded := htraced.recorded
  refine ⟨?_, fun k s hrun => ?_, fun result output hrun => ?_, fun result output hrun => ?_,
    fun status result output hrun hstatus => ?_⟩
  · cases hrun : run scenario diagnose env turns with
    | running s =>
      rw [hrun] at hrecorded
      exact hrecorded.virtualTime
    | returned status result output =>
      rw [hrun] at hrecorded
      exact hrecorded.1
  · have hon := @onTime_run ρ scenario diagnose env (turns.take k)
    have hbefore : (run scenario diagnose env (turns.take k)).NotBefore s.now := by
      rw [hrun]
      exact Nat.le_refl s.now
    have hlater := @notBefore_run ρ scenario diagnose _ hon s.now hbefore (turns.drop k)
    rwa [run, ← Machine.run_append, List.take_append_drop] at hlater
  · rw [hrun] at hpaced
    exact hpaced.1 rfl
  · rw [hrun] at hpaced
    exact hpaced.2 rfl
  · rw [hrun] at hrecorded
    exact hrecorded.2 hstatus

/-- The second of two transmissions is delivered when the first attempt is over, at 100 ms. -/
theorem miniStack_virtualTime_retry :
    ∃ result output, run retryScenario List.length ⟨true, fun _ => 7⟩ (List.replicate 20 ⟨true, true⟩) =
        .returned .ok result output ∧
      attemptStart retryScenario 1 ≤ result.virtualElapsedMs ∧
      result.virtualElapsedMs < attemptStart retryScenario 2 ∧
      transmissions (history retryScenario List.length ⟨true, fun _ => 7⟩ (List.replicate 20 ⟨true, true⟩)) = 2 := by
  have hrun : run retryScenario List.length ⟨true, fun _ => 7⟩ (List.replicate 20 ⟨true, true⟩) =
      .returned .ok ⟨0, 100, 2, 1, .established, 5, some 59⟩ [114, 101, 116, 114, 121, 9] := by decide +kernel
  obtain ⟨-, -, -, hok, hcount⟩ := miniStack_virtualTime retryScenario List.length ⟨true, fun _ => 7⟩
    (List.replicate 20 ⟨true, true⟩)
  obtain ⟨-, hfrom, hbefore⟩ := hok _ _ hrun
  exact ⟨_, _, hrun, hfrom, hbefore, ((hcount _ _ _ hrun (.inl rfl)).2).symm⟩

end TcpipCourse.LinuxL03
