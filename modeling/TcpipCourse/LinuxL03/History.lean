import TcpipCourse.LinuxL03.Clock

/-!
# Linux lab 03: the history of a run

* `Entry` : what can be seen of a step: an attempt starts, a chunk is transmitted, an event is delivered;
* `observe`, `observed`, `history` : the entries of a run;
* `Moves` : all that a step can do, with its entry; `moves_step` : the steps of the code are such moves.
-/

namespace TcpipCourse.LinuxL03
open Lib L07

/-! ## Entries -/

inductive Act where
  | start
  | transmission (queued : Option Event)
  | delivery (event : Event)
  deriving DecidableEq

/-- An act with the number of its attempt, counted from one, the clock and the deadline. -/
structure Entry where
  number : Nat
  now : Nat
  deadline : Nat
  act : Act
  deriving DecidableEq

def starts (log : List Entry) : List Nat :=
  log.filterMap fun entry => if entry.act = .start then some entry.number else none

def Act.isTransmission : Act → Bool
  | .transmission _ => true
  | _ => false

/-- How many transmissions there have been, the dropped ones included. -/
def transmissions (log : List Entry) : Nat := log.countP fun entry => entry.act.isTransmission

def Act.queued : Act → Option Event
  | .transmission queued => queued
  | _ => none

/-- The events that have been put into the table. -/
def queuedEvents (log : List Entry) : List Event := log.filterMap fun entry => entry.act.queued

def Act.delivered : Act → Option Event
  | .delivery event => some event
  | _ => none

def deliveries (log : List Entry) : List Event := log.filterMap fun entry => entry.act.delivered

section Concat
variable (log : List Entry) (entry : Entry)

@[simp] theorem starts_concat :
    starts (log ++ [entry]) = starts log ++ if entry.act = .start then [entry.number] else [] := by
  rw [starts, starts, List.filterMap_append]
  by_cases hstart : entry.act = .start <;> simp [hstart]

@[simp] theorem transmissions_concat :
    transmissions (log ++ [entry]) = transmissions log + if entry.act.isTransmission then 1 else 0 := by
  rw [transmissions, transmissions, List.countP_append, List.countP_singleton]

@[simp] theorem queuedEvents_concat :
    queuedEvents (log ++ [entry]) = queuedEvents log ++ entry.act.queued.toList := by
  rw [queuedEvents, queuedEvents, List.filterMap_append]
  cases hqueued : entry.act.queued <;> simp [hqueued]

@[simp] theorem deliveries_concat : deliveries (log ++ [entry]) = deliveries log ++ entry.act.delivered.toList := by
  rw [deliveries, deliveries, List.filterMap_append]
  cases hdelivered : entry.act.delivered <;> simp [hdelivered]

end Concat

/-! ## Observation -/

section Run
variable {ρ : Type} (scenario : Scenario) (diagnose : Bytes → ρ)

/-- What the transmission of a chunk puts into the table. -/
def queuedEvent (chunk : Nat) (s : State ρ) : Option Event :=
  if (faultAt scenario s.faultIndex).action = .drop then none
  else (dueTime (faultAt scenario s.faultIndex) s.now s.rto).bind fun due =>
    match enqueue s.events scenario chunk due s.eventOrder, buildFrame scenario chunk with
    | .ok _, .ok frame => some ⟨frame, chunk, due, s.eventOrder⟩
    | _, _ => none

/-- What the event loop delivers. -/
def deliveredEvent (turn : PairTurn) (s : State ρ) : Option Event :=
  (nextEvent s.events s.deadline).bind fun (index, event) =>
    if (deliver scenario diagnose turn index event { s with now := event.dueMs }).1 = .ok then some event else none

def observe (turn : PairTurn) : Config ρ → Option Entry
  | .returned _ _ _ => none
  | .running s =>
    match s.phase with
    | .attempt =>
      if s.attempt < scenario.maxAttempts then some ⟨s.attempt + 1, s.now, deadlineAfter s.now s.rto, .start⟩
      else none
    | .transmit chunk =>
      if chunk < chunkCount scenario ∧ s.acknowledged.getD chunk 0 = 0 then
        some ⟨s.attempt + 1, s.now, s.deadline, .transmission (queuedEvent scenario chunk s)⟩
      else none
    | .drain =>
      (deliveredEvent scenario diagnose turn s).map fun event =>
        ⟨s.attempt + 1, event.dueMs, s.deadline, .delivery event⟩
    | .check => none

/-- The machine of the run, with what can be seen of its steps. -/
def observed : Machine (Config ρ) PairTurn (Option Entry) :=
  ⟨fun c turn => (step scenario diagnose turn c, observe scenario diagnose turn c)⟩

def history (env : Environment) (turns : List PairTurn) : List Entry :=
  ((observed scenario diagnose).answers (start scenario env) turns).reduceOption

theorem observed_run (c : Config ρ) (turns : List PairTurn) :
    (observed scenario diagnose).run c turns = (miniStack scenario diagnose).run c turns := by
  induction turns generalizing c with
  | nil => rfl
  | cons turn rest ih => exact ih _

end Run

/-! ## Moves -/

variable {ρ : Type} {scenario : Scenario} {diagnose : Bytes → ρ} {s : State ρ}

/-- All that a step can do, with what can be seen of it. -/
inductive Moves (scenario : Scenario) (diagnose : Bytes → ρ) (s : State ρ) : Config ρ → Option Entry → Prop where
  | starts (hphase : s.phase = .attempt) (hlt : s.attempt < scenario.maxAttempts) :
      Moves scenario diagnose s
        (.running { s with
          deadline := deadlineAfter s.now s.rto
          result := { s.result with attempts := s.attempt + 1 }
          phase := .transmit 0 })
        (some ⟨s.attempt + 1, s.now, deadlineAfter s.now s.rto, .start⟩)
  | exhausted (hphase : s.phase = .attempt) (hge : ¬ s.attempt < scenario.maxAttempts) :
      Moves scenario diagnose s
        (.returned .retryExhausted { s.result with virtualElapsedMs := s.now, finalState := s.state } s.output) none
  | sent {chunk : Nat} (hphase : s.phase = .transmit chunk) (hchunk : ¬ chunk < chunkCount scenario) :
      Moves scenario diagnose s (.running { s with phase := .drain }) none
  | skipped {chunk : Nat} (hphase : s.phase = .transmit chunk) (hchunk : chunk < chunkCount scenario)
      (hack : s.acknowledged.getD chunk 0 ≠ 0) :
      Moves scenario diagnose s (.running { s with phase := .transmit (chunk + 1) }) none
  | dropped {chunk : Nat} (hphase : s.phase = .transmit chunk) (hchunk : chunk < chunkCount scenario)
      (hopen : s.acknowledged.getD chunk 0 = 0) (hdrop : (faultAt scenario s.faultIndex).action = .drop) :
      Moves scenario diagnose s
        (.running { s with result := s.retried, faultIndex := s.faultIndex + 1, phase := .transmit (chunk + 1) })
        (some ⟨s.attempt + 1, s.now, s.deadline, .transmission none⟩)
  | refused {chunk : Nat} (hphase : s.phase = .transmit chunk) (hchunk : chunk < chunkCount scenario)
      (hopen : s.acknowledged.getD chunk 0 = 0) (hdrop : (faultAt scenario s.faultIndex).action ≠ .drop) :
      Moves scenario diagnose s (.returned .capacity s.retried s.output)
        (some ⟨s.attempt + 1, s.now, s.deadline, .transmission none⟩)
  | queued {chunk due index : Nat} (hphase : s.phase = .transmit chunk) (hchunk : chunk < chunkCount scenario)
      (hopen : s.acknowledged.getD chunk 0 = 0) (hdrop : (faultAt scenario s.faultIndex).action ≠ .drop)
      (hdue : dueTime (faultAt scenario s.faultIndex) s.now s.rto = some due)
      (hfree : s.events.slots[index]? = some none) :
      Moves scenario diagnose s
        (.running { s with
          result := s.retried
          faultIndex := s.faultIndex + 1
          events := s.events.set index (some ⟨frameOf scenario chunk, chunk, due, s.eventOrder⟩)
          eventOrder := s.eventOrder + 1
          phase := .transmit (chunk + 1) })
        (some ⟨s.attempt + 1, s.now, s.deadline,
          .transmission (some ⟨frameOf scenario chunk, chunk, due, s.eventOrder⟩)⟩)
  | settled (hphase : s.phase = .drain) (hnone : nextEvent s.events s.deadline = none) :
      Moves scenario diagnose s (.running { s with phase := .check }) none
  | failed (hphase : s.phase = .drain) : Moves scenario diagnose s (.returned .systemError s.result s.output) none
  | delivered {index : Nat} {event : Event} {ctx : Reassembly} (hphase : s.phase = .drain)
      (hnext : nextEvent s.events s.deadline = some (index, event)) :
      Moves scenario diagnose s
        (.running (LinuxL03.delivered diagnose index event ctx { s with now := event.dueMs }))
        (some ⟨s.attempt + 1, event.dueMs, s.deadline, .delivery event⟩)
  | finished {produced : Nat} {output : Bytes} (hphase : s.phase = .check)
      (hall : allAcknowledged s.acknowledged (chunkCount scenario) = true) :
      Moves scenario diagnose s
        (.returned .ok
          { s.result with reassembledLength := produced, virtualElapsedMs := s.now, finalState := s.state } output)
        none
  | again (hphase : s.phase = .check) (hopen : Open scenario s) :
      Moves scenario diagnose s
        (.running { s with now := s.deadline, rto := backoff s.rto, attempt := s.attempt + 1, phase := .attempt }) none

theorem moves_attempt (hphase : s.phase = .attempt) (turn : PairTurn) :
    Moves scenario diagnose s (stepAttempt scenario s) (observe scenario diagnose turn (.running s)) := by
  simp only [observe, hphase]
  unfold stepAttempt
  split
  · next hlt => exact .starts hphase hlt
  · next hge => exact .exhausted hphase hge

theorem moves_transmit {chunk : Nat} (hphase : s.phase = .transmit chunk) (turn : PairTurn) :
    Moves scenario diagnose s (stepTransmit scenario chunk s) (observe scenario diagnose turn (.running s)) := by
  simp only [observe, hphase]
  unfold stepTransmit
  by_cases hchunk : chunk < chunkCount scenario
  · rw [if_pos hchunk]
    by_cases hopen : s.acknowledged.getD chunk 0 = 0
    · have hboth : chunk < chunkCount scenario ∧ s.acknowledged.getD chunk 0 = 0 := ⟨hchunk, hopen⟩
      rw [if_neg (not_not.mpr hopen), if_pos hboth]
      dsimp only
      by_cases hdrop : (faultAt scenario s.faultIndex).action = .drop
      · rw [if_pos hdrop, queuedEvent, if_pos hdrop]
        exact .dropped hphase hchunk hopen hdrop
      · rw [if_neg hdrop, queuedEvent, if_neg hdrop]
        cases hdue : dueTime (faultAt scenario s.faultIndex) s.now s.rto with
        | none => exact .refused hphase hchunk hopen hdrop
        | some due =>
          dsimp only [Option.bind_some]
          rw [buildFrame_eq hchunk]
          rcases enqueue_spec hchunk s.events due s.eventOrder with hfull | ⟨index, hfree, hok⟩
          · rw [hfull]
            exact .refused hphase hchunk hopen hdrop
          · rw [hok]
            exact .queued hphase hchunk hopen hdrop hdue hfree
    · have hnot : ¬ (chunk < chunkCount scenario ∧ s.acknowledged.getD chunk 0 = 0) := fun h => hopen h.2
      rw [if_pos hopen, if_neg hnot]
      exact .skipped hphase hchunk hopen
  · have hnot : ¬ (chunk < chunkCount scenario ∧ s.acknowledged.getD chunk 0 = 0) := fun h => hchunk h.1
    rw [if_neg hchunk, if_neg hnot]
    exact .sent hphase hchunk

theorem moves_drain (h : Inv scenario s) (hphase : s.phase = .drain) (turn : PairTurn) :
    Moves scenario diagnose s (stepDrain scenario diagnose turn s)
      (observe scenario diagnose turn (.running s)) := by
  simp only [observe, hphase]
  unfold stepDrain deliveredEvent
  cases hnext : nextEvent s.events s.deadline with
  | none => exact .settled hphase hnext
  | some found =>
    obtain ⟨index, event⟩ := found
    obtain ⟨hslot, -⟩ := nextEvent_some hnext
    dsimp only [Option.bind_some]
    rcases deliver_spec diagnose (h.at_time event.dueMs) hslot turn with
      ⟨-, pair, hdeliver⟩ | ⟨-, ctx, hdeliver, -⟩
    · rw [hdeliver]
      exact .failed hphase
    · rw [hdeliver]
      exact .delivered hphase hnext

theorem moves_check (h : Inv scenario s) (hphase : s.phase = .check) (turn : PairTurn) :
    Moves scenario diagnose s (stepCheck scenario s) (observe scenario diagnose turn (.running s)) := by
  simp only [observe, hphase]
  unfold stepCheck
  split
  · next hall =>
    obtain ⟨ctx, hread⟩ := read_all h hall
    rw [hread]
    dsimp only
    rw [if_neg (by simp)]
    exact .finished hphase hall
  · next hopen => exact .again hphase (Bool.eq_false_iff.mpr hopen)

/-- **Step lemma.** The steps of the code are such moves. -/
theorem moves_step (h : Inv scenario s) (turn : PairTurn) :
    Moves scenario diagnose s (step scenario diagnose turn (.running s))
      (observe scenario diagnose turn (.running s)) := by
  cases hphase : s.phase with
  | attempt =>
    simp only [step, hphase]
    exact moves_attempt hphase turn
  | transmit chunk =>
    simp only [step, hphase]
    exact moves_transmit hphase turn
  | drain =>
    simp only [step, hphase]
    exact moves_drain h hphase turn
  | check =>
    simp only [step, hphase]
    exact moves_check h hphase turn

end TcpipCourse.LinuxL03
