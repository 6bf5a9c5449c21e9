import TcpipCourse.LinuxL03.Progress

/-!
# Linux lab 03: which timeouts make progress

A timeout that is too large for its script: `n` actions that drop everything double it until the virtual clock
saturates, and the attempt that would deliver has an empty window.

* `dropScenario` : that script; `Dropping` : one chunk, still missing, and nothing queued;
* `dropping_step`, `drop_stalled` : the run does not return `OK`;
* `miniStack_progress` : a run returns `OK` exactly if every attempt starts below `UINT64_MAX`, and every run with
  `n` actions does so exactly if `initialRtoMs * (2 ^ n - 1) < UINT64_MAX`.
-/

namespace TcpipCourse.LinuxL03
open Lib L07

/-! ## The script -/

/-- One byte, `n` dropped transmissions, and an attempt more. -/
def dropScenario (rto : UInt64) (n : Nat) : Scenario where
  payload := [33]
  output := [0]
  routes := [⟨Vector.replicate 4 0, 0, 1⟩]
  sourceIpv4 := Vector.replicate 4 10
  destinationIpv4 := Vector.replicate 4 20
  sourcePort := 40000
  destinationPort := 443
  senderInitialSeq := 0
  receiverInitialSeq := 0
  initialRtoMs := rto
  maxAttempts := n + 1
  faults := List.replicate n ⟨.drop, 0⟩

variable {ρ : Type} {diagnose : Bytes → ρ} {rto : UInt64} {n : Nat}

theorem chunkCount_drop : chunkCount (dropScenario rto n) = 1 := by
  show (1 + chunkPayload - 1) / chunkPayload = 1
  decide

theorem faultAt_drop {faultIndex : Nat} (h : faultIndex < n) :
    faultAt (dropScenario rto n) faultIndex = ⟨.drop, 0⟩ := by
  have hlt : faultIndex < (List.replicate n (⟨.drop, 0⟩ : Fault)).length := by
    rw [List.length_replicate]
    exact h
  unfold faultAt dropScenario
  rw [List.getD_eq_getElem _ _ hlt, List.getElem_replicate]

theorem faults_drop : (dropScenario rto n).faults.length = n := List.length_replicate

theorem drops : ∀ fault ∈ (dropScenario rto n).faults, fault.action = .deliver ∨ fault.action = .drop := by
  intro fault hmem
  rw [List.eq_of_mem_replicate hmem]
  exact .inr rfl

theorem eligible_drop (hrto : rto ≠ 0) (hn : n ≤ maxFaultActions) (scratch : Nat → UInt8) :
    Eligible (dropScenario rto n) ⟨true, scratch⟩ where
  valid := by
    have hfaults : (dropScenario rto n).faults.length = n := faults_drop
    unfold validate
    rw [hfaults, if_neg, if_neg]
    · exact Nat.not_lt.mpr (Nat.le_refl 1)
    · have hlength : ¬ 1 > maxPayload := by decide
      have hsource : (40000 : UInt16) ≠ 0 := by decide
      have hdestination : (443 : UInt16) ≠ 0 := by decide
      rintro (h | h | h | h | h | h | h)
      · cases h
      · exact hlength h
      · omega
      · cases h
      · exact hrto h
      · exact hsource h
      · exact hdestination h
  route := by
    have hroute : L11.longestPrefix [⟨Vector.replicate 4 0, 0, 1⟩] (Vector.replicate 4 20) = .ok 0 := by decide
    exact ⟨0, hroute⟩
  attempts := by
    rw [faults_drop]
    exact Nat.lt_succ_self n
  paired := rfl

/-! ## The run -/

/-- How far the script can be, at a control point. -/
def scriptLimit (attempt : Nat) : Phase → Nat
  | .attempt | .transmit 0 => attempt
  | .transmit (_ + 1) | .drain | .check => attempt + 1

theorem scriptLimit_le {attempt : Nat} {phase : Phase} : scriptLimit attempt phase ≤ attempt + 1 := by
  unfold scriptLimit
  split <;> omega

/-- The chunk is missing, nothing is queued, and the next transmission is dropped. -/
structure Dropping {ρ : Type} (n : Nat) (s : State ρ) : Prop where
  attempt_lt : s.attempt < n
  index : s.faultIndex ≤ scriptLimit s.attempt s.phase
  empty : ∀ event, some event ∉ s.events.slots
  missing : s.acknowledged.getD 0 0 = 0

/-- Dropping, until the clock is at its limit. -/
def Config.Stalled (scenario : Scenario) (n : Nat) : Config ρ → Prop
  | .running s => Dropping n s ∨ LinuxL03.Stuck scenario s
  | .returned status _ _ => status ≠ .ok

theorem Config.Stuck.stalled {scenario : Scenario} {c : Config ρ} (h : c.Stuck scenario) : c.Stalled scenario n := by
  cases c with
  | returned status result output => exact h
  | running s => exact .inr h

section Step
variable {s : State ρ}

theorem stepAttempt_dropping (hphase : s.phase = .attempt) (h : Dropping n s) :
    (stepAttempt (dropScenario rto n) s).Stalled (dropScenario rto n) n := by
  have hindex := h.index
  rw [hphase] at hindex
  have hlt : s.attempt < (dropScenario rto n).maxAttempts := Nat.lt_succ_of_lt h.attempt_lt
  unfold stepAttempt
  rw [if_pos hlt]
  exact .inl { h with index := hindex }

theorem stepTransmit_dropping {chunk : Nat} (hphase : s.phase = .transmit chunk) (h : Dropping n s) :
    (stepTransmit (dropScenario rto n) chunk s).Stalled (dropScenario rto n) n := by
  have hindex := h.index
  rw [hphase] at hindex
  have hfirst : chunk < chunkCount (dropScenario rto n) → chunk = 0 := by
    rw [chunkCount_drop]
    exact Nat.lt_one_iff.mp
  have hdropped : chunk = 0 → faultAt (dropScenario rto n) s.faultIndex = ⟨.drop, 0⟩ := by
    rintro rfl
    exact faultAt_drop (Nat.lt_of_le_of_lt hindex h.attempt_lt)
  have hspec := stepTransmit_spec (dropScenario rto n) chunk s
  generalize stepTransmit (dropScenario rto n) chunk s = c at hspec ⊢
  cases hspec with
  | done => exact .inl { h with index := Nat.le_trans hindex scriptLimit_le }
  | skipped hchunk hack =>
    obtain rfl := hfirst hchunk
    exact absurd h.missing hack
  | dropped hchunk =>
    obtain rfl := hfirst hchunk
    exact .inl { h with index := Nat.succ_le_succ hindex }
  | late hchunk hopen hdrop | full hchunk hopen hdrop | queued hchunk hopen hdrop =>
    rw [hdropped (hfirst hchunk)] at hdrop
    exact absurd rfl hdrop

theorem stepDrain_dropping (hphase : s.phase = .drain) (h : Dropping n s) (turn : PairTurn) :
    (stepDrain (dropScenario rto n) diagnose turn s).Stalled (dropScenario rto n) n := by
  have hindex := h.index
  rw [hphase] at hindex
  have hnone : nextEvent s.events s.deadline = none :=
    nextEvent_eq_none fun event hmem => absurd hmem (h.empty event)
  unfold stepDrain
  rw [hnone]
  exact .inl { h with index := hindex }

/-- The script is used up as the clock saturates. -/
theorem stepCheck_dropping (hlimit : uint64Max ≤ rto.toNat * (2 ^ n - 1)) (htimed : Timed (dropScenario rto n) s)
    (hphase : s.phase = .check) (h : Dropping n s) :
    (stepCheck (dropScenario rto n) s).Stalled (dropScenario rto n) n := by
  have hindex := h.index
  rw [hphase] at hindex
  have hopen : Open (dropScenario rto n) s := open_iff.mpr ⟨0, by rw [chunkCount_drop]; exact Nat.one_pos, h.missing⟩
  have hnext := stepCheck_timed htimed hphase
  unfold stepCheck at hnext ⊢
  rw [if_neg (Bool.eq_false_iff.mp hopen)] at hnext ⊢
  by_cases hlast : s.attempt + 1 < n
  · exact .inl { h with attempt_lt := hlast, index := hindex }
  · have hn : s.attempt + 1 = n := Nat.le_antisymm h.attempt_lt (Nat.le_of_not_lt hlast)
    refine .inr (Timed.stuck hnext rfl ?_)
    have hclock := hnext.clock.1
    rw [hclock]
    show uint64Max ≤ attemptStart (dropScenario rto n) (s.attempt + 1)
    rw [hn]
    exact Nat.le_of_not_lt fun hlt => absurd (roundStart_lt_iff.mp hlt) (Nat.not_lt.mpr hlimit)

/-- **Step lemma.** -/
theorem dropping_step (hlimit : uint64Max ≤ rto.toNat * (2 ^ n - 1)) (turn : PairTurn) {c : Config ρ}
    (htimed : c.Timed (dropScenario rto n)) (h : c.Stalled (dropScenario rto n) n) :
    (step (dropScenario rto n) diagnose turn c).Stalled (dropScenario rto n) n := by
  cases c with
  | returned status result output => exact h
  | running s =>
    rcases h with hdrop | hstuck
    · unfold step
      dsimp only
      split
      · next hphase => exact stepAttempt_dropping hphase hdrop
      · next chunk hphase => exact stepTransmit_dropping hphase hdrop
      · next hphase => exact stepDrain_dropping hphase hdrop turn
      · next hphase => exact stepCheck_dropping hlimit htimed hphase hdrop
    · have hs : (Config.running s).Stuck (dropScenario rto n) := hstuck
      exact (stuck_step turn hs).stalled

end Step

/-- **Run lemma.** -/
theorem drop_stalled (hrto : rto ≠ 0) (hn : n ≤ maxFaultActions) (hlimit : uint64Max ≤ rto.toNat * (2 ^ n - 1))
    (scratch : Nat → UInt8) (turns : List PairTurn) :
    (run (dropScenario rto n) diagnose ⟨true, scratch⟩ turns).Stalled (dropScenario rto n) n := by
  have hpos : 0 < n := by
    refine Nat.pos_of_ne_zero ?_
    rintro rfl
    exact absurd hlimit (by simp [uint64Max])
  have hstart : (start (ρ := ρ) (dropScenario rto n) ⟨true, scratch⟩).Stalled (dropScenario rto n) n := by
    obtain ⟨s, hinitial, hs⟩ := start_running (ρ := ρ) (eligible_drop hrto hn scratch)
    rw [hs]
    exact .inl
      { attempt_lt := hinitial.attempt ▸ hpos
        index := by rw [hinitial.faultIndex]; exact Nat.zero_le _
        empty := fun event hmem => by
          rw [hinitial.events] at hmem
          cases List.eq_of_mem_replicate hmem
        missing := by rw [hinitial.acknowledged]; rfl }
  have hstep : ∀ (c : Config ρ) turn,
      (c.Sound (dropScenario rto n) ∧ c.Timed (dropScenario rto n) ∧ c.Stalled (dropScenario rto n) n) →
      ((miniStack (dropScenario rto n) diagnose).next c turn).Sound (dropScenario rto n) ∧
        ((miniStack (dropScenario rto n) diagnose).next c turn).Timed (dropScenario rto n) ∧
        ((miniStack (dropScenario rto n) diagnose).next c turn).Stalled (dropScenario rto n) n :=
    fun c turn h => ⟨step_sound turn h.1, timed_step turn h.1 h.2.1, dropping_step hlimit turn h.2.1 h.2.2⟩
  exact ((miniStack (dropScenario rto n) diagnose).run_invariant hstep
    ⟨start_sound _, start_timed _, hstart⟩ turns).2.2

/-! ## Progress -/

/-- **Main result.** With a pair that carries every datagram, and no transmission that is due past `UINT64_MAX`:
a run with an attempt more than the script has actions returns `OK` exactly if every attempt starts below
`UINT64_MAX`. For a timeout and a number of actions, every such run does exactly if `n` doublings of the timeout
stay below `UINT64_MAX`. -/
theorem miniStack_progress (diagnose : Bytes → ρ) :
    (∀ scenario env turns, Eligible scenario env → Reliable scenario turns →
      Schedulable scenario diagnose env turns →
      ((∃ result output, run scenario diagnose env turns = .returned .ok result output) ↔
        ∀ k, Windowed scenario (run scenario diagnose env (turns.take k)))) ∧
    ∀ rto : UInt64, rto ≠ 0 → ∀ n ≤ maxFaultActions,
      ((∀ scenario env turns, scenario.initialRtoMs = rto → scenario.faults.length = n → Eligible scenario env →
        Reliable scenario turns → Schedulable scenario diagnose env turns →
        ∃ result output, run scenario diagnose env turns = .returned .ok result output) ↔
        rto.toNat * (2 ^ n - 1) < uint64Max) := by
  refine ⟨fun scenario env turns hel hrel hsched => ⟨windowed_of_ok, ok_of_windowed hel hrel hsched⟩,
    fun rto hrto n hn => ⟨fun hall => ?_, ?_⟩⟩
  · by_contra hlimit
    have hel := eligible_drop hrto hn fun _ => 0
    have hrel := reliable_replicate (Nat.le_refl (stepBound (dropScenario rto n)))
    obtain ⟨result, output, hok⟩ := hall _ _ _ rfl faults_drop hel hrel (schedulable_of_immediate drops)
    have hstalled : (run (dropScenario rto n) diagnose ⟨true, fun _ => 0⟩
        (List.replicate (stepBound (dropScenario rto n)) ⟨true, true⟩)).Stalled (dropScenario rto n) n :=
      drop_stalled hrto hn (Nat.le_of_not_lt hlimit) _ _
    rw [hok] at hstalled
    exact hstalled rfl
  · rintro hsmall scenario env turns rfl rfl hel hrel hsched
    exact ok_of_small hel hrel hsched hsmall

theorem miniStack_progress_retry :
    (∃ result output, run retryScenario List.length ⟨true, fun _ => 7⟩ (List.replicate 134 ⟨true, true⟩) =
      .returned .ok result output) ∧
    ∀ k, Windowed retryScenario
      (run retryScenario List.length ⟨true, fun _ => 7⟩ ((List.replicate 134 ⟨true, true⟩).take k)) := by
  have hel : Eligible retryScenario ⟨true, fun _ => 7⟩ := ⟨by decide, ⟨0, by decide⟩, by decide, rfl⟩
  have hrel : Reliable retryScenario (List.replicate 134 ⟨true, true⟩) := reliable_replicate (by decide)
  have hsched : Schedulable retryScenario List.length ⟨true, fun _ => 7⟩ (List.replicate 134 ⟨true, true⟩) :=
    schedulable_of_immediate (by decide)
  obtain ⟨hexact, hsmall⟩ := miniStack_progress List.length
  have hok := (hsmall 100 (by decide) 2 (by decide)).mpr (by decide) _ _ _ rfl rfl hel hrel hsched
  exact ⟨hok, (hexact _ _ _ hel hrel hsched).mp hok⟩

/-- The largest timeout and one dropped transmission: the second attempt starts at its own deadline. -/
theorem miniStack_progress_saturated :
    Eligible (dropScenario 0xffffffffffffffff 1) ⟨true, fun _ => 7⟩ ∧
    Reliable (dropScenario 0xffffffffffffffff 1) (List.replicate 90 ⟨true, true⟩) ∧
    Schedulable (dropScenario 0xffffffffffffffff 1) List.length ⟨true, fun _ => 7⟩
      (List.replicate 90 ⟨true, true⟩) ∧
    run (dropScenario 0xffffffffffffffff 1) List.length ⟨true, fun _ => 7⟩ (List.replicate 90 ⟨true, true⟩) =
      .returned .retryExhausted ⟨0, 0xffffffffffffffff, 2, 1, .established, 0, none⟩ [0] := by
  refine ⟨eligible_drop (by decide) (by decide) _, reliable_replicate (by decide),
    schedulable_of_immediate drops, ?_⟩
  decide +kernel

end TcpipCourse.LinuxL03
