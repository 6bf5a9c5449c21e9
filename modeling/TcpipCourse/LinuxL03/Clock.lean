import TcpipCourse.Lib.Backoff
import TcpipCourse.LinuxL03.Integrity

/-!
# Linux lab 03: the virtual clock

* `attemptStart`, `attemptRto` : when attempt `k` starts, and its timeout;
* `Timed` : the clock at every control point; `timed_step`, `timed_run` : it holds along every run;
* `Stuck` : the clock has reached `UINT64_MAX`, and a chunk is not acknowledged; `stuck_run` : from there no run
  returns `OK`.
-/

namespace TcpipCourse.LinuxL03
open Lib L07

/-! ## Attempts -/

def attemptStart (scenario : Scenario) (k : Nat) : Nat := roundStart uint64Max scenario.initialRtoMs.toNat k

def attemptRto (scenario : Scenario) (k : Nat) : Nat := interval uint64Max scenario.initialRtoMs.toNat k

theorem deadlineAfter_eq {now rto : Nat} (h : now ≤ uint64Max) : deadlineAfter now rto = min uint64Max (now + rto) := by
  unfold deadlineAfter
  split <;> omega

theorem backoff_eq {rto : Nat} (h : rto ≤ uint64Max) : backoff rto = min uint64Max (2 * rto) := by
  have hmax : uint64Max = 18446744073709551615 := rfl
  unfold backoff
  split <;> omega

theorem attemptStart_le (scenario : Scenario) (k : Nat) : attemptStart scenario k ≤ uint64Max := roundStart_le

theorem attemptRto_le (scenario : Scenario) (k : Nat) : attemptRto scenario k ≤ uint64Max := interval_le

theorem deadlineAfter_attempt (scenario : Scenario) (k : Nat) :
    deadlineAfter (attemptStart scenario k) (attemptRto scenario k) = attemptStart scenario (k + 1) := by
  rw [deadlineAfter_eq (attemptStart_le scenario k)]
  exact roundStart_succ.symm

theorem backoff_attempt (scenario : Scenario) (k : Nat) :
    backoff (attemptRto scenario k) = attemptRto scenario (k + 1) := by
  rw [backoff_eq (attemptRto_le scenario k)]
  exact interval_succ.symm

theorem rto_pos {scenario : Scenario} (h : validate scenario = .ok) : 0 < scenario.initialRtoMs.toNat := by
  unfold validate at h
  split at h
  · cases h
  · next hvalid =>
    refine Nat.pos_of_ne_zero fun hzero => hvalid ?_
    exact .inr (.inr (.inr (.inr (.inl (UInt64.toNat_inj.mp hzero)))))

theorem chunkCount_pos {scenario : Scenario} (h : validate scenario = .ok) : 0 < chunkCount scenario := by
  have := (validate_ok h).1
  unfold chunkCount chunkPayload
  omega

/-! ## The clock of a run -/

variable {ρ : Type} {scenario : Scenario} {diagnose : Bytes → ρ} {s : State ρ}

/-- Every queued event is due at `time` or later. -/
def DueFrom (time : Nat) (events : EventTable) : Prop := ∀ event, some event ∈ events.slots → time ≤ event.dueMs

def Open (scenario : Scenario) (s : State ρ) : Prop :=
  allAcknowledged s.acknowledged (chunkCount scenario) = false

theorem open_iff : Open scenario s ↔ ∃ chunk < chunkCount scenario, s.acknowledged.getD chunk 0 = 0 := by
  simp [Open, allAcknowledged]

/-- What the clock, the deadline and the event table have to do with each other at a control point. -/
def TimedAt (scenario : Scenario) (s : State ρ) : Phase → Prop
  | .attempt => s.now = attemptStart scenario s.attempt ∧ DueFrom s.now s.events ∧ Open scenario s
  | .transmit _ =>
    s.now = attemptStart scenario s.attempt ∧ s.deadline = attemptStart scenario (s.attempt + 1) ∧ Open scenario s
  | .drain => s.deadline = attemptStart scenario (s.attempt + 1)
  | .check => s.deadline = attemptStart scenario (s.attempt + 1) ∧ DueFrom s.deadline s.events

structure Timed (scenario : Scenario) (s : State ρ) : Prop where
  rto : s.rto = attemptRto scenario s.attempt
  clock : TimedAt scenario s s.phase

def Config.Timed (scenario : Scenario) : Config ρ → Prop
  | .running s => LinuxL03.Timed scenario s
  | .returned _ _ _ => True

/-- Nothing is due: the drain loop has delivered everything that is due before the deadline. -/
theorem nextEvent_none {events : EventTable} {deadline : Nat} (h : nextEvent events deadline = none) :
    DueFrom deadline events := by
  intro event hmem
  have hview := scanBest_none _ _ h _ hmem
  rw [Option.filter_eq_none_iff] at hview
  simpa using hview event rfl

theorem nextEvent_eq_none {events : EventTable} {deadline : Nat} (h : DueFrom deadline events) :
    nextEvent events deadline = none := by
  cases hnext : nextEvent events deadline with
  | none => rfl
  | some found =>
    obtain ⟨hslot, hdue⟩ := nextEvent_some hnext
    have := h found.2 (List.mem_of_getElem? hslot)
    omega

theorem stepAttempt_timed (h : Timed scenario s) (hphase : s.phase = .attempt) :
    (stepAttempt scenario s).Timed scenario := by
  have hclock := h.clock
  rw [hphase] at hclock
  obtain ⟨hnow, -, hopen⟩ := hclock
  unfold stepAttempt
  split
  · refine ⟨h.rto, hnow, ?_, hopen⟩
    show deadlineAfter s.now s.rto = _
    rw [hnow, h.rto, deadlineAfter_attempt]
  · trivial

theorem stepTransmit_timed {chunk : Nat} (h : Timed scenario s) (hphase : s.phase = .transmit chunk) :
    (stepTransmit scenario chunk s).Timed scenario := by
  have hclock := h.clock
  rw [hphase] at hclock
  have hspec := stepTransmit_spec scenario chunk s
  generalize stepTransmit scenario chunk s = c at hspec ⊢
  cases hspec with
  | done => exact ⟨h.rto, hclock.2.1⟩
  | skipped | dropped | queued => exact ⟨h.rto, hclock⟩
  | late | full => trivial

theorem stepDrain_timed (hinv : Inv scenario s) (h : Timed scenario s) (hphase : s.phase = .drain) (turn : PairTurn) :
    (stepDrain scenario diagnose turn s).Timed scenario := by
  have hclock := h.clock
  rw [hphase] at hclock
  have hspec : Drains scenario diagnose turn s _ := stepDrain_spec hinv turn
  generalize stepDrain scenario diagnose turn s = c at hspec ⊢
  cases hspec with
  | settled hnone => exact ⟨h.rto, hclock, nextEvent_none hnone⟩
  | failed => trivial
  | delivered =>
    refine ⟨h.rto, ?_⟩
    show TimedAt scenario _ s.phase
    rw [hphase]
    exact hclock

theorem stepCheck_timed (h : Timed scenario s) (hphase : s.phase = .check) : (stepCheck scenario s).Timed scenario := by
  have hclock := h.clock
  rw [hphase] at hclock
  obtain ⟨hdeadline, hdue⟩ := hclock
  unfold stepCheck
  split
  · dsimp only
    split <;> trivial
  · next hopen =>
    refine ⟨?_, hdeadline, hdue, Bool.eq_false_iff.mpr hopen⟩
    show backoff s.rto = _
    rw [h.rto, backoff_attempt]

/-- **Step lemma.** -/
theorem timed_step (turn : PairTurn) {c : Config ρ} (hsound : c.Sound scenario) (h : c.Timed scenario) :
    (step scenario diagnose turn c).Timed scenario := by
  cases c with
  | returned status result output => trivial
  | running s =>
    unfold step
    dsimp only
    split
    · next hphase => exact stepAttempt_timed h hphase
    · next chunk hphase => exact stepTransmit_timed h hphase
    · next hphase => exact stepDrain_timed hsound h hphase turn
    · next hphase => exact stepCheck_timed h hphase

theorem start_timed (env : Environment) : (start (ρ := ρ) scenario env).Timed scenario := by
  rcases start_cases (ρ := ρ) scenario env with ⟨status, result, -, hstart⟩ | ⟨s, hinitial, hstart⟩
  · rw [hstart]
    trivial
  · have hcount := chunkCount_pos hinitial.validated
    have hrto : scenario.initialRtoMs.toNat ≤ uint64Max := Nat.le_of_lt_succ scenario.initialRtoMs.toNat_lt
    rw [hstart]
    refine ⟨?_, ?_⟩
    · rw [hinitial.rto, hinitial.attempt]
      exact (interval_zero hrto).symm
    · rw [hinitial.phase]
      refine ⟨?_, fun event _ => ?_, open_iff.mpr ⟨0, hcount, ?_⟩⟩
      · rw [hinitial.now, hinitial.attempt]
        exact roundStart_zero.symm
      · rw [hinitial.now]
        exact Nat.zero_le _
      · rw [hinitial.acknowledged]
        rfl

/-- **Run lemma.** -/
theorem timed_run (env : Environment) (turns : List PairTurn) :
    (run scenario diagnose env turns).Timed scenario := by
  have hstep : ∀ (c : Config ρ) turn, (c.Sound scenario ∧ c.Timed scenario) →
      ((miniStack scenario diagnose).next c turn).Sound scenario ∧
        ((miniStack scenario diagnose).next c turn).Timed scenario :=
    fun c turn h => ⟨step_sound turn h.1, timed_step turn h.1 h.2⟩
  exact ((miniStack scenario diagnose).run_invariant hstep ⟨start_sound env, start_timed env⟩ turns).2

/-! ## The clock at its limit -/

/-- The clock and the deadline have met at `UINT64_MAX`, so that no event is due before the deadline. -/
structure Stuck (scenario : Scenario) (s : State ρ) : Prop where
  now : s.now = uint64Max
  deadline : s.phase ≠ .attempt → s.deadline = uint64Max
  due : DueFrom uint64Max s.events
  chunk : Open scenario s

def Config.Stuck (scenario : Scenario) : Config ρ → Prop
  | .running s => LinuxL03.Stuck scenario s
  | .returned status _ _ => status ≠ .ok

theorem dueFrom_set {time index : Nat} {events : EventTable} {slot : Option Event} (h : DueFrom time events)
    (hslot : ∀ event, slot = some event → time ≤ event.dueMs) : DueFrom time (events.set index slot) := by
  intro event hmem
  rcases mem_set_slot hmem with hold | hnew
  · exact h event hold
  · exact hslot event hnew

/-- A transmission is never due before it is made. -/
theorem dueTime_ge {fault : Fault} {now rto due : Nat} (h : dueTime fault now rto = some due) : now ≤ due := by
  unfold dueTime at h
  split at h
  · split at h
    · cases h
    · cases h
      exact Nat.le_add_right _ _
  · generalize (if rto > 1 then rto / 2 else 1) = offset at h
    dsimp only at h
    split at h
    · cases h
    · cases h
      exact Nat.le_add_right _ _
  · cases h
    exact Nat.le_refl _
  · cases h
    exact Nat.le_refl _

theorem stepAttempt_stuck (h : Stuck scenario s) : (stepAttempt scenario s).Stuck scenario := by
  unfold stepAttempt
  split
  · refine { h with deadline := fun _ => ?_ }
    show deadlineAfter s.now s.rto = uint64Max
    rw [h.now, deadlineAfter_eq (Nat.le_refl _)]
    omega
  · exact Status.noConfusion

theorem stepTransmit_stuck {chunk : Nat} (hphase : s.phase = .transmit chunk) (h : Stuck scenario s) :
    (stepTransmit scenario chunk s).Stuck scenario := by
  have hdeadline := h.deadline (by simp [hphase])
  have hspec := stepTransmit_spec scenario chunk s
  generalize stepTransmit scenario chunk s = c at hspec ⊢
  cases hspec with
  | done | skipped | dropped => exact { h with deadline := fun _ => hdeadline }
  | late | full => exact Status.noConfusion
  | queued hchunk hopen hdrop hdue =>
    refine { h with deadline := fun _ => hdeadline, due := dueFrom_set h.due fun event hevent => ?_ }
    cases hevent
    have := dueTime_ge hdue
    rwa [h.now] at this

theorem stepDrain_stuck (hphase : s.phase = .drain) (h : Stuck scenario s) (turn : PairTurn) :
    (stepDrain scenario diagnose turn s).Stuck scenario := by
  have hdeadline := h.deadline (by simp [hphase])
  have hnone : nextEvent s.events s.deadline = none := by
    rw [hdeadline]
    exact nextEvent_eq_none h.due
  unfold stepDrain
  rw [hnone]
  exact { h with deadline := fun _ => hdeadline }

theorem stepCheck_stuck (hphase : s.phase = .check) (h : Stuck scenario s) : (stepCheck scenario s).Stuck scenario := by
  have hdeadline := h.deadline (by simp [hphase])
  unfold stepCheck
  rw [if_neg (Bool.eq_false_iff.mp h.chunk)]
  exact { h with now := hdeadline, deadline := fun hne => absurd rfl hne }

/-- **Step lemma.** -/
theorem stuck_step (turn : PairTurn) {c : Config ρ} (h : c.Stuck scenario) :
    (step scenario diagnose turn c).Stuck scenario := by
  cases c with
  | returned status result output => exact h
  | running s =>
    unfold step
    dsimp only
    split
    · exact stepAttempt_stuck h
    · next chunk hphase => exact stepTransmit_stuck hphase h
    · next hphase => exact stepDrain_stuck hphase h turn
    · next hphase => exact stepCheck_stuck hphase h

/-- **Run lemma.** -/
theorem stuck_run (h : Stuck scenario s) (turns : List PairTurn) :
    ((miniStack scenario diagnose).run (.running s) turns).Stuck scenario := by
  have hstep : ∀ (c : Config ρ) turn, c.Stuck scenario →
      ((miniStack scenario diagnose).next c turn).Stuck scenario := fun _ turn hc => stuck_step turn hc
  have hs : (Config.running s).Stuck scenario := h
  exact (miniStack scenario diagnose).run_invariant hstep hs turns

/-- An attempt that starts when the clock is at its limit starts stuck. -/
theorem Timed.stuck (h : Timed scenario s) (hphase : s.phase = .attempt) (hnow : uint64Max ≤ s.now) :
    Stuck scenario s := by
  have hclock := h.clock
  rw [hphase] at hclock
  obtain ⟨hstart, hdue, hopen⟩ := hclock
  have hle := attemptStart_le scenario s.attempt
  have hmax : s.now = uint64Max := by omega
  exact ⟨hmax, fun hne => absurd hphase hne, hmax ▸ hdue, hopen⟩

end TcpipCourse.LinuxL03
