import Mathlib.Data.Prod.Lex
import TcpipCourse.LinuxL03.History

/-!
# Linux lab 03: what a run takes

* `eventKey` : events are ordered by due time and then by insertion; `nextEvent_least` : the event loop takes the
  first one;
* `Paced` : the clock inside an attempt, and the attempts of the result; `paced_moves`, `onTime_run`;
* `notBefore_run` : the clock never runs back;
* `Counted` : the transmissions of a run, and the retransmissions of the result.
-/

namespace TcpipCourse.LinuxL03
open Lib L07

/-! ## The first event -/

def eventKey (event : Event) : ℕ ×ₗ ℕ := toLex (event.dueMs, event.order)

theorem eventKey_lt_iff {a b : Event} :
    eventKey a < eventKey b ↔ a.dueMs < b.dueMs ∨ a.dueMs = b.dueMs ∧ a.order < b.order := by
  rw [eventKey, eventKey, Prod.Lex.toLex_lt_toLex]

theorem eventKey_le_iff {a b : Event} :
    eventKey a ≤ eventKey b ↔ a.dueMs < b.dueMs ∨ a.dueMs = b.dueMs ∧ a.order ≤ b.order := by
  rw [eventKey, eventKey, Prod.Lex.toLex_le_toLex]

theorem isEarlier_iff (a b : Event) : isEarlier a b = true ↔ eventKey a < eventKey b := by
  rw [eventKey_lt_iff]
  simp [isEarlier]

section Table
variable {events : EventTable} {deadline index : Nat} {event other : Event}

theorem nextEvent_least (h : nextEvent events deadline = some (index, event)) (hmem : some other ∈ events.slots) :
    eventKey event ≤ eventKey other := by
  by_cases hdue : other.dueMs < deadline
  · obtain ⟨j, hget⟩ := List.mem_iff_getElem?.mp hmem
    apply (scanBest_firstLeast isEarlier isEarlier_iff h).least j
    exact ⟨some other, hget, by simp [Option.filter_some, hdue]⟩
  · have hbefore := (nextEvent_some h).2
    exact eventKey_le_iff.mpr (.inl (by omega))

theorem nextEvent_dueMs_le (h : nextEvent events deadline = some (index, event)) (hmem : some other ∈ events.slots) :
    event.dueMs ≤ other.dueMs := by
  have hle := eventKey_le_iff.mp (nextEvent_least h hmem)
  omega

end Table

/-! ## The clock -/

variable {ρ : Type} {scenario : Scenario} {diagnose : Bytes → ρ} {s : State ρ}

/-- The attempts that the result counts, and where the clock stands in the current one. -/
structure Paced (scenario : Scenario) (s : State ρ) : Prop where
  limit : s.attempt ≤ scenario.maxAttempts
  attempts : s.result.attempts = if s.phase = .attempt then s.attempt else s.attempt + 1
  started : attemptStart scenario s.attempt ≤ s.now
  due : s.phase ≠ .check → DueFrom s.now s.events
  window : s.phase = .drain ∨ s.phase = .check → s.now ≤ s.deadline ∧ (Open scenario s ∨ s.now < s.deadline)

/-- A run that returned has used up its attempts, or it has returned within one. -/
def Config.Paced (scenario : Scenario) : Config ρ → Prop
  | .running s => LinuxL03.Paced scenario s
  | .returned status result _ =>
    (status = .retryExhausted → result.attempts = scenario.maxAttempts ∧
      result.virtualElapsedMs = attemptStart scenario scenario.maxAttempts) ∧
    (status = .ok → 1 ≤ result.attempts ∧ attemptStart scenario (result.attempts - 1) ≤ result.virtualElapsedMs ∧
      result.virtualElapsedMs < attemptStart scenario result.attempts)

theorem paced_of_ne {status : Status} {result : Result ρ} {output : Bytes} (hexhausted : status ≠ .retryExhausted)
    (hok : status ≠ .ok) : Config.Paced scenario (.returned status result output) :=
  ⟨fun h => absurd h hexhausted, fun h => absurd h hok⟩

theorem attemptStart_le_succ (scenario : Scenario) (k : Nat) :
    attemptStart scenario k ≤ attemptStart scenario (k + 1) := roundStart_mono (Nat.le_succ k)

/-- **Step lemma.** -/
theorem paced_moves (hinv : Inv scenario s) (htimed : Timed scenario s) (h : Paced scenario s) {c : Config ρ}
    {entry : Option Entry} (hmoves : Moves scenario diagnose s c entry) : c.Paced scenario := by
  have hattempts := h.attempts
  have hclock := htimed.clock
  cases hmoves with
  | starts hphase hlt =>
    exact { h with
      attempts := rfl
      due := fun _ => h.due (by simp [hphase])
      window := by simp }
  | exhausted hphase hge =>
    rw [hphase] at hattempts hclock
    have hmax : s.attempt = scenario.maxAttempts := Nat.le_antisymm h.limit (Nat.le_of_not_lt hge)
    refine ⟨fun _ => ⟨hattempts.trans hmax, ?_⟩, fun hok => Status.noConfusion hok⟩
    rw [← hmax]
    exact hclock.1
  | sent hphase hchunk =>
    rw [hphase] at hattempts hclock
    obtain ⟨hnow, hdeadline, hopen⟩ := hclock
    have hle := attemptStart_le_succ scenario s.attempt
    exact { h with
      attempts := hattempts
      due := fun _ => h.due (by simp [hphase])
      window := fun _ => ⟨by show s.now ≤ s.deadline; omega, .inl hopen⟩ }
  | skipped hphase | dropped hphase =>
    rw [hphase] at hattempts
    exact { h with
      attempts := hattempts
      due := fun _ => h.due (by simp [hphase])
      window := by simp }
  | refused hphase => exact paced_of_ne Status.noConfusion Status.noConfusion
  | queued hphase hchunk hopen hdrop hdue hfree =>
    rw [hphase] at hattempts
    exact { h with
      attempts := hattempts
      due := fun _ => dueFrom_set (h.due (by simp [hphase])) fun event hevent => by
        cases hevent
        exact dueTime_ge hdue
      window := by simp }
  | settled hphase =>
    rw [hphase] at hattempts
    exact { h with
      attempts := hattempts
      due := fun hne => absurd rfl hne
      window := fun _ => h.window (.inl hphase) }
  | failed hphase => exact paced_of_ne Status.noConfusion Status.noConfusion
  | @delivered index event ctx hphase hnext =>
    obtain ⟨hslot, hbefore⟩ := nextEvent_some hnext
    have hnow : s.now ≤ event.dueMs := h.due (by simp [hphase]) event (List.mem_of_getElem? hslot)
    exact { h with
      attempts := hattempts
      started := Nat.le_trans h.started hnow
      due := fun _ other hmem => by
        rcases mem_set_slot hmem with hold | hnew
        · exact nextEvent_dueMs_le hnext hold
        · cases hnew
      window := fun _ => ⟨Nat.le_of_lt hbefore, .inr hbefore⟩ }
  | finished hphase hall =>
    rw [hphase] at hattempts hclock
    have hattempts : s.result.attempts = s.attempt + 1 := hattempts
    refine ⟨fun hexhausted => Status.noConfusion hexhausted, fun _ => ?_⟩
    have hbefore : s.now < s.deadline := by
      refine (h.window (.inr hphase)).2.resolve_left fun hopen => ?_
      rw [Open, hall] at hopen
      cases hopen
    dsimp only
    rw [hattempts, Nat.add_sub_cancel]
    exact ⟨Nat.succ_pos _, h.started, hclock.1 ▸ hbefore⟩
  | again hphase hopen =>
    rw [hphase] at hattempts hclock
    obtain ⟨hdeadline, hdue⟩ := hclock
    exact
      { limit := hinv.attempt_lt (by simp [hphase])
        attempts := hattempts
        started := Nat.le_of_eq hdeadline.symm
        due := fun _ => hdue
        window := by simp }

theorem validate_ne_exhausted (scenario : Scenario) : validate scenario ≠ .retryExhausted := by
  unfold validate
  split
  · exact Status.noConfusion
  · split <;> exact Status.noConfusion

/-- No attempt has been made, and nothing has been sent. -/
def Config.Unstarted : Config ρ → Prop
  | .running s => s.result.attempts = 0 ∧ s.result.retransmits = 0 ∧ s.eventOrder = 0
  | .returned status _ _ => status ≠ .retryExhausted

theorem start_unstarted (env : Environment) : (start (ρ := ρ) scenario env).Unstarted := by
  unfold start
  split
  · exact validate_ne_exhausted scenario
  · split
    · exact Status.noConfusion
    · exact Status.noConfusion
    · exact Status.noConfusion
    · split
      · exact Status.noConfusion
      · dsimp only
        split
        · exact Status.noConfusion
        · split
          · exact Status.noConfusion
          · exact ⟨rfl, rfl, rfl⟩

theorem start_paced (env : Environment) : (start (ρ := ρ) scenario env).Paced scenario := by
  have hunstarted := @start_unstarted ρ scenario env
  rcases start_cases (ρ := ρ) scenario env with ⟨status, result, hstatus, hstart⟩ | ⟨s, hinitial, hstart⟩
  · rw [hstart] at hunstarted ⊢
    exact paced_of_ne hunstarted hstatus
  · have htimed := @start_timed ρ scenario env
    rw [hstart] at htimed hunstarted ⊢
    have hclock := htimed.clock
    rw [hinitial.phase] at hclock
    exact
      { limit := by
          rw [hinitial.attempt]
          exact Nat.zero_le _
        attempts := by
          rw [hunstarted.1, if_pos hinitial.phase, hinitial.attempt]
        started := Nat.le_of_eq hclock.1.symm
        due := fun _ => hclock.2.1
        window := by simp [hinitial.phase] }

structure Config.OnTime (scenario : Scenario) (c : Config ρ) : Prop where
  sound : c.Sound scenario
  timed : c.Timed scenario
  paced : c.Paced scenario

theorem onTime_step (turn : PairTurn) {c : Config ρ} (h : c.OnTime scenario) :
    (step scenario diagnose turn c).OnTime scenario := by
  refine ⟨step_sound turn h.sound, timed_step turn h.sound h.timed, ?_⟩
  cases c with
  | returned status result output => exact h.paced
  | running s => exact paced_moves h.sound h.timed h.paced (moves_step h.sound turn)

theorem start_onTime (env : Environment) : (start (ρ := ρ) scenario env).OnTime scenario :=
  ⟨start_sound env, start_timed env, start_paced env⟩

/-- **Run lemma.** -/
theorem onTime_run (env : Environment) (turns : List PairTurn) : (run scenario diagnose env turns).OnTime scenario :=
  (miniStack scenario diagnose).run_invariant (fun _ turn h => onTime_step turn h) (start_onTime env) turns

/-! ## Monotonicity -/

def Config.NotBefore (time : Nat) : Config ρ → Prop
  | .running s => time ≤ s.now
  | .returned status result _ => status = .ok ∨ status = .retryExhausted → time ≤ result.virtualElapsedMs

theorem Config.NotBefore.trans {time time' : Nat} {c : Config ρ} (h : time ≤ time') (hc : c.NotBefore time') :
    c.NotBefore time := by
  cases c with
  | running s => exact Nat.le_trans h hc
  | returned status result output => exact fun hstatus => Nat.le_trans h (hc hstatus)

theorem notBefore_moves (h : Paced scenario s) {c : Config ρ} {entry : Option Entry}
    (hmoves : Moves scenario diagnose s c entry) : c.NotBefore s.now := by
  cases hmoves with
  | starts | sent | skipped | dropped | queued | settled => exact Nat.le_refl s.now
  | exhausted | finished => exact fun _ => Nat.le_refl s.now
  | refused | failed => rintro (hok | hexhausted) <;> contradiction
  | delivered hphase hnext =>
    exact h.due (by simp [hphase]) _ (List.mem_of_getElem? (nextEvent_some hnext).1)
  | again hphase => exact (h.window (.inr hphase)).1

/-- **Run lemma.** The clock never runs back. -/
theorem notBefore_run {c : Config ρ} (h : c.OnTime scenario) {time : Nat} (hc : c.NotBefore time)
    (turns : List PairTurn) : ((miniStack scenario diagnose).run c turns).NotBefore time := by
  have hstep : ∀ (c : Config ρ) turn, (c.OnTime scenario ∧ c.NotBefore time) →
      ((miniStack scenario diagnose).next c turn).OnTime scenario ∧
        ((miniStack scenario diagnose).next c turn).NotBefore time := by
    rintro c turn ⟨hon, hc⟩
    refine ⟨onTime_step turn hon, ?_⟩
    cases c with
    | returned status result output => exact hc
    | running s => exact (notBefore_moves hon.paced (moves_step hon.sound turn)).trans hc
  exact ((miniStack scenario diagnose).run_invariant hstep ⟨h, hc⟩ turns).2

/-! ## Transmissions -/

/-- How many transmissions of the first attempt there have been: every chunk is transmitted once. -/
def firstSent (scenario : Scenario) (s : State ρ) : Nat :=
  if s.attempt ≠ 0 then chunkCount scenario
  else match s.phase with
    | .attempt => 0
    | .transmit chunk => min chunk (chunkCount scenario)
    | .drain | .check => chunkCount scenario

/-- Every transmission after the first attempt is a retransmission. -/
structure Counted (scenario : Scenario) (s : State ρ) : Prop where
  retransmits : s.result.retransmits + firstSent scenario s = s.faultIndex
  fresh : s.attempt = 0 → s.phase ≠ .drain → s.phase ≠ .check → ∀ chunk, s.acknowledged.getD chunk 0 = 0

def Config.Counted (scenario : Scenario) : Config ρ → Prop
  | .running s => LinuxL03.Counted scenario s
  | .returned _ _ _ => True

/-- A transmission is a retransmission, unless it is the first of its chunk. -/
theorem Counted.transmit {chunk : Nat} (h : Counted scenario s) (hphase : s.phase = .transmit chunk)
    (hchunk : chunk < chunkCount scenario) :
    s.retried.retransmits + (if s.attempt ≠ 0 then chunkCount scenario else min (chunk + 1) (chunkCount scenario)) =
      s.faultIndex + 1 := by
  have hsent := h.retransmits
  unfold firstSent at hsent
  rw [hphase] at hsent
  dsimp only [State.retried] at hsent ⊢
  by_cases hfirst : s.attempt ≠ 0
  · rw [if_pos hfirst] at hsent
    rw [if_pos hfirst, if_pos hfirst]
    omega
  · rw [if_neg hfirst] at hsent
    rw [if_neg hfirst, if_neg hfirst]
    omega

theorem counted_moves (h : Counted scenario s) {c : Config ρ} {entry : Option Entry}
    (hmoves : Moves scenario diagnose s c entry) : c.Counted scenario := by
  have hsent := h.retransmits
  have hfresh := h.fresh
  unfold firstSent at hsent
  cases hmoves with
  | starts hphase hlt =>
    rw [hphase] at hsent
    refine ⟨?_, fun hfirst _ _ => hfresh hfirst (by simp [hphase]) (by simp [hphase])⟩
    unfold firstSent
    simpa using hsent
  | exhausted | refused | failed | finished => trivial
  | sent hphase hchunk =>
    rw [hphase] at hsent
    refine ⟨?_, fun _ hne => absurd rfl hne⟩
    unfold firstSent
    dsimp only at hsent
    rw [Nat.min_eq_right (Nat.le_of_not_lt hchunk)] at hsent
    exact hsent
  | skipped hphase hchunk hack =>
    have hlater : s.attempt ≠ 0 := fun hfirst => hack (hfresh hfirst (by simp [hphase]) (by simp [hphase]) _)
    refine ⟨?_, fun hfirst => absurd hfirst hlater⟩
    unfold firstSent
    rw [if_pos hlater] at hsent ⊢
    exact hsent
  | dropped hphase hchunk | queued hphase hchunk =>
    exact ⟨h.transmit hphase hchunk, fun hfirst _ _ => hfresh hfirst (by simp [hphase]) (by simp [hphase])⟩
  | settled hphase =>
    rw [hphase] at hsent
    exact ⟨hsent, fun _ _ hne => absurd rfl hne⟩
  | delivered hphase =>
    exact ⟨h.retransmits, fun _ hne => absurd hphase hne⟩
  | again hphase =>
    rw [hphase] at hsent
    refine ⟨?_, fun hfirst => absurd hfirst (Nat.succ_ne_zero _)⟩
    unfold firstSent
    rw [if_pos (Nat.succ_ne_zero _)]
    simpa using hsent

end TcpipCourse.LinuxL03
