import TcpipCourse.LinuxL03.Progress
import TcpipCourse.LinuxL03.VirtualTime

/-!
# Linux lab 03: no counter gets far

An attempt that starts with the script used up is the last one, unless it starts with the clock at its limit. From
then on nothing is delivered any more, and every transmission takes a slot of the table.

* `Closing` : the last attempt; `Saturated` : the clock at its limit, and the script used up;
* `Bounded` : the three stages of a run and what its counters are in each; `bounded_moves`;
* `counters_le` : the counters of every run.
-/

namespace TcpipCourse.LinuxL03
open Lib L07

variable {ρ : Type} {scenario : Scenario} {diagnose : Bytes → ρ} {s : State ρ}

/-! ## Stages -/

/-- The script is used up and the attempt has a window: what it has transmitted so far arrives in it. -/
structure Closing (scenario : Scenario) (chunk : Nat) (s : State ρ) : Prop where
  script : scenario.faults.length ≤ s.faultIndex
  bound : s.faultIndex < scenario.faults.length + chunkCount scenario + min chunk (chunkCount scenario)
  window : s.now < s.deadline
  arrives : Arrives s.acknowledged s.events s.deadline chunk

/-- The script is used up and the clock is at its limit. -/
structure Saturated (scenario : Scenario) (s : State ρ) : Prop where
  stuck : Stuck scenario s
  script : scenario.faults.length ≤ s.faultIndex
  bound : s.faultIndex < scenario.faults.length + chunkCount scenario + s.events.used + 1

/-- An attempt before the last one, or the last one. -/
def BoundedAt (scenario : Scenario) (s : State ρ) : Phase → Prop
  | .attempt => s.faultIndex < scenario.faults.length + chunkCount scenario
  | .transmit chunk =>
    s.faultIndex < scenario.faults.length + min chunk (chunkCount scenario) ∨ Closing scenario chunk s
  | .drain | .check =>
    s.faultIndex < scenario.faults.length + chunkCount scenario ∨ Closing scenario (chunkCount scenario) s

structure Bounded (scenario : Scenario) (s : State ρ) : Prop where
  order : s.eventOrder ≤ s.faultIndex
  stage : BoundedAt scenario s s.phase ∨ Saturated scenario s

def Config.Bounded (scenario : Scenario) : Config ρ → Prop
  | .running s => LinuxL03.Bounded scenario s
  | .returned _ _ _ => True

/-! ## Steps -/

theorem script_of_drop (hdrop : (faultAt scenario s.faultIndex).action = .drop) :
    ¬ scenario.faults.length ≤ s.faultIndex := by
  intro hout
  rw [faultAt_of_le hout] at hdrop
  cases hdrop

theorem Closing.skip {chunk : Nat} (h : Closing scenario chunk s) (hack : s.acknowledged.getD chunk 0 ≠ 0) :
    Closing scenario (chunk + 1) s :=
  { h with
    bound := by
      have := h.bound
      omega
    arrives := h.arrives.skip hack }

theorem Closing.queue {chunk index due order : Nat} (h : Closing scenario chunk s)
    (hchunk : chunk < chunkCount scenario) (hfree : s.events.slots[index]? = some none)
    (hdue : dueTime (faultAt scenario s.faultIndex) s.now s.rto = some due) (frame : Bytes) :
    Closing scenario (chunk + 1)
      { s with
        faultIndex := s.faultIndex + 1
        events := s.events.set index (some ⟨frame, chunk, due, order⟩) } where
  script := Nat.le_succ_of_le h.script
  bound := by
    have := h.bound
    show s.faultIndex + 1 < _
    omega
  window := h.window
  arrives := by
    apply h.arrives.queue hfree
    rw [faultAt_of_le h.script] at hdue
    cases hdue
    exact h.window

theorem Closing.deliver {chunk index : Nat} {event : Event} {ctx : Reassembly} (hinv : Inv scenario s)
    (h : Closing scenario chunk s) (hslot : s.events.slots[index]? = some (some event))
    (hdue : event.dueMs < s.deadline) :
    Closing scenario chunk (delivered diagnose index event ctx { s with now := event.dueMs }) :=
  { h with
    window := hdue
    arrives := by
      obtain ⟨hchunk, -⟩ := hinv.frames event (List.mem_of_getElem? hslot)
      exact h.arrives.deliver hslot (hinv.chunkIndex_lt hchunk) }

theorem Closing.not_open {chunk : Nat} (h : Closing scenario chunk s) (hchunk : chunkCount scenario ≤ chunk)
    (hdue : DueFrom s.deadline s.events) : ¬ Open scenario s := by
  intro hopen
  obtain ⟨j, hj, hzero⟩ := open_iff.mp hopen
  rcases h.arrives j (Nat.lt_of_lt_of_le hj hchunk) with hack | ⟨event, hmem, -, hbefore⟩
  · exact hack hzero
  · exact absurd hbefore (Nat.not_lt.mpr (hdue event hmem))

theorem Saturated.keep {s' : State ρ} (h : Saturated scenario s) (hstuck : Stuck scenario s')
    (hindex : s'.faultIndex = s.faultIndex) (hevents : s'.events = s.events) : Saturated scenario s' where
  stuck := hstuck
  script := by
    rw [hindex]
    exact h.script
  bound := by
    rw [hindex, hevents]
    exact h.bound

/-- An attempt uses the script, is the last one, or starts with the clock at its limit. -/
theorem stage_start (hinv : Inv scenario s) (htimed : Timed scenario s) (hphase : s.phase = .attempt)
    (hindex : s.faultIndex < scenario.faults.length + chunkCount scenario) :
    s.faultIndex < scenario.faults.length ∨
      scenario.faults.length ≤ s.faultIndex ∧ s.now < deadlineAfter s.now s.rto ∨ Saturated scenario s := by
  by_cases hscript : s.faultIndex < scenario.faults.length
  · exact .inl hscript
  · have hscript := Nat.le_of_not_lt hscript
    by_cases hbelow : s.now < uint64Max
    · refine .inr (.inl ⟨hscript, ?_⟩)
      have hclock := htimed.clock
      rw [hphase] at hclock
      rw [hclock.1] at hbelow ⊢
      rw [htimed.rto, deadlineAfter_attempt]
      exact roundStart_lt_succ (rto_pos hinv.validated) hbelow
    · exact .inr (.inr ⟨htimed.stuck hphase (Nat.le_of_not_lt hbelow), hscript, by omega⟩)

/-- **Step lemma.** What keeps a stuck run stuck is `stuck_step`. -/
theorem bounded_moves (hinv : Inv scenario s) (htimed : Timed scenario s) (h : Bounded scenario s) {c : Config ρ}
    {entry : Option Entry} (hmoves : Moves scenario diagnose s c entry)
    (hstuck : Stuck scenario s → c.Stuck scenario) : c.Bounded scenario := by
  have horder := h.order
  have hstage := h.stage
  have hclock := htimed.clock
  cases hmoves with
  | exhausted | refused | failed | finished => trivial
  | starts hphase hlt =>
    rw [hphase] at hstage
    refine ⟨horder, ?_⟩
    have hcases : s.faultIndex < scenario.faults.length ∨
        Closing scenario 0 { s with deadline := deadlineAfter s.now s.rto } ∨ Saturated scenario s := by
      rcases hstage with hat | hsat
      · have hindex : s.faultIndex < scenario.faults.length + chunkCount scenario := hat
        refine (stage_start hinv htimed hphase hindex).imp_right (Or.imp_left ?_)
        rintro ⟨hscript, hwindow⟩
        exact ⟨hscript, by simpa using hindex, hwindow, fun j hj => absurd hj (Nat.not_lt_zero j)⟩
      · exact .inr (.inr hsat)
    rcases hcases with hat | hclosing | hsat
    · exact .inl (.inl (by simpa using hat))
    · exact .inl (.inr { hclosing with })
    · exact .inr (hsat.keep (hstuck hsat.stuck) rfl rfl)
  | sent hphase hchunk =>
    rw [hphase] at hstage
    refine ⟨horder, ?_⟩
    rcases hstage with (hat | hclosing) | hsat
    · exact .inl (.inl (by show s.faultIndex < _; omega))
    · refine .inl (.inr { hclosing with
        bound := ?_
        arrives := fun j hj => hclosing.arrives j (by omega) })
      have := hclosing.bound
      show s.faultIndex < _
      omega
    · exact .inr (hsat.keep (hstuck hsat.stuck) rfl rfl)
  | skipped hphase hchunk hack =>
    rw [hphase] at hstage
    refine ⟨horder, ?_⟩
    rcases hstage with (hat | hclosing) | hsat
    · exact .inl (.inl (by show s.faultIndex < _; omega))
    · exact .inl (.inr { hclosing.skip hack with })
    · exact .inr (hsat.keep (hstuck hsat.stuck) rfl rfl)
  | dropped hphase hchunk hopen hdrop =>
    rw [hphase] at hstage
    refine ⟨Nat.le_succ_of_le horder, .inl (.inl ?_)⟩
    rcases hstage with (hat | hclosing) | hsat
    · show s.faultIndex + 1 < _
      omega
    · exact absurd hclosing.script (script_of_drop hdrop)
    · exact absurd hsat.script (script_of_drop hdrop)
  | @queued chunk due index hphase hchunk hopen hdrop hdue hfree =>
    rw [hphase] at hstage
    refine ⟨Nat.succ_le_succ horder, ?_⟩
    rcases hstage with (hat | hclosing) | hsat
    · exact .inl (.inl (by show s.faultIndex + 1 < _; omega))
    · exact .inl (.inr { hclosing.queue hchunk hfree hdue (frameOf scenario chunk) with })
    · refine .inr ⟨hstuck hsat.stuck, Nat.le_succ_of_le hsat.script, ?_⟩
      have := hsat.bound
      show s.faultIndex + 1 < _ + (s.events.set index (some _)).used + 1
      rw [used_set_some hfree]
      omega
  | settled hphase hnone =>
    rw [hphase] at hstage
    refine ⟨horder, ?_⟩
    rcases hstage with (hat | hclosing) | hsat
    · exact .inl (.inl hat)
    · exact .inl (.inr { hclosing with })
    · exact .inr (hsat.keep (hstuck hsat.stuck) rfl rfl)
  | @delivered index event ctx hphase hnext =>
    obtain ⟨hslot, hbefore⟩ := nextEvent_some hnext
    rw [hphase] at hstage
    refine ⟨horder, .inl ?_⟩
    have hdrain : BoundedAt scenario (delivered diagnose index event ctx { s with now := event.dueMs }) .drain := by
      rcases hstage with (hat | hclosing) | hsat
      · exact .inl hat
      · exact .inr (hclosing.deliver hinv hslot hbefore)
      · have hlimit := hsat.stuck.deadline (by simp [hphase])
        have := hsat.stuck.due event (List.mem_of_getElem? hslot)
        omega
    rwa [← hphase] at hdrain
  | again hphase hopen =>
    rw [hphase] at hstage hclock
    refine ⟨horder, ?_⟩
    rcases hstage with (hat | hclosing) | hsat
    · exact .inl hat
    · exact absurd hopen (hclosing.not_open (Nat.le_refl _) hclock.2)
    · exact .inr (hsat.keep (hstuck hsat.stuck) rfl rfl)

/-! ## Runs -/

theorem start_bounded (env : Environment) : (start (ρ := ρ) scenario env).Bounded scenario := by
  have hunstarted := @start_unstarted ρ scenario env
  rcases start_cases (ρ := ρ) scenario env with ⟨status, result, -, hstart⟩ | ⟨s, hinitial, hstart⟩
  · rw [hstart]
    trivial
  · have hcount := chunkCount_pos hinitial.validated
    rw [hstart] at hunstarted ⊢
    refine ⟨?_, .inl ?_⟩
    · rw [hunstarted.2.2]
      exact Nat.zero_le _
    · rw [hinitial.phase]
      show s.faultIndex < _
      rw [hinitial.faultIndex]
      omega

/-- **Run lemma.** -/
theorem bounded_run (env : Environment) (turns : List PairTurn) :
    (run scenario diagnose env turns).Bounded scenario := by
  have hstep : ∀ (c : Config ρ) turn, (c.OnTime scenario ∧ c.Bounded scenario) →
      ((miniStack scenario diagnose).next c turn).OnTime scenario ∧
        ((miniStack scenario diagnose).next c turn).Bounded scenario := by
    rintro c turn ⟨hon, hc⟩
    refine ⟨onTime_step turn hon, ?_⟩
    cases c with
    | returned status result output => trivial
    | running s =>
      have hstuck : Stuck scenario s → (step scenario diagnose turn (.running s)).Stuck scenario :=
        fun h => @stuck_step ρ scenario diagnose turn (.running s) h
      exact bounded_moves hon.sound hon.timed hc (moves_step hon.sound turn) hstuck
  exact ((miniStack scenario diagnose).run_invariant hstep ⟨start_onTime env, start_bounded env⟩ turns).2

/-- However many attempts a scenario allows, there are 72 transmissions at most at every control point. -/
theorem counters_le {env : Environment} {turns : List PairTurn} (hrun : run scenario diagnose env turns = .running s) :
    s.faultIndex ≤ maxFaultActions + maxChunks + maxEvents ∧ s.eventOrder ≤ s.faultIndex ∧
      s.result.retransmits ≤ s.faultIndex := by
  have hsound := @run_sound ρ scenario diagnose env turns
  have hbounded := @bounded_run ρ scenario diagnose env turns
  have hcounted := (@traced_run ρ scenario diagnose env turns).counted
  rw [hrun] at hsound hbounded hcounted
  have hsound : Inv scenario s := hsound
  have hcounted : Counted scenario s := hcounted
  have hfaults := faults_le hsound.validated
  have hcount := chunkCount_le (validate_ok hsound.validated).2.1
  have hused := s.events.used_le
  have hevents : maxChunks ≤ maxEvents := by decide
  refine ⟨?_, hbounded.order, Nat.le.intro hcounted.retransmits⟩
  rcases hbounded.stage with hat | hsat
  · have hstage : s.faultIndex < scenario.faults.length + chunkCount scenario ∨
        ∃ chunk, Closing scenario chunk s := by
      cases hphase : s.phase with
      | attempt =>
        rw [hphase] at hat
        exact .inl hat
      | transmit chunk =>
        rw [hphase] at hat
        rcases hat with hat | hclosing
        · exact .inl (by omega)
        · exact .inr ⟨_, hclosing⟩
      | drain | check =>
        rw [hphase] at hat
        exact hat.imp_right fun hclosing => ⟨_, hclosing⟩
    rcases hstage with hat | ⟨chunk, hclosing⟩
    · omega
    · have := hclosing.bound
      omega
  · have := hsat.bound
    omega

end TcpipCourse.LinuxL03
