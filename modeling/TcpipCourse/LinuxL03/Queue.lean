import TcpipCourse.LinuxL03.Progress
import TcpipCourse.LinuxL03.VirtualTime

/-!
# Linux lab 03: the event table is large enough

Every event in the table is charged to the transmission that queued it. A transmission with an action of the script
may linger over many attempts, but there are few of them; one without an action is due at once, so that its own
attempt delivers it.

* `sent`, `QueuedBy` : the transmissions of a history, and the events that they queued;
* `Charged` : what is in the table belongs to the script or to the current attempt; `Charged.used_le` : how much
  that can be;
* `Charging` : the invariant behind it; `charging_moves` : a step and its entry keep it;
* `miniStack_queue` : the table has room for every transmission of an attempt that starts below `UINT64_MAX`.
-/

namespace TcpipCourse.LinuxL03
open Lib L07

/-! ## Charges -/

/-- The transmissions of a history. Number `k` takes action `k` of the script, if there is one. -/
def sent (log : List Entry) : List Entry := log.filter fun entry => entry.act.isTransmission

/-- Transmission `k` of the history, in the attempt with this number, has queued the event. -/
def QueuedBy (log : List Entry) (number k : Nat) (event : Event) : Prop :=
  ∃ entry, (sent log)[k]? = some entry ∧ entry.number = number ∧ entry.act = .transmission (some event)

section Log
variable {log : List Entry} {entry : Entry} {number k : Nat} {event event' : Event}

theorem length_sent : (sent log).length = transmissions log := List.countP_eq_length_filter.symm

@[simp] theorem sent_concat (log : List Entry) (entry : Entry) :
    sent (log ++ [entry]) = sent log ++ if entry.act.isTransmission then [entry] else [] := by
  rw [sent, sent, List.filter_append, List.filter_singleton]
  cases entry.act.isTransmission <;> rfl

theorem QueuedBy.lt (h : QueuedBy log number k event) : k < transmissions log := by
  obtain ⟨entry, hget, -, -⟩ := h
  rw [← length_sent]
  exact (List.getElem?_eq_some_iff.mp hget).1

theorem QueuedBy.mem (h : QueuedBy log number k event) :
    ∃ entry ∈ log, entry.number = number ∧ entry.act = .transmission (some event) := by
  obtain ⟨entry, hget, hentry⟩ := h
  exact ⟨entry, (List.mem_filter.mp (List.mem_of_getElem? hget)).1, hentry⟩

theorem QueuedBy.unique {number' : Nat} (h : QueuedBy log number k event) (h' : QueuedBy log number' k event') :
    event = event' := by
  obtain ⟨entry, hget, -, hact⟩ := h
  obtain ⟨entry', hget', -, hact'⟩ := h'
  obtain rfl := Option.some.inj (hget.symm.trans hget')
  exact Option.some.inj (Act.transmission.inj (hact.symm.trans hact'))

theorem QueuedBy.concat (h : QueuedBy log number k event) (entry : Entry) :
    QueuedBy (log ++ [entry]) number k event := by
  obtain ⟨found, hget, hfound⟩ := h
  refine ⟨found, ?_, hfound⟩
  rw [sent_concat, List.getElem?_append_left (List.getElem?_eq_some_iff.mp hget).1, hget]

theorem QueuedBy.last (log : List Entry) (number now deadline : Nat) (event : Event) :
    QueuedBy (log ++ [⟨number, now, deadline, .transmission (some event)⟩]) number (transmissions log) event := by
  refine ⟨⟨number, now, deadline, .transmission (some event)⟩, ?_, rfl, rfl⟩
  rw [sent_concat, ← length_sent]
  exact List.getElem?_concat_length

/-- One attempt transmits the chunks in order. -/
def Ascending (entry later : Entry) : Prop :=
  ∀ event event', entry.act = .transmission (some event) → later.act = .transmission (some event') →
    entry.number = later.number → event.chunkIndex < event'.chunkIndex

theorem queuedBy_chunk (h : (sent log).Pairwise Ascending) {k' : Nat} (hevent : QueuedBy log number k event)
    (hevent' : QueuedBy log number k' event') (hchunk : event.chunkIndex = event'.chunkIndex) : k = k' := by
  obtain ⟨entry, hget, hnumber, hact⟩ := hevent
  obtain ⟨entry', hget', hnumber', hact'⟩ := hevent'
  obtain ⟨hlt, rfl⟩ := List.getElem?_eq_some_iff.mp hget
  obtain ⟨hlt', rfl⟩ := List.getElem?_eq_some_iff.mp hget'
  rw [List.pairwise_iff_getElem] at h
  rcases Nat.lt_trichotomy k k' with hbefore | heq | hafter
  · have := h k k' hlt hlt' hbefore event event' hact hact' (hnumber.trans hnumber'.symm)
    omega
  · exact heq
  · have := h k' k hlt' hlt hafter event' event hact' hact (hnumber'.trans hnumber.symm)
    omega

end Log

variable {ρ : Type} {scenario : Scenario} {diagnose : Bytes → ρ} {s : State ρ}

/-- Every event in the table was queued by a transmission with an action of the script or by one of the current
attempt. A transmission has one slot at most, and an attempt transmits a chunk at most once. -/
structure Charged (scenario : Scenario) (log : List Entry) (s : State ρ) : Prop where
  charge : ∀ event, some event ∈ s.events.slots →
    ∃ number k, QueuedBy log number k event ∧ (k < scenario.faults.length ∨ number = s.result.attempts)
  slots : s.events.slots.reduceOption.Nodup
  chunk : ∀ number k k' event event', QueuedBy log number k event → QueuedBy log number k' event' →
    event.chunkIndex = event'.chunkIndex → k = k'

theorem length_reduceOption (events : EventTable) : events.slots.reduceOption.length = events.used :=
  List.length_filterMap_eq_countP

/-- What is charged to the script and to the first `n` chunks of the attempt fits into as many slots. -/
theorem Charged.used_le {log : List Entry} (h : Charged scenario log s) (hsent : transmissions log = s.faultIndex)
    {n : Nat} (hbelow : ∀ k event, some event ∈ s.events.slots → QueuedBy log s.result.attempts k event →
      scenario.faults.length ≤ k → event.chunkIndex < n) : s.events.used ≤ scripted scenario s + n := by
  rw [← length_reduceOption]
  apply @length_le_of_charge Event _ h.slots fun event m => ∃ number k, QueuedBy log number k event ∧
    (k < scenario.faults.length ∧ m = k ∨
      scenario.faults.length ≤ k ∧ number = s.result.attempts ∧ m = scripted scenario s + event.chunkIndex)
  · intro event hmem
    rw [List.reduceOption_mem_iff] at hmem
    obtain ⟨number, k, hqueued, hcharge⟩ := h.charge event hmem
    have hk := hqueued.lt
    by_cases hscript : k < scenario.faults.length
    · refine ⟨k, ?_, number, k, hqueued, .inl ⟨hscript, rfl⟩⟩
      unfold scripted
      omega
    · obtain rfl := hcharge.resolve_left hscript
      have := hbelow k event hmem hqueued (by omega)
      exact ⟨scripted scenario s + event.chunkIndex, by omega, _, k, hqueued, .inr ⟨by omega, rfl, rfl⟩⟩
  · rintro a - b - m ⟨number, k, hqueued, hcharge⟩ ⟨number', k', hqueued', hcharge'⟩
    have hk := hqueued.lt
    have hk' := hqueued'.lt
    unfold scripted at hcharge hcharge'
    have hsame : k = k' := by
      rcases hcharge with ⟨hin, rfl⟩ | ⟨-, rfl, rfl⟩
      · rcases hcharge' with ⟨-, rfl⟩ | ⟨-, -, hm⟩
        · rfl
        · omega
      · rcases hcharge' with ⟨hin, hm⟩ | ⟨-, rfl, hm⟩
        · omega
        · exact h.chunk _ _ _ _ _ hqueued hqueued' (by omega)
    subst hsame
    exact hqueued.unique hqueued'

/-! ## The invariant -/

/-- How many chunks the attempt has got past. -/
def reach (scenario : Scenario) : Phase → Nat
  | .attempt => 0
  | .transmit chunk => min chunk (chunkCount scenario)
  | .drain | .check => chunkCount scenario

/-- An event that is charged to the attempt is due before its deadline. -/
structure Charging (scenario : Scenario) (log : List Entry) (s : State ρ) : Prop where
  ascending : (sent log).Pairwise Ascending
  reached : ∀ entry ∈ log, ∀ event, entry.act = .transmission (some event) → entry.number = s.attempt + 1 →
    event.chunkIndex < reach scenario s.phase
  charge : ∀ event, some event ∈ s.events.slots → ∃ number k, QueuedBy log number k event ∧
    (k < scenario.faults.length ∨ number = s.attempt + 1 ∧ event.dueMs < s.deadline)

/-- The last attempt that has started did so below the limit of the clock. -/
def Below (scenario : Scenario) (s : State ρ) : Prop :=
  ∀ k, k + 1 = s.result.attempts → attemptStart scenario k < uint64Max

def Config.Charging (scenario : Scenario) (log : List Entry) : Config ρ → Prop
  | .running s => Below scenario s → LinuxL03.Charging scenario log s
  | .returned _ _ _ => True

section Moves
variable {log : List Entry}

/-- A step that transmits nothing and leaves the attempt and its deadline as they are. -/
theorem Charging.frame {s' : State ρ} (h : Charging scenario log s) (hattempt : s'.attempt = s.attempt)
    (hdeadline : s'.deadline = s.deadline) (hreach : reach scenario s.phase ≤ reach scenario s'.phase)
    (hevents : ∀ event, some event ∈ s'.events.slots → some event ∈ s.events.slots) :
    Charging scenario log s' where
  ascending := h.ascending
  reached := fun entry hmem event hact hnumber => by
    rw [hattempt] at hnumber
    exact Nat.lt_of_lt_of_le (h.reached entry hmem event hact hnumber) hreach
  charge := fun event hmem => by
    rw [hattempt, hdeadline]
    exact h.charge event (hevents event hmem)

theorem Charging.concat {entry : Entry} (h : Charging scenario log s) (hact : entry.act.isTransmission = false) :
    Charging scenario (log ++ [entry]) s where
  ascending := by
    rw [sent_concat, hact]
    simpa using h.ascending
  reached := forall_mem_concat h.reached fun event hevent => by
    rw [hevent] at hact
    cases hact
  charge := fun event hmem => by
    obtain ⟨number, k, hqueued, hcharge⟩ := h.charge event hmem
    exact ⟨number, k, hqueued.concat entry, hcharge⟩

/-- Between attempts everything that is left belongs to the script. -/
theorem Charging.scripted (h : Charging scenario log s) {event : Event} (hmem : some event ∈ s.events.slots)
    (hdue : DueFrom s.deadline s.events) : ∃ number k, QueuedBy log number k event ∧ k < scenario.faults.length := by
  obtain ⟨number, k, hqueued, hcharge⟩ := h.charge event hmem
  refine ⟨number, k, hqueued, hcharge.resolve_right fun ⟨_, hbefore⟩ => ?_⟩
  have := hdue event hmem
  omega

theorem Charging.transmit {chunk : Nat} (hphase : s.phase = .transmit chunk) (hcount : chunk < chunkCount scenario)
    (h : Charging scenario log s) (queued : Option Event) {s' : State ρ} (hattempt : s'.attempt = s.attempt)
    (hdeadline : s'.deadline = s.deadline) (hphase' : s'.phase = .transmit (chunk + 1))
    (hevents : ∀ event, some event ∈ s'.events.slots → some event ∈ s.events.slots ∨ queued = some event)
    (hchunk : ∀ event, queued = some event → event.chunkIndex = chunk)
    (hdue : ∀ event, queued = some event → scenario.faults.length ≤ transmissions log → event.dueMs < s.deadline) :
    Charging scenario (log ++ [⟨s.attempt + 1, s.now, s.deadline, .transmission queued⟩]) s' := by
  have hreached : ∀ entry ∈ log, ∀ event, entry.act = .transmission (some event) →
      entry.number = s.attempt + 1 → event.chunkIndex < chunk := by
    intro entry hentry event hact hnumber
    have hlt := h.reached entry hentry event hact hnumber
    rw [hphase] at hlt
    exact Nat.lt_of_lt_of_le hlt (Nat.min_le_left _ _)
  have hnext : reach scenario (.transmit (chunk + 1)) = chunk + 1 := Nat.min_eq_left hcount
  refine ⟨?_, ?_, fun event hmem => ?_⟩
  · rw [sent_concat, List.pairwise_append]
    refine ⟨h.ascending, List.pairwise_singleton _ _, fun entry hentry later hlater => ?_⟩
    obtain rfl := List.mem_singleton.mp hlater
    intro event event' hact hact' hnumber
    rw [hchunk event' (Act.transmission.inj hact')]
    exact hreached entry (List.mem_filter.mp hentry).1 event hact hnumber
  · rw [hattempt, hphase', hnext]
    apply forall_mem_concat
    · intro entry hentry event hact hnumber
      exact Nat.lt_succ_of_lt (hreached entry hentry event hact hnumber)
    · intro event hact _
      rw [hchunk event (Act.transmission.inj hact)]
      exact Nat.lt_succ_self chunk
  · rw [hattempt, hdeadline]
    rcases hevents event hmem with hold | hnew
    · obtain ⟨number, k, hqueued, hcharge⟩ := h.charge event hold
      exact ⟨number, k, hqueued.concat _, hcharge⟩
    · refine ⟨s.attempt + 1, transmissions log, ?_, ?_⟩
      · rw [hnew]
        exact QueuedBy.last log _ _ _ event
      · by_cases hscript : transmissions log < scenario.faults.length
        · exact .inl hscript
        · exact .inr ⟨rfl, hdue event hnew (Nat.le_of_not_lt hscript)⟩

/-- **Step lemma.** -/
theorem charging_moves (hinv : Inv scenario s) (htimed : Timed scenario s) (hpaced : Paced scenario s)
    (hrecorded : Recorded scenario log s) (h : Below scenario s → Charging scenario log s) {c : Config ρ}
    {entry : Option Entry} (hmoves : Moves scenario diagnose s c entry) :
    c.Charging scenario (log ++ entry.toList) := by
  have hattempts := hpaced.attempts
  have hclock := htimed.clock
  cases hmoves with
  | starts hphase hlt =>
    rw [hphase] at hattempts
    have hattempts : s.result.attempts = s.attempt := hattempts
    intro hbelow
    have hstart : attemptStart scenario s.attempt < uint64Max := hbelow s.attempt rfl
    have hold := h fun k hk => by
      rw [hattempts] at hk
      exact Nat.lt_of_le_of_lt (attemptStart_le_succ scenario k) (hk ▸ hstart)
    have hreached := hold.reached
    rw [hphase] at hreached
    refine Charging.concat { ascending := hold.ascending, reached := hreached, charge := fun event hmem => ?_ } rfl
    obtain ⟨number, k, hqueued, hcharge⟩ := hold.charge event hmem
    refine ⟨number, k, hqueued, .inl (hcharge.resolve_right ?_)⟩
    rintro ⟨rfl, -⟩
    obtain ⟨entry, hmem, hnumber, hact⟩ := hqueued.mem
    exact Nat.not_lt_zero _ (hreached entry hmem event hact hnumber)
  | exhausted | refused | failed | finished => trivial
  | sent hphase hchunk =>
    rw [Option.toList_none, List.append_nil]
    intro hbelow
    refine (h hbelow).frame rfl rfl ?_ fun event hmem => hmem
    rw [hphase]
    exact Nat.min_le_right _ _
  | skipped hphase hchunk =>
    rw [Option.toList_none, List.append_nil]
    intro hbelow
    refine (h hbelow).frame rfl rfl ?_ fun event hmem => hmem
    rw [hphase]
    exact min_le_min_right _ (Nat.le_succ _)
  | dropped hphase hchunk =>
    intro hbelow
    exact (h hbelow).transmit hphase hchunk none rfl rfl rfl (fun event hmem => .inl hmem)
      (fun _ hnone => nomatch hnone) fun _ hnone => nomatch hnone
  | queued hphase hchunk hopen hdrop hdue hfree =>
    rw [hphase] at hattempts hclock
    intro hbelow
    have hstart : attemptStart scenario s.attempt < uint64Max := hbelow s.attempt hattempts.symm
    refine (h hbelow).transmit hphase hchunk (some _) rfl rfl rfl (fun event hmem => mem_set_slot hmem) ?_ ?_
    · rintro event ⟨⟩
      rfl
    · rintro event ⟨⟩ hout
      rw [hrecorded.sent] at hout
      rw [faultAt_of_le hout] at hdue
      obtain rfl := Option.some.inj hdue
      rw [hclock.1, hclock.2.1]
      exact roundStart_lt_succ (rto_pos hinv.validated) hstart
  | settled hphase =>
    rw [Option.toList_none, List.append_nil]
    intro hbelow
    refine (h hbelow).frame rfl rfl ?_ fun event hmem => hmem
    rw [hphase]
    exact Nat.le_refl _
  | @delivered index event ctx hphase hnext =>
    intro hbelow
    apply Charging.concat _ rfl
    refine (h hbelow).frame rfl rfl (Nat.le_refl _) ?_
    intro other hmem
    exact (mem_set_slot hmem).resolve_right fun hnone => nomatch hnone
  | again hphase hopen =>
    rw [hphase] at hclock hattempts
    rw [Option.toList_none, List.append_nil]
    intro hbelow
    have hold := h hbelow
    have hattempts : s.result.attempts = s.attempt + 1 := hattempts
    refine ⟨hold.ascending, fun entry hmem event hact hnumber => ?_, fun event hmem => ?_⟩
    · have := hrecorded.numbers entry hmem
      have hnumber : entry.number = s.attempt + 1 + 1 := hnumber
      omega
    · obtain ⟨number, k, hqueued, hscript⟩ := hold.scripted hmem hclock.2
      exact ⟨number, k, hqueued, .inl hscript⟩

end Moves

theorem start_charging (env : Environment) : (start (ρ := ρ) scenario env).Charging scenario [] := by
  rcases start_cases (ρ := ρ) scenario env with ⟨status, result, hstatus, hstart⟩ | ⟨s, hinitial, hstart⟩
  · rw [hstart]
    trivial
  · rw [hstart]
    refine fun _ => ⟨List.Pairwise.nil, by simp, fun event hmem => ?_⟩
    rw [hinitial.events] at hmem
    cases List.eq_of_mem_replicate hmem

/-- **Run lemma.** -/
theorem charging_run (env : Environment) (turns : List PairTurn) :
    (run scenario diagnose env turns).Charging scenario (history scenario diagnose env turns) := by
  have hstep : ∀ (seen : List (Option Entry)) (c : Config ρ) turn,
      (c.Traced scenario seen ∧ c.Charging scenario seen.reduceOption) →
      (step scenario diagnose turn c).Traced scenario (seen ++ [observe scenario diagnose turn c]) ∧
        (step scenario diagnose turn c).Charging scenario
          (seen ++ [observe scenario diagnose turn c]).reduceOption := by
    rintro seen c turn ⟨htraced, h⟩
    refine ⟨traced_step turn htraced, ?_⟩
    rw [← List.concat_eq_append, List.reduceOption_concat]
    cases c with
    | returned status result output => trivial
    | running s =>
      have hon := htraced.onTime
      exact charging_moves hon.sound hon.timed hon.paced htraced.recorded h (moves_step hon.sound turn)
  have hrun := ((observed scenario diagnose).trace_invariant hstep
    ⟨@start_traced ρ scenario env, start_charging env⟩ turns).2
  rwa [observed_run] at hrun

/-! ## The capacity of the table -/

theorem Paced.dueFrom (htimed : Timed scenario s) (h : Paced scenario s) : DueFrom s.now s.events := by
  by_cases hphase : s.phase = .check
  · have hclock := htimed.clock
    rw [hphase] at hclock
    intro event hmem
    exact Nat.le_trans (h.window (.inr hphase)).1 (hclock.2 event hmem)
  · exact h.due hphase

theorem Charging.charged {log : List Entry} (hpaced : Paced scenario s)
    (hrecorded : Recorded scenario log s) (h : Charging scenario log s) : Charged scenario log s where
  charge := fun event hmem => by
    obtain ⟨number, k, hqueued, hcharge⟩ := h.charge event hmem
    refine ⟨number, k, hqueued, hcharge.imp_right ?_⟩
    rintro ⟨rfl, -⟩
    have hattempts := hpaced.attempts
    split at hattempts
    · next hphase =>
      obtain ⟨entry, hentry, hnumber, hact⟩ := hqueued.mem
      have hreached := h.reached entry hentry event hact hnumber
      rw [hphase] at hreached
      exact absurd hreached (Nat.not_lt_zero _)
    · exact hattempts.symm
  slots := List.Nodup.of_map _ hrecorded.nodup
  chunk := fun _ _ _ _ _ => queuedBy_chunk h.ascending

theorem Recorded.below {log : List Entry} (h : Recorded scenario log s)
    (hstart : ∀ entry ∈ log, entry.act = .start → entry.number = s.result.attempts → entry.now < uint64Max) :
    Below scenario s := by
  intro k hk
  have hmem : k + 1 ∈ LinuxL03.starts log := by
    rw [h.starts, List.mem_range'_1]
    omega
  obtain ⟨entry, hentry, hnumber⟩ := List.mem_filterMap.mp hmem
  split at hnumber
  · next hact =>
    have hnumber := Option.some.inj hnumber
    have htime := (h.timely entry hentry).start hact
    rw [hnumber, Nat.add_sub_cancel] at htime
    rw [← htime]
    exact hstart entry hentry hact (hnumber.trans hk)
  · cases hnumber

/-- **Main result.** At every control point of every run, no event in the table is overdue. If the current attempt
has started below `UINT64_MAX`, then every event in the table is charged to an action of the script that has been
used, or to a chunk that this attempt has transmitted without one. So at most 36 slots are in use, and every
transmission finds a free slot and is queued. -/
theorem miniStack_queue (scenario : Scenario) (diagnose : Bytes → ρ) (env : Environment) (turns : List PairTurn)
    (s : State ρ) (hrun : run scenario diagnose env turns = .running s) :
    DueFrom s.now s.events ∧
    ((∀ entry ∈ history scenario diagnose env turns, entry.act = .start → entry.number = s.result.attempts →
        entry.now < uint64Max) →
      Charged scenario (history scenario diagnose env turns) s ∧
      transmissions (history scenario diagnose env turns) = s.faultIndex ∧
      s.events.used ≤ min s.faultIndex scenario.faults.length + chunkCount scenario ∧
      min s.faultIndex scenario.faults.length + chunkCount scenario ≤ 36 ∧
      ∀ chunk, s.phase = .transmit chunk → chunk < chunkCount scenario →
        (∃ index, s.events.slots.findIdx? Option.isNone = some index) ∧
        ∀ dueMs order, ∃ events, enqueue s.events scenario chunk dueMs order = .ok events) := by
  have htraced := @traced_run ρ scenario diagnose env turns
  have hcharging := @charging_run ρ scenario diagnose env turns
  have hrecorded : (run scenario diagnose env turns).Recorded scenario (history scenario diagnose env turns) :=
    htraced.recorded
  have hon := htraced.onTime
  rw [hrun] at hcharging hrecorded hon
  have hinv : Inv scenario s := hon.sound
  refine ⟨Paced.dueFrom hon.timed hon.paced, fun hstart => ?_⟩
  have hold := hcharging (hrecorded.below hstart)
  have hcharged := hold.charged hon.paced hrecorded
  have hfaults := faults_le hinv.validated
  have hcount := chunkCount_le (validate_ok hinv.validated).2.1
  have hlimit : maxFaultActions = 32 ∧ maxChunks = 4 ∧ maxEvents = 36 := ⟨rfl, rfl, rfl⟩
  refine ⟨hcharged, hrecorded.sent, ?_, by omega, fun chunk hphase hchunk => ?_⟩
  · exact hcharged.used_le hrecorded.sent fun k event hmem _ _ => (hinv.frames event hmem).1
  · have hroom : s.events.used < maxEvents := by
      have hattempts := hon.paced.attempts
      have hreached := hold.reached
      rw [hphase] at hattempts hreached
      have hused := hcharged.used_le hrecorded.sent (n := chunk) fun k event hmem hqueued _ => by
        obtain ⟨entry, hentry, hnumber, hact⟩ := hqueued.mem
        exact Nat.lt_of_lt_of_le (hreached entry hentry event hact (hnumber.trans hattempts)) (Nat.min_le_left _ _)
      unfold scripted at hused
      omega
    refine ⟨exists_free hroom, fun dueMs order => ?_⟩
    rcases enqueue_spec hchunk s.events dueMs order with hfull | ⟨index, -, hok⟩
    · exact absurd hfull (enqueue_room hchunk hroom dueMs order)
    · exact ⟨_, hok⟩

/-- The first frame is delayed beyond the attempt that has sent it. -/
def lingeringScenario : Scenario := { retryScenario with faults := [⟨.delay, 250⟩, ⟨.deliver, 0⟩] }

theorem miniStack_queue_retry :
    let turns := List.replicate 6 ⟨true, true⟩
    ∃ s, run lingeringScenario List.length ⟨true, fun _ => 7⟩ turns = .running s ∧
      (s.phase = .transmit 0 ∧ s.now = 100 ∧ s.events.used = 1) ∧ DueFrom s.now s.events ∧
      Charged lingeringScenario (history lingeringScenario List.length ⟨true, fun _ => 7⟩ turns) s ∧
      s.events.used ≤ min s.faultIndex 2 + 1 ∧ ∃ index, s.events.slots.findIdx? Option.isNone = some index := by
  intro turns
  have hat : (match run lingeringScenario List.length ⟨true, fun _ => 7⟩ turns with
    | .running s => decide (s.phase = .transmit 0 ∧ s.now = 100 ∧ s.events.used = 1)
    | .returned _ _ _ => false) = true := by decide +kernel
  have hstarts : ∀ entry ∈ history lingeringScenario List.length ⟨true, fun _ => 7⟩ turns,
      entry.now < uint64Max := by decide +kernel
  cases hrun : run lingeringScenario List.length ⟨true, fun _ => 7⟩ turns with
  | returned status result output =>
    rw [hrun] at hat
    cases hat
  | running s =>
    rw [hrun] at hat
    have hstate := of_decide_eq_true hat
    obtain ⟨hdue, hcharges⟩ := miniStack_queue lingeringScenario List.length _ _ s hrun
    obtain ⟨hcharged, -, hused, -, hfree⟩ := hcharges fun entry hmem _ _ => hstarts entry hmem
    exact ⟨s, rfl, hstate, hdue, hcharged, hused, (hfree 0 hstate.1 (by decide)).1⟩

end TcpipCourse.LinuxL03
