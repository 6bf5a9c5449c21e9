import TcpipCourse.L08.Stream

/-!
# Lesson 08: transfers and their deadline

A wait polls also when the deadline has passed: with a timeout of zero, for which `poll` still reports what is
ready. So a transfer stops at its deadline only as long as nothing is ready by then.

* `Late`, `Steady` : readings at or past the deadline, and clocks that never run back;
* `ioRun` : what a transfer loop does, round by round; `sendRun`, `recvRun` : the loops of the lesson;
* `RespectsDeadline` : no call behind a late reading, and then `TIMEOUT`;
* `respectsDeadline_iff` : a run respects the deadline exactly when no late `poll` in it has anything to report.
-/

namespace TcpipCourse.L08
open Lib

/-! ## The clock -/

/-- The clock is at or past the deadline. -/
def Late (deadline : Timespec) (turn : WaitTurn) : Prop := ∃ now ∈ turn.clock, deadline.ns ≤ now.ns

instance (deadline : Timespec) (turn : WaitTurn) : Decidable (Late deadline turn) :=
  inferInstanceAs (Decidable (∃ now ∈ turn.clock, _))

/-- The clock can be read at every turn, and never runs back. -/
structure Steady (turns : List WaitTurn) : Prop where
  reads : ∀ turn ∈ turns, ∃ now ∈ turn.clock, now.Normal
  mono : turns.Pairwise fun earlier later => ∀ past ∈ earlier.clock, ∀ now ∈ later.clock, past.ns ≤ now.ns

theorem Steady.sublist {turns turns' : List WaitTurn} (h : Steady turns) (hsub : turns'.Sublist turns) :
    Steady turns' :=
  ⟨fun turn hturn => h.reads turn (hsub.subset hturn), h.mono.sublist hsub⟩

theorem remainingMs_late {deadline : Timespec} {turn : WaitTurn} (hdeadline : deadline.Normal)
    (hreads : ∃ now ∈ turn.clock, now.Normal) (hlate : Late deadline turn) :
    remainingMs deadline turn.clock = .ok 0 := by
  obtain ⟨now, hnow, hle⟩ := hlate
  obtain ⟨now', hnow', hnormal⟩ := hreads
  obtain rfl : now = now' := Option.mem_unique hnow hnow'
  rw [Option.mem_def] at hnow
  unfold Timespec.ns nsPerS at hle
  unfold Timespec.Normal nsPerS at hnormal hdeadline
  unfold remainingMs nsPerS
  rw [hnow]
  dsimp only
  rw [if_pos]
  split <;> omega

/-! ## One wait -/

/-- What one turn of a wait returns; `none` is another turn. -/
def pollStatus (deadline : Timespec) (turn : WaitTurn) : Option Status :=
  match remainingMs deadline turn.clock with
  | .error status => some status
  | .ok remaining =>
    match turn.poll remaining with
    | .ready revents =>
      if revents.nval then some .system
      else if revents.requested || revents.err || revents.hup then some .ok
      else none
    | .expired => some .timeout
    | .failed errno => if errno ≠ .eintr then some .system else none

theorem wait_cons (deadline : Timespec) (turn : WaitTurn) (rest : List WaitTurn) :
    wait deadline (turn :: rest) = (pollStatus deadline turn).or (wait deadline rest) := by
  rw [wait, pollStatus]
  cases remainingMs deadline turn.clock with
  | error status => rfl
  | ok remaining =>
    dsimp only
    cases turn.poll remaining with
    | ready revents =>
      dsimp only
      split
      · rfl
      · split <;> rfl
    | expired => rfl
    | failed errno =>
      dsimp only
      split <;> rfl

def polled (deadline : Timespec) : List WaitTurn → List WaitTurn
  | [] => []
  | turn :: rest => turn :: if pollStatus deadline turn = none then polled deadline rest else []

theorem polled_sublist (deadline : Timespec) (turns : List WaitTurn) : (polled deadline turns).Sublist turns := by
  induction turns with
  | nil => exact List.Sublist.slnil
  | cons turn rest ih =>
    rw [polled]
    apply List.Sublist.cons_cons
    split
    · exact ih
    · exact List.nil_sublist _

theorem wait_last {deadline : Timespec} {turns : List WaitTurn} {status : Status}
    (h : wait deadline turns = some status) :
    ∃ before turn, polled deadline turns = before ++ [turn] ∧ pollStatus deadline turn = some status := by
  induction turns with
  | nil => cases h
  | cons turn rest ih =>
    rw [wait_cons] at h
    rw [polled]
    cases hturn : pollStatus deadline turn with
    | none =>
      rw [hturn, Option.none_or] at h
      obtain ⟨before, last, hpolled, hlast⟩ := ih h
      refine ⟨turn :: before, last, ?_, hlast⟩
      rw [if_pos rfl, hpolled, List.cons_append]
    | some result =>
      rw [hturn, Option.some_or] at h
      exact ⟨[], turn, by rw [if_neg (Option.some_ne_none result), List.nil_append], hturn.trans h⟩

/-- A turn that returns is the last one. -/
theorem wait_of_pollStatus {deadline : Timespec} {turns : List WaitTurn} {turn : WaitTurn} {status : Status}
    (hmem : turn ∈ polled deadline turns) (h : pollStatus deadline turn = some status) :
    wait deadline turns = some status ∧ (polled deadline turns).getLast? = some turn := by
  induction turns with
  | nil => cases hmem
  | cons first rest ih =>
    rw [wait_cons]
    rw [polled] at hmem ⊢
    cases hfirst : pollStatus deadline first with
    | none =>
      rw [hfirst, if_pos rfl] at hmem
      rw [if_pos rfl, Option.none_or]
      obtain rfl | hmem := List.mem_cons.mp hmem
      · rw [hfirst] at h
        cases h
      · obtain ⟨hwait, hlast⟩ := ih hmem
        refine ⟨hwait, ?_⟩
        rw [List.getLast?_cons, hlast, Option.getD_some]
    | some result =>
      rw [hfirst, if_neg (Option.some_ne_none result), List.mem_singleton] at hmem
      subst hmem
      rw [if_neg (Option.some_ne_none result), Option.some_or, List.getLast?_singleton]
      exact ⟨hfirst.symm.trans h, rfl⟩

theorem pollStatus_late {deadline : Timespec} {turn : WaitTurn} (hdeadline : deadline.Normal)
    (hreads : ∃ now ∈ turn.clock, now.Normal) (hlate : Late deadline turn) :
    (turn.poll 0).quiet = true ↔ ∀ status ∈ pollStatus deadline turn, status = .timeout := by
  rw [pollStatus, remainingMs_late hdeadline hreads hlate]
  dsimp only
  cases turn.poll 0 with
  | ready revents =>
    obtain ⟨requested, err, hup, nval⟩ := revents
    cases nval <;> cases requested <;> cases err <;> cases hup <;> simp [PollResult.quiet]
  | expired => simp [PollResult.quiet]
  | failed errno => cases errno <;> simp [PollResult.quiet]

section
variable {deadline : Timespec} {turns : List WaitTurn}

/-- Every late turn of the wait polls for nothing. -/
def QuietWhenLate (deadline : Timespec) (turns : List WaitTurn) : Prop :=
  ∀ turn ∈ turns, Late deadline turn → (turn.poll 0).quiet = true

instance : Decidable (QuietWhenLate deadline turns) := inferInstanceAs (Decidable (∀ turn ∈ turns, _ → _))

theorem late_of_append {before : List WaitTurn} {turn last : WaitTurn} (hsteady : Steady (before ++ [last]))
    (hmem : turn ∈ before ++ [last]) (hlate : Late deadline turn) : Late deadline last := by
  obtain hbefore | hlast := List.mem_append.mp hmem
  · obtain ⟨past, hpast, hle⟩ := hlate
    obtain ⟨now, hnow, -⟩ := hsteady.reads last (by simp)
    have hmono := (List.pairwise_append.mp hsteady.mono).2.2 turn hbefore last (by simp)
    exact ⟨now, hnow, Int.le_trans hle (hmono past hpast now hnow)⟩
  · rwa [List.mem_singleton.mp hlast] at hlate

/-- A wait times out once it is late exactly if no late turn of it has anything to report. -/
theorem quietWhenLate_iff (hdeadline : deadline.Normal) (hsteady : Steady turns) :
    QuietWhenLate deadline (polled deadline turns) ↔
      ∀ turn ∈ polled deadline turns, Late deadline turn → ∀ status ∈ wait deadline turns, status = .timeout := by
  constructor
  · intro hquiet turn hmem hlate status hstatus
    obtain ⟨before, last, hpolled, hlast⟩ := wait_last hstatus
    have hsteady := hsteady.sublist (polled_sublist deadline turns)
    rw [hpolled] at hsteady hquiet hmem
    have hlate := late_of_append hsteady hmem hlate
    exact (pollStatus_late hdeadline (hsteady.reads last (by simp)) hlate).mp (hquiet last (by simp) hlate)
      status hlast
  · intro htimeout turn hmem hlate
    have hreads := hsteady.reads turn ((polled_sublist deadline turns).subset hmem)
    apply (pollStatus_late hdeadline hreads hlate).mpr
    intro status hstatus
    exact htimeout turn hmem hlate status (wait_of_pollStatus hmem hstatus).1

/-- When the descriptor is found ready, nothing late has been quiet only if nothing has been late. -/
theorem quietWhenLate_ok (hdeadline : deadline.Normal) (hsteady : Steady turns)
    (hok : wait deadline turns = some .ok) :
    QuietWhenLate deadline (polled deadline turns) ↔ ∀ turn ∈ polled deadline turns, ¬ Late deadline turn := by
  rw [quietWhenLate_iff hdeadline hsteady, hok]
  simp

/-- Only the last reading before a call matters, for the clock never runs back. -/
theorem late_last_iff (hsteady : Steady turns) (hok : wait deadline turns = some .ok) :
    (∀ turn ∈ polled deadline turns, ¬ Late deadline turn) ↔
      ∀ turn ∈ (polled deadline turns).getLast?, ¬ Late deadline turn := by
  constructor
  · intro hnone turn hlast
    exact hnone turn (List.mem_of_getLast? hlast)
  · intro hlast turn hmem hlate
    obtain ⟨before, last, hpolled, -⟩ := wait_last hok
    have hsteady := hsteady.sublist (polled_sublist deadline turns)
    rw [hpolled] at hsteady hmem hlast
    exact hlast last List.getLast?_concat (late_of_append hsteady hmem hlate)

end

/-! ## Transfer loops -/

/-- One round of a transfer loop: the turns of its wait, and whether `send` or `recv` is called behind it. -/
structure Round where
  polls : List WaitTurn
  calls : Bool

/-- A run of a transfer loop: what it returns if the script is long enough, the state it leaves, and its rounds. -/
structure IoRun (σ : Type) where
  status : Option Status
  state : σ
  rounds : List Round

section
variable {σ ω : Type}

def IoRun.after (run : IoRun σ) (round : Round) : IoRun σ := { run with rounds := round :: run.rounds }

/-- What a run returns, and what `outcome` reads off the state that it leaves. -/
def IoRun.result {ρ : Type} (run : IoRun σ) (outcome : σ → ρ) : Option (Status × ρ) :=
  run.status.map fun status => (status, outcome run.state)

/-- A transfer loop on a state: while there is `more` to do it waits and makes a call, and the `next` state or
what it returns comes from how the call goes. -/
def ioRun (deadline : Timespec) (more : σ → Bool) (next : σ → ω → Except Status σ) : List (IoTurn ω) → σ → IoRun σ
  | [], state => ⟨if more state then none else some .ok, state, []⟩
  | turn :: rest, state =>
    if more state then
      match wait deadline turn.waits with
      | some .ok =>
        match next state turn.outcome with
        | .ok state' => (ioRun deadline more next rest state').after ⟨polled deadline turn.waits, true⟩
        | .error status => ⟨some status, state, [⟨polled deadline turn.waits, true⟩]⟩
      | status => ⟨status, state, [⟨polled deadline turn.waits, false⟩]⟩
    else ⟨some .ok, state, []⟩

/-- A call is made behind a wait that finds the descriptor ready; what any other wait returns is returned. -/
theorem ioRun_round {deadline : Timespec} {more : σ → Bool} {next : σ → ω → Except Status σ}
    {turns : List (IoTurn ω)} : ∀ {state : σ}, ∀ round ∈ (ioRun deadline more next turns state).rounds,
    ∃ turn ∈ turns, round.polls = polled deadline turn.waits ∧
      if round.calls then wait deadline turn.waits = some .ok
      else (ioRun deadline more next turns state).status = wait deadline turn.waits := by
  induction turns with
  | nil =>
    intro state round hround
    cases hround
  | cons turn rest ih =>
    intro state round
    rw [ioRun]
    split
    · split
      · next hwait =>
        split
        · intro hround
          obtain rfl | hround := List.mem_cons.mp hround
          · exact ⟨turn, by simp, rfl, hwait⟩
          · obtain ⟨turn', hturn', hpolls, hends⟩ := ih round hround
            exact ⟨turn', List.mem_cons_of_mem _ hturn', hpolls, hends⟩
        · intro hround
          obtain rfl := List.mem_singleton.mp hround
          exact ⟨turn, by simp, rfl, hwait⟩
      · intro hround
        obtain rfl := List.mem_singleton.mp hround
        exact ⟨turn, by simp, rfl, rfl⟩
    · intro hround
      cases hround

end

/-! ## Keeping to the deadline -/

/-- No call is made behind a reading at or past the deadline, and a run with such a reading returns
`TIMEOUT`, unless the script ends before. -/
structure IoRun.RespectsDeadline {σ : Type} (deadline : Timespec) (run : IoRun σ) : Prop where
  calls : ∀ round ∈ run.rounds, round.calls = true → ∀ turn ∈ round.polls.getLast?, ¬ Late deadline turn
  status : ∀ round ∈ run.rounds, ∀ turn ∈ round.polls, Late deadline turn → ∀ status ∈ run.status, status = .timeout

/-- No late `poll` of the run has anything to report. -/
def IoRun.QuietWhenLate {σ : Type} (deadline : Timespec) (run : IoRun σ) : Prop :=
  ∀ round ∈ run.rounds, L08.QuietWhenLate deadline round.polls

instance {σ : Type} (deadline : Timespec) (run : IoRun σ) : Decidable (run.QuietWhenLate deadline) :=
  inferInstanceAs (Decidable (∀ round ∈ run.rounds, _))

section
variable {σ ω : Type} {deadline : Timespec} {more : σ → Bool} {next : σ → ω → Except Status σ}
  {turns : List (IoTurn ω)} {state : σ}

theorem steady_waits (hsteady : Steady (turns.flatMap IoTurn.waits)) {turn : IoTurn ω} (hturn : turn ∈ turns) :
    Steady turn.waits :=
  hsteady.sublist (List.sublist_flatten_of_mem (List.mem_map_of_mem hturn))

theorem ioRun_respectsDeadline_iff (hdeadline : deadline.Normal) (hsteady : Steady (turns.flatMap IoTurn.waits)) :
    (ioRun deadline more next turns state).RespectsDeadline deadline ↔
      (ioRun deadline more next turns state).QuietWhenLate deadline := by
  constructor
  · intro hrespects round hround
    obtain ⟨turn, hturn, hpolls, hends⟩ := ioRun_round round hround
    have hwaits := steady_waits hsteady hturn
    have hcalls := hrespects.calls round hround
    have hstatus := hrespects.status round hround
    rw [hpolls] at hcalls hstatus ⊢
    split at hends
    · next hcall =>
      exact (quietWhenLate_ok hdeadline hwaits hends).mpr ((late_last_iff hwaits hends).mpr (hcalls hcall))
    · rw [hends] at hstatus
      exact (quietWhenLate_iff hdeadline hwaits).mpr hstatus
  · intro hquiet
    constructor
    · intro round hround hcall
      obtain ⟨turn, hturn, hpolls, hends⟩ := ioRun_round round hround
      have hwaits := steady_waits hsteady hturn
      have hround := hquiet round hround
      rw [hpolls] at hround ⊢
      rw [if_pos hcall] at hends
      exact (late_last_iff hwaits hends).mp ((quietWhenLate_ok hdeadline hwaits hends).mp hround)
    · intro round hround poll hpoll hlate
      obtain ⟨turn, hturn, hpolls, hends⟩ := ioRun_round round hround
      have hwaits := steady_waits hsteady hturn
      have hround := hquiet round hround
      rw [hpolls] at hround hpoll
      split at hends
      · exact absurd hlate ((quietWhenLate_ok hdeadline hwaits hends).mp hround poll hpoll)
      · rw [hends]
        exact (quietWhenLate_iff hdeadline hwaits).mp hround poll hpoll hlate

end

/-! ## The loops of the lesson -/

/-- What `sendAllUntil` does with a `send`: its state is how much is accepted, and the wire. -/
def sendNext (data : Bytes) : Nat × Bytes → SendOutcome → Except Status (Nat × Bytes)
  | (offset, wire), .takes count =>
    let sent := transfer count (data.length - offset)
    .ok (offset + sent, wire ++ slice data offset sent)
  | (offset, _), .zero => .error (if offset = 0 then .eof else .truncated)
  | (offset, wire), .failed errno => if errno.isTransient then .ok (offset, wire) else .error .system

def sendRun (deadline : Timespec) (data : Bytes) (turns : List SendTurn) (offset : Nat) (wire : Bytes) :
    IoRun (Nat × Bytes) :=
  ioRun deadline (fun state => decide (state.1 < data.length)) (sendNext data) turns (offset, wire)

/-- What `recvExactUntil` does with a `recv`: its state is how much is received, the buffer and the stream. -/
def recvNext (len : Nat) : Nat × Bytes × Bytes → RecvOutcome → Except Status (Nat × Bytes × Bytes)
  | (offset, out, stream), .takes count =>
    let data := received stream (len - offset) count
    if data.length > 0 then .ok (offset + data.length, overwrite out offset data, stream.drop data.length)
    else .error (if offset = 0 then .eof else .truncated)
  | state, .failed errno => if errno.isTransient then .ok state else .error .system

def recvRun (deadline : Timespec) (len : Nat) (turns : List RecvTurn) (offset : Nat) (out stream : Bytes) :
    IoRun (Nat × Bytes × Bytes) :=
  ioRun deadline (fun state => decide (state.1 < len)) (recvNext len) turns (offset, out, stream)

theorem sendRun_result {deadline : Timespec} {data : Bytes} {turns : List SendTurn} :
    ∀ {offset : Nat} {wire : Bytes}, (sendRun deadline data turns offset wire).result Prod.snd =
      (sendAllUntil deadline data turns offset wire).map fun result => (result.status, result.wire) := by
  induction turns with
  | nil =>
    intro offset wire
    rw [sendRun, ioRun, sendAllUntil]
    by_cases hlt : offset < data.length <;> simp [hlt, IoRun.result]
  | cons turn rest ih =>
    intro offset wire
    rw [sendRun, ioRun, sendAllUntil]
    by_cases hlt : offset < data.length
    · rw [if_pos hlt, if_pos (decide_eq_true hlt)]
      cases hwait : wait deadline turn.waits with
      | none => rfl
      | some status =>
        cases status with
        | ok =>
          dsimp only
          cases turn.outcome with
          | takes count => exact ih
          | zero => rfl
          | failed errno =>
            cases herrno : errno.isTransient with
            | false => simp [sendNext, herrno, IoRun.result]
            | true =>
              simp only [sendNext, herrno, if_true]
              exact ih
        | _ => rfl
    · rw [if_neg hlt, if_neg (by simpa using hlt)]
      rfl

theorem recvRun_result {deadline : Timespec} {len : Nat} {turns : List RecvTurn} :
    ∀ {offset : Nat} {out stream : Bytes}, (recvRun deadline len turns offset out stream).result Prod.snd =
      (recvExactUntil deadline len turns offset out stream).map fun result =>
        (result.status, result.out, result.stream) := by
  induction turns with
  | nil =>
    intro offset out stream
    rw [recvRun, ioRun, recvExactUntil]
    by_cases hlt : offset < len <;> simp [hlt, IoRun.result]
  | cons turn rest ih =>
    intro offset out stream
    rw [recvRun, ioRun, recvExactUntil]
    by_cases hlt : offset < len
    · rw [if_pos hlt, if_pos (decide_eq_true hlt)]
      cases hwait : wait deadline turn.waits with
      | none => rfl
      | some status =>
        cases status with
        | ok =>
          dsimp only
          cases turn.outcome with
          | takes count =>
            dsimp only [recvNext]
            by_cases hsome : (received stream (len - offset) count).length > 0
            · rw [if_pos hsome, if_pos hsome]
              exact ih
            · rw [if_neg hsome, if_neg hsome]
              rfl
          | failed errno =>
            cases herrno : errno.isTransient with
            | false => simp [recvNext, herrno, IoRun.result]
            | true =>
              simp only [recvNext, herrno, if_true]
              exact ih
        | _ => rfl
    · rw [if_neg hlt, if_neg (by simpa using hlt)]
      rfl

/-- **Main result.** With a clock that never runs back, both loops respect the deadline in exactly the runs in
which no late `poll` has anything to report. -/
theorem respectsDeadline_iff {deadline : Timespec} (hdeadline : deadline.Normal) :
    (∀ {data wire : Bytes} {turns : List SendTurn}, Steady (turns.flatMap IoTurn.waits) →
      (sendRun deadline data turns 0 wire).result Prod.snd =
        (sendAllUntil deadline data turns 0 wire).map (fun result => (result.status, result.wire)) ∧
      ((sendRun deadline data turns 0 wire).RespectsDeadline deadline ↔
        (sendRun deadline data turns 0 wire).QuietWhenLate deadline)) ∧
    (∀ {len : Nat} {out stream : Bytes} {turns : List RecvTurn}, Steady (turns.flatMap IoTurn.waits) →
      (recvRun deadline len turns 0 out stream).result Prod.snd =
        (recvExactUntil deadline len turns 0 out stream).map (fun result =>
          (result.status, result.out, result.stream)) ∧
      ((recvRun deadline len turns 0 out stream).RespectsDeadline deadline ↔
        (recvRun deadline len turns 0 out stream).QuietWhenLate deadline)) := by
  constructor
  · intro data wire turns hsteady
    exact ⟨sendRun_result, ioRun_respectsDeadline_iff hdeadline hsteady⟩
  · intro len out stream turns hsteady
    exact ⟨recvRun_result, ioRun_respectsDeadline_iff hdeadline hsteady⟩

def readyNow : PollResult := .ready ⟨true, false, false, false⟩

/-- A byte before a deadline of one second, and what `poll` returns a second behind it. -/
def lateTurns {ω : Type} (outcome : ω) (late : PollResult) : List (IoTurn ω) :=
  [⟨[⟨some ⟨0, 500000000⟩, fun _ => readyNow⟩], outcome⟩, ⟨[⟨some ⟨2, 0⟩, fun _ => late⟩], outcome⟩]

theorem steady_lateTurns {ω : Type} (outcome : ω) (late : PollResult) :
    Steady ((lateTurns outcome late).flatMap IoTurn.waits) := by
  constructor
  · simp [lateTurns, Timespec.Normal, nsPerS]
  · simp [lateTurns, Timespec.ns, nsPerS]

/-- The second byte is not there yet: the deadline is respected. -/
theorem respectsDeadline_iff_expired :
    let run := recvRun ⟨1, 0⟩ 2 (lateTurns (.takes 1) .expired) 0 [0, 0] [7, 8]
    run.result Prod.snd = some (.timeout, [7, 0], [8]) ∧ run.RespectsDeadline ⟨1, 0⟩ := by
  obtain ⟨hresult, hrespects⟩ := (@respectsDeadline_iff ⟨1, 0⟩ (by decide)).2 (steady_lateTurns (.takes 1) .expired)
  exact ⟨hresult.trans (by decide), hrespects.mpr (by decide)⟩

/-- The second byte is there, and it is sent or received although the deadline has passed. -/
theorem not_respectsDeadline_ready :
    (Steady ((lateTurns (SendOutcome.takes 1) readyNow).flatMap IoTurn.waits) ∧
      (sendAllUntil ⟨1, 0⟩ [7, 8] (lateTurns (.takes 1) readyNow) 0 []).map SendResult.status = some .ok ∧
      ¬ (sendRun ⟨1, 0⟩ [7, 8] (lateTurns (.takes 1) readyNow) 0 []).RespectsDeadline ⟨1, 0⟩) ∧
    (Steady ((lateTurns (RecvOutcome.takes 1) readyNow).flatMap IoTurn.waits) ∧
      (recvExactUntil ⟨1, 0⟩ 2 (lateTurns (.takes 1) readyNow) 0 [0, 0] [7, 8]).map RecvResult.status = some .ok ∧
      ¬ (recvRun ⟨1, 0⟩ 2 (lateTurns (.takes 1) readyNow) 0 [0, 0] [7, 8]).RespectsDeadline ⟨1, 0⟩) := by
  refine ⟨⟨steady_lateTurns _ _, by decide, fun hrespects => ?_⟩, steady_lateTurns _ _, by decide,
    fun hrespects => ?_⟩
  · exact hrespects.calls _ (List.mem_cons_of_mem _ (List.mem_singleton_self _)) rfl _ rfl (by decide)
  · exact hrespects.calls _ (List.mem_cons_of_mem _ (List.mem_singleton_self _)) rfl _ rfl (by decide)

end TcpipCourse.L08
