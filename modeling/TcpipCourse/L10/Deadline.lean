import TcpipCourse.Lib.Logged
import TcpipCourse.L10.Endpoint

/-!
# Lesson 10: transfers and their deadline

A wait of this lesson returns `TIMEOUT` in front of its `poll` once the deadline has passed, unlike one of lesson
08. So a call keeps to its deadline whatever is ready by then, and `serve_one` to the same one in both its phases.

* `IoEvent` : readings of the clock, polls and transfers; `…Logged` : the loops with these logged (`value_…Logged`);
* `KeepsDeadline` : what a log may have behind a reading;
* `step_invalid`, `step_idle`, `step_transfers` : where the status of a call comes from;
* `call_keepsDeadline` : every call keeps to its deadline.
-/

namespace TcpipCourse.L10
open Lib Logged

/-! ## The loops with what they do logged -/

/-- What a loop asks the kernel for: the clock, a `poll` with its timeout, and a `send` or `recv`. -/
inductive IoEvent where
  | reads (clock : Option Timespec)
  | polls (timeout : Int)
  | transfers

def waitFdLogged (input : Bool) (deadline : Timespec) : List WaitTurn → Logged IoEvent (Option Status)
  | [] => pure none
  | turn :: rest => do
    tell (.reads turn.clock)
    let remaining := remainingMs deadline turn.clock
    if remaining < 0 then pure (some .system)
    else if remaining = 0 then pure (some .timeout)
    else do
      tell (.polls remaining)
      match turn.poll remaining with
      | .ready revents => pure (if revents.requested || (input && revents.hup) then some .ok else some .system)
      | .expired => pure (some .timeout)
      | .failed errno => if errno ≠ .eintr then pure (some .system) else waitFdLogged input deadline rest

def sendUntilLogged (deadline : Timespec) (message : Bytes) :
    List SendTurn → (sent : Nat) → (wire : Bytes) → Logged IoEvent (Option SendUntilResult)
  | [], sent, wire => pure (if sent < message.length then none else some ⟨.ok, sent, wire, []⟩)
  | turn :: rest, sent, wire =>
    if sent < message.length then do
      match ← waitFdLogged false deadline turn.waits with
      | none => pure none
      | some .ok =>
        tell .transfers
        match turn.outcome with
        | .takes count =>
          let n := transfer count (message.length - sent)
          sendUntilLogged deadline message rest (sent + n) (wire ++ slice message sent n)
        | .zero => pure (some ⟨.system, sent, wire, rest⟩)
        | .failed errno =>
          if errno.isTransient then sendUntilLogged deadline message rest sent wire
          else pure (some ⟨.system, sent, wire, rest⟩)
      | some status => pure (some ⟨status, sent, wire, rest⟩)
    else pure (some ⟨.ok, sent, wire, turn :: rest⟩)

def recvUntilLogged (deadline : Timespec) (turns : List RecvTurn) (out : Bytes) (received : Nat) (stream : Bytes) :
    Logged IoEvent (Option RecvUntilResult) :=
  match recvVerdict out received with
  | some verdict => pure (some ⟨verdict.status, out, received, verdict.message, stream, turns⟩)
  | none =>
    match turns with
    | [] => pure none
    | turn :: rest => do
      match ← waitFdLogged true deadline turn.waits with
      | none => pure none
      | some .ok =>
        tell .transfers
        match turn.outcome with
        | .takes count =>
          let data := TcpipCourse.received stream (out.length - received) count
          if data.length > 0 then
            recvUntilLogged deadline rest (overwrite out received data) (received + data.length)
              (stream.drop data.length)
          else pure (some ⟨if received = 0 then .eof else .truncated, out, received, .zero, stream, rest⟩)
        | .failed errno =>
          if errno.isTransient then recvUntilLogged deadline rest out received stream
          else pure (some ⟨.system, out, received, .zero, stream, rest⟩)
      | some status => pure (some ⟨status, out, received, .zero, stream, rest⟩)

theorem value_waitFdLogged (input : Bool) (deadline : Timespec) (turns : List WaitTurn) :
    (waitFdLogged input deadline turns).value = waitFd input deadline turns := by
  induction turns with
  | nil => rfl
  | cons turn rest ih =>
    rw [waitFdLogged, waitFd]
    dsimp only
    simp only [value_bind, value_ite, value_pure]
    split
    · rfl
    · split
      · rfl
      · cases turn.poll (remainingMs deadline turn.clock) with
        | ready revents => rfl
        | expired => rfl
        | failed errno => simp only [value_ite, value_pure, ih]

theorem value_sendUntilLogged {deadline : Timespec} {message : Bytes} {turns : List SendTurn} :
    ∀ {sent : Nat} {wire : Bytes},
    (sendUntilLogged deadline message turns sent wire).value = sendUntil deadline message turns sent wire := by
  induction turns with
  | nil => exact fun {_ _} => rfl
  | cons turn rest ih =>
    intro sent wire
    rw [sendUntilLogged, sendUntil]
    simp only [value_ite, value_bind, value_waitFdLogged]
    split
    · cases waitFd false deadline turn.waits with
      | none => rfl
      | some status =>
        cases status with
        | ok =>
          dsimp only
          rw [value_bind]
          cases turn.outcome with
          | takes count => exact ih
          | zero => rfl
          | failed errno =>
            dsimp only
            rw [value_ite, ih]
            rfl
        | _ => rfl
    · rfl

theorem value_recvUntilLogged {deadline : Timespec} {turns : List RecvTurn} :
    ∀ {out : Bytes} {received : Nat} {stream : Bytes},
    (recvUntilLogged deadline turns out received stream).value = recvUntil deadline turns out received stream := by
  induction turns with
  | nil =>
    intro out received stream
    unfold recvUntilLogged recvUntil
    cases recvVerdict out received <;> rfl
  | cons turn rest ih =>
    intro out received stream
    unfold recvUntilLogged recvUntil
    cases recvVerdict out received with
    | some verdict => rfl
    | none =>
      dsimp only
      rw [value_bind, value_waitFdLogged]
      cases waitFd true deadline turn.waits with
      | none => rfl
      | some status =>
        cases status with
        | ok =>
          dsimp only
          rw [value_bind]
          cases turn.outcome with
          | takes count =>
            dsimp only
            rw [value_ite, ih]
            rfl
          | failed errno =>
            dsimp only
            rw [value_ite, ih]
            rfl
        | _ => rfl

/-! ## Keeping to the deadline -/

/-- Behind the reading `last`: a `poll` and a transfer come behind a reading before the deadline, and the `poll` ends
less than a millisecond behind it; nothing comes behind a later reading, and the status is `TIMEOUT`. -/
def KeepsDeadline (deadline : Timespec) (status : Option Status) : Option Timespec → List IoEvent → Prop
  | _, [] => True
  | _, .reads clock :: rest =>
    (∀ now ∈ clock, deadline.ns ≤ now.ns → rest = [] ∧ status = some .timeout) ∧
      KeepsDeadline deadline status clock rest
  | last, .polls timeout :: rest =>
    (∃ now ∈ last, now.ns < deadline.ns ∧ 0 < timeout ∧ now.ns + timeout * nsPerMs < deadline.ns + nsPerMs) ∧
      KeepsDeadline deadline status last rest
  | last, .transfers :: rest =>
    (∃ now ∈ last, now.ns < deadline.ns) ∧ KeepsDeadline deadline status last rest

/-- What remains is positive exactly in front of the deadline, and then it is the gap rounded up. -/
theorem remainingMs_some {deadline now : Timespec} (hdeadline : deadline.Normal) (hnow : now.Normal) :
    (deadline.ns ≤ now.ns ∧ remainingMs deadline (some now) = 0) ∨
      (now.ns < deadline.ns ∧ 0 < remainingMs deadline (some now) ∧
        now.ns + remainingMs deadline (some now) * nsPerMs < deadline.ns + nsPerMs) := by
  obtain ⟨hd0, hd1⟩ := hdeadline
  obtain ⟨hn0, hn1⟩ := hnow
  unfold nsPerS at hd1 hn1
  obtain ⟨seconds, nanoseconds, hs, hn, hn0', hn1', hgap⟩ : ∃ seconds nanoseconds : Int,
      (if deadline.tvNsec - now.tvNsec < 0 then deadline.tvSec - now.tvSec - 1 else deadline.tvSec - now.tvSec) =
        seconds ∧
      (if deadline.tvNsec - now.tvNsec < 0 then deadline.tvNsec - now.tvNsec + 1000000000
        else deadline.tvNsec - now.tvNsec) = nanoseconds ∧
      0 ≤ nanoseconds ∧ nanoseconds < 1000000000 ∧ seconds * 1000000000 + nanoseconds = deadline.ns - now.ns := by
    refine ⟨_, _, rfl, rfl, ?_⟩
    unfold Timespec.ns nsPerS
    split <;> omega
  have hup : (nanoseconds + 999999).tdiv 1000000 = (nanoseconds + 999999) / 1000000 :=
    Int.tdiv_eq_ediv_of_nonneg (by omega)
  have hcap : intMax.tdiv 1000 = 2147483 := rfl
  unfold remainingMs nsPerS nsPerMs
  dsimp only
  rw [hs, hn, hup, hcap]
  unfold intMax
  split
  · next hlate => exact .inl ⟨by omega, rfl⟩
  · next hearly =>
    refine .inr ⟨by omega, ?_⟩
    split
    · omega
    · split <;> omega

theorem waitFdLogged_keeps {input : Bool} {deadline : Timespec} {turns : List WaitTurn} {status : Option Status}
    {log : List IoEvent} (hdeadline : deadline.Normal) (hreads : ∀ turn ∈ turns, ∀ now ∈ turn.clock, now.Normal)
    (hok : waitFd input deadline turns = some .ok →
      ∀ now : Timespec, now.ns < deadline.ns → KeepsDeadline deadline status (some now) log)
    (hstop : waitFd input deadline turns ≠ some .ok → log = [] ∧ status = waitFd input deadline turns) :
    ∀ last, KeepsDeadline deadline status last ((waitFdLogged input deadline turns).log ++ log) := by
  induction turns with
  | nil =>
    intro last
    rw [(hstop (by simp [waitFd])).1]
    trivial
  | cons turn rest ih =>
    intro last
    obtain ⟨hturn, hrest⟩ := List.forall_mem_cons.mp hreads
    rw [waitFd] at hok hstop
    rw [waitFdLogged]
    dsimp only at hok hstop ⊢
    cases hclock : turn.clock with
    | none =>
      have hfail : remainingMs deadline none < 0 := by
        show (-1 : Int) < 0
        decide
      rw [hclock, if_pos hfail] at hok hstop
      rw [if_pos hfail, (hstop (by simp)).1]
      exact ⟨fun _ hnow => (Option.not_mem_none _ hnow).elim, trivial⟩
    | some now =>
      rw [hclock] at hok hstop
      rcases remainingMs_some hdeadline (hturn now (Option.mem_def.mpr hclock)) with ⟨-, hzero⟩ | ⟨hearly, hpos, hends⟩
      · rw [hzero, if_neg (by decide), if_pos rfl] at hok hstop
        obtain ⟨rfl, rfl⟩ := hstop (by simp)
        rw [hzero, if_neg (by decide), if_pos rfl]
        exact ⟨fun _ _ _ => ⟨rfl, rfl⟩, trivial⟩
      · rw [if_neg (by omega), if_neg (by omega)] at hok hstop ⊢
        simp only [log_bind, log_tell, List.singleton_append]
        refine ⟨fun _ hnow hlate => ?_, ⟨now, rfl, hearly, hpos, hends⟩, ?_⟩
        · rw [← Option.mem_some_iff.mp hnow] at hlate
          omega
        · cases hpoll : turn.poll (remainingMs deadline (some now)) with
          | ready revents =>
            rw [hpoll] at hok hstop
            dsimp only at hok hstop
            show KeepsDeadline deadline status (some now) log
            by_cases hready : (revents.requested || (input && revents.hup)) = true
            · rw [if_pos hready] at hok
              exact hok rfl now hearly
            · rw [if_neg hready] at hstop
              rw [(hstop (by simp)).1]
              trivial
          | expired =>
            rw [hpoll] at hok hstop
            rw [(hstop (by simp)).1]
            trivial
          | failed errno =>
            rw [hpoll] at hok hstop
            dsimp only at hok hstop ⊢
            by_cases herrno : errno = .eintr
            · rw [if_neg (not_not.mpr herrno)] at hok hstop ⊢
              exact ih hrest hok hstop (some now)
            · rw [if_pos herrno] at hstop ⊢
              rw [(hstop (by simp)).1]
              trivial

/-- The readings of a transfer loop are in normal form. -/
def NormalReadings {ω : Type} (turns : List (IoTurn ω)) : Prop :=
  ∀ turn ∈ turns, ∀ wait ∈ turn.waits, ∀ now ∈ wait.clock, now.Normal

theorem sendUntilLogged_keeps {deadline : Timespec} {message : Bytes} {turns : List SendTurn}
    (hdeadline : deadline.Normal) (hreads : NormalReadings turns) :
    ∀ {sent : Nat} {wire : Bytes} {last : Option Timespec},
    KeepsDeadline deadline ((sendUntil deadline message turns sent wire).map SendUntilResult.status) last
      (sendUntilLogged deadline message turns sent wire).log := by
  induction turns with
  | nil => exact fun {_ _ _} => trivial
  | cons turn rest ih =>
    intro sent wire last
    obtain ⟨hturn, hrest⟩ := List.forall_mem_cons.mp hreads
    rw [sendUntilLogged, sendUntil]
    split
    · rw [log_bind, value_waitFdLogged]
      apply waitFdLogged_keeps hdeadline hturn
      · intro hok now hearly
        rw [hok]
        dsimp only
        rw [log_bind]
        refine ⟨⟨now, rfl, hearly⟩, ?_⟩
        cases turn.outcome with
        | takes count => exact ih hrest
        | zero => trivial
        | failed errno =>
          dsimp only
          split
          · exact ih hrest
          · trivial
      · intro hstop
        cases hwait : waitFd false deadline turn.waits with
        | none => exact ⟨rfl, rfl⟩
        | some status =>
          cases status with
          | ok => exact absurd hwait hstop
          | _ => exact ⟨rfl, rfl⟩
    · trivial

/-- What comes behind a receive starts with a reading, and nothing does behind one that is not `OK`. -/
theorem recvUntilLogged_keeps {deadline : Timespec} {turns : List RecvTurn} {status : Option Status}
    {log : List IoEvent} (hdeadline : deadline.Normal) (hreads : NormalReadings turns)
    (hlog : ∀ last, KeepsDeadline deadline status last log) :
    ∀ {out : Bytes} {received : Nat} {stream : Bytes} {last : Option Timespec},
    ((recvUntil deadline turns out received stream).map RecvUntilResult.status ≠ some .ok →
      log = [] ∧ status = (recvUntil deadline turns out received stream).map RecvUntilResult.status) →
    KeepsDeadline deadline status last ((recvUntilLogged deadline turns out received stream).log ++ log) := by
  induction turns with
  | nil =>
    intro out received stream last _
    unfold recvUntilLogged
    cases recvVerdict out received <;> exact hlog last
  | cons turn rest ih =>
    intro out received stream last hstop
    obtain ⟨hturn, hrest⟩ := List.forall_mem_cons.mp hreads
    unfold recvUntil at hstop
    unfold recvUntilLogged
    cases hverdict : recvVerdict out received with
    | some verdict => exact hlog last
    | none =>
      rw [hverdict] at hstop
      dsimp only at hstop ⊢
      rw [log_bind, value_waitFdLogged, List.append_assoc]
      apply waitFdLogged_keeps hdeadline hturn
      · intro hok now hearly
        rw [hok] at hstop ⊢
        dsimp only at hstop ⊢
        rw [log_bind]
        refine ⟨⟨now, rfl, hearly⟩, ?_⟩
        cases hturn : turn.outcome with
        | takes count =>
          rw [hturn] at hstop
          dsimp only at hstop ⊢
          split at hstop
          · next hsome =>
            rw [if_pos hsome]
            exact ih hrest hstop
          · next hnone =>
            rw [if_neg hnone]
            exact hlog _
        | failed errno =>
          rw [hturn] at hstop
          dsimp only at hstop ⊢
          split at hstop
          · next htransient =>
            rw [if_pos htransient]
            exact ih hrest hstop
          · next hfatal =>
            rw [if_neg hfatal]
            exact hlog _
      · intro hwait
        cases hresult : waitFd true deadline turn.waits with
        | none =>
          rw [hresult] at hstop
          exact hstop (by simp)
        | some result =>
          rw [hresult] at hstop
          cases result with
          | ok => exact absurd hresult hwait
          | _ => exact hstop (by simp)

/-! ## The calls -/

def serveTransfersLogged (requestBuffer : Bytes) (recvTurns : List RecvTurn) (sendTurns : List SendTurn)
    (wire stream : Bytes) (deadline : Timespec) : Logged IoEvent (Option (Status × Bytes × Bytes × Bytes)) := do
  match ← recvUntilLogged deadline recvTurns requestBuffer 0 stream with
  | none => pure none
  | some request =>
    if requestStatus request = .ok then do
      let result ← sendUntilLogged deadline response sendTurns 0 wire
      pure (result.map fun result => (result.status, request.out, result.wire, request.stream))
    else pure (some (requestStatus request, request.out, wire, request.stream))

theorem value_serveTransfersLogged (requestBuffer : Bytes) (recvTurns : List RecvTurn) (sendTurns : List SendTurn)
    (wire stream : Bytes) (deadline : Timespec) :
    (serveTransfersLogged requestBuffer recvTurns sendTurns wire stream deadline).value =
      serveTransfers requestBuffer recvTurns sendTurns wire stream deadline := by
  unfold serveTransfersLogged serveTransfers
  rw [value_bind, value_recvUntilLogged]
  cases recvUntil deadline recvTurns requestBuffer 0 stream with
  | none => rfl
  | some request =>
    dsimp only
    rw [value_ite, value_bind, value_sendUntilLogged]
    rfl

/-- The readings of both phases of a server are against one deadline. -/
theorem serveTransfersLogged_keeps {requestBuffer : Bytes} {recvTurns : List RecvTurn} {sendTurns : List SendTurn}
    {wire stream : Bytes} {deadline : Timespec} (hdeadline : deadline.Normal) (hrecv : NormalReadings recvTurns)
    (hsend : NormalReadings sendTurns) (last : Option Timespec) :
    KeepsDeadline deadline ((serveTransfers requestBuffer recvTurns sendTurns wire stream deadline).map Prod.fst) last
      (serveTransfersLogged requestBuffer recvTurns sendTurns wire stream deadline).log := by
  unfold serveTransfersLogged serveTransfers
  rw [log_bind, value_recvUntilLogged]
  cases hrequest : recvUntil deadline recvTurns requestBuffer 0 stream with
  | none =>
    apply recvUntilLogged_keeps hdeadline hrecv
    · exact fun _ => trivial
    · rw [hrequest]
      exact fun _ => ⟨rfl, rfl⟩
  | some request =>
    dsimp only
    by_cases hgood : requestStatus request = .ok
    · rw [if_pos hgood, if_pos hgood, log_bind, Option.map_map]
      have hkeeps := @sendUntilLogged_keeps deadline response sendTurns hdeadline hsend 0 wire
      apply recvUntilLogged_keeps hdeadline hrecv
      · intro last
        rw [log_pure, List.append_nil]
        exact hkeeps
      · intro hbad
        rw [hrequest] at hbad
        exact absurd (congrArg some (requestStatus_ok.mp hgood).1) hbad
    · rw [if_neg hgood, if_neg hgood]
      apply recvUntilLogged_keeps hdeadline hrecv
      · exact fun _ => trivial
      · rw [hrequest]
        intro hbad
        refine ⟨rfl, ?_⟩
        have hsame : requestStatus request = request.status := if_neg fun h => hbad (congrArg some h.1)
        rw [Option.map_some, Option.map_some, hsame]

def Call.transfers (endpoint : Endpoint) (deadline : Timespec) : Call → Option Status
  | .send message _ _ turns => (sendUntil deadline message turns 0 endpoint.wire).map SendUntilResult.status
  | .recv out _ _ turns => (recvUntil deadline turns out 0 endpoint.stream).map RecvUntilResult.status
  | .serve requestBuffer _ _ recvTurns sendTurns =>
    (serveTransfers requestBuffer recvTurns sendTurns endpoint.wire endpoint.stream deadline).map Prod.fst

def Call.transfersLogged (endpoint : Endpoint) (deadline : Timespec) : Call → Logged IoEvent (Option Status)
  | .send message _ _ turns => do
    let result ← sendUntilLogged deadline message turns 0 endpoint.wire
    pure (result.map SendUntilResult.status)
  | .recv out _ _ turns => do
    let result ← recvUntilLogged deadline turns out 0 endpoint.stream
    pure (result.map RecvUntilResult.status)
  | .serve requestBuffer _ _ recvTurns sendTurns => do
    let result ← serveTransfersLogged requestBuffer recvTurns sendTurns endpoint.wire endpoint.stream deadline
    pure (result.map Prod.fst)

theorem Call.value_transfersLogged (endpoint : Endpoint) (deadline : Timespec) (call : Call) :
    (call.transfersLogged endpoint deadline).value = call.transfers endpoint deadline := by
  cases call with
  | send message timeoutMs script turns =>
    rw [Call.transfersLogged, value_bind, value_sendUntilLogged]
    rfl
  | recv out timeoutMs script turns =>
    rw [Call.transfersLogged, value_bind, value_recvUntilLogged]
    rfl
  | serve requestBuffer timeoutMs script recvTurns sendTurns =>
    rw [Call.transfersLogged, value_bind, value_serveTransfersLogged]
    rfl

def Call.timeoutMs : Call → Int
  | .send _ timeoutMs _ _ | .recv _ timeoutMs _ _ | .serve _ timeoutMs _ _ _ => timeoutMs

def Call.script : Call → CallScript
  | .send _ _ script _ | .recv _ _ script _ | .serve _ _ script _ _ => script

/-- Every reading of the clock during the call is in normal form. -/
def Call.NormalReadings : Call → Prop
  | .send _ _ _ turns => L10.NormalReadings turns
  | .recv _ _ _ turns => L10.NormalReadings turns
  | .serve _ _ _ recvTurns sendTurns => L10.NormalReadings recvTurns ∧ L10.NormalReadings sendTurns

theorem Call.transfersLogged_keeps {endpoint : Endpoint} {deadline : Timespec} {call : Call}
    (hdeadline : deadline.Normal) (hreads : call.NormalReadings) (last : Option Timespec) :
    KeepsDeadline deadline (call.transfers endpoint deadline) last (call.transfersLogged endpoint deadline).log := by
  cases call with
  | send message timeoutMs script turns =>
    rw [Call.transfersLogged, log_bind, log_pure, List.append_nil]
    exact sendUntilLogged_keeps hdeadline hreads
  | recv out timeoutMs script turns =>
    rw [Call.transfersLogged, log_bind]
    apply recvUntilLogged_keeps hdeadline hreads
    · exact fun _ => trivial
    · exact fun _ => ⟨rfl, rfl⟩
  | serve requestBuffer timeoutMs script recvTurns sendTurns =>
    rw [Call.transfersLogged, log_bind, log_pure, List.append_nil]
    exact serveTransfersLogged_keeps hdeadline hreads.1 hreads.2 last

theorem deadlineAfter_normal {now : Timespec} {timeoutMs : Int} (hnow : now.Normal) (htimeout : 0 ≤ timeoutMs) :
    (deadlineAfter now timeoutMs).Normal := by
  obtain ⟨h0, h1⟩ := hnow
  unfold nsPerS at h1
  unfold deadlineAfter nsPerS nsPerMs
  rw [Int.tmod_eq_emod_of_nonneg htimeout]
  dsimp only
  split
  · refine ⟨?_, ?_⟩ <;> dsimp only [nsPerS] <;> omega
  · refine ⟨?_, ?_⟩ <;> dsimp only [nsPerS] <;> omega

/-- The arguments that a call does not reject. -/
def Call.Valid (fd : Int) : Call → Prop
  | .send _ timeoutMs _ _ => 0 ≤ fd ∧ 0 ≤ timeoutMs
  | .recv out timeoutMs _ _ => 0 ≤ fd ∧ out.length ≠ 0 ∧ 0 ≤ timeoutMs
  | .serve requestBuffer timeoutMs _ _ _ => 0 ≤ fd ∧ requestBuffer.length ≠ 0 ∧ 0 ≤ timeoutMs

/-- A send of nothing returns in front of the clock and the flags. -/
def Call.Idle : Call → Prop
  | .send message _ _ _ => message.length = 0
  | .recv _ _ _ _ | .serve _ _ _ _ _ => False

theorem step_invalid {fd : Int} {call : Call} (hinvalid : ¬ call.Valid fd) (endpoint : Endpoint) :
    (endpoint.step fd call).map Prod.fst = some .invalidArgument := by
  cases call with
  | send message timeoutMs script turns =>
    have hreject : fd < 0 ∨ timeoutMs < 0 := by
      simp only [Call.Valid] at hinvalid
      omega
    rw [Endpoint.step, sendMessage, if_pos hreject]
    rfl
  | recv out timeoutMs script turns =>
    have hreject : fd < 0 ∨ out.length = 0 ∨ timeoutMs < 0 := by
      simp only [Call.Valid] at hinvalid
      omega
    rw [Endpoint.step, recvMessage, if_pos hreject]
    rfl
  | serve requestBuffer timeoutMs script recvTurns sendTurns =>
    have hreject : fd < 0 ∨ requestBuffer.length = 0 ∨ timeoutMs < 0 := by
      simp only [Call.Valid] at hinvalid
      omega
    rw [Endpoint.step, serveOne, if_pos hreject]
    rfl

theorem step_idle {fd : Int} {call : Call} (hvalid : call.Valid fd) (hidle : call.Idle) (endpoint : Endpoint)
    (deadline : Timespec) : (endpoint.step fd call).map Prod.fst = call.transfers endpoint deadline := by
  cases call with
  | send message timeoutMs script turns =>
    obtain ⟨hfd, htimeout⟩ := hvalid
    have hempty : message.length = 0 := hidle
    rw [Endpoint.step, sendMessage, if_neg (by omega), if_pos hempty, List.length_eq_zero_iff.mp hempty]
    cases turns <;> rfl
  | recv out timeoutMs script turns => exact hidle.elim
  | serve requestBuffer timeoutMs script recvTurns sendTurns => exact hidle.elim

theorem step_transfers {fd : Int} {call : Call} (hvalid : call.Valid fd) (hidle : ¬ call.Idle) (endpoint : Endpoint) :
    ∃ (ρ : Type) (transfers : Timespec → Option (Status × ρ)),
      (∀ deadline, (transfers deadline).map Prod.fst = call.transfers endpoint deadline) ∧
      (endpoint.step fd call).map Prod.fst =
        (underDeadline call.script call.timeoutMs endpoint.flags transfers).map Prod.fst := by
  cases call with
  | send message timeoutMs script turns =>
    obtain ⟨hfd, htimeout⟩ := hvalid
    have hsome : message.length ≠ 0 := hidle
    refine ⟨_, fun deadline => (sendUntil deadline message turns 0 endpoint.wire).map fun r => (r.status, r), ?_, ?_⟩
    · intro deadline
      rw [Option.map_map]
      rfl
    · rw [Endpoint.step, sendMessage, if_neg (by omega), if_neg hsome, Option.map_map, Option.map_map]
      congr 1
      funext ⟨status, flags, left⟩
      cases left <;> rfl
  | recv out timeoutMs script turns =>
    obtain ⟨hfd, hroom, htimeout⟩ := hvalid
    refine ⟨_, fun deadline => (recvUntil deadline turns out 0 endpoint.stream).map fun r => (r.status, r), ?_, ?_⟩
    · intro deadline
      rw [Option.map_map]
      rfl
    · rw [Endpoint.step, recvMessage, if_neg (by omega), Option.map_map, Option.map_map]
      congr 1
      funext ⟨status, flags, left⟩
      cases left <;> rfl
  | serve requestBuffer timeoutMs script recvTurns sendTurns =>
    obtain ⟨hfd, hroom, htimeout⟩ := hvalid
    refine ⟨_, serveTransfers requestBuffer recvTurns sendTurns endpoint.wire endpoint.stream, fun _ => rfl, ?_⟩
    rw [Endpoint.step, serveOne, if_neg (by omega), Option.map_map, Option.map_map]
    congr 1
    funext ⟨status, flags, left⟩
    cases left <;> rfl

/-- **Main result.** Whatever the schedule, a call keeps to the deadline that its first reading of the clock sets:
no `poll` waits past the millisecond behind it, no `send` or `recv` comes behind a reading at or past it, and such a
reading ends the transfers of both phases with `TIMEOUT`. A call with valid arguments returns what its transfers
return, unless it has something to do and its flags fail: then it returns `SYSTEM`. -/
theorem call_keepsDeadline {fd : Int} {call : Call} {endpoint endpoint' : Endpoint} {status : Status} {now : Timespec}
    (hnow : call.script.clock = some now) (hnormal : now.Normal) (hreads : call.NormalReadings)
    (h : endpoint.step fd call = some (status, endpoint')) :
    let deadline := deadlineAfter now call.timeoutMs
    let transfers := call.transfersLogged endpoint deadline
    (0 ≤ call.timeoutMs → KeepsDeadline deadline transfers.value none transfers.log) ∧
      (¬ call.Valid fd → status = .invalidArgument) ∧
      (call.Valid fd → call.Idle ∨ call.script.FlagsSucceed endpoint.flags → transfers.value = some status) ∧
      (call.Valid fd → ¬ call.Idle → ¬ call.script.FlagsSucceed endpoint.flags → status = .system) := by
  intro deadline transfers
  have hvalue : transfers.value = call.transfers endpoint deadline := Call.value_transfersLogged endpoint deadline call
  have hstep : (endpoint.step fd call).map Prod.fst = some status := by
    rw [h]
    rfl
  have hmakes (hvalid : call.Valid fd) (hidle : ¬ call.Idle) :
      (call.script.FlagsSucceed endpoint.flags → call.transfers endpoint deadline = some status) ∧
        (¬ call.script.FlagsSucceed endpoint.flags → status = .system) := by
    obtain ⟨ρ, made, hmade, hsame⟩ := step_transfers hvalid hidle endpoint
    rw [hstep] at hsame
    obtain ⟨⟨_, flags, left⟩, hunder, rfl⟩ := Option.map_eq_some_iff.mp hsame.symm
    rw [← hmade]
    exact underDeadline_status hnow hunder
  rw [hvalue]
  refine ⟨fun htimeout => ?_, fun hinvalid => ?_, fun hvalid hgood => ?_, fun hvalid hidle => (hmakes hvalid hidle).2⟩
  · exact Call.transfersLogged_keeps (deadlineAfter_normal hnormal htimeout) hreads none
  · rw [step_invalid hinvalid] at hstep
    exact (Option.some.inj hstep).symm
  · by_cases hidle : call.Idle
    · rw [← step_idle hvalid hidle endpoint, hstep]
    · exact (hmakes hvalid hidle).1 (hgood.resolve_left hidle)

/-- A server whose request comes in two parts, and that is late for its response. -/
def lateServe : Call :=
  .serve (List.replicate 32 0) 1000 patientScript [readyTurn (.takes 9), readyTurn (.takes 9)] [lateTurn (.takes 9)]

theorem call_keepsDeadline_late :
    let endpoint : Endpoint := ⟨2, [], ascii "GET / HTTP/1.1\r\n\r\n".toList⟩
    let transfers := lateServe.transfersLogged endpoint ⟨1, 0⟩
    endpoint.step 3 lateServe = some (.timeout, ⟨2, [], []⟩) ∧ transfers.value = some .timeout ∧
      KeepsDeadline ⟨1, 0⟩ transfers.value none transfers.log := by
  have hreads : lateServe.NormalReadings := by
    simp [lateServe, Call.NormalReadings, NormalReadings, readyTurn, lateTurn, Timespec.Normal, nsPerS]
  have hstep : Endpoint.step 3 ⟨2, [], ascii "GET / HTTP/1.1\r\n\r\n".toList⟩ lateServe =
      some (.timeout, ⟨2, [], []⟩) := by decide +kernel
  obtain ⟨hkeeps, -, hreturns, -⟩ := call_keepsDeadline rfl (by decide) hreads hstep
  exact ⟨hstep, hreturns ⟨by decide, by decide, by decide⟩ (.inr ⟨by decide, by decide⟩), hkeeps (by decide)⟩

end TcpipCourse.L10
