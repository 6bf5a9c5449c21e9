import Mathlib.Data.List.Forall2
import TcpipCourse.Descriptor
import TcpipCourse.L10.Receive

/-!
# Lesson 10: the calls on a connection

A call reads the clock once, makes the descriptor nonblocking, does its transfers under one deadline and puts the
flags back.

* `sendUntil` : the send loop; `sendUntil_wire`, `recvUntil_taken` : how far a loop got, under every schedule;
* `underDeadline` : what the calls share; `sendMessage`, `recvMessage`, `serveOne` : the calls;
* `resend_wire` : a caller that goes on behind the bytes that were sent neither loses nor repeats one;
* `endpoint_run` : what any run of calls leaves of the descriptor, the wire and the stream.
-/

namespace TcpipCourse.L10
open Lib

/-! ## The send loop -/

/-- How a send ends: `*sent`, what is on the wire by then, and the script that is left. -/
structure SendUntilResult where
  status : Status
  sent : Nat
  wire : Bytes
  rest : List SendTurn

/-- A `send` that returns zero is a failure here, unlike in lesson 08. -/
def sendUntil (deadline : Timespec) (message : Bytes) :
    List SendTurn → (sent : Nat) → (wire : Bytes) → Option SendUntilResult
  | [], sent, wire => if sent < message.length then none else some ⟨.ok, sent, wire, []⟩
  | turn :: rest, sent, wire =>
    if sent < message.length then
      match waitFd false deadline turn.waits with
      | none => none
      | some .ok =>
        match turn.outcome with
        | .takes count =>
          let n := transfer count (message.length - sent)
          sendUntil deadline message rest (sent + n) (wire ++ slice message sent n)
        | .zero => some ⟨.system, sent, wire, rest⟩
        | .failed errno =>
          if errno.isTransient then sendUntil deadline message rest sent wire else some ⟨.system, sent, wire, rest⟩
      | some status => some ⟨status, sent, wire, rest⟩
    else some ⟨.ok, sent, wire, turn :: rest⟩

/-- A turn of a send that has bytes left: it returns without `OK` and without another byte on the wire, or `n`
bytes more are there. -/
theorem sendUntil_cons {deadline : Timespec} {message : Bytes} {turn : SendTurn} {rest : List SendTurn} {sent : Nat}
    {wire : Bytes} {result : SendUntilResult} (hlt : sent < message.length)
    (h : sendUntil deadline message (turn :: rest) sent wire = some result) :
    (result.status ≠ .ok ∧ result.sent = sent ∧ result.wire = wire) ∨
      ∃ n, sent + n ≤ message.length ∧
        sendUntil deadline message rest (sent + n) (wire ++ slice message sent n) = some result := by
  rw [sendUntil, if_pos hlt] at h
  split at h
  · cases h
  · split at h
    · next count _ =>
      have hle := @transfer_le count (message.length - sent) (by omega)
      exact .inr ⟨_, by omega, h⟩
    · obtain rfl := Option.some.inj h
      exact .inl ⟨by simp, rfl, rfl⟩
    · split at h
      · refine .inr ⟨0, hlt.le, ?_⟩
        rwa [slice, List.take_zero, List.append_nil]
      · obtain rfl := Option.some.inj h
        exact .inl ⟨by simp, rfl, rfl⟩
  · next hok _ =>
    obtain rfl := Option.some.inj h
    exact .inl ⟨hok, rfl, rfl⟩

/-- `*sent` is how much of the message is on the wire, and that is all of it exactly when the loop returns `OK`. -/
theorem sendUntil_wire {deadline : Timespec} {message : Bytes} {turns : List SendTurn} {result : SendUntilResult} :
    ∀ {sent : Nat} {wire : Bytes}, sent ≤ message.length →
    sendUntil deadline message turns sent wire = some result →
    ∃ n, result.sent = sent + n ∧ sent + n ≤ message.length ∧ result.wire = wire ++ slice message sent n ∧
      (result.status = .ok ↔ result.sent = message.length) := by
  induction turns with
  | nil =>
    intro sent wire hsent h
    rw [sendUntil] at h
    split at h
    · cases h
    · obtain rfl := Option.some.inj h
      exact ⟨0, rfl, hsent, by simp [slice], by simp; omega⟩
  | cons turn rest ih =>
    intro sent wire hsent h
    by_cases hlt : sent < message.length
    · rcases sendUntil_cons hlt h with ⟨hstatus, hcount, hwire⟩ | ⟨n, hn, hrest⟩
      · refine ⟨0, hcount, hsent, by simp [slice, hwire], ?_⟩
        simp only [hstatus, false_iff, hcount]
        omega
      · obtain ⟨m, hcount, hm, hwire, hdone⟩ := ih hn hrest
        refine ⟨n + m, by omega, by omega, ?_, hdone⟩
        rw [hwire, List.append_assoc, slice_append_slice message rfl]
    · rw [sendUntil, if_neg hlt] at h
      obtain rfl := Option.some.inj h
      exact ⟨0, rfl, hsent, by simp [slice], by simp; omega⟩

/-! ## How far a receive got -/

theorem recvVerdict_ok {out : Bytes} {received : Nat} {verdict : ParseResult}
    (h : recvVerdict out received = some verdict) (hok : verdict.status = .ok) :
    parseMessage (out.take received) = ⟨.ok, verdict.message⟩ := by
  rcases recvVerdict_some h with ⟨-, rfl⟩ | ⟨-, -, rfl⟩
  · rw [← hok]
  · cases hok

/-- A turn of a receive that waits for more: it returns without `OK` and without another byte, or the next `n`
bytes of the stream are in the buffer. -/
theorem recvUntil_cons {deadline : Timespec} {turn : RecvTurn} {rest : List RecvTurn} {out : Bytes} {received : Nat}
    {stream : Bytes} {result : RecvUntilResult} (hle : received ≤ out.length)
    (hverdict : recvVerdict out received = none)
    (h : recvUntil deadline (turn :: rest) out received stream = some result) :
    (result.status ≠ .ok ∧ result.out = out ∧ result.received = received ∧ result.stream = stream) ∨
      ∃ n, received + n ≤ out.length ∧ n ≤ stream.length ∧
        recvUntil deadline rest (overwrite out received (stream.take n)) (received + n) (stream.drop n) =
          some result := by
  have hroom := (recvVerdict_none hverdict).2
  unfold recvUntil at h
  rw [hverdict] at h
  dsimp only at h
  split at h
  · cases h
  · split at h
    · next count _ =>
      have htake := received_eq_take stream (out.length - received) count
      split at h
      · next hsome =>
        have hstream : stream ≠ [] := by
          rintro rfl
          simp [received_nil] at hsome
        obtain ⟨-, hfits⟩ := @length_received stream (out.length - received) count hstream (by omega)
        have hin := congrArg List.length htake
        rw [List.length_take] at hin
        refine .inr ⟨(TcpipCourse.received stream (out.length - received) count).length, by omega, by omega, ?_⟩
        rwa [← htake]
      · obtain rfl := Option.some.inj h
        refine .inl ⟨?_, rfl, rfl, rfl⟩
        dsimp only
        split <;> simp
    · split at h
      · refine .inr ⟨0, hle, Nat.zero_le _, ?_⟩
        rwa [List.take_zero, overwrite_nil]
      · obtain rfl := Option.some.inj h
        exact .inl ⟨by simp, rfl, rfl, rfl⟩
  · next hok _ =>
    obtain rfl := Option.some.inj h
    exact .inl ⟨hok, rfl, rfl, rfl⟩

/-- What a receive has taken off the stream; and when it accepts, it is the view of that. -/
theorem recvUntil_taken {deadline : Timespec} {turns : List RecvTurn} {result : RecvUntilResult} :
    ∀ {out : Bytes} {received : Nat} {stream : Bytes}, received ≤ out.length →
    recvUntil deadline turns out received stream = some result →
    ∃ n, result.received = received + n ∧ received + n ≤ out.length ∧ n ≤ stream.length ∧
      result.out = overwrite out received (stream.take n) ∧ result.stream = stream.drop n ∧
      (result.status = .ok → parseMessage (result.out.take result.received) = ⟨.ok, result.message⟩) := by
  induction turns with
  | nil =>
    intro out received stream hle h
    unfold recvUntil at h
    split at h
    · next verdict hverdict =>
      obtain rfl := Option.some.inj h
      exact ⟨0, rfl, hle, Nat.zero_le _, by simp, rfl, recvVerdict_ok hverdict⟩
    · cases h
  | cons turn rest ih =>
    intro out received stream hle h
    cases hverdict : recvVerdict out received with
    | some verdict =>
      unfold recvUntil at h
      rw [hverdict] at h
      obtain rfl := Option.some.inj h
      exact ⟨0, rfl, hle, Nat.zero_le _, by simp, rfl, recvVerdict_ok hverdict⟩
    | none =>
      rcases recvUntil_cons hle hverdict h with ⟨hstatus, hout, hcount, hleft⟩ | ⟨n, hn, hfits, hrest⟩
      · exact ⟨0, hcount, hle, Nat.zero_le _, by simp [hout], hleft, fun hok => absurd hok hstatus⟩
      · obtain ⟨m, hcount, hm, hmore, hout, hleft, haccepts⟩ := ih (by rwa [length_overwrite]) hrest
        have htaken : (stream.take n).length = n := List.length_take_of_le hfits
        have happ := overwrite_overwrite out received (stream.take n) ((stream.drop n).take m)
        rw [htaken] at happ
        rw [length_overwrite] at hm
        rw [List.length_drop] at hmore
        refine ⟨n + m, by omega, by omega, by omega, ?_, ?_, haccepts⟩
        · rw [hout, happ, List.take_add]
        · rw [hleft, List.drop_drop]

/-- From an empty buffer: what was received is the front of the stream. -/
theorem recvUntil_front {deadline : Timespec} {turns : List RecvTurn} {out stream : Bytes} {result : RecvUntilResult}
    (h : recvUntil deadline turns out 0 stream = some result) :
    result.out.take result.received = stream.take result.received ∧ result.stream = stream.drop result.received ∧
      (result.status = .ok → parseMessage (stream.take result.received) = ⟨.ok, result.message⟩) := by
  obtain ⟨n, hcount, hn, hfits, hout, hleft, haccepts⟩ := recvUntil_taken (Nat.zero_le _) h
  obtain rfl : result.received = n := by omega
  have hfront : result.out.take result.received = stream.take result.received := by
    rw [hout]
    exact take_overwrite_of_length (List.length_take_of_le hfits) (by omega)
  rw [hfront] at haccepts
  exact ⟨hfront, hleft, haccepts⟩

/-! ## The flags -/

structure Begun where
  status : Status
  originalFlags : UInt32
  flags : UInt32

def beginNonblocking (flags : UInt32) (getTurns setTurns : List FcntlTurn) : Option Begun :=
  match getFlags flags getTurns with
  | none => none
  | some (.error status) => some ⟨status, 0, flags⟩
  | some (.ok originalFlags) =>
    if originalFlags &&& oNonblock = 0 then
      match setFlags flags (originalFlags ||| oNonblock) setTurns with
      | none => none
      | some (status, flags) => some ⟨status, originalFlags, flags⟩
    else some ⟨.ok, originalFlags, flags⟩

def endNonblocking (flags originalFlags : UInt32) (status : Status) (turns : List FcntlTurn) :
    Option (Status × UInt32) :=
  if originalFlags &&& oNonblock ≠ 0 then some (status, flags)
  else
    match setFlags flags originalFlags turns with
    | none => none
    | some (restored, flags) => some (if restored = .ok then status else .system, flags)

theorem beginNonblocking_cases {flags : UInt32} {getTurns setTurns : List FcntlTurn} {begun : Begun}
    (h : beginNonblocking flags getTurns setTurns = some begun) :
    (begun.status = .ok ∧ begun.originalFlags = flags ∧ begun.flags = flags ||| oNonblock ∧
      FcntlPatient getTurns ∧ (flags &&& oNonblock = 0 → FcntlPatient setTurns)) ∨
    (begun.status = .system ∧ begun.flags = flags) := by
  unfold beginNonblocking getFlags at h
  cases hget : fcntlRetry getTurns with
  | none =>
    rw [hget] at h
    cases h
  | some done =>
    rw [hget] at h
    cases done with
    | false =>
      obtain rfl := Option.some.inj h
      exact .inr ⟨rfl, rfl⟩
    | true =>
      dsimp only [Option.map_some] at h
      rw [if_pos rfl] at h
      dsimp only at h
      split at h
      · split at h
        · cases h
        · next hset =>
          obtain rfl := Option.some.inj h
          rcases setFlags_cases hset with ⟨hok, hflags, hpatient⟩ | ⟨hfail, hflags⟩
          · exact .inl ⟨hok, rfl, hflags, hget, fun _ => hpatient⟩
          · exact .inr ⟨hfail, hflags⟩
      · next hset =>
        obtain rfl := Option.some.inj h
        exact .inl ⟨rfl, rfl, (or_nonblock_of_and_ne_zero hset).symm, hget, fun hclear => absurd hclear hset⟩

/-- The flags are put back, or the call reports that they are not. -/
theorem endNonblocking_cases {flags : UInt32} {status status' : Status} {turns : List FcntlTurn} {flags' : UInt32}
    (h : endNonblocking (flags ||| oNonblock) flags status turns = some (status', flags')) :
    (status' = status ∧ flags' = flags) ∨ (status' = .system ∧ flags' = flags ||| oNonblock) := by
  unfold endNonblocking at h
  split at h
  · next hset =>
    obtain ⟨rfl, rfl⟩ := Prod.mk.inj (Option.some.inj h)
    exact .inl ⟨rfl, or_nonblock_of_and_ne_zero hset⟩
  · split at h
    · cases h
    · next hset =>
      obtain ⟨rfl, rfl⟩ := Prod.mk.inj (Option.some.inj h)
      rcases setFlags_cases hset with ⟨hdone, hback, -⟩ | ⟨hbad, hleft⟩
      · exact .inl ⟨if_pos hdone, hback⟩
      · exact .inr ⟨if_neg (by rw [hbad]; simp), hleft⟩

theorem endNonblocking_restored {flags originalFlags flags' : UInt32} {status status' : Status}
    {turns : List FcntlTurn} (h : endNonblocking flags originalFlags status turns = some (status', flags'))
    (hstatus : status' ≠ .system) (hclear : originalFlags &&& oNonblock = 0) : FcntlPatient turns := by
  unfold endNonblocking at h
  rw [if_neg (not_not.mpr hclear)] at h
  split at h
  · cases h
  · next hset =>
    obtain ⟨hends, -⟩ := Prod.mk.inj (Option.some.inj h)
    rcases setFlags_cases hset with ⟨-, -, hpatient⟩ | ⟨hbad, -⟩
    · exact hpatient
    · rw [hbad, if_neg (by simp)] at hends
      exact absurd hends.symm hstatus

/-! ## The calls -/

/-- What a call gets from the kernel besides its transfers. -/
structure CallScript where
  clock : Option Timespec
  getTurns : List FcntlTurn
  setTurns : List FcntlTurn
  restoreTurns : List FcntlTurn

/-- What the call does to the flags succeeds: `F_SETFL` is called, and called again, on a blocking descriptor only. -/
structure CallScript.FlagsSucceed (script : CallScript) (flags : UInt32) : Prop where
  get : FcntlPatient script.getTurns
  set : flags &&& oNonblock = 0 → FcntlPatient script.setTurns ∧ FcntlPatient script.restoreTurns

/-- The deadline and the flags around the transfers of a call: its status, the flags of the descriptor, and what
the transfers leave, if they are reached. -/
def underDeadline {ρ : Type} (script : CallScript) (timeoutMs : Int) (flags : UInt32)
    (transfers : Timespec → Option (Status × ρ)) : Option (Status × UInt32 × Option ρ) :=
  match script.clock with
  | none => some (.system, flags, none)
  | some now =>
    let deadline := deadlineAfter now timeoutMs
    match beginNonblocking flags script.getTurns script.setTurns with
    | none => none
    | some begun =>
      if begun.status ≠ .ok then some (begun.status, begun.flags, none)
      else match transfers deadline with
      | none => none
      | some (status, left) =>
        (endNonblocking begun.flags begun.originalFlags status script.restoreTurns).map fun (status, flags) =>
          (status, flags, some left)

structure SendMessageResult where
  status : Status
  sent : Nat
  flags : UInt32
  wire : Bytes
  deriving DecidableEq, Repr

def sendMessage (fd : Int) (message : Bytes) (timeoutMs : Int) (script : CallScript) (turns : List SendTurn)
    (flags : UInt32) (wire : Bytes) : Option SendMessageResult :=
  if fd < 0 ∨ timeoutMs < 0 then some ⟨.invalidArgument, 0, flags, wire⟩
  else if message.length = 0 then some ⟨.ok, 0, flags, wire⟩
  else
    let transfers (deadline : Timespec) :=
      (sendUntil deadline message turns 0 wire).map fun result => (result.status, result)
    (underDeadline script timeoutMs flags transfers).map fun (status, flags, left) =>
      match left with
      | none => ⟨status, 0, flags, wire⟩
      | some result => ⟨status, result.sent, flags, result.wire⟩

structure RecvMessageResult where
  status : Status
  out : Bytes
  received : Nat
  message : MessageView
  flags : UInt32
  stream : Bytes
  deriving DecidableEq, Repr

def recvMessage (fd : Int) (out : Bytes) (timeoutMs : Int) (script : CallScript) (turns : List RecvTurn)
    (flags : UInt32) (stream : Bytes) : Option RecvMessageResult :=
  if fd < 0 ∨ out.length = 0 ∨ timeoutMs < 0 then some ⟨.invalidArgument, out, 0, .zero, flags, stream⟩
  else
    let transfers (deadline : Timespec) :=
      (recvUntil deadline turns out 0 stream).map fun result => (result.status, result)
    (underDeadline script timeoutMs flags transfers).map fun (status, flags, left) =>
      match left with
      | none => ⟨status, out, 0, .zero, flags, stream⟩
      | some result => ⟨status, result.out, result.received, result.message, flags, result.stream⟩

def response : Bytes :=
  ascii "HTTP/1.1 200 OK\r\nContent-Length: 2\r\nContent-Type: text/plain\r\nConnection: close\r\n\r\nOK".toList

structure ServeResult where
  status : Status
  requestBuffer : Bytes
  flags : UInt32
  wire : Bytes
  stream : Bytes
  deriving DecidableEq, Repr

/-- The status in front of the response: a message that is no request is `MALFORMED`. -/
def requestStatus (request : RecvUntilResult) : Status :=
  if request.status = .ok ∧ request.message.kind ≠ some .request then .malformed else request.status

theorem requestStatus_ok {request : RecvUntilResult} :
    requestStatus request = .ok ↔ request.status = .ok ∧ request.message.kind = some .request := by
  unfold requestStatus
  split
  · next h => simp [h.2]
  · next h =>
    constructor
    · intro hok
      exact ⟨hok, by_contra fun hother => h ⟨hok, hother⟩⟩
    · exact fun hgood => hgood.1

/-- The transfers of `serveOne`: the buffer, the wire and the stream that they leave. -/
def serveTransfers (requestBuffer : Bytes) (recvTurns : List RecvTurn) (sendTurns : List SendTurn)
    (wire stream : Bytes) (deadline : Timespec) : Option (Status × Bytes × Bytes × Bytes) :=
  match recvUntil deadline recvTurns requestBuffer 0 stream with
  | none => none
  | some request =>
    if requestStatus request = .ok then
      (sendUntil deadline response sendTurns 0 wire).map fun result =>
        (result.status, request.out, result.wire, request.stream)
    else some (requestStatus request, request.out, wire, request.stream)

def serveOne (fd : Int) (requestBuffer : Bytes) (timeoutMs : Int) (script : CallScript) (recvTurns : List RecvTurn)
    (sendTurns : List SendTurn) (flags : UInt32) (wire stream : Bytes) : Option ServeResult :=
  if fd < 0 ∨ requestBuffer.length = 0 ∨ timeoutMs < 0 then some ⟨.invalidArgument, requestBuffer, flags, wire, stream⟩
  else
    (underDeadline script timeoutMs flags (serveTransfers requestBuffer recvTurns sendTurns wire stream)).map
      fun (status, flags, left) =>
        match left with
        | none => ⟨status, requestBuffer, flags, wire, stream⟩
        | some (out, wire, stream) => ⟨status, out, flags, wire, stream⟩

/-! ## What one call does -/

/-- A call under a deadline fails before its transfers, or makes them and puts the flags back, which may fail too. -/
theorem underDeadline_inv {ρ : Type} {script : CallScript} {timeoutMs : Int} {flags flags' : UInt32}
    {transfers : Timespec → Option (Status × ρ)} {status : Status} {left : Option ρ}
    (h : underDeadline script timeoutMs flags transfers = some (status, flags', left)) :
    (left = none ∧ status = .system ∧ flags' = flags) ∨
      ∃ now reached r, script.clock = some now ∧ transfers (deadlineAfter now timeoutMs) = some (reached, r) ∧
        left = some r ∧ ((status = reached ∧ flags' = flags) ∨ (status = .system ∧ flags' = flags ||| oNonblock)) := by
  unfold underDeadline at h
  split at h
  · obtain ⟨rfl, rfl, rfl⟩ := by simpa using h
    exact .inl ⟨rfl, rfl, rfl⟩
  · next now hclock =>
    dsimp only at h
    split at h
    · cases h
    · next begun hbegun =>
      split at h
      · next hfail =>
        obtain ⟨rfl, rfl, rfl⟩ := by simpa using h
        rcases beginNonblocking_cases hbegun with ⟨hok, -⟩ | ⟨hsystem, hsame⟩
        · exact absurd hok hfail
        · exact .inl ⟨rfl, hsystem, hsame⟩
      · next hok =>
        rcases beginNonblocking_cases hbegun with ⟨-, horiginal, hset, -⟩ | ⟨hsystem, -⟩
        · split at h
          · cases h
          · next reached r htransfers =>
            obtain ⟨⟨ended, restored⟩, hend, heq⟩ := Option.map_eq_some_iff.mp h
            obtain ⟨rfl, rfl, rfl⟩ := by simpa using heq
            rw [horiginal, hset] at hend
            exact .inr ⟨now, reached, r, hclock, htransfers, rfl, endNonblocking_cases hend⟩
        · rw [hsystem] at hok
          simp at hok

theorem CallScript.FlagsSucceed.restores {script : CallScript} {flags : UInt32} (h : script.FlagsSucceed flags)
    (status : Status) :
    ∃ begun, beginNonblocking flags script.getTurns script.setTurns = some begun ∧ begun.status = .ok ∧
      endNonblocking begun.flags begun.originalFlags status script.restoreTurns = some (status, flags) := by
  unfold beginNonblocking endNonblocking
  rw [getFlags_patient h.get]
  by_cases hclear : flags &&& oNonblock = 0
  · obtain ⟨hset, hrestore⟩ := h.set hclear
    dsimp only
    rw [if_pos hclear, setFlags_patient hset]
    refine ⟨_, rfl, rfl, ?_⟩
    dsimp only
    rw [if_neg (not_not.mpr hclear), setFlags_patient hrestore]
    rfl
  · dsimp only
    rw [if_neg hclear]
    exact ⟨_, rfl, rfl, if_pos hclear⟩

/-- Around transfers that return the flags decide the status of the call. -/
theorem underDeadline_status {ρ : Type} {script : CallScript} {timeoutMs : Int} {flags flags' : UInt32}
    {transfers : Timespec → Option (Status × ρ)} {status : Status} {left : Option ρ} {now : Timespec}
    (hnow : script.clock = some now)
    (h : underDeadline script timeoutMs flags transfers = some (status, flags', left)) :
    (script.FlagsSucceed flags → (transfers (deadlineAfter now timeoutMs)).map Prod.fst = some status) ∧
      (¬ script.FlagsSucceed flags → status = .system) := by
  unfold underDeadline at h
  rw [hnow] at h
  dsimp only at h
  refine ⟨fun hgood => ?_, fun hbad => by_contra fun hstatus => hbad ?_⟩
  · cases htransfers : transfers (deadlineAfter now timeoutMs) with
    | none =>
      obtain ⟨begun, hbegun, hok, -⟩ := hgood.restores .ok
      rw [hbegun, htransfers] at h
      dsimp only at h
      rw [if_neg (not_not.mpr hok)] at h
      cases h
    | some done =>
      obtain ⟨begun, hbegun, hok, hend⟩ := hgood.restores done.1
      rw [hbegun, htransfers] at h
      dsimp only at h
      rw [if_neg (not_not.mpr hok), hend] at h
      exact congrArg (Option.map Prod.fst) h
  · split at h
    · cases h
    · next begun hbegun =>
      split at h
      · next hfail =>
        obtain ⟨rfl, -⟩ := Prod.mk.inj (Option.some.inj h)
        rcases beginNonblocking_cases hbegun with ⟨hok, -⟩ | ⟨hsystem, -⟩
        · exact absurd hok hfail
        · exact absurd hsystem hstatus
      · next hok =>
        rcases beginNonblocking_cases hbegun with ⟨-, horiginal, -, hget, hset⟩ | ⟨hsystem, -⟩
        · split at h
          · cases h
          · obtain ⟨⟨ended, restored⟩, hend, heq⟩ := Option.map_eq_some_iff.mp h
            obtain ⟨rfl, -⟩ := Prod.mk.inj heq
            rw [horiginal] at hend
            exact ⟨hget, fun hclear => ⟨hset hclear, endNonblocking_restored hend hstatus hclear⟩⟩
        · rw [hsystem] at hok
          simp at hok

theorem underDeadline_cases {ρ : Type} {script : CallScript} {timeoutMs : Int} {flags flags' : UInt32}
    {transfers : Timespec → Option (Status × ρ)} {status : Status} {left : Option ρ}
    (h : underDeadline script timeoutMs flags transfers = some (status, flags', left)) :
    FlagsKept flags [status] flags' ∧ ((left = none ∧ status = .system) ∨
      ∃ deadline reached r, transfers deadline = some (reached, r) ∧ left = some r ∧
        (status = .ok → reached = .ok)) := by
  rcases underDeadline_inv h with ⟨hleft, hsystem, hsame⟩ | ⟨now, reached, r, -, htransfers, hleft, hends⟩
  · exact ⟨.inl hsame, .inl ⟨hleft, hsystem⟩⟩
  · refine ⟨FlagsKept.of_restored hends, .inr ⟨_, reached, r, htransfers, hleft, fun hgood => ?_⟩⟩
    rcases hends with ⟨hsame, -⟩ | ⟨hbad, -⟩
    · exact hsame.symm.trans hgood
    · rw [hgood] at hbad
      cases hbad

/-- What a `send_message` leaves: `*sent` counts the bytes of the message that are on the wire. -/
structure SendStep (message : Bytes) (flags : UInt32) (wire : Bytes) (result : SendMessageResult) : Prop where
  flags : FlagsKept flags [result.status] result.flags
  sent : result.sent ≤ message.length
  wire : result.wire = wire ++ message.take result.sent
  ok : result.status = .ok → result.sent = message.length

theorem sendMessage_step {fd : Int} {message : Bytes} {timeoutMs : Int} {script : CallScript} {turns : List SendTurn}
    {flags : UInt32} {wire : Bytes} {result : SendMessageResult}
    (h : sendMessage fd message timeoutMs script turns flags wire = some result) :
    SendStep message flags wire result := by
  unfold sendMessage at h
  split at h
  · obtain rfl := Option.some.inj h
    exact ⟨.inl rfl, Nat.zero_le _, by simp, by simp⟩
  · split at h
    · next hnil =>
      obtain rfl := Option.some.inj h
      exact ⟨.inl rfl, Nat.zero_le _, by simp, fun _ => hnil.symm⟩
    · obtain ⟨⟨status, flags', left⟩, hcall, rfl⟩ := Option.map_eq_some_iff.mp h
      obtain ⟨hflags, ⟨rfl, rfl⟩ | ⟨deadline, reached, r, htransfers, rfl, hstatus⟩⟩ := underDeadline_cases hcall
      · exact ⟨hflags, Nat.zero_le _, by simp, by simp⟩
      · obtain ⟨result, hsend, heq⟩ := Option.map_eq_some_iff.mp htransfers
        obtain ⟨rfl, rfl⟩ := Prod.mk.inj heq
        obtain ⟨n, hcount, hn, hwire, hdone⟩ := sendUntil_wire (Nat.zero_le _) hsend
        rw [Nat.zero_add] at hcount hn
        refine ⟨hflags, by dsimp only; omega, ?_, fun hok => hdone.mp (hstatus hok)⟩
        dsimp only
        rw [hwire, hcount]
        rfl

/-- What a `recv_message` leaves: the front of the stream in the buffer, and its view when it is accepted. -/
structure RecvStep (capacity : Nat) (flags : UInt32) (stream : Bytes) (result : RecvMessageResult) : Prop where
  flags : FlagsKept flags [result.status] result.flags
  received : result.received ≤ capacity
  out : result.out.take result.received = stream.take result.received
  left : result.stream = stream.drop result.received
  ok : result.status = .ok → parseMessage (stream.take result.received) = ⟨.ok, result.message⟩

theorem recvMessage_step {fd : Int} {out : Bytes} {timeoutMs : Int} {script : CallScript} {turns : List RecvTurn}
    {flags : UInt32} {stream : Bytes} {result : RecvMessageResult}
    (h : recvMessage fd out timeoutMs script turns flags stream = some result) :
    RecvStep out.length flags stream result := by
  unfold recvMessage at h
  split at h
  · obtain rfl := Option.some.inj h
    exact ⟨.inl rfl, Nat.zero_le _, rfl, rfl, by simp⟩
  · obtain ⟨⟨status, flags', left⟩, hcall, rfl⟩ := Option.map_eq_some_iff.mp h
    obtain ⟨hflags, ⟨rfl, rfl⟩ | ⟨deadline, reached, r, htransfers, rfl, hstatus⟩⟩ := underDeadline_cases hcall
    · exact ⟨hflags, Nat.zero_le _, rfl, rfl, by simp⟩
    · obtain ⟨result, hrecv, heq⟩ := Option.map_eq_some_iff.mp htransfers
      obtain ⟨rfl, rfl⟩ := Prod.mk.inj heq
      obtain ⟨n, hcount, hn, -⟩ := recvUntil_taken (Nat.zero_le _) hrecv
      obtain ⟨hfront, hleft, haccepts⟩ := recvUntil_front hrecv
      exact ⟨hflags, by dsimp only; omega, hfront, hleft, fun hok => haccepts (hstatus hok)⟩

/-- What a `serve_one` leaves: it takes `taken` bytes off the stream and puts the first `sent` of its response on
the wire, and that only behind a request. -/
structure ServeStep (flags : UInt32) (wire stream : Bytes) (result : ServeResult) (taken sent : Nat) : Prop where
  flags : FlagsKept flags [result.status] result.flags
  left : result.stream = stream.drop taken
  most : sent ≤ response.length
  wire : result.wire = wire ++ response.take sent
  answers : 0 < sent → ∃ view, parseMessage (stream.take taken) = ⟨.ok, view⟩ ∧ view.kind = some .request
  ok : result.status = .ok → sent = response.length

theorem serveOne_step {fd : Int} {requestBuffer : Bytes} {timeoutMs : Int} {script : CallScript}
    {recvTurns : List RecvTurn} {sendTurns : List SendTurn} {flags : UInt32} {wire stream : Bytes}
    {result : ServeResult}
    (h : serveOne fd requestBuffer timeoutMs script recvTurns sendTurns flags wire stream = some result) :
    ∃ taken sent, ServeStep flags wire stream result taken sent := by
  unfold serveOne at h
  split at h
  · obtain rfl := Option.some.inj h
    exact ⟨0, 0, .inl rfl, rfl, Nat.zero_le _, by simp, by simp, by simp⟩
  · obtain ⟨⟨status, flags', left⟩, hcall, rfl⟩ := Option.map_eq_some_iff.mp h
    obtain ⟨hflags, ⟨rfl, rfl⟩ | ⟨deadline, reached, r, htransfers, rfl, hstatus⟩⟩ := underDeadline_cases hcall
    · exact ⟨0, 0, hflags, rfl, Nat.zero_le _, by simp, by simp, by simp⟩
    · unfold serveTransfers at htransfers
      split at htransfers
      · cases htransfers
      · next request hrequest =>
        obtain ⟨-, hleft, haccepts⟩ := recvUntil_front hrequest
        split at htransfers
        · next hgood =>
          obtain ⟨result, hsend, heq⟩ := Option.map_eq_some_iff.mp htransfers
          obtain ⟨rfl, rfl⟩ := Prod.mk.inj heq
          obtain ⟨n, hcount, hn, hwire, hdone⟩ := sendUntil_wire (Nat.zero_le _) hsend
          rw [Nat.zero_add] at hcount hn
          have hkind := requestStatus_ok.mp hgood
          refine ⟨request.received, n, hflags, hleft, hn, hwire, fun _ => ?_, fun hok => ?_⟩
          · exact ⟨request.message, haccepts hkind.1, hkind.2⟩
          · rw [← hcount]
            exact hdone.mp (hstatus hok)
        · next hbad =>
          obtain ⟨rfl, rfl⟩ := Prod.mk.inj (Option.some.inj htransfers)
          exact ⟨request.received, 0, hflags, hleft, Nat.zero_le _, by simp, by simp,
            fun hok => absurd (hstatus hok) hbad⟩

/-! ## Sending on -/

/-- One `send_message` of a caller that goes on behind the bytes already sent. -/
structure ResendCall where
  timeoutMs : Int
  script : CallScript
  turns : List SendTurn

/-- Each call is given what the calls before it have not sent. The statuses, how much was sent, the flags and the
wire. -/
def resend (fd : Int) : List ResendCall → (message : Bytes) → (flags : UInt32) → (wire : Bytes) →
    Option (List Status × Nat × UInt32 × Bytes)
  | [], _, flags, wire => some ([], 0, flags, wire)
  | call :: rest, message, flags, wire =>
    match sendMessage fd message call.timeoutMs call.script call.turns flags wire with
    | none => none
    | some result =>
      (resend fd rest (message.drop result.sent) result.flags result.wire).map fun (statuses, total, flags, wire) =>
        (result.status :: statuses, result.sent + total, flags, wire)

/-- **Main result.** However the calls of such a caller fail, the wire gets the front of the message, no byte lost
or repeated; once a call returns `OK` it has all of it. -/
theorem resend_wire {fd : Int} {calls : List ResendCall} :
    ∀ {message : Bytes} {flags : UInt32} {wire : Bytes} {statuses : List Status} {total : Nat} {flags' : UInt32}
      {wire' : Bytes}, resend fd calls message flags wire = some (statuses, total, flags', wire') →
    total ≤ message.length ∧ wire' = wire ++ message.take total ∧ (.ok ∈ statuses → total = message.length) ∧
      FlagsKept flags statuses flags' := by
  induction calls with
  | nil =>
    intro message flags wire statuses total flags' wire' h
    obtain ⟨rfl, rfl, rfl, rfl⟩ := by simpa [resend] using h
    exact ⟨Nat.zero_le _, by simp, by simp, .inl rfl⟩
  | cons call rest ih =>
    intro message flags wire statuses total flags' wire' h
    rw [resend] at h
    split at h
    · cases h
    · next result hresult =>
      have hstep := sendMessage_step hresult
      obtain ⟨⟨more, behind, last, full⟩, hrest, heq⟩ := Option.map_eq_some_iff.mp h
      obtain ⟨rfl, rfl, rfl, rfl⟩ := by simpa using heq
      obtain ⟨hbound, hwire, hdone, hflags⟩ := ih hrest
      have hsent := hstep.sent
      rw [List.length_drop] at hbound hdone
      refine ⟨by omega, ?_, fun hmem => ?_, hstep.flags.run hflags⟩
      · rw [hwire, hstep.wire, List.append_assoc, List.take_add]
      · rcases List.mem_cons.mp hmem with hok | hmem
        · have := hstep.ok hok.symm
          omega
        · have := hdone hmem
          omega

/-- A clock at zero and calls that succeed, one of them at the second attempt. -/
def patientScript : CallScript := ⟨some ⟨0, 0⟩, [none], [none], [some .eintr, none]⟩

/-- A descriptor that is ready at once, and one that is not ready by the deadline of a second. -/
def readyTurn {ω : Type} (outcome : ω) : IoTurn ω :=
  ⟨[⟨some ⟨0, 0⟩, fun _ => .ready ⟨true, false, false, false⟩⟩], outcome⟩

def lateTurn {ω : Type} (outcome : ω) : IoTurn ω := ⟨[⟨some ⟨1, 0⟩, fun _ => .expired⟩], outcome⟩

/-- Two calls: the first one times out behind two bytes. -/
def resumedCalls : List ResendCall :=
  [⟨1000, patientScript, [readyTurn (.takes 2), lateTurn (.takes 1)]⟩, ⟨1000, patientScript, [readyTurn (.takes 9)]⟩]

theorem resend_wire_two :
    resend 3 resumedCalls [1, 2, 3, 4, 5, 6] 2 [7] = some ([.timeout, .ok], 6, 2, [7, 1, 2, 3, 4, 5, 6]) ∧
      ([7, 1, 2, 3, 4, 5, 6] : Bytes) = [7] ++ ([1, 2, 3, 4, 5, 6] : Bytes).take 6 ∧
      6 = ([1, 2, 3, 4, 5, 6] : Bytes).length ∧ FlagsKept 2 [.timeout, .ok] 2 := by
  have hrun : resend 3 resumedCalls [1, 2, 3, 4, 5, 6] 2 [7] = some ([.timeout, .ok], 6, 2, [7, 1, 2, 3, 4, 5, 6]) :=
    rfl
  obtain ⟨-, hwire, hdone, hflags⟩ := resend_wire hrun
  exact ⟨hrun, hwire, hdone (by decide), hflags⟩

/-! ## Runs on one descriptor -/

/-- A connected descriptor: its flags, what was written to it, and what its peer sends. -/
structure Endpoint where
  flags : UInt32
  wire : Bytes
  stream : Bytes
  deriving DecidableEq, Repr

inductive Call where
  | send (message : Bytes) (timeoutMs : Int) (script : CallScript) (turns : List SendTurn)
  | recv (out : Bytes) (timeoutMs : Int) (script : CallScript) (turns : List RecvTurn)
  | serve (requestBuffer : Bytes) (timeoutMs : Int) (script : CallScript) (recvTurns : List RecvTurn)
    (sendTurns : List SendTurn)

def Call.offers : Call → Bytes
  | .send message _ _ _ => message
  | .recv _ _ _ _ => []
  | .serve _ _ _ _ _ => response

def Endpoint.step (fd : Int) (endpoint : Endpoint) : Call → Option (Status × Endpoint)
  | .send message timeoutMs script turns =>
    (sendMessage fd message timeoutMs script turns endpoint.flags endpoint.wire).map fun result =>
      (result.status, { endpoint with flags := result.flags, wire := result.wire })
  | .recv out timeoutMs script turns =>
    (recvMessage fd out timeoutMs script turns endpoint.flags endpoint.stream).map fun result =>
      (result.status, { endpoint with flags := result.flags, stream := result.stream })
  | .serve requestBuffer timeoutMs script recvTurns sendTurns =>
    (serveOne fd requestBuffer timeoutMs script recvTurns sendTurns endpoint.flags endpoint.wire
      endpoint.stream).map fun result => (result.status, ⟨result.flags, result.wire, result.stream⟩)

def Endpoint.run (fd : Int) : List Call → Endpoint → Option (List Status × Endpoint)
  | [], endpoint => some ([], endpoint)
  | call :: rest, endpoint =>
    match endpoint.step fd call with
    | none => none
    | some (status, endpoint) => (Endpoint.run fd rest endpoint).map fun (statuses, endpoint) =>
        (status :: statuses, endpoint)

/-- What a call puts on the wire: a front of what it offers, and all of it if it returns `OK`. -/
def Writes (made : Call × Status) (piece : Bytes) : Prop :=
  piece <+: made.1.offers ∧ (made.2 = .ok → piece = made.1.offers)

/-- **Step lemma.** -/
theorem endpoint_step {fd : Int} {call : Call} {endpoint endpoint' : Endpoint} {status : Status}
    (h : endpoint.step fd call = some (status, endpoint')) :
    FlagsKept endpoint.flags [status] endpoint'.flags ∧
      ∃ piece taken, Writes (call, status) piece ∧ endpoint'.wire = endpoint.wire ++ piece ∧
        endpoint'.stream = endpoint.stream.drop taken := by
  cases call with
  | send message timeoutMs script turns =>
    obtain ⟨result, hcall, heq⟩ := Option.map_eq_some_iff.mp h
    obtain ⟨rfl, rfl⟩ := Prod.mk.inj heq
    have hstep := sendMessage_step hcall
    refine ⟨hstep.flags, message.take result.sent, 0, ⟨List.take_prefix _ _, fun hok => ?_⟩, hstep.wire, rfl⟩
    exact List.take_of_length_le (hstep.ok hok).ge
  | recv out timeoutMs script turns =>
    obtain ⟨result, hcall, heq⟩ := Option.map_eq_some_iff.mp h
    obtain ⟨rfl, rfl⟩ := Prod.mk.inj heq
    have hstep := recvMessage_step hcall
    exact ⟨hstep.flags, [], result.received, ⟨List.nil_prefix, fun _ => rfl⟩, (List.append_nil _).symm, hstep.left⟩
  | serve requestBuffer timeoutMs script recvTurns sendTurns =>
    obtain ⟨result, hcall, heq⟩ := Option.map_eq_some_iff.mp h
    obtain ⟨rfl, rfl⟩ := Prod.mk.inj heq
    obtain ⟨taken, sent, hstep⟩ := serveOne_step hcall
    refine ⟨hstep.flags, response.take sent, taken, ⟨List.take_prefix _ _, fun hok => ?_⟩, hstep.wire, hstep.left⟩
    exact List.take_of_length_le (hstep.ok hok).ge

/-- **Main result.** In every run of calls on one descriptor the wire is a front of what each call offers, call by
call and all of it for those that returned `OK`; what was received is the front of the stream; and the flags are
what they were, or only `O_NONBLOCK` was left set and a call returned `SYSTEM`. -/
theorem endpoint_run {fd : Int} {calls : List Call} :
    ∀ {endpoint endpoint' : Endpoint} {statuses : List Status},
    Endpoint.run fd calls endpoint = some (statuses, endpoint') →
    FlagsKept endpoint.flags statuses endpoint'.flags ∧ statuses.length = calls.length ∧
      ∃ pieces taken, List.Forall₂ Writes (calls.zip statuses) pieces ∧
        endpoint'.wire = endpoint.wire ++ pieces.flatten ∧ endpoint'.stream = endpoint.stream.drop taken := by
  induction calls with
  | nil =>
    intro endpoint endpoint' statuses h
    obtain ⟨rfl, rfl⟩ := Prod.mk.inj (Option.some.inj h)
    exact ⟨.inl rfl, rfl, [], 0, .nil, by simp, rfl⟩
  | cons call rest ih =>
    intro endpoint endpoint' statuses h
    rw [Endpoint.run] at h
    split at h
    · cases h
    · next status first hone =>
      obtain ⟨hkept, piece, taken, hwrites, hwire, hstream⟩ := endpoint_step hone
      obtain ⟨⟨more, last⟩, hrest, heq⟩ := Option.map_eq_some_iff.mp h
      obtain ⟨rfl, rfl⟩ := Prod.mk.inj heq
      obtain ⟨hflags, hlen, pieces, behind, hall, hwire', hstream'⟩ := ih hrest
      refine ⟨hkept.run hflags, by simp [hlen], piece :: pieces, taken + behind, .cons hwrites hall, ?_, ?_⟩
      · rw [hwire', hwire, List.flatten_cons, List.append_assoc]
      · rw [hstream', hstream, List.drop_drop]

/-- A send that times out behind one byte, and a receive of a stream that ends. -/
def cutCalls : List Call :=
  [.send [1, 2] 1000 patientScript [readyTurn (.takes 1), lateTurn .zero],
    .recv [0, 0] 1000 patientScript [readyTurn (.takes 1), readyTurn (.takes 1)]]

theorem endpoint_run_two :
    Endpoint.run 3 cutCalls ⟨2, [9], [71]⟩ = some ([.timeout, .truncated], ⟨2, [9, 1], []⟩) ∧
      FlagsKept 2 [.timeout, .truncated] 2 ∧
      ∃ pieces taken, List.Forall₂ Writes (cutCalls.zip [.timeout, .truncated]) pieces ∧
        ([9, 1] : Bytes) = [9] ++ pieces.flatten ∧ ([] : Bytes) = ([71] : Bytes).drop taken := by
  have hrun : Endpoint.run 3 cutCalls ⟨2, [9], [71]⟩ = some ([.timeout, .truncated], ⟨2, [9, 1], []⟩) := rfl
  obtain ⟨hflags, -, hpieces⟩ := endpoint_run hrun
  exact ⟨hrun, hflags, hpieces⟩

end TcpipCourse.L10
