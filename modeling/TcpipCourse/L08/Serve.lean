import Mathlib.Data.List.Forall2
import TcpipCourse.Descriptor
import TcpipCourse.L08.Session

/-!
# Lesson 08: the echo server

* `serveOne` : one call, against a script for everything it asks the kernel, on a `Listener`: the flags of the
  listening descriptor, the connections that wait on it, and those accepted so far;
* `echo` : what is done on an accepted connection, up to its `close`; `serveOne_step` : what one call does to the
  listener;
* `serveAll` : one call after the other; `server_keeps_listener`, `server_echoes_only` : what holds of every run;
* `serveAll_patient` : under patient scripts every waiting connection gets its echo.
-/

namespace TcpipCourse.L08
open Lib

/-! ## One call -/

/-- How an `accept` goes: it takes a connection off the queue, if one is there, or fails. -/
inductive AcceptOutcome where
  | takes
  | failed (errno : Errno)
  deriving DecidableEq, Repr

abbrev AcceptTurn := IoTurn AcceptOutcome

/-- What one call gets from the kernel; `closeTurn` is what `close` on the accepted descriptor returns. -/
structure ServeScript where
  clock : Option Timespec
  getTurns : List FcntlTurn
  setTurns : List FcntlTurn
  acceptTurns : List AcceptTurn
  restoreTurns : List FcntlTurn
  recvTurns : List RecvTurn
  sendTurns : List SendTurn
  closeTurn : Option Errno

/-- An accepted connection: what its peer sends, what it was sent, and how often its descriptor was closed. -/
structure Connection where
  stream : Bytes
  reply : Bytes
  closes : Nat
  deriving DecidableEq, Repr

def Connection.opened (stream : Bytes) : Connection := ⟨stream, [], 0⟩

/-- Whatever `close` returns, the descriptor is gone. -/
def Connection.close (connection : Connection) : Connection := { connection with closes := connection.closes + 1 }

/-- A listening descriptor: its flags, what the peers of the waiting connections send, and the connections
accepted so far. -/
structure Listener where
  flags : UInt32
  pending : List Bytes
  accepted : List Connection
  deriving DecidableEq, Repr

def serverFrameCapacity : Nat := 65536

/-- What becomes of the flags before the accept loop: `changed` is `changed_flags`. -/
structure Entered where
  status : Status
  originalFlags : UInt32
  changed : Bool
  flags : UInt32

def enterNonblocking (flags : UInt32) (getTurns setTurns : List FcntlTurn) : Option Entered :=
  match getFlags flags getTurns with
  | none => none
  | some (.error status) => some ⟨status, 0, false, flags⟩
  | some (.ok originalFlags) =>
    if originalFlags &&& oNonblock = 0 then
      match setFlags flags (originalFlags ||| oNonblock) setTurns with
      | none => none
      | some (status, flags) => some ⟨status, originalFlags, decide (status = .ok), flags⟩
    else some ⟨.ok, originalFlags, false, flags⟩

def restoreFlags (flags originalFlags : UInt32) (changed : Bool) (status : Status) (turns : List FcntlTurn) :
    Option (Status × UInt32) :=
  if changed then
    match setFlags flags originalFlags turns with
    | none => none
    | some (restoreStatus, flags) => some (if restoreStatus = .ok then status else restoreStatus, flags)
  else some (status, flags)

/-- How the accept loop ends: what the peer of the accepted connection sends, if there is one, and the
connections that still wait. -/
structure Accepted where
  status : Status
  client : Option Bytes
  pending : List Bytes

def acceptLoop (deadline : Timespec) : List AcceptTurn → (pending : List Bytes) → Option Accepted
  | [], _ => none
  | turn :: rest, pending =>
    match wait deadline turn.waits with
    | none => none
    | some .ok =>
      match turn.outcome with
      | .takes =>
        match pending with
        | stream :: pending => some ⟨.ok, some stream, pending⟩
        -- the peer is gone again: the nonblocking descriptor returns `EAGAIN`
        | [] => acceptLoop deadline rest []
      | .failed errno =>
        if errno.isTransient then acceptLoop deadline rest pending else some ⟨.system, none, pending⟩
    | some status => some ⟨status, none, pending⟩

/-- The receive and the send on an accepted connection. -/
def echoTransfers (deadline : Timespec) (recvTurns : List RecvTurn) (sendTurns : List SendTurn)
    (connection : Connection) : Option (Status × Connection) :=
  match recvFrameUntil deadline (List.replicate serverFrameCapacity 0) 0 recvTurns connection.stream with
  | none => none
  | some received =>
    if received.status = .ok then
      match sendFrameUntil deadline (received.out.take received.outLen) sendTurns connection.reply with
      | none => none
      | some sent => some (sent.status, { connection with reply := sent.wire })
    else some (received.status, connection)

/-- From the receive to the `close` on the accepted descriptor. -/
def echo (deadline : Timespec) (recvTurns : List RecvTurn) (sendTurns : List SendTurn) (closeTurn : Option Errno)
    (connection : Connection) : Option (Status × Connection) :=
  (echoTransfers deadline recvTurns sendTurns connection).map fun (status, connection) =>
    (if closeTurn.isSome ∧ status = .ok then .system else status, connection.close)

/-- From `if (client_fd < 0)` on; the listener has its flags back. -/
def serveAccepted (deadline : Timespec) (script : ServeScript) (status : Status) (client : Option Bytes)
    (listener : Listener) : Option (Status × Listener) :=
  match client with
  | none => some (status, listener)
  | some stream =>
    if status ≠ .ok then
      some (if script.closeTurn.isSome then .system else status,
        { listener with accepted := listener.accepted ++ [(Connection.opened stream).close] })
    else (echo deadline script.recvTurns script.sendTurns script.closeTurn (.opened stream)).map
      fun (status, connection) => (status, { listener with accepted := listener.accepted ++ [connection] })

def serveOne (listenFd timeoutMs : Int) (script : ServeScript) (listener : Listener) : Option (Status × Listener) :=
  if listenFd < 0 ∨ timeoutMs < 0 then some (.invalidArgument, listener)
  else match makeDeadline timeoutMs script.clock with
  | .error status => some (status, listener)
  | .ok deadline =>
    match enterNonblocking listener.flags script.getTurns script.setTurns with
    | none => none
    | some entered =>
      if entered.status ≠ .ok then some (entered.status, { listener with flags := entered.flags })
      else match acceptLoop deadline script.acceptTurns listener.pending with
      | none => none
      | some accepted =>
        match restoreFlags entered.flags entered.originalFlags entered.changed accepted.status
          script.restoreTurns with
        | none => none
        | some (status, flags) =>
          serveAccepted deadline script status accepted.client
            { listener with flags := flags, pending := accepted.pending }

/-! ## The flags -/

theorem enterNonblocking_cases {flags : UInt32} {getTurns setTurns : List FcntlTurn} {entered : Entered}
    (h : enterNonblocking flags getTurns setTurns = some entered) :
    (entered.status = .ok ∧ entered.originalFlags = flags ∧ entered.flags = flags ||| oNonblock ∧
      (entered.changed = false → flags ||| oNonblock = flags)) ∨
    (entered.status = .system ∧ entered.flags = flags) := by
  unfold enterNonblocking getFlags at h
  cases hget : fcntlRetry getTurns with
  | none =>
    rw [hget] at h
    cases h
  | some done =>
    rw [hget] at h
    cases done with
    | false =>
      obtain rfl := Option.some.inj h
      exact .inr ⟨rfl, rfl⟩
    | true =>
      dsimp only [Option.map_some] at h
      rw [if_pos rfl] at h
      dsimp only at h
      split at h
      · split at h
        · cases h
        · next hset =>
          obtain rfl := Option.some.inj h
          rcases setFlags_cases hset with ⟨hok, hflags, -⟩ | ⟨hfail, hflags⟩
          · exact .inl ⟨hok, rfl, hflags, by simp [hok]⟩
          · exact .inr ⟨hfail, hflags⟩
      · next hset =>
        obtain rfl := Option.some.inj h
        have hsame := or_nonblock_of_and_ne_zero hset
        exact .inl ⟨rfl, rfl, hsame.symm, fun _ => hsame⟩

theorem restoreFlags_cases {flags : UInt32} {getTurns setTurns turns : List FcntlTurn} {entered : Entered}
    {status status' : Status} {flags' : UInt32} (henter : enterNonblocking flags getTurns setTurns = some entered)
    (hok : entered.status = .ok)
    (h : restoreFlags entered.flags entered.originalFlags entered.changed status turns = some (status', flags')) :
    (status' = status ∧ flags' = flags) ∨ (status' = .system ∧ flags' = flags ||| oNonblock) := by
  rcases enterNonblocking_cases henter with ⟨-, horiginal, hflags, hsame⟩ | ⟨hfail, -⟩
  · unfold restoreFlags at h
    split at h
    · split at h
      · cases h
      · next hset =>
        obtain ⟨rfl, rfl⟩ := Prod.mk.inj (Option.some.inj h)
        rcases setFlags_cases hset with ⟨hdone, hback, -⟩ | ⟨hbad, hleft⟩
        · exact .inl ⟨if_pos hdone, hback.trans horiginal⟩
        · exact .inr ⟨(if_neg (by rw [hbad]; simp)).trans hbad, hleft.trans hflags⟩
    · next hunchanged =>
      obtain ⟨rfl, rfl⟩ := Prod.mk.inj (Option.some.inj h)
      exact .inl ⟨rfl, hflags.trans (hsame (Bool.eq_false_of_not_eq_true hunchanged))⟩
  · rw [hok] at hfail
    cases hfail

/-! ## The connection -/

theorem acceptLoop_cases {deadline : Timespec} {turns : List AcceptTurn} {accepted : Accepted} :
    ∀ {pending : List Bytes}, acceptLoop deadline turns pending = some accepted →
    (accepted.status = .ok ∧ ∃ stream, accepted.client = some stream ∧ pending = stream :: accepted.pending) ∨
    (accepted.status ≠ .ok ∧ accepted.client = none ∧ accepted.pending = pending) := by
  induction turns with
  | nil =>
    intro pending h
    cases h
  | cons turn rest ih =>
    intro pending h
    unfold acceptLoop at h
    split at h
    · cases h
    · cases hturn : turn.outcome with
      | takes =>
        rw [hturn] at h
        dsimp only at h
        split at h
        · obtain rfl := Option.some.inj h
          exact .inl ⟨rfl, _, rfl, rfl⟩
        · exact ih h
      | failed errno =>
        rw [hturn] at h
        dsimp only at h
        split at h
        · exact ih h
        · obtain rfl := Option.some.inj h
          exact .inr ⟨by simp, rfl, rfl⟩
    · next hfail _ =>
      obtain rfl := Option.some.inj h
      exact .inr ⟨hfail, rfl, rfl⟩

/-- The peer was sent its own first frame back. -/
def Echoed (connection : Connection) : Prop :=
  ∃ payload rest, payload.length ≤ serverFrameCapacity ∧ connection.stream = frame payload ++ rest ∧
    connection.reply = frame payload

/-- The peer was sent nothing, or a part of its own first frame. -/
def EchoesOnly (connection : Connection) : Prop :=
  connection.reply = [] ∨ ∃ payload rest, payload.length ≤ serverFrameCapacity ∧
    connection.stream = frame payload ++ rest ∧ connection.reply <+: frame payload

theorem echoTransfers_cases {deadline : Timespec} {recvTurns : List RecvTurn} {sendTurns : List SendTurn}
    {stream : Bytes} {status : Status} {connection : Connection}
    (h : echoTransfers deadline recvTurns sendTurns (.opened stream) = some (status, connection)) :
    connection.stream = stream ∧ connection.closes = 0 ∧ EchoesOnly connection ∧
      (status = .ok → Echoed connection) := by
  unfold echoTransfers Connection.opened at h
  dsimp only at h
  split at h
  · cases h
  · next received hreceived =>
    split at h
    · next hok =>
      obtain ⟨-, hcap, hlen, hstream⟩ := (recvFrameUntil_taken hreceived).1 hok
      rw [List.length_replicate] at hcap
      split at h
      · cases h
      · next sent hsent =>
        obtain ⟨rfl, rfl⟩ := Prod.mk.inj (Option.some.inj h)
        obtain ⟨n, hn, hwire, hdone⟩ := sendFrameUntil_wire hsent
        rw [List.nil_append] at hwire
        refine ⟨rfl, rfl, .inr ⟨_, received.stream, by omega, hstream, ?_⟩, fun hsentOk => ?_⟩
        · rw [hwire]
          exact List.take_prefix _ _
        · refine ⟨_, received.stream, by omega, hstream, ?_⟩
          rw [hwire, hdone.mp hsentOk, List.take_length]
    · next hfail =>
      obtain ⟨rfl, rfl⟩ := Prod.mk.inj (Option.some.inj h)
      exact ⟨rfl, rfl, .inl rfl, fun hok => absurd hok hfail⟩

theorem echo_cases {deadline : Timespec} {recvTurns : List RecvTurn} {sendTurns : List SendTurn}
    {closeTurn : Option Errno} {stream : Bytes} {status : Status} {connection : Connection}
    (h : echo deadline recvTurns sendTurns closeTurn (.opened stream) = some (status, connection)) :
    connection.stream = stream ∧ connection.closes = 1 ∧ EchoesOnly connection ∧
      (status = .ok → Echoed connection) := by
  obtain ⟨⟨reached, left⟩, htransfers, heq⟩ := Option.map_eq_some_iff.mp h
  obtain ⟨rfl, rfl⟩ := Prod.mk.inj heq
  obtain ⟨hstream, hopen, honly, hwhole⟩ := echoTransfers_cases htransfers
  refine ⟨hstream, ?_, honly, fun hok => hwhole ?_⟩
  · rw [Connection.close, hopen]
  · split at hok
    · cases hok
    · exact hok

/-! ## What one call does -/

/-- What a call leaves: the flags as they were, unless it returns `SYSTEM`; and the first of the waiting
connections accepted and closed, or none of them touched. -/
structure ServeStep (listener : Listener) (status : Status) (listener' : Listener) : Prop where
  flags : FlagsKept listener.flags [status] listener'.flags
  connections : (status ≠ .ok ∧ listener'.pending = listener.pending ∧ listener'.accepted = listener.accepted) ∨
    ∃ connection, listener.pending = connection.stream :: listener'.pending ∧
      listener'.accepted = listener.accepted ++ [connection] ∧ connection.closes = 1 ∧ EchoesOnly connection ∧
      (status = .ok → Echoed connection)

theorem ServeStep.untouched {listener : Listener} {status : Status} (h : status ≠ .ok) :
    ServeStep listener status listener :=
  ⟨.inl rfl, .inl ⟨h, rfl, rfl⟩⟩

theorem serveAccepted_cases {deadline : Timespec} {script : ServeScript} {status status' : Status}
    {client : Option Bytes} {listener listener' : Listener}
    (h : serveAccepted deadline script status client listener = some (status', listener')) :
    listener'.flags = listener.flags ∧ listener'.pending = listener.pending ∧ (status = .system → status' = .system) ∧
      ((client = none ∧ status' = status ∧ listener'.accepted = listener.accepted) ∨
        ∃ connection, client = some connection.stream ∧ listener'.accepted = listener.accepted ++ [connection] ∧
          connection.closes = 1 ∧ EchoesOnly connection ∧ (status' = .ok → Echoed connection)) := by
  unfold serveAccepted at h
  cases client with
  | none =>
    obtain ⟨rfl, rfl⟩ := Prod.mk.inj (Option.some.inj h)
    exact ⟨rfl, rfl, id, .inl ⟨rfl, rfl, rfl⟩⟩
  | some stream =>
    dsimp only at h
    split at h
    · next hbad =>
      obtain ⟨rfl, rfl⟩ := Prod.mk.inj (Option.some.inj h)
      refine ⟨rfl, rfl, fun hsystem => ?_,
        .inr ⟨(Connection.opened stream).close, rfl, rfl, rfl, .inl rfl, fun hok => ?_⟩⟩
      · rw [hsystem]
        split <;> rfl
      · split at hok
        · cases hok
        · exact absurd hok hbad
    · next hgood =>
      obtain ⟨⟨echoed, connection⟩, hecho, heq⟩ := Option.map_eq_some_iff.mp h
      obtain ⟨rfl, rfl⟩ := Prod.mk.inj heq
      obtain ⟨rfl, hcloses, honly, hwhole⟩ := echo_cases hecho
      refine ⟨rfl, rfl, fun hsystem => ?_, .inr ⟨connection, rfl, rfl, hcloses, honly, hwhole⟩⟩
      rw [hsystem] at hgood
      simp at hgood

/-- **Step lemma.** -/
theorem serveOne_step {listenFd timeoutMs : Int} {script : ServeScript} {listener listener' : Listener}
    {status : Status} (h : serveOne listenFd timeoutMs script listener = some (status, listener')) :
    ServeStep listener status listener' := by
  unfold serveOne at h
  split at h
  · obtain ⟨rfl, rfl⟩ := Prod.mk.inj (Option.some.inj h)
    exact ServeStep.untouched (by simp)
  · split at h
    · next hdeadline =>
      obtain ⟨rfl, rfl⟩ := Prod.mk.inj (Option.some.inj h)
      exact ServeStep.untouched (makeDeadline_error hdeadline)
    · split at h
      · cases h
      · next entered henter =>
        split at h
        · next hfail =>
          obtain ⟨rfl, rfl⟩ := Prod.mk.inj (Option.some.inj h)
          rcases enterNonblocking_cases henter with ⟨hok, -⟩ | ⟨-, hsame⟩
          · exact absurd hok hfail
          · exact ⟨.inl hsame, .inl ⟨hfail, rfl, rfl⟩⟩
        · next hok =>
          split at h
          · cases h
          · next accepted haccept =>
            split at h
            · cases h
            · next restored flags hrestore =>
              obtain ⟨hflags, hpending, hsystem, hclient⟩ := serveAccepted_cases h
              have hrestored := restoreFlags_cases henter (not_not.mp hok) hrestore
              constructor
              · rcases hrestored with ⟨-, hback⟩ | ⟨hbad, hset⟩
                · exact .inl (hflags.trans hback)
                · exact .inr ⟨List.mem_singleton.mpr (hsystem hbad).symm, hflags.trans hset⟩
              · rcases acceptLoop_cases haccept with ⟨-, stream, hstream, hqueue⟩ | ⟨hfail, hnone, hqueue⟩
                · rcases hclient with ⟨hnone, -⟩ | ⟨connection, hsome, hall⟩
                  · rw [hstream] at hnone
                    cases hnone
                  · rw [hstream] at hsome
                    refine .inr ⟨connection, ?_, hall⟩
                    rw [← Option.some.inj hsome, hpending]
                    exact hqueue
                · rcases hclient with ⟨-, hstatus, hsame⟩ | ⟨connection, hsome, -⟩
                  · refine .inl ⟨?_, hpending.trans hqueue, hsame⟩
                    rcases hrestored with ⟨hkept, -⟩ | ⟨hbad, -⟩
                    · rwa [hstatus, hkept]
                    · rw [hstatus, hbad]
                      simp
                  · rw [hnone] at hsome
                    cases hsome

/-! ## Patient scripts -/

/-- The accept takes a connection or is interrupted. -/
def acceptPatient : AcceptOutcome → Bool
  | .takes => true
  | .failed errno => errno.isTransient

def PatientAccept (deadline : Timespec) (turn : AcceptTurn) : Prop :=
  wait deadline turn.waits = some .ok ∧ acceptPatient turn.outcome = true

instance (deadline : Timespec) (turn : AcceptTurn) : Decidable (PatientAccept deadline turn) :=
  inferInstanceAs (Decidable (_ ∧ _))

/-- The script of a call that meets no failure, and moves often enough for a payload of `n` bytes. -/
structure PatientServe (deadline : Timespec) (script : ServeScript) (n : Nat) : Prop where
  flags : FcntlPatient script.getTurns ∧ FcntlPatient script.setTurns ∧ FcntlPatient script.restoreTurns
  accept : ∀ turn ∈ script.acceptTurns, PatientAccept deadline turn
  recv : ∀ turn ∈ script.recvTurns, PatientRecv deadline turn
  send : ∀ turn ∈ script.sendTurns, PatientSend deadline turn
  accepts : ∃ turn ∈ script.acceptTurns, turn.outcome = .takes
  recvs : 4 + n ≤ recvs script.recvTurns
  sends : 4 + n ≤ sends script.sendTurns
  closes : script.closeTurn = none

theorem nonblocking_patient {getTurns setTurns turns : List FcntlTurn} (hget : FcntlPatient getTurns)
    (hset : FcntlPatient setTurns) (hrestore : FcntlPatient turns) (flags : UInt32) (status : Status) :
    ∃ entered, enterNonblocking flags getTurns setTurns = some entered ∧ entered.status = .ok ∧
      restoreFlags entered.flags entered.originalFlags entered.changed status turns = some (status, flags) := by
  rw [enterNonblocking, getFlags_patient hget]
  dsimp only
  rw [setFlags_patient hset]
  split
  · refine ⟨_, rfl, rfl, ?_⟩
    rw [restoreFlags, setFlags_patient hrestore]
    rfl
  · exact ⟨_, rfl, rfl, rfl⟩

theorem acceptLoop_patient {deadline : Timespec} {turns : List AcceptTurn} {stream : Bytes} {pending : List Bytes}
    (hpat : ∀ turn ∈ turns, PatientAccept deadline turn) (htakes : ∃ turn ∈ turns, turn.outcome = .takes) :
    acceptLoop deadline turns (stream :: pending) = some ⟨.ok, some stream, pending⟩ := by
  induction turns with
  | nil =>
    obtain ⟨turn, hmem, -⟩ := htakes
    cases hmem
  | cons turn rest ih =>
    obtain ⟨hwait, hout⟩ := hpat turn (by simp)
    unfold acceptLoop
    rw [hwait]
    dsimp only
    cases hturn : turn.outcome with
    | takes => rfl
    | failed errno =>
      have htransient : errno.isTransient = true := by rwa [hturn] at hout
      dsimp only
      rw [if_pos htransient]
      apply ih fun t ht => hpat t (List.mem_cons_of_mem _ ht)
      obtain ⟨t, ht, htake⟩ := htakes
      rcases List.mem_cons.mp ht with rfl | ht
      · rw [hturn] at htake
        cases htake
      · exact ⟨t, ht, htake⟩

theorem echo_patient {deadline : Timespec} {recvTurns : List RecvTurn} {sendTurns : List SendTurn} {payload : Bytes}
    (hlen : payload.length ≤ serverFrameCapacity) (hrecv : ∀ turn ∈ recvTurns, PatientRecv deadline turn)
    (hsend : ∀ turn ∈ sendTurns, PatientSend deadline turn) (hrecvs : 4 + payload.length ≤ recvs recvTurns)
    (hsends : 4 + payload.length ≤ sends sendTurns) (rest : Bytes) :
    echo deadline recvTurns sendTurns none (.opened (frame payload ++ rest)) =
      some (.ok, ⟨frame payload ++ rest, frame payload, 1⟩) := by
  have hword : payload.length < 2 ^ 32 := by
    unfold serverFrameCapacity at hlen
    omega
  have hreceived := @recvFrameUntil_received deadline recvTurns (List.replicate serverFrameCapacity 0) 0
    (frame payload ++ rest) hrecv
  have hneed := frameNeed_frame_le hword (List.replicate serverFrameCapacity 0) rest
  unfold echo echoTransfers Connection.opened
  dsimp only
  cases hres : recvFrameUntil deadline (List.replicate serverFrameCapacity 0) 0 recvTurns (frame payload ++ rest) with
  | none =>
    rw [hres] at hreceived
    have hshort : recvs recvTurns < _ := hreceived
    omega
  | some received =>
    rw [hres] at hreceived
    have hout : received.outcome = _ := hreceived
    have hcap : payload.length ≤ (List.replicate serverFrameCapacity (0 : UInt8)).length := by
      rwa [List.length_replicate]
    rw [frameOutcome_frame hword, if_pos hcap] at hout
    have hstatus : received.status = .ok := congrArg Outcome.status hout
    have hpayload : received.out.take received.outLen = payload := by
      have hbuf : received.out = _ := congrArg Outcome.out hout
      have hn : received.outLen = payload.length := congrArg Outcome.outLen hout
      rw [hbuf, hn, take_overwrite_zero hcap]
    have hsent := @sendFrameUntil_sent deadline payload sendTurns [] hsend
    dsimp only
    rw [if_pos hstatus, hpayload]
    cases hres' : sendFrameUntil deadline payload sendTurns [] with
    | none =>
      rw [hres'] at hsent
      have hshort : sends sendTurns < 4 + payload.length := hsent
      omega
    | some sent =>
      rw [hres'] at hsent
      obtain ⟨hok, hwire⟩ := hsent
      rw [List.nil_append] at hwire
      simp [hok, hwire, Connection.close]

theorem serveOne_patient {listenFd timeoutMs : Int} {script : ServeScript} {deadline : Timespec} {payload rest : Bytes}
    {listener : Listener} {pending : List Bytes} (hfd : 0 ≤ listenFd) (htimeout : 0 ≤ timeoutMs)
    (hdeadline : makeDeadline timeoutMs script.clock = .ok deadline)
    (hlen : payload.length ≤ serverFrameCapacity) (hpatient : PatientServe deadline script payload.length)
    (hpending : listener.pending = (frame payload ++ rest) :: pending) :
    serveOne listenFd timeoutMs script listener =
      some (.ok, ⟨listener.flags, pending,
        listener.accepted ++ [⟨frame payload ++ rest, frame payload, 1⟩]⟩) := by
  obtain ⟨hget, hset, hrestore⟩ := hpatient.flags
  obtain ⟨entered, henter, hok, hback⟩ := nonblocking_patient hget hset hrestore listener.flags .ok
  have haccept := @acceptLoop_patient deadline script.acceptTurns (frame payload ++ rest) pending hpatient.accept
    hpatient.accepts
  have hecho := echo_patient hlen hpatient.recv hpatient.send hpatient.recvs hpatient.sends rest
  unfold serveOne
  rw [if_neg (by omega), hdeadline]
  dsimp only
  rw [henter]
  dsimp only
  rw [if_neg (by rw [hok]; simp), hpending, haccept]
  dsimp only
  rw [hback]
  dsimp only
  rw [serveAccepted, hpatient.closes, hecho]
  rfl

/-- One call on the listening descriptor. -/
structure ServeCall where
  timeoutMs : Int
  script : ServeScript

/-- A call that accepts at the second attempt. -/
def patientCall : ServeCall where
  timeoutMs := 1000
  script :=
    { clock := some ⟨0, 0⟩
      getTurns := [none]
      setTurns := [some .eintr, none]
      acceptTurns := [readyTurn (.failed .eagain), readyTurn .takes]
      restoreTurns := [none]
      recvTurns := List.replicate 6 (readyTurn (.takes 1))
      sendTurns := List.replicate 6 (readyTurn (.takes 1))
      closeTurn := none }

theorem patientServe_two : PatientServe ⟨1, 0⟩ patientCall.script 2 :=
  ⟨by decide, by decide, by decide, by decide, by decide, by decide, by decide, rfl⟩

/-! ## Runs -/

def serveAll (listenFd : Int) : List ServeCall → Listener → Option (List Status × Listener)
  | [], listener => some ([], listener)
  | call :: rest, listener =>
    match serveOne listenFd call.timeoutMs call.script listener with
    | none => none
    | some (status, listener) =>
      (serveAll listenFd rest listener).map fun (statuses, listener) => (status :: statuses, listener)

/-- What a run leaves: `served` are the connections it accepted, and `results` what the calls that accepted them
returned. -/
structure ServeRun (listener : Listener) (statuses : List Status) (served : List Connection) (results : List Status)
    (listener' : Listener) : Prop where
  flags : FlagsKept listener.flags statuses listener'.flags
  accepted : listener'.accepted = listener.accepted ++ served
  order : listener.pending = served.map Connection.stream ++ listener'.pending
  closes : ∀ connection ∈ served, connection.closes = 1
  echoes : ∀ connection ∈ served, EchoesOnly connection
  calls : results.Sublist statuses
  count : results.count .ok = statuses.count .ok
  whole : List.Forall₂ (fun status connection => status = .ok → Echoed connection) results served

/-- **Run lemma.** -/
theorem serveAll_run {listenFd : Int} {calls : List ServeCall} :
    ∀ {listener : Listener} {statuses : List Status} {listener' : Listener},
    serveAll listenFd calls listener = some (statuses, listener') →
    ∃ served results, ServeRun listener statuses served results listener' := by
  induction calls with
  | nil =>
    intro listener statuses listener' h
    obtain ⟨rfl, rfl⟩ := Prod.mk.inj (Option.some.inj h)
    exact ⟨[], [], .inl rfl, (List.append_nil _).symm, rfl, by simp, by simp, List.Sublist.slnil, rfl, .nil⟩
  | cons call rest ih =>
    intro listener statuses listener' h
    rw [serveAll] at h
    split at h
    · cases h
    · next status first hone =>
      have hstep := serveOne_step hone
      obtain ⟨⟨more, last⟩, hrest, heq⟩ := Option.map_eq_some_iff.mp h
      obtain ⟨rfl, rfl⟩ := Prod.mk.inj heq
      obtain ⟨served, results, hrun⟩ := ih hrest
      have hflags := hstep.flags.run hrun.flags
      rcases hstep.connections with
        ⟨hfail, hpending, haccepted⟩ | ⟨connection, hpending, haccepted, hclosed, honly, hwhole⟩
      · refine ⟨served, results, hflags, ?_, ?_, hrun.closes, hrun.echoes, hrun.calls.cons _, ?_, hrun.whole⟩
        · rw [hrun.accepted, haccepted]
        · rw [← hpending, hrun.order]
        · rw [List.count_cons_of_ne hfail, hrun.count]
      · refine ⟨connection :: served, status :: results, hflags, ?_, ?_, ?_, ?_, hrun.calls.cons_cons _, ?_,
          .cons hwhole hrun.whole⟩
        · rw [hrun.accepted, haccepted, List.append_assoc, List.singleton_append]
        · rw [hpending, hrun.order, List.map_cons, List.cons_append]
        · exact List.forall_mem_cons.mpr ⟨hclosed, hrun.closes⟩
        · exact List.forall_mem_cons.mpr ⟨honly, hrun.echoes⟩
        · rw [List.count_cons, List.count_cons, hrun.count]

/-- **Main result.** In every run the server takes the waiting connections in their order, closes each that it
accepted exactly once, and leaves the others waiting; as many were accepted as calls returned `OK`, or more. The
flags of the listening descriptor are what they were, or only `O_NONBLOCK` was left set and a call returned
`SYSTEM`. -/
theorem server_keeps_listener {listenFd : Int} {calls : List ServeCall} {flags : UInt32} {pending : List Bytes}
    {statuses : List Status} {listener : Listener}
    (h : serveAll listenFd calls ⟨flags, pending, []⟩ = some (statuses, listener)) :
    FlagsKept flags statuses listener.flags ∧
    pending = listener.accepted.map Connection.stream ++ listener.pending ∧
    (∀ connection ∈ listener.accepted, connection.closes = 1) ∧
    statuses.count .ok ≤ listener.accepted.length ∧ listener.accepted.length ≤ statuses.length := by
  obtain ⟨served, results, hrun⟩ := serveAll_run h
  obtain rfl : listener.accepted = served := hrun.accepted
  refine ⟨hrun.flags, hrun.order, hrun.closes, ?_, ?_⟩
  · rw [← hrun.count, ← hrun.whole.length_eq]
    exact List.count_le_length
  · rw [← hrun.whole.length_eq]
    exact hrun.calls.length_le

/-- A call whose restore fails behind the accept, and one that times out. -/
def unrestoredCalls : List ServeCall :=
  [⟨1000, { patientCall.script with restoreTurns := [some .eintr, some .other] }⟩,
    ⟨1000, { patientCall.script with acceptTurns := [⟨[⟨some ⟨0, 0⟩, fun _ => .expired⟩], .takes⟩] }⟩]

/-- The accepted connection is closed without a reply, and the flags are not put back. -/
def unrestoredListener : Listener := ⟨0x802, [[5]], [⟨[0, 0, 0, 1, 9], [], 1⟩]⟩

theorem server_keeps_listener_unrestored :
    serveAll 3 unrestoredCalls ⟨2, [[0, 0, 0, 1, 9], [5]], []⟩ = some ([.system, .timeout], unrestoredListener) ∧
      FlagsKept 2 [.system, .timeout] unrestoredListener.flags ∧
      [[0, 0, 0, 1, 9], [5]] = unrestoredListener.accepted.map Connection.stream ++ unrestoredListener.pending ∧
      (∀ connection ∈ unrestoredListener.accepted, connection.closes = 1) ∧
      List.count Status.ok [.system, .timeout] ≤ unrestoredListener.accepted.length ∧
      unrestoredListener.accepted.length ≤ [Status.system, .timeout].length := by
  have hrun : serveAll 3 unrestoredCalls ⟨2, [[0, 0, 0, 1, 9], [5]], []⟩ =
      some ([.system, .timeout], unrestoredListener) := rfl
  exact ⟨hrun, server_keeps_listener hrun⟩

/-- **Main result.** In every run a peer is sent nothing but its own first frame, up to where the call failed, and
nothing of a frame that is larger than the server takes; every call that returned `OK` sent a whole one back. -/
theorem server_echoes_only {listenFd : Int} {calls : List ServeCall} {flags : UInt32} {pending : List Bytes}
    {statuses : List Status} {listener : Listener}
    (h : serveAll listenFd calls ⟨flags, pending, []⟩ = some (statuses, listener)) :
    (∀ connection ∈ listener.accepted, EchoesOnly connection) ∧
    ∃ results, results.Sublist statuses ∧ results.count .ok = statuses.count .ok ∧
      List.Forall₂ (fun status connection => status = .ok → Echoed connection) results listener.accepted := by
  obtain ⟨served, results, hrun⟩ := serveAll_run h
  obtain rfl : listener.accepted = served := hrun.accepted
  exact ⟨hrun.echoes, results, hrun.calls, hrun.count, hrun.whole⟩

/-- Two bytes that come back, with a third one left unread, and a peer that is too slow. -/
def echoedListener : Listener :=
  ⟨2, [], [⟨[0, 0, 0, 2, 7, 8, 9], [0, 0, 0, 2, 7, 8], 1⟩, ⟨[0, 0, 0, 1, 9], [], 1⟩]⟩

/-- A call that accepts, and receives nothing by its deadline. -/
def slowCall : ServeCall :=
  ⟨1000, { patientCall.script with recvTurns := [⟨[⟨some ⟨0, 0⟩, fun _ => .expired⟩], .takes 1⟩] }⟩

theorem server_echoes_only_two :
    serveAll 3 [patientCall, slowCall] ⟨2, [[0, 0, 0, 2, 7, 8, 9], [0, 0, 0, 1, 9]], []⟩ =
        some ([.ok, .timeout], echoedListener) ∧
      (∀ connection ∈ echoedListener.accepted, EchoesOnly connection) ∧
      ∃ results : List Status, results.Sublist [.ok, .timeout] ∧
        results.count .ok = List.count .ok [Status.ok, .timeout] ∧
        List.Forall₂ (fun status connection => status = .ok → Echoed connection) results echoedListener.accepted := by
  have hrun : serveAll 3 [patientCall, slowCall] ⟨2, [[0, 0, 0, 2, 7, 8, 9], [0, 0, 0, 1, 9]], []⟩ =
      some ([.ok, .timeout], echoedListener) := by
    have hone := @serveOne_patient 3 patientCall.timeoutMs patientCall.script ⟨1, 0⟩ [7, 8] [9]
      ⟨2, [[0, 0, 0, 2, 7, 8, 9], [0, 0, 0, 1, 9]], []⟩ [[0, 0, 0, 1, 9]] (by decide) (by decide) rfl (by decide)
      patientServe_two rfl
    rw [serveAll, hone]
    rfl
  exact ⟨hrun, server_echoes_only hrun⟩

end TcpipCourse.L08
