import TcpipCourse.L08.Serve

/-!
# Lesson 08: clients and the echo server

Each client sends one frame on a connection of its own, the server makes its calls on the listening descriptor, and
the clients whose connection was accepted receive a frame each.

* `echoSystem` : the three parts, each call against its own schedule;
* `echoSystem_patient` : under patient schedules every client receives its frame;
* `echoSystem_safe` : under all schedules a client that receives a frame has sent it.
-/

namespace TcpipCourse.L08
open Lib

structure Client where
  send : SendCall
  recv : RecvCall

def clientsSend (fd : Int) : List Client → Option (List SendResult)
  | [] => some []
  | client :: rest =>
    match client.send.frame fd [] with
    | none => none
    | some sent => (clientsSend fd rest).map (sent :: ·)

def clientsReceive (fd : Int) : List Client → List Connection → Option (List Received)
  | client :: rest, connection :: connections =>
    match client.recv.frame fd connection.reply with
    | none => none
    | some received => (clientsReceive fd rest connections).map (received :: ·)
  | [], _ => some []
  | _ :: _, [] => some []

structure EchoRun where
  sent : List SendResult
  statuses : List Status
  listener : Listener
  received : List Received

def echoSystem (fd listenFd : Int) (flags : UInt32) (clients : List Client) (calls : List ServeCall) :
    Option EchoRun :=
  match clientsSend fd clients with
  | none => none
  | some sent =>
    match serveAll listenFd calls ⟨flags, sent.map SendResult.wire, []⟩ with
    | none => none
    | some (statuses, listener) =>
      (clientsReceive fd clients listener.accepted).map fun received => ⟨sent, statuses, listener, received⟩

/-! ## Every schedule -/

theorem clientsSend_get {fd : Int} {clients : List Client} :
    ∀ {sent : List SendResult} {i : Nat} {client : Client}, clientsSend fd clients = some sent →
    clients[i]? = some client → ∃ result, sent[i]? = some result ∧ client.send.frame fd [] = some result := by
  induction clients with
  | nil =>
    intro sent i client _ hclient
    cases hclient
  | cons first rest ih =>
    intro sent i client h hclient
    rw [clientsSend] at h
    split at h
    · cases h
    · next result hresult =>
      obtain ⟨more, hmore, rfl⟩ := Option.map_eq_some_iff.mp h
      cases i with
      | zero =>
        obtain rfl := Option.some.inj hclient
        exact ⟨result, rfl, hresult⟩
      | succ i =>
        obtain ⟨found, hfound, hcall⟩ := ih hmore hclient
        exact ⟨found, hfound, hcall⟩

theorem clientsReceive_get {fd : Int} {clients : List Client} :
    ∀ {connections : List Connection} {received : List Received} {i : Nat} {r : Received},
    clientsReceive fd clients connections = some received → received[i]? = some r →
    ∃ client connection, clients[i]? = some client ∧ connections[i]? = some connection ∧
      client.recv.frame fd connection.reply = some r := by
  induction clients with
  | nil =>
    intro connections received i r h hr
    rw [clientsReceive] at h
    obtain rfl := Option.some.inj h
    cases hr
  | cons client rest ih =>
    intro connections received i r h hr
    cases connections with
    | nil =>
      rw [clientsReceive] at h
      obtain rfl := Option.some.inj h
      cases hr
    | cons connection connections =>
      rw [clientsReceive] at h
      split at h
      · cases h
      · next first hfirst =>
        obtain ⟨more, hmore, rfl⟩ := Option.map_eq_some_iff.mp h
        cases i with
        | zero =>
          obtain rfl := Option.some.inj hr
          exact ⟨client, connection, rfl, rfl, hfirst⟩
        | succ i => exact ih hmore hr

/-- A client whose peer only echoes receives what it has sent. -/
theorem received_eq_sent {fd fd' : Int} {call : SendCall} {sent : SendResult} {connection : Connection}
    {call' : RecvCall} {r : Received} (hsend : call.frame fd [] = some sent) (hstream : connection.stream = sent.wire)
    (honly : EchoesOnly connection) (hrecv : call'.frame fd' connection.reply = some r) (hok : r.status = .ok) :
    r.data = call.data ∧ sent.status = .ok := by
  obtain ⟨hdata, hreply⟩ := absorbs_frame fd' call' connection.reply r hrecv hok
  rcases honly with hnil | ⟨payload, rest, hcap, hfirst, hpart⟩
  · rw [hnil] at hreply
    exact absurd (List.append_eq_nil_iff.mp hreply.symm).1 (prefixFree_frame.ne_nil _ hdata)
  · have hpayload : payload ∈ framable := by
      have : payload.length < 2 ^ 32 := by
        unfold serverFrameCapacity at hcap
        omega
      exact this
    obtain ⟨more, hmore⟩ := hpart
    rw [hreply, List.append_assoc] at hmore
    have hsame := prefixFree_frame.inj _ hdata _ hpayload _ [] (by rw [hmore, List.append_nil])
    rw [hsame]
    rw [hstream] at hfirst
    rcases emits_frame fd call [] sent hsend with ⟨hsent, hmem, hwire⟩ | ⟨-, n, hn, hwire⟩
    · rw [hfirst, List.nil_append] at hwire
      exact ⟨prefixFree_frame.inj _ hpayload _ hmem rest [] (by rw [hwire, List.append_nil]), hsent⟩
    · rw [hfirst, List.nil_append] at hwire
      have hlen := congrArg List.length hwire
      rw [List.length_append, List.length_take, length_frame] at hlen
      rcases hn with rfl | ⟨hmem, hshort⟩
      · omega
      · have hall : frame payload ++ (rest ++ (frame call.data).drop n) = frame call.data ++ [] := by
          rw [← List.append_assoc, hwire, List.take_append_drop, List.append_nil]
        have heq := prefixFree_frame.inj _ hpayload _ hmem _ _ hall
        rw [← heq, length_frame] at hshort
        omega

/-! ## Patient schedules -/

/-- A client and the call that serves it, when nothing fails and every schedule moves often enough for the
payload. -/
structure PatientSession (client : Client) (call : ServeCall) : Prop where
  length : client.send.data.length ≤ serverFrameCapacity
  room : client.send.data.length ≤ client.recv.out.length
  send : ∃ deadline, makeDeadline client.send.timeoutMs client.send.clock = .ok deadline ∧
    (∀ turn ∈ client.send.turns, PatientSend deadline turn) ∧ 4 + client.send.data.length ≤ sends client.send.turns
  serve : ∃ deadline, makeDeadline call.timeoutMs call.script.clock = .ok deadline ∧
    PatientServe deadline call.script client.send.data.length
  recv : ∃ deadline, makeDeadline client.recv.timeoutMs client.recv.clock = .ok deadline ∧
    (∀ turn ∈ client.recv.turns, PatientRecv deadline turn) ∧ 4 + client.send.data.length ≤ recvs client.recv.turns

theorem makeDeadline_nonneg {timeoutMs : Int} {clock : Option Timespec} {deadline : Timespec}
    (h : makeDeadline timeoutMs clock = .ok deadline) : 0 ≤ timeoutMs := by
  unfold makeDeadline at h
  split at h
  · cases h
  · omega

section
variable {client : Client} {call : ServeCall}

theorem PatientSession.framable (h : PatientSession client call) : client.send.data.length < 2 ^ 32 := by
  have hlen := h.length
  unfold serverFrameCapacity at hlen
  omega

theorem PatientSession.sends (h : PatientSession client call) {fd : Int} (hfd : 0 ≤ fd) :
    ∃ result, client.send.frame fd [] = some result ∧ result.status = .ok ∧
      result.wire = frame client.send.data := by
  obtain ⟨deadline, hdeadline, hpat, henough⟩ := h.send
  have htimeout := makeDeadline_nonneg hdeadline
  have hword := h.framable
  have hsent := @sendFrameUntil_sent deadline client.send.data client.send.turns [] hpat
  unfold SendCall.frame sendFrame
  rw [if_neg (by omega), if_neg (by unfold uint32Max; omega), hdeadline]
  dsimp only
  cases hres : sendFrameUntil deadline client.send.data client.send.turns [] with
  | none =>
    rw [hres] at hsent
    have hshort : TcpipCourse.sends client.send.turns < 4 + client.send.data.length := hsent
    omega
  | some result =>
    rw [hres] at hsent
    exact ⟨result, rfl, hsent⟩

theorem PatientSession.receives (h : PatientSession client call) {fd : Int} (hfd : 0 ≤ fd) :
    client.recv.frame fd (frame client.send.data) = some ⟨.ok, client.send.data, []⟩ := by
  obtain ⟨deadline, hdeadline, hpat, henough⟩ := h.recv
  have htimeout := makeDeadline_nonneg hdeadline
  have hneed := frameNeed_frame_le h.framable client.recv.out []
  have hreceived := @recvFrameUntil_received deadline client.recv.turns client.recv.out 0
    (frame client.send.data ++ []) hpat
  have hwhole := frameOutcome_frame h.framable client.recv.out 0 []
  rw [if_pos h.room] at hwhole
  rw [List.append_nil] at hneed hreceived hwhole
  unfold RecvCall.frame recvFrame
  rw [if_neg (by omega), hdeadline]
  dsimp only
  cases hres : recvFrameUntil deadline client.recv.out 0 client.recv.turns (frame client.send.data) with
  | none =>
    rw [hres] at hreceived
    have hshort : recvs client.recv.turns < _ := hreceived
    omega
  | some result =>
    rw [hres] at hreceived
    have hout : result.outcome = _ := hreceived
    rw [hwhole] at hout
    have hstatus : result.status = .ok := congrArg Outcome.status hout
    have hbuf : result.out = _ := congrArg Outcome.out hout
    have hn : result.outLen = client.send.data.length := congrArg Outcome.outLen hout
    have hleft : result.stream = [] := congrArg Outcome.stream hout
    rw [Option.map_some, hstatus, hbuf, hn, hleft, take_overwrite_zero h.room]

end

section
variable {fd listenFd : Int} {sessions : List (Client × ServeCall)}

def payloadOf (session : Client × ServeCall) : Bytes := session.1.send.data

theorem clientsSend_patient (hfd : 0 ≤ fd) (h : ∀ session ∈ sessions, PatientSession session.1 session.2) :
    ∃ sent, clientsSend fd (sessions.map Prod.fst) = some sent ∧ (∀ result ∈ sent, result.status = .ok) ∧
      sent.map SendResult.wire = sessions.map fun session => frame (payloadOf session) := by
  induction sessions with
  | nil => exact ⟨[], rfl, by simp, rfl⟩
  | cons session rest ih =>
    obtain ⟨hfirst, hrest⟩ := List.forall_mem_cons.mp h
    obtain ⟨result, hresult, hok, hwire⟩ := hfirst.sends hfd
    obtain ⟨sent, hsent, hall, hwires⟩ := ih hrest
    refine ⟨result :: sent, ?_, List.forall_mem_cons.mpr ⟨hok, hall⟩, ?_⟩
    · rw [List.map_cons, clientsSend, hresult]
      dsimp only
      rw [hsent, Option.map_some]
    · rw [List.map_cons, List.map_cons, hwire, hwires]
      rfl

theorem serveAll_patient (hfd : 0 ≤ listenFd) (flags : UInt32)
    (h : ∀ session ∈ sessions, PatientSession session.1 session.2) : ∀ accepted : List Connection,
    serveAll listenFd (sessions.map Prod.snd) ⟨flags, sessions.map fun session => frame (payloadOf session), accepted⟩ =
      some (sessions.map fun _ => .ok, ⟨flags, [], accepted ++ sessions.map fun session =>
        ⟨frame (payloadOf session), frame (payloadOf session), 1⟩⟩) := by
  induction sessions with
  | nil =>
    intro accepted
    simp [serveAll]
  | cons session rest ih =>
    intro accepted
    obtain ⟨hfirst, hrest⟩ := List.forall_mem_cons.mp h
    obtain ⟨deadline, hdeadline, hpatient⟩ := hfirst.serve
    have hone := @serveOne_patient listenFd session.2.timeoutMs session.2.script deadline (payloadOf session) []
      ⟨flags, (session :: rest).map fun session => frame (payloadOf session), accepted⟩
      (rest.map fun session => frame (payloadOf session)) hfd (makeDeadline_nonneg hdeadline) hdeadline hfirst.length
      hpatient (by rw [List.append_nil, List.map_cons])
    rw [List.append_nil] at hone
    rw [List.map_cons, serveAll, hone]
    dsimp only
    rw [ih hrest, Option.map_some, List.append_assoc]
    rfl

theorem clientsReceive_patient (hfd : 0 ≤ fd) (h : ∀ session ∈ sessions, PatientSession session.1 session.2) :
    clientsReceive fd (sessions.map Prod.fst)
        (sessions.map fun session => ⟨frame (payloadOf session), frame (payloadOf session), 1⟩) =
      some (sessions.map fun session => ⟨.ok, payloadOf session, []⟩) := by
  induction sessions with
  | nil => rfl
  | cons session rest ih =>
    obtain ⟨hfirst, hrest⟩ := List.forall_mem_cons.mp h
    have hreceives := hfirst.receives hfd
    rw [List.map_cons, List.map_cons, clientsReceive, payloadOf, hreceives]
    dsimp only
    rw [ih hrest, Option.map_some, List.map_cons]
    rfl

theorem echoSystem_run (hfd : 0 ≤ fd) (hlisten : 0 ≤ listenFd) (flags : UInt32)
    (h : ∀ session ∈ sessions, PatientSession session.1 session.2) :
    ∃ run, echoSystem fd listenFd flags (sessions.map Prod.fst) (sessions.map Prod.snd) = some run ∧
      (∀ result ∈ run.sent, result.status = .ok) ∧ run.statuses = sessions.map (fun _ => .ok) ∧
      run.listener.flags = flags ∧ run.listener.pending = [] ∧
      run.received = sessions.map fun session => ⟨.ok, payloadOf session, []⟩ := by
  obtain ⟨sent, hsent, hok, hwires⟩ := clientsSend_patient hfd h
  have hserve := serveAll_patient hlisten flags h []
  rw [List.nil_append] at hserve
  unfold echoSystem
  rw [hsent]
  dsimp only
  rw [hwires, hserve]
  dsimp only
  rw [clientsReceive_patient hfd h, Option.map_some]
  exact ⟨_, rfl, hok, rfl, rfl, rfl, rfl⟩

/-- **Main result.** When nothing fails for good and every schedule moves often enough, every client gets its own
payload back, every call returns `OK`, no connection is left waiting, and the listening descriptor has its flags
back. -/
theorem echoSystem_patient (hfd : 0 ≤ fd) (hlisten : 0 ≤ listenFd) (flags : UInt32)
    (h : ∀ session ∈ sessions, PatientSession session.1 session.2) :
    ∃ run, echoSystem fd listenFd flags (sessions.map Prod.fst) (sessions.map Prod.snd) = some run ∧
      (∀ result ∈ run.sent, result.status = .ok) ∧ run.statuses = sessions.map (fun _ => .ok) ∧
      run.listener.flags = flags ∧ run.listener.pending = [] ∧
      run.received.map (fun r => (r.status, r.data)) = sessions.map fun session => (.ok, session.1.send.data) := by
  obtain ⟨run, hrun, hsent, hstatuses, hflags, hpending, hreceived⟩ := echoSystem_run hfd hlisten flags h
  refine ⟨run, hrun, hsent, hstatuses, hflags, hpending, ?_⟩
  rw [hreceived, List.map_map]
  rfl

/-- A client that sends two bytes. -/
def twoByteClient : Client where
  send := ⟨[7, 8], 1000, some ⟨0, 0⟩, readyTurn (.failed .eintr) :: List.replicate 6 (readyTurn (.takes 1))⟩
  recv := ⟨[0, 0, 0], 1000, some ⟨0, 0⟩, List.replicate 6 (readyTurn (.takes 1))⟩

theorem patientSession_two : PatientSession twoByteClient patientCall where
  length := by decide
  room := by decide
  send := ⟨⟨1, 0⟩, rfl, by decide, by decide⟩
  serve := ⟨⟨1, 0⟩, rfl, patientServe_two⟩
  recv := ⟨⟨1, 0⟩, rfl, by decide, by decide⟩

theorem echoSystem_patient_two : ∃ run, echoSystem 5 3 2 [twoByteClient, twoByteClient] [patientCall, patientCall] =
      some run ∧ run.received.map (fun r => (r.status, r.data)) = [(.ok, [7, 8]), (.ok, [7, 8])] := by
  have hsessions : ∀ session ∈ [(twoByteClient, patientCall), (twoByteClient, patientCall)],
      PatientSession session.1 session.2 := by
    simp [patientSession_two]
  obtain ⟨run, hrun, -, -, -, -, hreceived⟩ :=
    @echoSystem_patient 5 3 [(twoByteClient, patientCall), (twoByteClient, patientCall)] (by decide) (by decide) 2
      hsessions
  exact ⟨run, hrun, hreceived⟩

end

/-- **Main result.** Whatever the schedules of the clients and of the server, a client whose receive returns `OK`
has received its own payload, and its send returned `OK`. -/
theorem echoSystem_safe {fd listenFd : Int} {flags : UInt32} {clients : List Client} {calls : List ServeCall}
    {run : EchoRun} (h : echoSystem fd listenFd flags clients calls = some run) :
    ∀ (i : Nat) (r : Received), run.received[i]? = some r → r.status = .ok →
      ∃ client sent, clients[i]? = some client ∧ run.sent[i]? = some sent ∧ r.data = client.send.data ∧
        sent.status = .ok := by
  intro i r hr hok
  unfold echoSystem at h
  split at h
  · cases h
  · next sent hsent =>
    split at h
    · cases h
    · next statuses listener hserve =>
      obtain ⟨received, hreceived, rfl⟩ := Option.map_eq_some_iff.mp h
      obtain ⟨served, results, hrun⟩ := serveAll_run hserve
      obtain rfl : listener.accepted = served := hrun.accepted
      obtain ⟨client, connection, hclient, hconnection, hcall⟩ := clientsReceive_get hreceived hr
      obtain ⟨result, hresult, hsend⟩ := clientsSend_get hsent hclient
      have hstream : connection.stream = result.wire := by
        have hwires : sent.map SendResult.wire = _ := hrun.order
        have hget := congrArg (fun l => l[i]?) hwires
        rw [List.getElem?_append_left, List.getElem?_map, List.getElem?_map, hresult, hconnection] at hget
        · exact (Option.some.inj hget).symm
        · rw [List.length_map]
          exact (List.getElem?_eq_some_iff.mp hconnection).1
      have honly := hrun.echoes connection (List.mem_of_getElem? hconnection)
      obtain ⟨hdata, hsentOk⟩ := received_eq_sent hsend hstream honly hcall hok
      exact ⟨client, result, hclient, hresult, hdata, hsentOk⟩

theorem echoSystem_safe_two : ∃ run, echoSystem 5 3 2 [twoByteClient, twoByteClient] [patientCall, patientCall] =
      some run ∧ ∃ client sent, [twoByteClient, twoByteClient][1]? = some client ∧ run.sent[1]? = some sent ∧
        ([7, 8] : Bytes) = client.send.data ∧ sent.status = .ok := by
  have hsessions : ∀ session ∈ [(twoByteClient, patientCall), (twoByteClient, patientCall)],
      PatientSession session.1 session.2 := by
    simp [patientSession_two]
  obtain ⟨run, hrun, -, -, -, -, hreceived⟩ :=
    @echoSystem_run 5 3 [(twoByteClient, patientCall), (twoByteClient, patientCall)] (by decide) (by decide) 2 hsessions
  exact ⟨run, hrun, echoSystem_safe hrun 1 ⟨.ok, [7, 8], []⟩ (by rw [hreceived]; rfl) rfl⟩

end TcpipCourse.L08
