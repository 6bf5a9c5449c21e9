import TcpipCourse.L10.Build
import TcpipCourse.L10.Endpoint

/-!
# Lesson 10: one request and its response

A client builds a request, sends it and receives; the server makes one call on the other end of the connection.

* `httpTransaction` : the calls, each against its own schedule;
* `httpTransaction_patient` : under patient schedules the transaction succeeds;
* `httpTransaction_safe` : under all schedules, a client that accepts a message has the response to its own request.
-/

namespace TcpipCourse.L10
open Lib

/-! ## The system -/

/-- The calls of the client: what it asks for, into which buffer it builds and receives, and how its calls go. -/
structure HttpClient where
  fd : Int
  flags : UInt32
  path : Bytes
  body : Bytes
  request : Bytes
  send : ResendCall
  out : Bytes
  recvTimeoutMs : Int
  recvScript : CallScript
  recvTurns : List RecvTurn

structure HttpServer where
  fd : Int
  flags : UInt32
  requestBuffer : Bytes
  timeoutMs : Int
  script : CallScript
  recvTurns : List RecvTurn
  sendTurns : List SendTurn

structure HttpRun where
  sent : SendMessageResult
  served : ServeResult
  received : RecvMessageResult

def httpTransaction (client : HttpClient) (server : HttpServer) : Option HttpRun :=
  let built := buildRequest client.path client.body client.request
  match sendMessage client.fd (built.out.take built.written) client.send.timeoutMs client.send.script
    client.send.turns client.flags [] with
  | none => none
  | some sent =>
    match serveOne server.fd server.requestBuffer server.timeoutMs server.script server.recvTurns server.sendTurns
      server.flags [] sent.wire with
    | none => none
    | some served =>
      (recvMessage client.fd client.out client.recvTimeoutMs client.recvScript client.recvTurns sent.flags
        served.wire).map fun received => ⟨sent, served, received⟩

/-! ## Whole messages -/

theorem eq_of_prefix_accepted {p m : Bytes} {view : MessageView} (hp : p <+: m)
    (hm : parseMessage m = ⟨.ok, view⟩) (hlen : view.messageLength = m.length)
    (hok : (parseMessage p).status = .ok) : p = m := by
  have hsame := parseMessage_extends hp hok
  obtain ⟨hbound, -⟩ := parseMessage_take_messageLength hok
  rw [← hsame, hm] at hbound
  dsimp only at hbound
  exact hp.eq_of_length (Nat.le_antisymm hp.length_le (by omega))

theorem parseMessage_response : ∃ view, parseMessage response = ⟨.ok, view⟩ ∧ view.messageLength = response.length ∧
    view.kind = some .response ∧ view.statusCode = 200 ∧ view.body.bytes response = ascii "OK".toList :=
  ⟨(parseMessage response).message, by decide +kernel, by decide +kernel, by decide +kernel, by decide +kernel,
    by decide +kernel⟩

/-! ## Every schedule -/

/-- A server that answers, or returns `OK`, has taken a request off the stream. -/
theorem ServeStep.request {flags : UInt32} {stream : Bytes} {result : ServeResult} {taken sent : Nat}
    (h : ServeStep flags [] stream result taken sent) (hanswers : result.wire ≠ [] ∨ result.status = .ok) :
    (parseMessage (stream.take taken)).status = .ok := by
  have hpos : 0 < sent := by
    rcases hanswers with hwire | hok
    · apply Nat.pos_of_ne_zero
      rintro rfl
      rw [h.wire, List.take_zero, List.append_nil] at hwire
      exact hwire rfl
    · rw [h.ok hok]
      decide
  obtain ⟨view, hview, -⟩ := h.answers hpos
  rw [hview]

/-- What the client hands to `send_message` is accepted only as a whole. -/
theorem request_sent {path body out wire : Bytes} {n taken : Nat}
    (hwire : wire = ((buildRequest path body out).out.take (buildRequest path body out).written).take n)
    (hok : (parseMessage (wire.take taken)).status = .ok) :
    Buildable path body out.length ∧ wire = requestBytes path body := by
  by_cases hbuild : Buildable path body out.length
  · refine ⟨hbuild, ?_⟩
    rw [take_buildRequest hbuild] at hwire
    have hview := parseMessage_requestBytes hbuild []
    rw [List.append_nil] at hview
    have hfront : wire <+: requestBytes path body := by
      rw [hwire]
      exact List.take_prefix _ _
    have hwhole := eq_of_prefix_accepted ((List.take_prefix taken wire).trans hfront) hview
      (length_requestBytes path body).symm hok
    apply hfront.eq_of_length_le
    rw [← hwhole]
    exact List.length_take_le' _ _
  · rw [(buildRequest_fail hbuild).2.1, List.take_zero, List.take_nil] at hwire
    rw [hwire, List.take_nil] at hok
    cases hok

/-! ## Patient schedules -/

/-- A turn whose wait finds the descriptor writable, and whose send takes bytes or is interrupted. -/
def PatientSend (deadline : Timespec) (turn : SendTurn) : Prop :=
  waitFd false deadline turn.waits = some .ok ∧ sendPatient turn.outcome = true

instance (deadline : Timespec) (turn : SendTurn) : Decidable (PatientSend deadline turn) :=
  inferInstanceAs (Decidable (_ ∧ _))

/-- Around the transfers of the call nothing fails for good. -/
structure PatientScript (script : CallScript) (timeoutMs : Int) (deadline : Timespec) : Prop where
  timeout : 0 ≤ timeoutMs
  clock : script.clock.map (fun now => deadlineAfter now timeoutMs) = some deadline
  flags : FcntlPatient script.getTurns ∧ FcntlPatient script.setTurns ∧ FcntlPatient script.restoreTurns

/-- A call that meets no failure has the status of its transfers, and leaves the flags as they were. -/
theorem underDeadline_patient {ρ : Type} {script : CallScript} {timeoutMs : Int} {deadline : Timespec}
    (h : PatientScript script timeoutMs deadline) (flags : UInt32) {transfers : Timespec → Option (Status × ρ)}
    {status : Status} {left : ρ} (htransfers : transfers deadline = some (status, left)) :
    underDeadline script timeoutMs flags transfers = some (status, flags, some left) := by
  obtain ⟨hget, hpatient⟩ := h.flags
  obtain ⟨now, hnow, rfl⟩ := Option.map_eq_some_iff.mp h.clock
  have hflags : script.FlagsSucceed flags := ⟨hget, fun _ => hpatient⟩
  obtain ⟨begun, hbegun, hok, hend⟩ := hflags.restores status
  unfold underDeadline
  rw [hnow]
  dsimp only
  rw [hbegun]
  dsimp only
  rw [if_neg (not_not.mpr hok), htransfers]
  dsimp only
  rw [hend, Option.map_some]

theorem sendUntil_patient {deadline : Timespec} {message : Bytes} {turns : List SendTurn} :
    ∀ {sent : Nat} {wire : Bytes}, (∀ turn ∈ turns, PatientSend deadline turn) →
    message.length ≤ sent + sends turns →
    ∃ result, sendUntil deadline message turns sent wire = some result ∧ result.status = .ok := by
  induction turns with
  | nil =>
    intro sent wire _ henough
    have hdone : ¬ sent < message.length := by
      have : sends [] = 0 := rfl
      omega
    exact ⟨_, by rw [sendUntil, if_neg hdone], rfl⟩
  | cons turn rest ih =>
    intro sent wire hpat henough
    obtain ⟨⟨hwait, hpatient⟩, hrest⟩ := List.forall_mem_cons.mp hpat
    by_cases hlt : sent < message.length
    · rw [sendUntil, if_pos hlt, hwait]
      dsimp only
      cases hturn : turn.outcome with
      | takes count =>
        have hmove : sends (turn :: rest) = sends rest + 1 := by simp [sends, sendMoves, hturn]
        have hpos := transfer_pos count (message.length - sent)
        exact ih hrest (by omega)
      | zero =>
        rw [hturn] at hpatient
        cases hpatient
      | failed errno =>
        have hmove : sends (turn :: rest) = sends rest := by simp [sends, sendMoves, hturn]
        have htransient : errno.isTransient = true := by rwa [hturn] at hpatient
        dsimp only
        rw [if_pos htransient]
        exact ih hrest (by omega)
    · exact ⟨_, by rw [sendUntil, if_neg hlt], rfl⟩

theorem sendUntil_sent {deadline : Timespec} {message : Bytes} {turns : List SendTurn}
    (hpat : ∀ turn ∈ turns, PatientSend deadline turn) (henough : message.length ≤ sends turns) (wire : Bytes) :
    ∃ result, sendUntil deadline message turns 0 wire = some result ∧ result.status = .ok ∧
      result.wire = wire ++ message := by
  obtain ⟨result, hresult, hok⟩ := @sendUntil_patient deadline message turns 0 wire hpat (by omega)
  obtain ⟨n, hcount, -, hwire, hdone⟩ := sendUntil_wire (Nat.zero_le _) hresult
  have hall := hdone.mp hok
  refine ⟨result, hresult, hok, ?_⟩
  rw [hwire, slice, List.drop_zero, List.take_of_length_le (by omega)]

/-- A patient receive of a stream that is one message takes all of it. -/
theorem recvUntil_whole {deadline : Timespec} {turns : List RecvTurn} {out m : Bytes} {view : MessageView}
    (hm : parseMessage m = ⟨.ok, view⟩) (hlen : view.messageLength = m.length) (hroom : m.length ≤ out.length)
    (hpat : ∀ turn ∈ turns, PatientRecv deadline turn) (henough : m.length < recvs turns) :
    ∃ result, recvUntil deadline turns out 0 m = some result ∧ result.status = .ok ∧ result.message = view ∧
      result.out.take m.length = m := by
  have hreceives := @recvUntil_finished deadline turns out 0 m (Nat.zero_le _) hpat
  cases hres : recvUntil deadline turns out 0 m with
  | none =>
    rw [hres] at hreceives
    have hshort : recvs turns ≤ min (out.length - 0) m.length := hreceives
    omega
  | some result =>
    rw [hres] at hreceives
    have hfinished : Finished m out.length result := hreceives
    have hok : result.status = .ok := hfinished.ok_iff.mpr ⟨m, List.prefix_refl m, hroom, by rw [hm]⟩
    obtain ⟨hview, -⟩ := hfinished.view hok
    obtain ⟨hfront, -⟩ := recvUntil_front hres
    have hwhole := eq_of_prefix_accepted (List.take_prefix result.received m) hm hlen (by rw [hview])
    have hall : m.length ≤ result.received := by
      have := congrArg List.length hwhole
      rw [List.length_take] at this
      omega
    rw [hwhole, hm] at hview
    refine ⟨result, rfl, hok, (congrArg ParseResult.message hview).symm, ?_⟩
    have htake := congrArg (List.take m.length) hfront
    rwa [List.take_take, Nat.min_eq_left hall, hwhole, List.take_length] at htake

/-- No call of the client or the server meets a failure, each moves often enough, and the buffers have room. -/
structure PatientTransaction (client : HttpClient) (server : HttpServer) : Prop where
  descriptors : 0 ≤ client.fd ∧ 0 ≤ server.fd
  request : Buildable client.path client.body client.request.length
  requestRoom : (requestBytes client.path client.body).length ≤ server.requestBuffer.length
  responseRoom : response.length ≤ client.out.length
  send : ∃ deadline, PatientScript client.send.script client.send.timeoutMs deadline ∧
    (∀ turn ∈ client.send.turns, PatientSend deadline turn) ∧
    (requestBytes client.path client.body).length ≤ sends client.send.turns
  serve : ∃ deadline, PatientScript server.script server.timeoutMs deadline ∧
    (∀ turn ∈ server.recvTurns, PatientRecv deadline turn) ∧
    (requestBytes client.path client.body).length < recvs server.recvTurns ∧
    (∀ turn ∈ server.sendTurns, PatientSend deadline turn) ∧ response.length ≤ sends server.sendTurns
  recv : ∃ deadline, PatientScript client.recvScript client.recvTimeoutMs deadline ∧
    (∀ turn ∈ client.recvTurns, PatientRecv deadline turn) ∧ response.length < recvs client.recvTurns

section
variable {client : HttpClient} {server : HttpServer}

theorem PatientTransaction.sends (h : PatientTransaction client server) :
    ∃ sent, sendMessage client.fd (requestBytes client.path client.body) client.send.timeoutMs client.send.script
      client.send.turns client.flags [] = some sent ∧ sent.status = .ok ∧ sent.flags = client.flags ∧
      sent.wire = requestBytes client.path client.body := by
  obtain ⟨deadline, hscript, hpat, henough⟩ := h.send
  obtain ⟨result, hresult, hok, hwire⟩ := sendUntil_sent hpat henough []
  have htimeout := hscript.timeout
  have hfd := h.descriptors.1
  have hpos : (requestBytes client.path client.body).length ≠ 0 := by
    simp [requestBytes, requestHeader, requestPrefix, ascii]
  unfold sendMessage
  rw [if_neg (by omega), if_neg hpos]
  dsimp only
  rw [underDeadline_patient hscript client.flags (by rw [hresult, Option.map_some]), Option.map_some]
  exact ⟨_, rfl, hok, rfl, hwire⟩

theorem PatientTransaction.serves (h : PatientTransaction client server) :
    ∃ served, serveOne server.fd server.requestBuffer server.timeoutMs server.script server.recvTurns
      server.sendTurns server.flags [] (requestBytes client.path client.body) = some served ∧ served.status = .ok ∧
      served.flags = server.flags ∧ served.wire = response ∧
      served.requestBuffer.take (requestBytes client.path client.body).length =
        requestBytes client.path client.body := by
  obtain ⟨deadline, hscript, hrecvs, hmoves, hsends, henough⟩ := h.serve
  have hview := parseMessage_requestBytes h.request []
  rw [List.append_nil] at hview
  obtain ⟨request, hrequest, hok, hmessage, hfront⟩ := recvUntil_whole hview
    (length_requestBytes client.path client.body).symm h.requestRoom hrecvs hmoves
  obtain ⟨result, hresult, hsent, hwire⟩ := sendUntil_sent hsends henough []
  have hgood : requestStatus request = .ok := requestStatus_ok.mpr ⟨hok, by rw [hmessage]; rfl⟩
  have htransfers : serveTransfers server.requestBuffer server.recvTurns server.sendTurns []
      (requestBytes client.path client.body) deadline =
        some (result.status, request.out, result.wire, request.stream) := by
    unfold serveTransfers
    rw [hrequest]
    dsimp only
    rw [if_pos hgood, hresult, Option.map_some]
  have htimeout := hscript.timeout
  have hfd := h.descriptors.2
  have hroom := h.requestRoom
  have hpos : (requestBytes client.path client.body).length ≠ 0 := by
    simp [requestBytes, requestHeader, requestPrefix, ascii]
  unfold serveOne
  rw [if_neg (by omega), underDeadline_patient hscript server.flags htransfers, Option.map_some]
  exact ⟨_, rfl, hsent, rfl, hwire, hfront⟩

theorem PatientTransaction.receives (h : PatientTransaction client server) :
    ∃ received, recvMessage client.fd client.out client.recvTimeoutMs client.recvScript client.recvTurns
      client.flags response = some received ∧ received.status = .ok ∧ received.flags = client.flags ∧
      received.message.statusCode = 200 ∧ received.message.body.bytes response = ascii "OK".toList := by
  obtain ⟨deadline, hscript, hpat, henough⟩ := h.recv
  obtain ⟨view, hview, hlen, -, hcode, hbody⟩ := parseMessage_response
  obtain ⟨result, hresult, hok, rfl, -⟩ := recvUntil_whole hview hlen h.responseRoom hpat henough
  have htimeout := hscript.timeout
  have hfd := h.descriptors.1
  have hroom := h.responseRoom
  have hpos : response.length ≠ 0 := by decide
  unfold recvMessage
  rw [if_neg (by omega)]
  dsimp only
  rw [underDeadline_patient hscript client.flags (by rw [hresult, Option.map_some]), Option.map_some]
  exact ⟨_, rfl, hok, rfl, hcode, hbody⟩

theorem PatientTransaction.completes (h : PatientTransaction client server) :
    ∃ sent served received, httpTransaction client server = some ⟨sent, served, received⟩ ∧ sent.status = .ok ∧
      (served.status = .ok ∧ served.flags = server.flags ∧ served.wire = response ∧
        served.requestBuffer.take (requestBytes client.path client.body).length =
          requestBytes client.path client.body) ∧
      received.status = .ok ∧ received.flags = client.flags ∧ received.message.statusCode = 200 ∧
      received.message.body.bytes response = ascii "OK".toList := by
  obtain ⟨sent, hsent, hok, hflags, hrequest⟩ := h.sends
  obtain ⟨served, hserved, hanswers⟩ := h.serves
  obtain ⟨received, hreceived, hreads⟩ := h.receives
  have hwire := hanswers.2.2.1
  refine ⟨sent, served, received, ?_, hok, hanswers, hreads⟩
  unfold httpTransaction
  dsimp only
  rw [take_buildRequest h.request, hsent]
  dsimp only
  rw [hrequest, hserved]
  dsimp only
  rw [hflags, hwire, hreceived, Option.map_some]

/-- **Main result.** When nothing fails for good and every schedule moves often enough, all three calls return
`OK`: the server has the request in its buffer, the client reads the status 200 and the body of the response, and
both descriptors have their flags back. -/
theorem httpTransaction_patient (h : PatientTransaction client server) :
    ∃ run, httpTransaction client server = some run ∧
      run.sent.status = .ok ∧ run.served.status = .ok ∧ run.received.status = .ok ∧
      run.served.requestBuffer.take (requestBytes client.path client.body).length =
        requestBytes client.path client.body ∧
      run.received.message.statusCode = 200 ∧
      run.received.message.body.bytes run.served.wire = ascii "OK".toList ∧
      run.received.flags = client.flags ∧ run.served.flags = server.flags := by
  obtain ⟨sent, served, received, hrun, hsentOk, ⟨hservedOk, hkept, hwire, hfront⟩, hreceivedOk, hback, hcode, hbody⟩ :=
    h.completes
  refine ⟨⟨sent, served, received⟩, hrun, hsentOk, hservedOk, hreceivedOk, hfront, hcode, ?_, hback, hkept⟩
  dsimp only
  rw [hwire]
  exact hbody

/-- A post of two bytes, sent in two turns and received byte by byte. -/
def twoByteClient : HttpClient where
  fd := 4
  flags := 2
  path := ascii "/a".toList
  body := [7, 8]
  request := List.replicate 80 0
  send := ⟨1000, patientScript, List.replicate 80 (readyTurn (.takes 1))⟩
  out := List.replicate 128 0
  recvTimeoutMs := 1000
  recvScript := patientScript
  recvTurns := readyTurn (.failed .eagain) :: List.replicate 90 (readyTurn (.takes 1))

def twoByteServer : HttpServer where
  fd := 5
  flags := 2050
  requestBuffer := List.replicate 96 0
  timeoutMs := 1000
  script := patientScript
  recvTurns := List.replicate 97 (readyTurn (.takes 1))
  sendTurns := readyTurn (.failed .eintr) :: List.replicate 90 (readyTurn (.takes 1))

theorem twoByte_patient : PatientTransaction twoByteClient twoByteServer :=
  have hscript : PatientScript patientScript 1000 ⟨1, 0⟩ := ⟨by decide, by decide, by decide, by decide, by decide⟩
  { descriptors := by decide
    request := ⟨⟨by decide, by decide +kernel, by decide⟩, by decide +kernel, by decide +kernel⟩
    requestRoom := by decide +kernel
    responseRoom := by decide +kernel
    send := ⟨⟨1, 0⟩, hscript, by decide, by decide +kernel⟩
    serve := ⟨⟨1, 0⟩, hscript, by decide, by decide +kernel, by decide, by decide +kernel⟩
    recv := ⟨⟨1, 0⟩, hscript, by decide, by decide +kernel⟩ }

theorem httpTransaction_patient_two : ∃ run, httpTransaction twoByteClient twoByteServer = some run ∧
    run.received.message.statusCode = 200 ∧ run.served.flags = 2050 := by
  obtain ⟨run, hrun, -, -, -, -, hcode, -, -, hflags⟩ := httpTransaction_patient twoByte_patient
  exact ⟨run, hrun, hcode, hflags⟩

end

/-- **Main result.** Whatever the schedules: when the server puts a byte of its response on the wire, or returns
`OK`, the whole request was sent; and when the client accepts a message, it is the whole response, read as status
200 with its body, to a request that was sent whole. -/
theorem httpTransaction_safe {client : HttpClient} {server : HttpServer} {run : HttpRun}
    (h : httpTransaction client server = some run) :
    (run.served.wire ≠ [] ∨ run.served.status = .ok → Buildable client.path client.body client.request.length ∧
      run.sent.wire = requestBytes client.path client.body) ∧
    (run.received.status = .ok → run.sent.wire = requestBytes client.path client.body ∧ run.served.wire = response ∧
      run.received.message.kind = some .response ∧ run.received.message.statusCode = 200 ∧
      run.received.message.body.bytes run.served.wire = ascii "OK".toList) := by
  unfold httpTransaction at h
  dsimp only at h
  split at h
  · cases h
  · next sent hsend =>
    split at h
    · cases h
    · next served hserve =>
      obtain ⟨received, hrecv, rfl⟩ := Option.map_eq_some_iff.mp h
      have hsent := sendMessage_step hsend
      obtain ⟨taken, answered, hserved⟩ := serveOne_step hserve
      have hreceived := recvMessage_step hrecv
      have hfirst : served.wire ≠ [] ∨ served.status = .ok →
          Buildable client.path client.body client.request.length ∧
            sent.wire = requestBytes client.path client.body := by
        intro hanswers
        have hwire := hsent.wire
        rw [List.nil_append] at hwire
        exact request_sent hwire (hserved.request hanswers)
      refine ⟨hfirst, fun hok => ?_⟩
      obtain ⟨view, hview, hlen, hkind, hcode, hbody⟩ := parseMessage_response
      have haccepts := hreceived.ok hok
      have hfront : served.wire <+: response := by
        rw [hserved.wire, List.nil_append]
        exact List.take_prefix _ _
      have hwhole := eq_of_prefix_accepted ((List.take_prefix received.received served.wire).trans hfront) hview hlen
        (by rw [haccepts])
      have hwire : served.wire = response := by
        apply hfront.eq_of_length_le
        rw [← hwhole]
        exact List.length_take_le' _ _
      rw [hwhole, hview] at haccepts
      obtain rfl : view = received.message := congrArg ParseResult.message haccepts
      refine ⟨(hfirst (.inl ?_)).2, hwire, hkind, hcode, ?_⟩
      · rw [hwire]
        decide
      · dsimp only
        rw [hwire]
        exact hbody

theorem httpTransaction_safe_two : ∃ run, httpTransaction twoByteClient twoByteServer = some run ∧
    run.sent.wire = requestBytes (ascii "/a".toList) [7, 8] ∧
    run.received.message.body.bytes run.served.wire = ascii "OK".toList := by
  obtain ⟨sent, served, received, hrun, -, -, hok, -⟩ := twoByte_patient.completes
  obtain ⟨-, hreads⟩ := httpTransaction_safe hrun
  obtain ⟨hsent, -, -, -, hbody⟩ := hreads hok
  exact ⟨⟨sent, served, received⟩, hrun, hsent, hbody⟩

end TcpipCourse.L10
