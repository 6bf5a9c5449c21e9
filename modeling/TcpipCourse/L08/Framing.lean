import TcpipCourse.L08.Transfer

/-!
# Lesson 08: frames over partial transfers

* `frame` : a payload behind its length; `sendFrameUntil_sent` : what a send leaves on the wire;
* `frameOutcome` : what a receive makes of a stream, whatever the schedule (`recvFrameUntil_received`);
* `Exchange`, `sendFrames`, `receiveFrames` : a list of payloads sent and received call by call;
* `framing_survives_partial_io` : the main result.
-/

namespace TcpipCourse.L08
open Lib

/-- A payload behind its big-endian length. -/
def frame (payload : Bytes) : Bytes := be32Bytes (UInt32.ofNat payload.length) ++ payload

theorem length_frame (payload : Bytes) : (frame payload).length = 4 + payload.length := by
  rw [frame, List.length_append, length_be32Bytes]

/-! ## One frame -/

/-- What a patient schedule makes of the send of a frame. -/
def FrameSent (payload : Bytes) (turns : List SendTurn) (wire : Bytes) : Option SendResult → Prop
  | none => sends turns < 4 + payload.length
  | some result => result.status = .ok ∧ result.wire = wire ++ frame payload

theorem sendFrameUntil_sent {deadline : Timespec} {payload : Bytes} {turns : List SendTurn} {wire : Bytes}
    (hpat : ∀ turn ∈ turns, PatientSend deadline turn) :
    FrameSent payload turns wire (sendFrameUntil deadline payload turns wire) := by
  have hheader := @sendAllUntil_sent deadline (be32Bytes (UInt32.ofNat payload.length)) turns 0 wire
    (Nat.zero_le _) hpat
  unfold sendFrameUntil
  dsimp only
  cases hres : sendAllUntil deadline (be32Bytes (UInt32.ofNat payload.length)) turns 0 wire with
  | none =>
    rw [hres] at hheader
    have hheader : sends turns < 4 := hheader
    show sends turns < 4 + payload.length
    omega
  | some result =>
    rw [hres] at hheader
    obtain ⟨hok, hwire, hrest, hused⟩ := hheader
    rw [length_be32Bytes] at hused
    have hpayload := @sendAllUntil_sent deadline payload result.rest 0 result.wire (Nat.zero_le _) hrest
    dsimp only
    rw [if_neg (by rw [hok]; simp)]
    cases hres' : sendAllUntil deadline payload result.rest 0 result.wire with
    | none =>
      rw [hres'] at hpayload
      have hpayload : sends result.rest < payload.length - 0 := hpayload
      show sends turns < 4 + payload.length
      omega
    | some last =>
      rw [hres'] at hpayload
      obtain ⟨hok', hwire', -, -⟩ := hpayload
      refine ⟨hok', ?_⟩
      rw [hwire', hwire, List.drop_zero, List.drop_zero, List.append_assoc]
      rfl

/-- The length that the first four bytes of a stream declare. -/
def declared (stream : Bytes) : Nat :=
  (be32 (stream.getD 0 0) (stream.getD 1 0) (stream.getD 2 0) (stream.getD 3 0)).toNat

/-- What a receive leaves, up to the script. -/
structure Outcome where
  status : Status
  out : Bytes
  outLen : Nat
  stream : Bytes
  deriving DecidableEq, Repr

def FrameResult.outcome (result : FrameResult) : Outcome :=
  ⟨result.status, result.out, result.outLen, result.stream⟩

/-- What `recvFrameUntil` makes of a stream that ends. Each of its two reads tells `EOF` from `TRUNCATED` by
its own progress. -/
def frameOutcome (out : Bytes) (outLen : Nat) (stream : Bytes) : Outcome :=
  if stream.length < 4 then ⟨if stream = [] then .eof else .truncated, out, outLen, []⟩
  else if out.length < declared stream then ⟨.capacity, out, outLen, stream.drop 4⟩
  else if 4 + declared stream ≤ stream.length then
    ⟨.ok, overwrite out 0 ((stream.drop 4).take (declared stream)), declared stream,
      stream.drop (4 + declared stream)⟩
  else ⟨if stream.length = 4 then .eof else .truncated, overwrite out 0 (stream.drop 4), outLen, []⟩

/-- How many receives a frame takes at most. -/
def frameNeed (out stream : Bytes) : Nat :=
  recvNeed 4 stream +
    if 4 ≤ stream.length ∧ declared stream ≤ out.length then recvNeed (declared stream) (stream.drop 4) else 0

/-- What a patient schedule makes of the receive of a frame. -/
def FrameReceived (turns : List RecvTurn) (out : Bytes) (outLen : Nat) (stream : Bytes) :
    Option FrameResult → Prop
  | none => recvs turns < frameNeed out stream
  | some result => result.outcome = frameOutcome out outLen stream

theorem declared_overwrite {stream : Bytes} (h : 4 ≤ stream.length) :
    declared (overwrite [0, 0, 0, 0] 0 (stream.take 4)) = declared stream := by
  match stream, h with
  | a :: b :: c :: d :: rest, _ => rfl

theorem frameOutcome_header {deadline : Timespec} {turns : List RecvTurn} {stream : Bytes} {header : RecvResult}
    (h : Filled deadline 4 turns 0 [0, 0, 0, 0] stream (some header)) (hshort : stream.length < 4)
    (out : Bytes) (outLen : Nat) :
    header.status ≠ .ok ∧
      (⟨header.status, out, outLen, header.stream⟩ : Outcome) = frameOutcome out outLen stream := by
  obtain ⟨hstatus, -, hleft, -, -⟩ := h
  rw [if_neg (by omega), Nat.zero_add] at hstatus
  refine ⟨?_, ?_⟩
  · rw [hstatus]
    split <;> simp
  · unfold frameOutcome
    rw [if_pos hshort, hstatus, hleft, List.drop_eq_nil_of_le (by omega)]
    simp only [List.length_eq_zero_iff]

/-- The header is complete: what the first read leaves for the second. -/
theorem header_received {deadline : Timespec} {turns : List RecvTurn} {stream : Bytes} {header : RecvResult}
    (h : Filled deadline 4 turns 0 [0, 0, 0, 0] stream (some header)) (hfour : 4 ≤ stream.length) :
    header.status = .ok ∧ header.stream = stream.drop 4 ∧
      (be32 (header.out.getD 0 0) (header.out.getD 1 0) (header.out.getD 2 0) (header.out.getD 3 0)).toNat =
        declared stream := by
  obtain ⟨hstatus, hbuf, hleft, -, -⟩ := h
  rw [if_pos hfour] at hstatus
  refine ⟨hstatus, hleft, ?_⟩
  rw [hbuf]
  exact declared_overwrite hfour

/-- The payload fits: the second read completes it, or reports by its own progress that the stream ended. -/
theorem frameOutcome_payload {deadline : Timespec} {turns : List RecvTurn} {out stream : Bytes}
    {payload : RecvResult} (h : Filled deadline (declared stream) turns 0 out (stream.drop 4) (some payload))
    (hfour : 4 ≤ stream.length) (hcap : ¬ out.length < declared stream) (outLen : Nat) :
    (if payload.status ≠ .ok then (⟨payload.status, payload.out, outLen, payload.stream⟩ : Outcome)
      else ⟨.ok, payload.out, declared stream, payload.stream⟩) = frameOutcome out outLen stream := by
  obtain ⟨hstatus, hbuf, hleft, -, -⟩ := h
  rw [Nat.sub_zero, List.length_drop] at hstatus
  rw [Nat.sub_zero] at hbuf hleft
  by_cases hall : 4 + declared stream ≤ stream.length
  · rw [if_pos (by omega)] at hstatus
    rw [if_neg (by rw [hstatus]; simp)]
    unfold frameOutcome
    rw [if_neg (by omega), if_neg hcap, if_pos hall, hbuf, hleft, List.drop_drop]
  · rw [if_neg (by omega), Nat.zero_add] at hstatus
    have hfail : payload.status ≠ .ok := by
      rw [hstatus]
      split <;> simp
    have htake : (stream.drop 4).take (declared stream) = stream.drop 4 := by
      rw [List.take_of_length_le (by rw [List.length_drop]; omega)]
    have hdrop : (stream.drop 4).drop (declared stream) = [] :=
      List.drop_eq_nil_of_le (by rw [List.length_drop]; omega)
    have hcut : stream.length - 4 = 0 ↔ stream.length = 4 := by omega
    rw [if_pos hfail]
    unfold frameOutcome
    rw [if_neg (by omega), if_neg hcap, if_neg hall, hstatus, hbuf, hleft, htake, hdrop]
    simp only [hcut]

theorem recvFrameUntil_received {deadline : Timespec} {turns : List RecvTurn} {out : Bytes} {outLen : Nat}
    {stream : Bytes} (hpat : ∀ turn ∈ turns, PatientRecv deadline turn) :
    FrameReceived turns out outLen stream (recvFrameUntil deadline out outLen turns stream) := by
  have hheader := @recvExactUntil_filled deadline 4 turns 0 [0, 0, 0, 0] stream (Nat.zero_le _) hpat
  unfold recvFrameUntil
  cases hres : recvExactUntil deadline 4 turns 0 [0, 0, 0, 0] stream with
  | none =>
    rw [hres] at hheader
    have hheader : recvs turns < recvNeed 4 stream := hheader
    show recvs turns < frameNeed out stream
    unfold frameNeed
    omega
  | some header =>
    rw [hres] at hheader
    dsimp only
    by_cases hshort : stream.length < 4
    · obtain ⟨hfail, houtcome⟩ := frameOutcome_header hheader hshort out outLen
      rw [if_pos hfail]
      exact houtcome
    · have hfour : 4 ≤ stream.length := by omega
      obtain ⟨hstatus, hleft, hdecl⟩ := header_received hheader hfour
      obtain ⟨-, -, -, hrest, hused⟩ := hheader
      rw [Nat.sub_zero] at hused
      rw [if_neg (by rw [hstatus]; simp), hdecl, hleft]
      by_cases hcap : out.length < declared stream
      · rw [if_pos hcap]
        show FrameResult.outcome _ = frameOutcome out outLen stream
        unfold FrameResult.outcome frameOutcome
        rw [if_neg hshort, if_pos hcap]
      · rw [if_neg hcap]
        have hpayload := @recvExactUntil_filled deadline (declared stream) header.rest 0 out (stream.drop 4)
          (Nat.zero_le _) hrest
        cases hres' : recvExactUntil deadline (declared stream) header.rest 0 out (stream.drop 4) with
        | none =>
          rw [hres'] at hpayload
          have hpayload : recvs header.rest < recvNeed (declared stream) (stream.drop 4) := hpayload
          show recvs turns < frameNeed out stream
          unfold frameNeed
          rw [if_pos ⟨hfour, by omega⟩]
          omega
        | some payload =>
          rw [hres'] at hpayload
          have houtcome := frameOutcome_payload hpayload hfour hcap outLen
          dsimp only
          split
          · next hfail =>
            rw [if_pos hfail] at houtcome
            exact houtcome
          · next hok =>
            rw [if_neg hok] at houtcome
            exact houtcome

/-! ## A whole frame and what follows it -/

theorem declared_frame {payload : Bytes} (h : payload.length < 2 ^ 32) (rest : Bytes) :
    declared (frame payload ++ rest) = payload.length := by
  have hword := be32_be32Bytes (UInt32.ofNat payload.length)
  show (be32 _ _ _ _).toNat = payload.length
  refine (congrArg UInt32.toNat hword).trans ?_
  rw [UInt32.toNat_ofNat']
  omega

theorem frameOutcome_frame {payload : Bytes} (h : payload.length < 2 ^ 32) (out : Bytes) (outLen : Nat)
    (rest : Bytes) :
    frameOutcome out outLen (frame payload ++ rest) =
      if payload.length ≤ out.length then ⟨.ok, overwrite out 0 payload, payload.length, rest⟩
      else ⟨.capacity, out, outLen, payload ++ rest⟩ := by
  have hdrop : (frame payload ++ rest).drop 4 = payload ++ rest := rfl
  have hlen : (frame payload ++ rest).length = 4 + payload.length + rest.length := by
    rw [List.length_append, length_frame]
  unfold frameOutcome
  rw [declared_frame h, if_neg (by omega), hdrop, ← List.drop_drop, hdrop, List.drop_left, List.take_left]
  by_cases hcap : payload.length ≤ out.length
  · rw [if_neg (by omega), if_pos (by omega), if_pos hcap]
  · rw [if_pos (by omega), if_neg hcap]

theorem frameNeed_frame_le {payload : Bytes} (h : payload.length < 2 ^ 32) (out rest : Bytes) :
    frameNeed out (frame payload ++ rest) ≤ 4 + payload.length := by
  have hdrop : (frame payload ++ rest).drop 4 = payload ++ rest := rfl
  have hlen : (frame payload ++ rest).length = 4 + payload.length + rest.length := by
    rw [List.length_append, length_frame]
  have hheader : recvNeed 4 (frame payload ++ rest) = 4 := if_pos (by omega)
  have hpayload : recvNeed payload.length (payload ++ rest) = payload.length :=
    if_pos (by rw [List.length_append]; omega)
  unfold frameNeed
  rw [declared_frame h, hdrop, hheader, hpayload]
  split <;> omega

/-! ## A list of payloads -/

/-- One payload, the call that sends it, the call that receives it, and the call that reads its bytes off the
stream when the buffer is too small. -/
structure Exchange where
  payload : Bytes
  sendDeadline : Timespec
  sendTurns : List SendTurn
  recvDeadline : Timespec
  recvTurns : List RecvTurn
  out : Bytes
  drainDeadline : Timespec
  drainTurns : List RecvTurn

structure Exchange.Patient (e : Exchange) : Prop where
  send : ∀ turn ∈ e.sendTurns, PatientSend e.sendDeadline turn
  recv : ∀ turn ∈ e.recvTurns, PatientRecv e.recvDeadline turn
  drain : ∀ turn ∈ e.drainTurns, PatientRecv e.drainDeadline turn

/-- One send for each payload, onto the same wire. -/
def sendFrames : List Exchange → (wire : Bytes) → Option (List Status × Bytes)
  | [], wire => some ([], wire)
  | e :: rest, wire =>
    match sendFrameUntil e.sendDeadline e.payload e.sendTurns wire with
    | none => none
    | some result => (sendFrames rest result.wire).map fun (statuses, wire) => (result.status :: statuses, wire)

/-- What a receive leaves, and what the draining call behind a `CAPACITY` leaves. -/
structure Delivery where
  received : Outcome
  drained : Option (Status × Bytes)
  deriving DecidableEq, Repr

/-- One receive for each payload, off the same stream; behind a `CAPACITY` the payload is drained. -/
def receiveFrames : List Exchange → (stream : Bytes) → Option (List Delivery × Bytes)
  | [], stream => some ([], stream)
  | e :: rest, stream =>
    match recvFrameUntil e.recvDeadline e.out 0 e.recvTurns stream with
    | none => none
    | some result =>
      if result.status = .capacity then
        match recvExactUntil e.drainDeadline e.payload.length e.drainTurns 0
            (List.replicate e.payload.length 0) result.stream with
        | none => none
        | some drained => (receiveFrames rest drained.stream).map fun (deliveries, stream) =>
            (⟨result.outcome, some (drained.status, drained.out)⟩ :: deliveries, stream)
      else (receiveFrames rest result.stream).map fun (deliveries, stream) =>
        (⟨result.outcome, none⟩ :: deliveries, stream)

def wireOf (exchanges : List Exchange) : Bytes := exchanges.flatMap fun e => frame e.payload

/-- A payload in its buffer, or unread and then drained when the buffer is too small. -/
def delivery (e : Exchange) (rest : List Exchange) : Delivery :=
  if e.payload.length ≤ e.out.length then
    ⟨⟨.ok, overwrite e.out 0 e.payload, e.payload.length, wireOf rest⟩, none⟩
  else ⟨⟨.capacity, e.out, 0, e.payload ++ wireOf rest⟩, some (.ok, e.payload)⟩

def deliveries : List Exchange → List Delivery
  | [] => []
  | e :: rest => delivery e rest :: deliveries rest

/-! ## Runs -/

theorem wireOf_cons (e : Exchange) (rest : List Exchange) : wireOf (e :: rest) = frame e.payload ++ wireOf rest :=
  rfl

/-- **Run lemma.** Whatever the sends accept at a time, the wire gets the frames in order, or the schedule of
a send is too short. -/
theorem sendFrames_eq {exchanges : List Exchange} : ∀ {wire : Bytes}, (∀ e ∈ exchanges, e.Patient) →
    sendFrames exchanges wire = some (exchanges.map fun _ => Status.ok, wire ++ wireOf exchanges) ∨
      sendFrames exchanges wire = none ∧ ∃ e ∈ exchanges, sends e.sendTurns < 4 + e.payload.length := by
  induction exchanges with
  | nil =>
    intro wire _
    left
    rw [show wireOf [] = [] from rfl, List.append_nil]
    rfl
  | cons e rest ih =>
    intro wire hpat
    have hsent := @sendFrameUntil_sent e.sendDeadline e.payload e.sendTurns wire (hpat e (by simp)).send
    rw [sendFrames]
    cases hres : sendFrameUntil e.sendDeadline e.payload e.sendTurns wire with
    | none =>
      rw [hres] at hsent
      exact .inr ⟨rfl, e, by simp, hsent⟩
    | some result =>
      rw [hres] at hsent
      obtain ⟨hok, hwire⟩ := hsent
      dsimp only
      rcases @ih result.wire fun e' he' => hpat e' (List.mem_cons_of_mem _ he') with hrest | ⟨hrest, e', he', hshort⟩
      · left
        rw [hrest, hok, hwire, wireOf_cons, List.append_assoc]
        rfl
      · right
        rw [hrest]
        exact ⟨rfl, e', List.mem_cons_of_mem _ he', hshort⟩

theorem drain_filled {deadline : Timespec} {turns : List RecvTurn} {payload rest : Bytes}
    (hpat : ∀ turn ∈ turns, PatientRecv deadline turn) :
    match recvExactUntil deadline payload.length turns 0 (List.replicate payload.length 0) (payload ++ rest) with
    | none => recvs turns < payload.length
    | some drained => drained.status = .ok ∧ drained.out = payload ∧ drained.stream = rest := by
  have hfilled := @recvExactUntil_filled deadline payload.length turns 0 (List.replicate payload.length 0)
    (payload ++ rest) (Nat.zero_le _) hpat
  have hfits : payload.length - 0 ≤ (payload ++ rest).length := by simp
  cases hres : recvExactUntil deadline payload.length turns 0 (List.replicate payload.length 0)
      (payload ++ rest) with
  | none =>
    rw [hres] at hfilled
    have hfilled : recvs turns < recvNeed (payload.length - 0) (payload ++ rest) := hfilled
    rwa [recvNeed, if_pos hfits] at hfilled
  | some drained =>
    rw [hres] at hfilled
    obtain ⟨hstatus, hbuf, hleft, -, -⟩ := hfilled
    rw [if_pos hfits] at hstatus
    rw [Nat.sub_zero, List.take_left, overwrite_zero_append _ _ (by simp)] at hbuf
    rw [Nat.sub_zero, List.drop_left] at hleft
    refine ⟨hstatus, ?_, hleft⟩
    rw [hbuf, List.drop_eq_nil_of_le (by simp), List.append_nil]

/-- **Step lemma.** The receive of a payload, with its draining call, leaves the stream at the next frame, or
its schedule is too short. -/
theorem receiveFrames_cons {e : Exchange} (hlen : e.payload.length < 2 ^ 32) (hpat : e.Patient)
    (rest : List Exchange) :
    receiveFrames (e :: rest) (wireOf (e :: rest)) =
        (receiveFrames rest (wireOf rest)).map (fun (deliveries, stream) =>
          (delivery e rest :: deliveries, stream)) ∨
      receiveFrames (e :: rest) (wireOf (e :: rest)) = none ∧
        (recvs e.recvTurns < 4 + e.payload.length ∨ recvs e.drainTurns < e.payload.length) := by
  have hframe := @recvFrameUntil_received e.recvDeadline e.recvTurns e.out 0 (frame e.payload ++ wireOf rest)
    hpat.recv
  rw [receiveFrames, wireOf_cons]
  cases hres : recvFrameUntil e.recvDeadline e.out 0 e.recvTurns (frame e.payload ++ wireOf rest) with
  | none =>
    rw [hres] at hframe
    have hshort : recvs e.recvTurns < frameNeed e.out (frame e.payload ++ wireOf rest) := hframe
    have hneed := frameNeed_frame_le hlen e.out (wireOf rest)
    exact .inr ⟨rfl, .inl (by omega)⟩
  | some result =>
    rw [hres] at hframe
    have hout : result.outcome = frameOutcome e.out 0 (frame e.payload ++ wireOf rest) := hframe
    rw [frameOutcome_frame hlen] at hout
    unfold delivery
    dsimp only
    by_cases hcap : e.payload.length ≤ e.out.length
    · rw [if_pos hcap] at hout ⊢
      have hstatus : result.status = .ok := congrArg Outcome.status hout
      have hstream : result.stream = wireOf rest := congrArg Outcome.stream hout
      left
      rw [if_neg (by rw [hstatus]; simp), hstream, hout]
    · rw [if_neg hcap] at hout ⊢
      have hstatus : result.status = .capacity := congrArg Outcome.status hout
      have hstream : result.stream = e.payload ++ wireOf rest := congrArg Outcome.stream hout
      have hdrain := @drain_filled e.drainDeadline e.drainTurns e.payload (wireOf rest) hpat.drain
      rw [if_pos hstatus, hstream]
      cases hres' : recvExactUntil e.drainDeadline e.payload.length e.drainTurns 0
          (List.replicate e.payload.length 0) (e.payload ++ wireOf rest) with
      | none =>
        rw [hres'] at hdrain
        exact .inr ⟨rfl, .inr hdrain⟩
      | some drained =>
        rw [hres'] at hdrain
        obtain ⟨hdok, hdout, hdstream⟩ := hdrain
        left
        dsimp only
        rw [hdstream, hout, hdok, hdout]

/-- **Run lemma.** Whatever the receives take at a time, each call gets its own payload, or the schedule of a
receive is too short. -/
theorem receiveFrames_eq {exchanges : List Exchange} :
    (∀ e ∈ exchanges, e.payload.length < 2 ^ 32) → (∀ e ∈ exchanges, e.Patient) →
    receiveFrames exchanges (wireOf exchanges) = some (deliveries exchanges, []) ∨
      receiveFrames exchanges (wireOf exchanges) = none ∧ ∃ e ∈ exchanges,
        recvs e.recvTurns < 4 + e.payload.length ∨ recvs e.drainTurns < e.payload.length := by
  induction exchanges with
  | nil => exact fun _ _ => .inl rfl
  | cons e rest ih =>
    intro hlen hpat
    rcases receiveFrames_cons (hlen e (by simp)) (hpat e (by simp)) rest with hstep | ⟨hnone, hshort⟩
    · rw [hstep]
      rcases ih (fun e' he' => hlen e' (List.mem_cons_of_mem _ he'))
        fun e' he' => hpat e' (List.mem_cons_of_mem _ he') with hrest | ⟨hrest, e', he', hshort⟩
      · left
        rw [hrest]
        rfl
      · right
        rw [hrest]
        exact ⟨rfl, e', List.mem_cons_of_mem _ he', hshort⟩
    · exact .inr ⟨hnone, e, by simp, hshort⟩

/-- **Main result.** Under every patient schedule of sends and receives, the frames reach the wire in order and
each receive gets its own payload, or leaves it unread when its buffer is too small; after the last frame the
next receive finds the end. Every call returns once its schedule moves enough times. -/
theorem framing_survives_partial_io (exchanges : List Exchange)
    (hlen : ∀ e ∈ exchanges, e.payload.length < 2 ^ 32) (hpatient : ∀ e ∈ exchanges, e.Patient)
    (deadline : Timespec) (turns : List RecvTurn) (out : Bytes)
    (hlast : ∀ turn ∈ turns, PatientRecv deadline turn) :
    (∀ run, sendFrames exchanges [] = some run →
      run = (exchanges.map fun _ => Status.ok, wireOf exchanges)) ∧
    ((∀ e ∈ exchanges, 4 + e.payload.length ≤ sends e.sendTurns) → (sendFrames exchanges []).isSome) ∧
    (∀ run, receiveFrames exchanges (wireOf exchanges) = some run → run = (deliveries exchanges, [])) ∧
    ((∀ e ∈ exchanges, 4 + e.payload.length ≤ recvs e.recvTurns ∧ e.payload.length ≤ recvs e.drainTurns) →
      (receiveFrames exchanges (wireOf exchanges)).isSome) ∧
    (∀ result, recvFrameUntil deadline out 0 turns [] = some result → result.outcome = ⟨.eof, out, 0, []⟩) ∧
    (1 ≤ recvs turns → (recvFrameUntil deadline out 0 turns []).isSome) := by
  have hend := @recvFrameUntil_received deadline turns out 0 [] hlast
  refine ⟨?_, ?_, ?_, ?_, ?_, ?_⟩
  · intro run hrun
    rcases @sendFrames_eq exchanges [] hpatient with h | ⟨h, -⟩
    · exact Option.some.inj (hrun.symm.trans h)
    · cases hrun.symm.trans h
  · intro henough
    rcases @sendFrames_eq exchanges [] hpatient with h | ⟨-, e, he, hshort⟩
    · rw [h]
      rfl
    · have := henough e he
      omega
  · intro run hrun
    rcases receiveFrames_eq hlen hpatient with h | ⟨h, -⟩
    · exact Option.some.inj (hrun.symm.trans h)
    · cases hrun.symm.trans h
  · intro henough
    rcases receiveFrames_eq hlen hpatient with h | ⟨-, e, he, hshort⟩
    · rw [h]
      rfl
    · have := henough e he
      omega
  · intro result hres
    rw [hres] at hend
    exact hend
  · intro henough
    cases hres : recvFrameUntil deadline out 0 turns [] with
    | none =>
      rw [hres] at hend
      have hshort : recvs turns < 1 := hend
      omega
    | some result => rfl

/-- Three bytes through a buffer of one, in steps of two and with an interruption. -/
def oversizedExchange : Exchange where
  payload := [7, 8, 9]
  sendDeadline := ⟨1, 0⟩
  sendTurns := List.replicate 7 ⟨readyWait, .takes 2⟩
  recvDeadline := ⟨1, 0⟩
  recvTurns := ⟨readyWait, .failed .eagain⟩ :: List.replicate 7 ⟨readyWait, .takes 3⟩
  out := [1]
  drainDeadline := ⟨2, 0⟩
  drainTurns := List.replicate 3 ⟨readyWait, .takes 2⟩

theorem framing_survives_partial_io_oversized :
    sendFrames [oversizedExchange] [] = some ([.ok], [0, 0, 0, 3, 7, 8, 9]) ∧
      receiveFrames [oversizedExchange] [0, 0, 0, 3, 7, 8, 9] =
        some ([⟨⟨.capacity, [1], 0, [7, 8, 9]⟩, some (.ok, [7, 8, 9])⟩], []) := by
  have hpatient : ∀ e ∈ [oversizedExchange], e.Patient := by
    intro e he
    rw [List.mem_singleton.mp he]
    exact ⟨by decide, by decide, by decide⟩
  obtain ⟨hsend, hsends, hrecv, hrecvs, -, -⟩ :=
    framing_survives_partial_io [oversizedExchange] (by decide) hpatient ⟨1, 0⟩ [] [] (by simp)
  obtain ⟨sent, hsent⟩ := Option.isSome_iff_exists.mp (hsends (by decide))
  obtain ⟨got, hgot⟩ := Option.isSome_iff_exists.mp (hrecvs (by decide))
  constructor
  · rw [hsent, hsend sent hsent]
    rfl
  · exact hgot.trans (congrArg some (hrecv got hgot))

end TcpipCourse.L08
