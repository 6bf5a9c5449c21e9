import TcpipCourse.L08.Deadline
import TcpipCourse.L08.Framing
import TcpipCourse.Lib.PrefixCode

/-!
# Lesson 08: frames over schedules that fail

The calls of the lesson on one descriptor each, under schedules that may time out, fail or end the transfer at any
byte.

* `sendAllUntil_wire`, `recvExactUntil_taken` : a transfer moves the front of what it has to move, each byte once;
* `sendAll`, `recvExact`, `sendFrame`, `recvFrame` : the calls of the lesson, with their deadline;
* `sendSession`, `recvSession` : one call after the other until one does not return `OK`;
* `frames_received_prefix_sent`, `fragments_received_prefix_sent` : what was received is the front of what was sent.
-/

namespace TcpipCourse.L08
open Lib

/-! ## One transfer -/

/-- A turn of a send that has data left: it returns without `OK` and without another byte on the wire, or `n`
bytes more are there. -/
theorem sendAllUntil_cons {deadline : Timespec} {data : Bytes} {turn : SendTurn} {rest : List SendTurn}
    {offset : Nat} {wire : Bytes} {result : SendResult} (hlt : offset < data.length)
    (h : sendAllUntil deadline data (turn :: rest) offset wire = some result) :
    (result.status ≠ .ok ∧ result.wire = wire) ∨
      ∃ n, offset + n ≤ data.length ∧
        sendAllUntil deadline data rest (offset + n) (wire ++ slice data offset n) = some result := by
  rw [sendAllUntil, if_pos hlt] at h
  split at h
  · cases h
  · split at h
    · next count _ =>
      have hle := @transfer_le count (data.length - offset) (by omega)
      exact .inr ⟨_, by omega, h⟩
    · obtain rfl := Option.some.inj h
      refine .inl ⟨?_, rfl⟩
      dsimp only
      split <;> simp
    · split at h
      · refine .inr ⟨0, hlt.le, ?_⟩
        rwa [slice, List.take_zero, List.append_nil]
      · obtain rfl := Option.some.inj h
        exact .inl ⟨by simp, rfl⟩
  · next hok _ =>
    obtain rfl := Option.some.inj h
    exact .inl ⟨hok, rfl⟩

/-- What is on the wire when a send returns, and when that is all of the data. -/
theorem sendAllUntil_wire {deadline : Timespec} {data : Bytes} {turns : List SendTurn} {result : SendResult} :
    ∀ {offset : Nat} {wire : Bytes}, offset ≤ data.length →
    sendAllUntil deadline data turns offset wire = some result →
    ∃ n, offset + n ≤ data.length ∧ result.wire = wire ++ slice data offset n ∧
      (result.status = .ok ↔ offset + n = data.length) := by
  induction turns with
  | nil =>
    intro offset wire hoff h
    rw [sendAllUntil] at h
    split at h
    · cases h
    · obtain rfl := Option.some.inj h
      exact ⟨0, hoff, by simp [slice], by simp; omega⟩
  | cons turn rest ih =>
    intro offset wire hoff h
    by_cases hlt : offset < data.length
    · rcases sendAllUntil_cons hlt h with ⟨hstatus, hwire⟩ | ⟨n, hn, hrest⟩
      · refine ⟨0, hoff, by simp [slice, hwire], ?_⟩
        simp only [hstatus, false_iff]
        omega
      · obtain ⟨m, hm, hwire, hdone⟩ := ih hn hrest
        refine ⟨n + m, by omega, ?_, by rw [hdone, Nat.add_assoc]⟩
        rw [hwire, List.append_assoc, slice_append_slice data rfl]
    · rw [sendAllUntil, if_neg hlt] at h
      obtain rfl := Option.some.inj h
      exact ⟨0, hoff, by simp [slice], by simp; omega⟩

/-- A turn of a receive that has bytes to wait for: it returns without `OK` and without another byte, or the next
`n` bytes of the stream are in the buffer. -/
theorem recvExactUntil_cons {deadline : Timespec} {len : Nat} {turn : RecvTurn} {rest : List RecvTurn}
    {offset : Nat} {out stream : Bytes} {result : RecvResult} (hlt : offset < len)
    (h : recvExactUntil deadline len (turn :: rest) offset out stream = some result) :
    (result.status ≠ .ok ∧ result.out = out ∧ result.stream = stream) ∨
      ∃ n, offset + n ≤ len ∧ n ≤ stream.length ∧
        recvExactUntil deadline len rest (offset + n) (overwrite out offset (stream.take n)) (stream.drop n) =
          some result := by
  rw [recvExactUntil, if_pos hlt] at h
  split at h
  · cases h
  · split at h
    · next count _ =>
      dsimp only at h
      have htake := received_eq_take stream (len - offset) count
      split at h
      · next hsome =>
        have hstream : stream ≠ [] := by
          rintro rfl
          simp [received_nil] at hsome
        obtain ⟨-, hle⟩ := @length_received stream (len - offset) count hstream (by omega)
        have hin := congrArg List.length htake
        rw [List.length_take] at hin
        refine .inr ⟨(received stream (len - offset) count).length, by omega, by omega, ?_⟩
        rwa [← htake]
      · obtain rfl := Option.some.inj h
        refine .inl ⟨?_, rfl, rfl⟩
        dsimp only
        split <;> simp
    · split at h
      · refine .inr ⟨0, hlt.le, Nat.zero_le _, ?_⟩
        rwa [List.take_zero, overwrite_nil]
      · obtain rfl := Option.some.inj h
        exact .inl ⟨by simp, rfl, rfl⟩
  · next hok _ =>
    obtain rfl := Option.some.inj h
    exact .inl ⟨hok, rfl, rfl⟩

/-- What a receive has taken off the stream when it returns, and when that is all it was asked for. -/
theorem recvExactUntil_taken {deadline : Timespec} {len : Nat} {turns : List RecvTurn} {result : RecvResult} :
    ∀ {offset : Nat} {out stream : Bytes}, offset ≤ len →
    recvExactUntil deadline len turns offset out stream = some result →
    ∃ n, offset + n ≤ len ∧ n ≤ stream.length ∧ result.out = overwrite out offset (stream.take n) ∧
      result.stream = stream.drop n ∧ (result.status = .ok ↔ offset + n = len) := by
  induction turns with
  | nil =>
    intro offset out stream hoff h
    rw [recvExactUntil] at h
    split at h
    · cases h
    · obtain rfl := Option.some.inj h
      exact ⟨0, hoff, Nat.zero_le _, by simp [overwrite_nil], rfl, by simp; omega⟩
  | cons turn rest ih =>
    intro offset out stream hoff h
    by_cases hlt : offset < len
    · rcases recvExactUntil_cons hlt h with ⟨hstatus, hout, hleft⟩ | ⟨n, hn, hfits, hrest⟩
      · refine ⟨0, hoff, Nat.zero_le _, by simp [overwrite_nil, hout], hleft, ?_⟩
        simp only [hstatus, false_iff]
        omega
      · obtain ⟨m, hm, hmore, hout, hleft, hdone⟩ := ih hn hrest
        have htaken : (stream.take n).length = n := List.length_take_of_le hfits
        have happ := overwrite_overwrite out offset (stream.take n) ((stream.drop n).take m)
        rw [htaken] at happ
        rw [List.length_drop] at hmore
        refine ⟨n + m, by omega, by omega, ?_, ?_, by rw [hdone, Nat.add_assoc]⟩
        · rw [hout, happ, List.take_add]
        · rw [hleft, List.drop_drop]
    · rw [recvExactUntil, if_neg hlt] at h
      obtain rfl := Option.some.inj h
      exact ⟨0, hoff, Nat.zero_le _, by simp [overwrite_nil], rfl, by simp; omega⟩

/-- From an empty buffer to the end: what is in it is the front of the stream. -/
theorem recvExactUntil_front {deadline : Timespec} {len : Nat} {turns : List RecvTurn} {out stream : Bytes}
    {result : RecvResult} (h : recvExactUntil deadline len turns 0 out stream = some result) (hroom : len ≤ out.length)
    (hok : result.status = .ok) :
    len ≤ stream.length ∧ result.out.take len = stream.take len ∧ result.stream = stream.drop len := by
  obtain ⟨n, -, hfits, hout, hleft, hdone⟩ := recvExactUntil_taken (Nat.zero_le _) h
  obtain rfl : n = len := by
    have := hdone.mp hok
    omega
  refine ⟨hfits, ?_, hleft⟩
  rw [hout]
  exact take_overwrite_of_length (List.length_take_of_le hfits) hroom

/-! ## One frame -/

/-- How much of a frame is on the wire when its send returns: all of it exactly when it returns `OK`. -/
theorem sendFrameUntil_wire {deadline : Timespec} {payload : Bytes} {turns : List SendTurn} {wire : Bytes}
    {result : SendResult} (h : sendFrameUntil deadline payload turns wire = some result) :
    ∃ n, n ≤ (frame payload).length ∧ result.wire = wire ++ (frame payload).take n ∧
      (result.status = .ok ↔ n = (frame payload).length) := by
  have hlen := length_be32Bytes (UInt32.ofNat payload.length)
  unfold sendFrameUntil at h
  dsimp only at h
  split at h
  · cases h
  · next header hheader =>
    obtain ⟨n, hn, hwire, hdone⟩ := sendAllUntil_wire (Nat.zero_le _) hheader
    have hfront : slice (be32Bytes (UInt32.ofNat payload.length)) 0 n = (frame payload).take n := by
      rw [frame, List.take_append_of_le_length (by omega)]
      rfl
    rw [hfront] at hwire
    rw [length_frame]
    split at h
    · next hfail =>
      obtain rfl := Option.some.inj h
      have hshort : 0 + n ≠ 4 := fun hall => hfail (hdone.mpr hall)
      exact ⟨n, by omega, hwire, fun hok => absurd hok hfail, fun hall => by omega⟩
    · next hok =>
      obtain ⟨m, hm, hwire', hdone'⟩ := sendAllUntil_wire (Nat.zero_le _) h
      obtain rfl : n = 4 := by
        have := hdone.mp (not_not.mp hok)
        omega
      refine ⟨4 + m, by omega, ?_, by rw [hdone']; omega⟩
      rw [hwire', hwire, List.append_assoc, List.take_add]
      rfl

/-- A stream that holds what its first four bytes declare starts with a frame. -/
theorem eq_frame_append {stream : Bytes} (hfour : 4 ≤ stream.length) (hall : 4 + declared stream ≤ stream.length) :
    stream = frame (slice stream 4 (declared stream)) ++ stream.drop (4 + declared stream) := by
  have hlen : (slice stream 4 (declared stream)).length = declared stream := length_slice hall
  have hword : be32Bytes (UInt32.ofNat (declared stream)) = slice stream 0 4 :=
    (congrArg be32Bytes UInt32.ofNat_toNat).trans (be32Bytes_getD hfour)
  rw [frame, hlen, hword, List.append_assoc, slice_append_drop]
  exact (slice_append_drop stream 0 4).symm

/-- A receive that returns `OK` has taken a whole frame; any other leaves `*out_len` alone. -/
theorem recvFrameUntil_taken {deadline : Timespec} {out : Bytes} {outLen : Nat} {turns : List RecvTurn}
    {stream : Bytes} {result : FrameResult} (h : recvFrameUntil deadline out outLen turns stream = some result) :
    (result.status = .ok → result.outLen < 2 ^ 32 ∧ result.outLen ≤ out.length ∧
      (result.out.take result.outLen).length = result.outLen ∧
      stream = frame (result.out.take result.outLen) ++ result.stream) ∧
    (result.status ≠ .ok → result.outLen = outLen) := by
  unfold recvFrameUntil at h
  split at h
  · cases h
  · next header hheader =>
    obtain ⟨n, hn, hfits, hout, hleft, hdone⟩ := recvExactUntil_taken (Nat.zero_le _) hheader
    split at h
    · next hfail =>
      obtain rfl := Option.some.inj h
      exact ⟨fun hok => absurd hok hfail, fun _ => rfl⟩
    · next hok =>
      obtain rfl : n = 4 := by
        have := hdone.mp (not_not.mp hok)
        omega
      have hdeclared : (be32 (header.out.getD 0 0) (header.out.getD 1 0) (header.out.getD 2 0)
          (header.out.getD 3 0)).toNat = declared stream := by
        rw [hout]
        exact declared_overwrite hfits
      dsimp only at h
      rw [hdeclared] at h
      split at h
      · obtain rfl := Option.some.inj h
        exact ⟨fun hok => absurd hok (by simp), fun _ => rfl⟩
      · next hcap =>
        split at h
        · cases h
        · next payload hpayload =>
          split at h
          · next hfail =>
            obtain rfl := Option.some.inj h
            exact ⟨fun hok => absurd hok hfail, fun _ => rfl⟩
          · next hok' =>
            obtain rfl := Option.some.inj h
            obtain ⟨hmore, hfront, hrest⟩ :=
              recvExactUntil_front hpayload (Nat.le_of_not_lt hcap) (not_not.mp hok')
            rw [hleft, List.length_drop] at hmore
            have hlen : (slice stream 4 (declared stream)).length = declared stream := length_slice (by omega)
            have htake : payload.out.take (declared stream) = slice stream 4 (declared stream) := by
              rw [hfront, hleft]
              rfl
            refine ⟨fun _ => ⟨UInt32.toNat_lt _, Nat.le_of_not_lt hcap, ?_, ?_⟩, fun hbad => absurd rfl hbad⟩
            · dsimp only
              rw [htake, hlen]
            · dsimp only
              rw [htake, hrest, hleft, List.drop_drop]
              exact eq_frame_append hfits (by omega)

/-! ## The calls -/

def sendAll (fd : Int) (data : Bytes) (timeoutMs : Int) (clock : Option Timespec) (turns : List SendTurn)
    (wire : Bytes) : Option SendResult :=
  if fd < 0 ∨ timeoutMs < 0 then some ⟨.invalidArgument, wire, turns⟩
  else match makeDeadline timeoutMs clock with
    | .error status => some ⟨status, wire, turns⟩
    | .ok deadline => if data.length = 0 then some ⟨.ok, wire, turns⟩ else sendAllUntil deadline data turns 0 wire

def recvExact (fd : Int) (out : Bytes) (len : Nat) (timeoutMs : Int) (clock : Option Timespec)
    (turns : List RecvTurn) (stream : Bytes) : Option RecvResult :=
  if fd < 0 ∨ timeoutMs < 0 then some ⟨.invalidArgument, out, stream, turns⟩
  else match makeDeadline timeoutMs clock with
    | .error status => some ⟨status, out, stream, turns⟩
    | .ok deadline =>
      if len = 0 then some ⟨.ok, out, stream, turns⟩ else recvExactUntil deadline len turns 0 out stream

def sendFrame (fd : Int) (data : Bytes) (timeoutMs : Int) (clock : Option Timespec) (turns : List SendTurn)
    (wire : Bytes) : Option SendResult :=
  if fd < 0 ∨ timeoutMs < 0 then some ⟨.invalidArgument, wire, turns⟩
  else if data.length > uint32Max then some ⟨.malformed, wire, turns⟩
  else match makeDeadline timeoutMs clock with
    | .error status => some ⟨status, wire, turns⟩
    | .ok deadline => sendFrameUntil deadline data turns wire

/-- `*out_len` is cleared first. -/
def recvFrame (fd : Int) (out : Bytes) (timeoutMs : Int) (clock : Option Timespec) (turns : List RecvTurn)
    (stream : Bytes) : Option FrameResult :=
  if fd < 0 ∨ timeoutMs < 0 then some ⟨.invalidArgument, out, 0, stream, turns⟩
  else match makeDeadline timeoutMs clock with
    | .error status => some ⟨status, out, 0, stream, turns⟩
    | .ok deadline => recvFrameUntil deadline out 0 turns stream

/-! ## Sessions -/

/-- One call that sends `data`, and how it goes. -/
structure SendCall where
  data : Bytes
  timeoutMs : Int
  clock : Option Timespec
  turns : List SendTurn

/-- One call that receives into `out`, and how it goes. -/
structure RecvCall where
  out : Bytes
  timeoutMs : Int
  clock : Option Timespec
  turns : List RecvTurn

def SendCall.all (fd : Int) (call : SendCall) (wire : Bytes) : Option SendResult :=
  sendAll fd call.data call.timeoutMs call.clock call.turns wire

def SendCall.frame (fd : Int) (call : SendCall) (wire : Bytes) : Option SendResult :=
  sendFrame fd call.data call.timeoutMs call.clock call.turns wire

/-- What a receive returns: its status, what it leaves in the first bytes of the buffer, and the stream. -/
structure Received where
  status : Status
  data : Bytes
  stream : Bytes

/-- A receive that fills its whole buffer. -/
def RecvCall.exact (fd : Int) (call : RecvCall) (stream : Bytes) : Option Received :=
  (recvExact fd call.out call.out.length call.timeoutMs call.clock call.turns stream).map fun result =>
    ⟨result.status, result.out, result.stream⟩

def RecvCall.frame (fd : Int) (call : RecvCall) (stream : Bytes) : Option Received :=
  (recvFrame fd call.out call.timeoutMs call.clock call.turns stream).map fun result =>
    ⟨result.status, result.out.take result.outLen, result.stream⟩

/-- The sends, until one does not return `OK`: what the others were given, and the wire. -/
def sendSession (send : SendCall → Bytes → Option SendResult) : List SendCall → (wire : Bytes) →
    Option (List Bytes × Bytes)
  | [], wire => some ([], wire)
  | call :: rest, wire =>
    match send call wire with
    | none => none
    | some result =>
      if result.status = .ok then
        (sendSession send rest result.wire).map fun (sent, wire) => (call.data :: sent, wire)
      else some ([], result.wire)

/-- The receives, until one does not return `OK`: what the others received, and the rest of the stream. -/
def recvSession (recv : RecvCall → Bytes → Option Received) : List RecvCall → (stream : Bytes) →
    Option (List Bytes × Bytes)
  | [], stream => some ([], stream)
  | call :: rest, stream =>
    match recv call stream with
    | none => none
    | some result =>
      if result.status = .ok then
        (recvSession recv rest result.stream).map fun (received, stream) => (result.data :: received, stream)
      else some ([], result.stream)

/-! ## One call -/

section
variable {S : Set Bytes} {code : Bytes → Bytes} {send : SendCall → Bytes → Option SendResult}
  {recv : RecvCall → Bytes → Option Received}

/-- A send that returns `OK` puts the code of its data on the wire, and any other a part of it. -/
def Emits (S : Set Bytes) (code : Bytes → Bytes) (send : SendCall → Bytes → Option SendResult) : Prop :=
  ∀ call wire result, send call wire = some result →
    (result.status = .ok ∧ call.data ∈ S ∧ result.wire = wire ++ code call.data) ∨
    (result.status ≠ .ok ∧ ∃ n, (n = 0 ∨ call.data ∈ S ∧ n < (code call.data).length) ∧
      result.wire = wire ++ (code call.data).take n)

/-- A receive that returns `OK` takes the code of what it received off the stream. -/
def Absorbs (S : Set Bytes) (code : Bytes → Bytes) (recv : RecvCall → Bytes → Option Received) : Prop :=
  ∀ call stream result, recv call stream = some result → result.status = .ok →
    result.data ∈ S ∧ stream = code result.data ++ result.stream

theorem Emits.refused {call : SendCall} {wire : Bytes} {result : SendResult} (hstatus : result.status ≠ .ok)
    (hwire : result.wire = wire) : result.status ≠ .ok ∧
      ∃ n, (n = 0 ∨ call.data ∈ S ∧ n < (code call.data).length) ∧ result.wire = wire ++ (code call.data).take n :=
  ⟨hstatus, 0, .inl rfl, by rw [hwire, List.take_zero, List.append_nil]⟩

theorem makeDeadline_error {timeoutMs : Int} {clock : Option Timespec} {status : Status}
    (h : makeDeadline timeoutMs clock = .error status) : status ≠ .ok := by
  unfold makeDeadline at h
  split at h
  · cases h
    simp
  · split at h
    · cases h
      simp
    · cases h

/-- Payloads whose length a frame can declare. -/
def framable : Set Bytes := {payload | payload.length < 2 ^ 32}

theorem prefixFree_frame : PrefixFree framable frame := by
  constructor
  · intro payload _ hnil
    have hlen := length_frame payload
    rw [hnil, List.length_nil] at hlen
    omega
  · intro p hp q hq r s h
    have hdeclared := declared_frame hp r
    rw [h, declared_frame hq s] at hdeclared
    have hdrop := congrArg (List.drop 4) h
    have hpayload : p ++ r = q ++ s := hdrop
    exact (List.append_inj hpayload hdeclared.symm).1

theorem emits_frame (fd : Int) : Emits framable frame (SendCall.frame fd) := by
  intro call wire result h
  unfold SendCall.frame sendFrame at h
  split at h
  · obtain rfl := Option.some.inj h
    exact .inr (Emits.refused (by simp) rfl)
  · split at h
    · obtain rfl := Option.some.inj h
      exact .inr (Emits.refused (by simp) rfl)
    · next hlen =>
      have hmem : call.data ∈ framable := Nat.lt_succ_of_le (Nat.le_of_not_lt hlen)
      split at h
      · next hdeadline =>
        obtain rfl := Option.some.inj h
        exact .inr (Emits.refused (makeDeadline_error hdeadline) rfl)
      · obtain ⟨n, hn, hwire, hdone⟩ := sendFrameUntil_wire h
        by_cases hall : n = (frame call.data).length
        · refine .inl ⟨hdone.mpr hall, hmem, ?_⟩
          rw [hwire, hall, List.take_length]
        · exact .inr ⟨fun hok => hall (hdone.mp hok), n, .inr ⟨hmem, by omega⟩, hwire⟩

theorem absorbs_frame (fd : Int) : Absorbs framable frame (RecvCall.frame fd) := by
  intro call stream result h hok
  obtain ⟨frameResult, hcall, rfl⟩ := Option.map_eq_some_iff.mp h
  unfold recvFrame at hcall
  split at hcall
  · obtain rfl := Option.some.inj hcall
    cases hok
  · split at hcall
    · next hdeadline =>
      obtain rfl := Option.some.inj hcall
      exact absurd hok (makeDeadline_error hdeadline)
    · obtain ⟨hword, -, hlen, hstream⟩ := (recvFrameUntil_taken hcall).1 hok
      exact ⟨hlen.trans_lt hword, hstream⟩

theorem emits_all (fd : Int) : Emits Set.univ id (SendCall.all fd) := by
  intro call wire result h
  unfold SendCall.all sendAll at h
  split at h
  · obtain rfl := Option.some.inj h
    exact .inr (Emits.refused (by simp) rfl)
  · split at h
    · next hdeadline =>
      obtain rfl := Option.some.inj h
      exact .inr (Emits.refused (makeDeadline_error hdeadline) rfl)
    · split at h
      · next hnil =>
        obtain rfl := Option.some.inj h
        exact .inl ⟨rfl, Set.mem_univ _, by simp [List.length_eq_zero_iff.mp hnil]⟩
      · obtain ⟨n, hn, hwire, hdone⟩ := sendAllUntil_wire (Nat.zero_le _) h
        rw [Nat.zero_add] at hn hdone
        by_cases hall : n = call.data.length
        · refine .inl ⟨hdone.mpr hall, Set.mem_univ _, ?_⟩
          rw [hwire, hall, slice_zero_length, id]
        · exact .inr ⟨fun hok => hall (hdone.mp hok), n, .inr ⟨Set.mem_univ _, hn.lt_of_ne hall⟩, hwire⟩

theorem absorbs_exact (fd : Int) : Absorbs Set.univ id (RecvCall.exact fd) := by
  intro call stream result h hok
  obtain ⟨recvResult, hcall, rfl⟩ := Option.map_eq_some_iff.mp h
  refine ⟨Set.mem_univ _, ?_⟩
  unfold recvExact at hcall
  split at hcall
  · obtain rfl := Option.some.inj hcall
    cases hok
  · split at hcall
    · next hdeadline =>
      obtain rfl := Option.some.inj hcall
      exact absurd hok (makeDeadline_error hdeadline)
    · split at hcall
      · next hnil =>
        obtain rfl := Option.some.inj hcall
        simp [List.length_eq_zero_iff.mp hnil]
      · obtain ⟨n, hn, hfits, hout, hleft, hdone⟩ := recvExactUntil_taken (Nat.zero_le _) hcall
        have hall : n = call.out.length := by
          have := hdone.mp hok
          omega
        have htaken : (stream.take n).length = n := List.length_take_of_le hfits
        rw [overwrite_zero_append _ _ (by omega), htaken, hall, List.drop_length, List.append_nil] at hout
        rw [id, hout, hleft, hall, List.take_append_drop]

/-! ## Runs -/

/-- **Run lemma.** The wire gets the codes of the data whose call returned `OK`, and then at most a part of one
more. -/
theorem sendSession_wire (hsend : Emits S code send) {calls : List SendCall} :
    ∀ {wire : Bytes} {sent : List Bytes} {wire' : Bytes}, sendSession send calls wire = some (sent, wire') →
    (∀ p ∈ sent, p ∈ S) ∧ sent <+: calls.map SendCall.data ∧
      wire' <+: wire ++ (calls.map SendCall.data).flatMap code ∧
      ∃ tail, wire' = wire ++ sent.flatMap code ++ tail ∧
        (tail = [] ∨ ∃ q ∈ S, ∃ n < (code q).length, tail = (code q).take n) := by
  induction calls with
  | nil =>
    intro wire sent wire' h
    obtain ⟨rfl, rfl⟩ := Prod.mk.inj (Option.some.inj h)
    exact ⟨by simp, List.nil_prefix, by simp, [], by simp, .inl rfl⟩
  | cons call rest ih =>
    intro wire sent wire' h
    rw [List.map_cons, List.flatMap_cons]
    rw [sendSession] at h
    split at h
    · cases h
    · next result hresult =>
      rcases hsend call wire result hresult with ⟨hok, hmem, hwire⟩ | ⟨hfail, n, hpart, hwire⟩
      · rw [if_pos hok] at h
        obtain ⟨⟨more, wire''⟩, hmore, heq⟩ := Option.map_eq_some_iff.mp h
        obtain ⟨rfl, rfl⟩ := Prod.mk.inj heq
        obtain ⟨hall, hfront, hwhole, tail, hwire', htail⟩ := ih hmore
        refine ⟨by simpa using ⟨hmem, hall⟩, List.cons_prefix_cons.mpr ⟨rfl, hfront⟩, ?_, tail, ?_, htail⟩
        · rwa [hwire, List.append_assoc] at hwhole
        · rw [hwire', hwire, List.flatMap_cons]
          simp
      · rw [if_neg hfail] at h
        obtain ⟨rfl, rfl⟩ := Prod.mk.inj (Option.some.inj h)
        refine ⟨by simp, List.nil_prefix, ?_, (code call.data).take n, by simpa using hwire, ?_⟩
        · rw [hwire]
          apply (List.prefix_append_right_inj _).mpr
          exact (List.take_prefix _ _).trans (List.prefix_append _ _)
        · rcases hpart with rfl | ⟨hmem, hshort⟩
          · exact .inl List.take_zero
          · exact .inr ⟨call.data, hmem, n, hshort, rfl⟩

/-- **Run lemma.** What was received came off the front of the stream, in order. -/
theorem recvSession_stream (hrecv : Absorbs S code recv) {calls : List RecvCall} :
    ∀ {stream : Bytes} {received : List Bytes} {rest : Bytes},
    recvSession recv calls stream = some (received, rest) →
    (∀ p ∈ received, p ∈ S) ∧ received.flatMap code <+: stream := by
  induction calls with
  | nil =>
    intro stream received rest h
    obtain ⟨rfl, rfl⟩ := Prod.mk.inj (Option.some.inj h)
    exact ⟨by simp, List.nil_prefix⟩
  | cons call calls ih =>
    intro stream received rest h
    rw [recvSession] at h
    split at h
    · cases h
    · next result hresult =>
      split at h
      · next hok =>
        obtain ⟨hmem, hstream⟩ := hrecv call stream result hresult hok
        obtain ⟨⟨more, left⟩, hmore, heq⟩ := Option.map_eq_some_iff.mp h
        obtain ⟨rfl, rfl⟩ := Prod.mk.inj heq
        obtain ⟨hall, hfront⟩ := ih hmore
        refine ⟨by simpa using ⟨hmem, hall⟩, ?_⟩
        rw [List.flatMap_cons, hstream]
        exact (List.prefix_append_right_inj _).mpr hfront
      · obtain ⟨rfl, rfl⟩ := Prod.mk.inj (Option.some.inj h)
        exact ⟨by simp, List.nil_prefix⟩

end

/-! ## What is received is what was sent -/

/-- **Main result.** However the calls on both sides are cut short, and however much of the wire reaches the
receiver, the frames it accepts are the first of those whose send returned `OK`: none is altered, lost in
between, repeated, or put together from parts of two. -/
theorem frames_received_prefix_sent {fd fd' : Int} {calls : List SendCall} {calls' : List RecvCall}
    {sent received : List Bytes} {wire stream rest : Bytes}
    (hsend : sendSession (SendCall.frame fd) calls [] = some (sent, wire)) (hstream : stream <+: wire)
    (hrecv : recvSession (RecvCall.frame fd') calls' stream = some (received, rest)) :
    received <+: sent ∧ sent <+: calls.map SendCall.data := by
  obtain ⟨hsent, hfront, -, tail, hwire, htail⟩ := sendSession_wire (emits_frame fd) hsend
  obtain ⟨hreceived, htaken⟩ := recvSession_stream (absorbs_frame fd') hrecv
  refine ⟨?_, hfront⟩
  have hpre := htaken.trans hstream
  rw [hwire, List.nil_append] at hpre
  rcases htail with rfl | ⟨q, hq, n, hn, rfl⟩
  · rw [List.append_nil] at hpre
    exact prefixFree_frame.prefix_of_flatMap hreceived hsent hpre
  · exact prefixFree_frame.prefix_of_cut hreceived hsent hq hn hpre

/-- A descriptor that is ready at once, a second before the deadline. -/
def readyTurn {ω : Type} (outcome : ω) : IoTurn ω := ⟨[⟨some ⟨0, 0⟩, fun _ => readyNow⟩], outcome⟩

/-- Three frames of which the third is cut off inside its payload. -/
def cutSends : List SendCall :=
  [⟨[7, 8], 1000, some ⟨0, 0⟩, [readyTurn (.takes 4), readyTurn (.takes 9)]⟩,
    ⟨[5], 1000, some ⟨0, 0⟩, [readyTurn (.takes 4), readyTurn (.takes 1)]⟩,
    ⟨[9, 10], 1000, some ⟨0, 0⟩, [readyTurn (.takes 4), readyTurn (.takes 1), readyTurn (.failed .other)]⟩]

/-- Two receives of which the second finds the stream ended inside a header. -/
def cutReceives : List RecvCall :=
  [⟨[0, 0, 0], 1000, some ⟨0, 0⟩, List.replicate 6 (readyTurn (.takes 1))⟩,
    ⟨[0, 0, 0], 1000, some ⟨0, 0⟩, List.replicate 6 (readyTurn (.takes 9))⟩]

theorem frames_received_prefix_sent_cut :
    sendSession (SendCall.frame 3) cutSends [] =
        some ([[7, 8], [5]], [0, 0, 0, 2, 7, 8, 0, 0, 0, 1, 5, 0, 0, 0, 2, 9]) ∧
      recvSession (RecvCall.frame 4) cutReceives [0, 0, 0, 2, 7, 8, 0, 0] = some ([[7, 8]], []) ∧
      ([[7, 8]] : List Bytes) <+: [[7, 8], [5]] ∧ ([[7, 8], [5]] : List Bytes) <+: cutSends.map SendCall.data := by
  have hsend : sendSession (SendCall.frame 3) cutSends [] =
      some ([[7, 8], [5]], [0, 0, 0, 2, 7, 8, 0, 0, 0, 1, 5, 0, 0, 0, 2, 9]) := rfl
  have hrecv : recvSession (RecvCall.frame 4) cutReceives [0, 0, 0, 2, 7, 8, 0, 0] = some ([[7, 8]], []) := rfl
  exact ⟨hsend, hrecv, frames_received_prefix_sent hsend (by decide) hrecv⟩

/-- **Main result.** The bytes of `send_all` calls are one stream to the receiver, wherever the calls are cut:
what `recv_exact` calls read is the front of it, and when the fragments are those of a list of frames,
`recv_frame` calls read the first of these. -/
theorem fragments_received_prefix_sent {fd fd' : Int} {calls : List SendCall} {sent : List Bytes}
    {wire stream : Bytes} (hsend : sendSession (SendCall.all fd) calls [] = some (sent, wire))
    (hstream : stream <+: wire) :
    (∀ calls' received rest, recvSession (RecvCall.exact fd') calls' stream = some (received, rest) →
      received.flatten <+: (calls.map SendCall.data).flatten) ∧
    (∀ payloads : List Bytes, (∀ p ∈ payloads, p.length < 2 ^ 32) →
      (calls.map SendCall.data).flatten = payloads.flatMap frame → ∀ calls' received rest,
      recvSession (RecvCall.frame fd') calls' stream = some (received, rest) → received <+: payloads) := by
  obtain ⟨-, -, hwhole, -⟩ := sendSession_wire (emits_all fd) hsend
  rw [List.nil_append, List.flatMap_id] at hwhole
  have hfront := hstream.trans hwhole
  constructor
  · intro calls' received rest hrecv
    have htaken := (recvSession_stream (absorbs_exact fd') hrecv).2
    rw [List.flatMap_id] at htaken
    exact htaken.trans hfront
  · intro payloads hpayloads hframes calls' received rest hrecv
    obtain ⟨hreceived, htaken⟩ := recvSession_stream (absorbs_frame fd') hrecv
    rw [hframes] at hfront
    exact prefixFree_frame.prefix_of_flatMap hreceived hpayloads (htaken.trans hfront)

/-- Two frames in three fragments. -/
def fragmentSends : List SendCall :=
  [⟨[0, 0, 0], 1000, some ⟨0, 0⟩, [readyTurn (.takes 2), readyTurn (.takes 9)]⟩,
    ⟨[2, 7, 8, 0, 0], 1000, some ⟨0, 0⟩, [readyTurn (.takes 9)]⟩,
    ⟨[0, 1, 5], 1000, some ⟨0, 0⟩, [readyTurn (.takes 9)]⟩]

theorem fragments_received_prefix_sent_two :
    sendSession (SendCall.all 3) fragmentSends [] =
        some ([[0, 0, 0], [2, 7, 8, 0, 0], [0, 1, 5]], [0, 0, 0, 2, 7, 8, 0, 0, 0, 1, 5]) ∧
      (recvSession (RecvCall.exact 4) cutReceives [0, 0, 0, 2, 7, 8, 0] = some ([[0, 0, 0], [2, 7, 8]], [0]) ∧
        [[0, 0, 0], [2, 7, 8]].flatten <+: (fragmentSends.map SendCall.data).flatten) ∧
      (recvSession (RecvCall.frame 4) cutReceives [0, 0, 0, 2, 7, 8, 0] = some ([[7, 8]], []) ∧
        ([[7, 8]] : List Bytes) <+: [[7, 8], [5]]) := by
  have hsend : sendSession (SendCall.all 3) fragmentSends [] =
      some ([[0, 0, 0], [2, 7, 8, 0, 0], [0, 1, 5]], [0, 0, 0, 2, 7, 8, 0, 0, 0, 1, 5]) := rfl
  have hexact : recvSession (RecvCall.exact 4) cutReceives [0, 0, 0, 2, 7, 8, 0] =
      some ([[0, 0, 0], [2, 7, 8]], [0]) := rfl
  have hframe : recvSession (RecvCall.frame 4) cutReceives [0, 0, 0, 2, 7, 8, 0] = some ([[7, 8]], []) := rfl
  have hfront : ([0, 0, 0, 2, 7, 8, 0] : Bytes) <+: [0, 0, 0, 2, 7, 8, 0, 0, 0, 1, 5] := by decide
  obtain ⟨hbytes, hframes⟩ := fragments_received_prefix_sent hsend hfront
  exact ⟨hsend, ⟨hexact, hbytes _ _ _ hexact⟩, hframe, hframes [[7, 8], [5]] (by decide) rfl _ _ _ hframe⟩

end TcpipCourse.L08
