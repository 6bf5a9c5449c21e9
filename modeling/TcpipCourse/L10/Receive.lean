import TcpipCourse.Socket
import TcpipCourse.L10.Stable

/-!
# Lesson 10: receiving one message

* `waitFd`, `recvUntil` : the receive loop under one deadline, against a script as in lesson 08;
* `Finished` : where the loop stops (`recvUntil_finished`);
* `recvUntil_schedule_independent` : whether a message is accepted, and as what, does not depend on the schedule.
-/

namespace TcpipCourse.L10
open Lib

/-! ## The loop -/

def deadlineAfter (now : Timespec) (timeoutMs : Int) : Timespec :=
  let tvSec := now.tvSec + timeoutMs.tdiv 1000
  let tvNsec := now.tvNsec + timeoutMs.tmod 1000 * nsPerMs
  if tvNsec ≥ nsPerS then ⟨tvSec + 1, tvNsec - nsPerS⟩ else ⟨tvSec, tvNsec⟩

/-- `-1` when the clock fails. -/
def remainingMs (deadline : Timespec) (clock : Option Timespec) : Int :=
  match clock with
  | none => -1
  | some now =>
    let borrow := deadline.tvNsec - now.tvNsec < 0
    let seconds := if borrow then deadline.tvSec - now.tvSec - 1 else deadline.tvSec - now.tvSec
    let nanoseconds := if borrow then deadline.tvNsec - now.tvNsec + nsPerS else deadline.tvNsec - now.tvNsec
    if seconds < 0 ∨ (seconds = 0 ∧ nanoseconds ≤ 0) then 0
    else if seconds > intMax.tdiv 1000 then intMax
    else
      let milliseconds := seconds * 1000 + (nanoseconds + 999999).tdiv nsPerMs
      if milliseconds > intMax then intMax else milliseconds

/-- `input` tells `POLLIN` from `POLLOUT`. -/
def waitFd (input : Bool) (deadline : Timespec) : List WaitTurn → Option Status
  | [] => none
  | turn :: rest =>
    let remaining := remainingMs deadline turn.clock
    if remaining < 0 then some .system
    else if remaining = 0 then some .timeout
    else match turn.poll remaining with
      | .ready revents => if revents.requested || (input && revents.hup) then some .ok else some .system
      | .expired => some .timeout
      | .failed errno => if errno ≠ .eintr then some .system else waitFd input deadline rest

/-- What the loop returns before it waits: a final verdict on the bytes so far, or `CAPACITY` when they fill the
buffer. -/
def recvVerdict (out : Bytes) (received : Nat) : Option ParseResult :=
  let parsed := parseMessage (out.take received)
  if parsed.status = .ok ∨ parsed.status = .malformed ∨ parsed.status = .capacity ∨
      parsed.status = .invalidArgument then some parsed
  else if received = out.length then some ⟨.capacity, .zero⟩
  else none

/-- How the receive ends: the buffer, `*received`, the view, what is left of the stream and of the script. -/
structure RecvUntilResult where
  status : Status
  out : Bytes
  received : Nat
  message : MessageView
  stream : Bytes
  rest : List RecvTurn

def recvUntil (deadline : Timespec) (turns : List RecvTurn) (out : Bytes) (received : Nat) (stream : Bytes) :
    Option RecvUntilResult :=
  match recvVerdict out received with
  | some verdict => some ⟨verdict.status, out, received, verdict.message, stream, turns⟩
  | none =>
    match turns with
    | [] => none
    | turn :: rest =>
      match waitFd true deadline turn.waits with
      | none => none
      | some .ok =>
        match turn.outcome with
        | .takes count =>
          let data := TcpipCourse.received stream (out.length - received) count
          if data.length > 0 then
            recvUntil deadline rest (overwrite out received data) (received + data.length)
              (stream.drop data.length)
          else some ⟨if received = 0 then .eof else .truncated, out, received, .zero, stream, rest⟩
        | .failed errno =>
          if errno.isTransient then recvUntil deadline rest out received stream
          else some ⟨.system, out, received, .zero, stream, rest⟩
      | some status => some ⟨status, out, received, .zero, stream, rest⟩

/-- A turn whose wait finds the descriptor readable, and whose receive takes bytes or is interrupted. -/
def PatientRecv (deadline : Timespec) (turn : RecvTurn) : Prop :=
  waitFd true deadline turn.waits = some .ok ∧ recvPatient turn.outcome = true

instance (deadline : Timespec) (turn : RecvTurn) : Decidable (PatientRecv deadline turn) :=
  inferInstanceAs (Decidable (_ ∧ _))

/-! ## Verdicts -/

theorem parseMessage_status (input : Bytes) :
    (parseMessage input).status = .ok ∨ (parseMessage input).status = .truncated ∨
      Rejects (parseMessage input).status := by
  by_cases hnil : input.length = 0
  · unfold parseMessage
    rw [if_pos hnil]
    exact .inr (.inl rfl)
  · cases hend : findHeaderEnd input with
    | none =>
      rw [parseMessage_none hnil hend]
      split
      · exact .inr (.inr (.inl rfl))
      · split
        · exact .inr (.inr (.inr rfl))
        · exact .inr (.inl rfl)
    | some e =>
      rw [parseMessage_some hend]
      cases hhead : parseHead input e with
      | error status => exact .inr (.inr (parseHead_error hhead))
      | ok st =>
        dsimp only
        split
        · exact .inr (.inl rfl)
        · exact .inl rfl

theorem recvVerdict_some {out : Bytes} {received : Nat} {verdict : ParseResult}
    (h : recvVerdict out received = some verdict) :
    ((parseMessage (out.take received)).status ≠ .truncated ∧ verdict = parseMessage (out.take received)) ∨
      ((parseMessage (out.take received)).status = .truncated ∧ received = out.length ∧
        verdict = ⟨.capacity, .zero⟩) := by
  unfold recvVerdict at h
  dsimp only at h
  split at h
  · next hfinal =>
    refine .inl ⟨?_, (Option.some.inj h).symm⟩
    intro htrunc
    rw [htrunc] at hfinal
    simp at hfinal
  · next hmore =>
    split at h
    · next hfull =>
      refine .inr ⟨?_, hfull, (Option.some.inj h).symm⟩
      rcases parseMessage_status (out.take received) with hs | hs | hs | hs
      · exact absurd (.inl hs) hmore
      · exact hs
      · exact absurd (.inr (.inl hs)) hmore
      · exact absurd (.inr (.inr (.inl hs))) hmore
    · cases h

theorem recvVerdict_none {out : Bytes} {received : Nat} (h : recvVerdict out received = none) :
    (parseMessage (out.take received)).status = .truncated ∧ received ≠ out.length := by
  unfold recvVerdict at h
  dsimp only at h
  split at h
  · cases h
  · next hmore =>
    split at h
    · cases h
    · next hroom =>
      refine ⟨?_, hroom⟩
      rcases parseMessage_status (out.take received) with hs | hs | hs | hs
      · exact absurd (.inl hs) hmore
      · exact hs
      · exact absurd (.inr (.inl hs)) hmore
      · exact absurd (.inr (.inr (.inl hs))) hmore

/-! ## Where the loop stops -/

/-- The loop stops at a prefix of the stream that has a final verdict, which it returns, or at one that has
none although the buffer is full or the stream has ended. -/
def Finished (whole : Bytes) (cap : Nat) (result : RecvUntilResult) : Prop :=
  result.received ≤ cap ∧
    (((parseMessage (whole.take result.received)).status ≠ .truncated ∧
        (⟨result.status, result.message⟩ : ParseResult) = parseMessage (whole.take result.received)) ∨
      ((parseMessage (whole.take result.received)).status = .truncated ∧ result.status ≠ .ok ∧
        (result.received = cap ∨ whole.length ≤ result.received)))

/-- What a patient schedule makes of a receive that has `received` bytes already. -/
def Receives (turns : List RecvTurn) (out : Bytes) (received : Nat) (stream : Bytes) :
    Option RecvUntilResult → Prop
  | none => recvs turns ≤ min (out.length - received) stream.length
  | some result => Finished (out.take received ++ stream) out.length result

/-- A turn that takes the next `n` bytes of the stream; an interrupted one takes none. -/
theorem Receives.cons {turn : RecvTurn} {rest : List RecvTurn} {out : Bytes} {received n : Nat} {stream : Bytes}
    {result : Option RecvUntilResult} (hn : received + n ≤ out.length) (hstream : n ≤ stream.length)
    (hcount : recvs (turn :: rest) ≤ recvs rest + n)
    (h : Receives rest (overwrite out received (stream.take n)) (received + n) (stream.drop n) result) :
    Receives (turn :: rest) out received stream result := by
  have hlen : (stream.take n).length = n := by
    rw [List.length_take]
    omega
  cases result with
  | none =>
    have h : recvs rest ≤
        min ((overwrite out received (stream.take n)).length - (received + n)) (stream.drop n).length := h
    rw [length_overwrite, List.length_drop] at h
    show recvs (turn :: rest) ≤ min (out.length - received) stream.length
    omega
  | some result =>
    have htake : (overwrite out received (stream.take n)).take (received + n) = out.take received ++ stream.take n := by
      have hfront : (out.take received ++ stream.take n).length = received + n := by
        rw [List.length_append, List.length_take, hlen]
        omega
      rw [overwrite_eq_append _ _ _ (by omega), ← hfront, List.take_left]
    have h : Finished ((overwrite out received (stream.take n)).take (received + n) ++ stream.drop n)
        (overwrite out received (stream.take n)).length result := h
    rw [htake, length_overwrite, List.append_assoc, List.take_append_drop] at h
    exact h

theorem Receives.stop {turns : List RecvTurn} {out : Bytes} {received : Nat} {verdict : ParseResult}
    (hle : received ≤ out.length) (hverdict : recvVerdict out received = some verdict) (stream : Bytes) :
    Receives turns out received stream
      (some ⟨verdict.status, out, received, verdict.message, stream, turns⟩) := by
  have hwhole : (out.take received ++ stream).take received = out.take received := by
    have hfront : (out.take received).length = received := by
      rw [List.length_take]
      omega
    rw [List.take_append_of_le_length (by omega), List.take_take, Nat.min_self]
  refine ⟨hle, ?_⟩
  rw [hwhole]
  rcases recvVerdict_some hverdict with ⟨hfinal, rfl⟩ | ⟨htrunc, hfull, rfl⟩
  · exact .inl ⟨hfinal, rfl⟩
  · exact .inr ⟨htrunc, by simp, .inl hfull⟩

theorem recvUntil_finished {deadline : Timespec} {turns : List RecvTurn} :
    ∀ {out : Bytes} {received : Nat} {stream : Bytes}, received ≤ out.length →
    (∀ turn ∈ turns, PatientRecv deadline turn) →
    Receives turns out received stream (recvUntil deadline turns out received stream) := by
  induction turns with
  | nil =>
    intro out received stream hle _
    unfold recvUntil
    cases hverdict : recvVerdict out received with
    | some verdict => exact Receives.stop hle hverdict stream
    | none => exact Nat.zero_le _
  | cons turn rest ih =>
    intro out received stream hle hpat
    obtain ⟨hwait, hout⟩ := hpat turn (by simp)
    have hrest : ∀ t ∈ rest, PatientRecv deadline t := fun t ht => hpat t (List.mem_cons_of_mem _ ht)
    unfold recvUntil
    cases hverdict : recvVerdict out received with
    | some verdict => exact Receives.stop hle hverdict stream
    | none =>
      obtain ⟨htrunc, hroom⟩ := recvVerdict_none hverdict
      dsimp only
      rw [hwait]
      dsimp only
      cases hturn : turn.outcome with
      | takes count =>
        have hcount := recvs_takes hturn rest
        dsimp only
        by_cases hend : stream = []
        · rw [hend, received_nil, if_neg (by simp)]
          refine ⟨hle, ?_⟩
          rw [List.append_nil, List.take_take, Nat.min_self]
          refine .inr ⟨htrunc, by dsimp only; split <;> simp, .inr ?_⟩
          rw [List.length_take]
          exact Nat.min_le_left _ _
        · obtain ⟨hpos, hfits⟩ := @length_received stream (out.length - received) count hend (by omega)
          have htake := received_eq_take stream (out.length - received) count
          have hin := congrArg List.length htake
          rw [List.length_take] at hin
          rw [if_pos (by omega)]
          apply Receives.cons (show received + (TcpipCourse.received stream (out.length - received) count).length ≤
            out.length by omega) (by omega) (by omega)
          rw [← htake]
          exact ih (by rw [length_overwrite]; omega) hrest
      | failed errno =>
        have hcount := recvs_failed hturn rest
        have htransient : errno.isTransient = true := by rwa [hturn] at hout
        dsimp only
        rw [if_pos htransient]
        apply Receives.cons (show received + 0 ≤ out.length from hle) (Nat.zero_le _) hcount.le
        rw [List.take_zero, overwrite_nil]
        exact ih hle hrest

/-! ## Every schedule -/

/-- An accepted message is accepted from its own bytes alone, as the same view. -/
theorem parseMessage_take_messageLength {input : Bytes} (h : (parseMessage input).status = .ok) :
    (parseMessage input).message.messageLength ≤ input.length ∧
      parseMessage (input.take (parseMessage input).message.messageLength) = parseMessage input := by
  obtain ⟨e, hend⟩ := findHeaderEnd_of_ok h
  have hparse := parseMessage_some hend
  cases hhead : parseHead input e with
  | error status =>
    rw [hhead] at hparse
    have hreject := parseHead_error hhead
    rw [hparse] at h
    have h : status = .ok := h
    rw [h] at hreject
    rcases hreject with hreject | hreject <;> cases hreject
  | ok st =>
    rw [hhead] at hparse
    dsimp only at hparse
    by_cases hshort : input.length < e + st.contentLength
    · rw [if_pos hshort] at hparse
      rw [hparse] at h
      cases h
    · rw [if_neg hshort] at hparse
      have hlen : (parseMessage input).message.messageLength = e + st.contentLength := by rw [hparse]
      have htake : (input.take (e + st.contentLength)).take e = input.take e := by
        rw [List.take_take, Nat.min_eq_left (by omega)]
      refine ⟨by omega, ?_⟩
      rw [hlen, parseMessage_some (findHeaderEnd_congr hend htake), parseHead_congr htake, hhead]
      dsimp only
      rw [if_neg (by rw [List.length_take]; omega), hparse]

theorem parseMessage_extends {p q : Bytes} (hpq : p <+: q) (h : (parseMessage p).status = .ok) :
    parseMessage q = parseMessage p := by
  obtain ⟨s, rfl⟩ := hpq
  exact parseMessage_append_ok h s

theorem rejects_extends {p q : Bytes} (hpq : p <+: q) (h : Rejects (parseMessage p).status) :
    Rejects (parseMessage q).status := by
  obtain ⟨s, rfl⟩ := hpq
  rcases h with h | h
  · exact (parseMessage_append_malformed h s).1
  · exact .inr (by rw [parseMessage_append_capacity h s, h])

/-- The loop accepts exactly when a prefix that fits the buffer does. -/
theorem Finished.ok_iff {stream : Bytes} {cap : Nat} {result : RecvUntilResult} (h : Finished stream cap result) :
    result.status = .ok ↔ ∃ p, p <+: stream ∧ p.length ≤ cap ∧ (parseMessage p).status = .ok := by
  obtain ⟨hcap, hstop⟩ := h
  constructor
  · intro hok
    rcases hstop with ⟨-, hverdict⟩ | ⟨-, hnot, -⟩
    · refine ⟨stream.take result.received, List.take_prefix _ _, ?_, ?_⟩
      · rw [List.length_take]
        omega
      · rw [← hverdict]
        exact hok
    · exact absurd hok hnot
  · rintro ⟨p, hp, hlen, hok⟩
    have hq : stream.take result.received <+: stream := List.take_prefix _ _
    rcases hstop with ⟨hfinal, hverdict⟩ | ⟨htrunc, -, hlast⟩
    · rcases List.prefix_or_prefix_of_prefix hp hq with hpq | hqp
      · rw [parseMessage_extends hpq hok] at hverdict
        exact (congrArg ParseResult.status hverdict).trans hok
      · rcases parseMessage_status (stream.take result.received) with hs | hs | hs
        · exact (congrArg ParseResult.status hverdict).trans hs
        · exact absurd hs hfinal
        · have hreject := rejects_extends hqp hs
          rw [hok] at hreject
          rcases hreject with hreject | hreject <;> cases hreject
    · have hle := hp.length_le
      have hpq : p <+: stream.take result.received := by
        apply List.prefix_of_prefix_length_le hp hq
        rw [List.length_take]
        rcases hlast with hlast | hlast <;> omega
      rw [parseMessage_extends hpq hok, hok] at htrunc
      cases htrunc

/-- What an accepting loop returns is the view of the message alone. -/
theorem Finished.view {stream : Bytes} {cap : Nat} {result : RecvUntilResult} (h : Finished stream cap result)
    (hok : result.status = .ok) :
    parseMessage (stream.take result.received) = ⟨.ok, result.message⟩ ∧
      result.message.messageLength ≤ result.received ∧
      parseMessage (stream.take result.message.messageLength) = ⟨.ok, result.message⟩ := by
  obtain ⟨-, ⟨-, hverdict⟩ | ⟨-, hnot, -⟩⟩ := h
  · have hparse : parseMessage (stream.take result.received) = ⟨.ok, result.message⟩ := by rw [← hverdict, hok]
    obtain ⟨hle, hown⟩ := @parseMessage_take_messageLength (stream.take result.received) (by rw [hparse])
    rw [hparse, List.length_take] at hle
    dsimp only at hle
    rw [hparse, List.take_take] at hown
    dsimp only at hown
    rw [Nat.min_eq_left (by omega)] at hown
    exact ⟨hparse, by omega, hown⟩
  · exact absurd hok hnot

theorem Finished.message_eq {stream : Bytes} {cap cap' : Nat} {result result' : RecvUntilResult}
    (h : Finished stream cap result) (h' : Finished stream cap' result') (hok : result.status = .ok)
    (hok' : result'.status = .ok) : result.message = result'.message := by
  obtain ⟨hview, -, -⟩ := h.view hok
  obtain ⟨hview', -, -⟩ := h'.view hok'
  have hsame : parseMessage (stream.take result.received) = parseMessage (stream.take result'.received) := by
    rcases List.prefix_or_prefix_of_prefix (List.take_prefix result.received stream)
      (List.take_prefix result'.received stream) with hpre | hpre
    · exact (parseMessage_extends hpre (by rw [hview])).symm
    · exact parseMessage_extends hpre (by rw [hview'])
  rw [hview, hview'] at hsame
  exact congrArg ParseResult.message hsame

/-- **Main result.** Under every patient schedule the loop accepts exactly when some prefix of the stream that
fits the buffer is a message, with the view of that message alone; two schedules agree on both. The loop returns
once the schedule moves often enough. -/
theorem recvUntil_schedule_independent {deadline deadline' : Timespec} {turns turns' : List RecvTurn}
    (out stream : Bytes) (hpat : ∀ turn ∈ turns, PatientRecv deadline turn)
    (hpat' : ∀ turn ∈ turns', PatientRecv deadline' turn) :
    (∀ result, recvUntil deadline turns out 0 stream = some result →
      (result.status = .ok ↔ ∃ p, p <+: stream ∧ p.length ≤ out.length ∧ (parseMessage p).status = .ok) ∧
      (result.status = .ok → result.message.messageLength ≤ result.received ∧
        parseMessage (stream.take result.message.messageLength) = ⟨.ok, result.message⟩)) ∧
    (∀ result result', recvUntil deadline turns out 0 stream = some result →
      recvUntil deadline' turns' out 0 stream = some result' →
      (result.status = .ok ↔ result'.status = .ok) ∧
      (result.status = .ok → result.message = result'.message)) ∧
    (min out.length stream.length < recvs turns → (recvUntil deadline turns out 0 stream).isSome) := by
  have hfin : ∀ {d ts r}, (∀ turn ∈ ts, PatientRecv d turn) → recvUntil d ts out 0 stream = some r →
      Finished stream out.length r := by
    intro d ts r hts hres
    have h := @recvUntil_finished d ts out 0 stream (Nat.zero_le _) hts
    rw [hres] at h
    exact h
  refine ⟨?_, ?_, ?_⟩
  · intro result hres
    have h := hfin hpat hres
    exact ⟨h.ok_iff, fun hok => (h.view hok).2⟩
  · intro result result' hres hres'
    have h := hfin hpat hres
    have h' := hfin hpat' hres'
    refine ⟨h.ok_iff.trans h'.ok_iff.symm, fun hok => ?_⟩
    exact h.message_eq h' hok ((h.ok_iff.trans h'.ok_iff.symm).mp hok)
  · intro henough
    have h := @recvUntil_finished deadline turns out 0 stream (Nat.zero_le _) hpat
    cases hres : recvUntil deadline turns out 0 stream with
    | none =>
      rw [hres] at h
      have h : recvs turns ≤ min (out.length - 0) stream.length := h
      omega
    | some result => rfl

/-- A request that arrives byte by byte. -/
theorem recvUntil_schedule_independent_bytewise :
    (recvUntil ⟨1, 0⟩ (List.replicate 19 ⟨readyWait, .takes 1⟩) (List.replicate 32 0) 0
      (ascii "GET / HTTP/1.1\r\n\r\n".toList)).map (fun result => result.status) = some .ok := by
  have hpat : ∀ turn ∈ List.replicate 19 (⟨readyWait, .takes 1⟩ : RecvTurn), PatientRecv ⟨1, 0⟩ turn := by decide
  obtain ⟨hresult, -, hreturns⟩ := recvUntil_schedule_independent (List.replicate 32 0)
    (ascii "GET / HTTP/1.1\r\n\r\n".toList) hpat hpat
  obtain ⟨result, hres⟩ := Option.isSome_iff_exists.mp (hreturns (by decide +kernel))
  have hok := (hresult result hres).1.mpr ⟨_, List.prefix_refl _, by decide +kernel, by decide +kernel⟩
  rw [hres, Option.map_some, hok]

end TcpipCourse.L10
