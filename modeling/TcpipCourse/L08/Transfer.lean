import TcpipCourse.L08.Stream

/-!
# Lesson 08: transfers under every schedule

A schedule is patient when no wait times out and no call fails for good: what is left is how many bytes each
call moves and how often it is interrupted.

* `PatientSend`, `PatientRecv` : patient turns;
* `sendAllUntil_sent` : the data reaches the wire in order and once;
* `recvExactUntil_filled` : the buffer gets the next bytes of the stream, or all of them when they end early.
-/

namespace TcpipCourse.L08
open Lib

/-! ## Patient schedules -/

def PatientSend (deadline : Timespec) (turn : SendTurn) : Prop :=
  wait deadline turn.waits = some .ok ∧ sendPatient turn.outcome = true

def PatientRecv (deadline : Timespec) (turn : RecvTurn) : Prop :=
  wait deadline turn.waits = some .ok ∧ recvPatient turn.outcome = true

instance (deadline : Timespec) (turn : SendTurn) : Decidable (PatientSend deadline turn) :=
  inferInstanceAs (Decidable (_ ∧ _))

instance (deadline : Timespec) (turn : RecvTurn) : Decidable (PatientRecv deadline turn) :=
  inferInstanceAs (Decidable (_ ∧ _))

/-! ## Sending -/

/-- What a patient schedule makes of a send: it runs out after fewer sends than there are bytes left, or the
data is on the wire and no more sends than that were used. -/
def Sent (deadline : Timespec) (data : Bytes) (turns : List SendTurn) (offset : Nat) (wire : Bytes) :
    Option SendResult → Prop
  | none => sends turns < data.length - offset
  | some result =>
    result.status = .ok ∧ result.wire = wire ++ data.drop offset ∧
      (∀ turn ∈ result.rest, PatientSend deadline turn) ∧
      sends turns ≤ sends result.rest + (data.length - offset)

/-- A turn that puts the next `n` bytes on the wire; an interrupted one puts none. -/
theorem Sent.cons {deadline : Timespec} {data : Bytes} {turn : SendTurn} {rest : List SendTurn}
    {offset n : Nat} {wire : Bytes} {result : Option SendResult} (hn : offset + n ≤ data.length)
    (hcount : sends (turn :: rest) ≤ sends rest + n)
    (h : Sent deadline data rest (offset + n) (wire ++ slice data offset n) result) :
    Sent deadline data (turn :: rest) offset wire result := by
  cases result with
  | none =>
    have h : sends rest < data.length - (offset + n) := h
    show sends (turn :: rest) < data.length - offset
    omega
  | some result =>
    obtain ⟨hok, hwire, hpatient, hused⟩ := h
    refine ⟨hok, ?_, hpatient, by omega⟩
    rw [hwire, List.append_assoc, slice_append_drop]

theorem sendAllUntil_sent {deadline : Timespec} {data : Bytes} {turns : List SendTurn} :
    ∀ {offset : Nat} {wire : Bytes}, offset ≤ data.length → (∀ turn ∈ turns, PatientSend deadline turn) →
    Sent deadline data turns offset wire (sendAllUntil deadline data turns offset wire) := by
  induction turns with
  | nil =>
    intro offset wire hoff _
    rw [sendAllUntil]
    split
    · show sends [] < data.length - offset
      rw [sends, List.countP_nil]
      omega
    · refine ⟨rfl, ?_, by simp, Nat.le_add_right _ _⟩
      rw [List.drop_eq_nil_of_le (by omega), List.append_nil]
  | cons turn rest ih =>
    intro offset wire hoff hpat
    obtain ⟨hwait, hout⟩ := hpat turn (by simp)
    have hrest : ∀ t ∈ rest, PatientSend deadline t := fun t ht => hpat t (List.mem_cons_of_mem _ ht)
    rw [sendAllUntil]
    by_cases hlt : offset < data.length
    · rw [if_pos hlt, hwait]
      dsimp only
      cases hturn : turn.outcome with
      | takes count =>
        have hcount : sends (turn :: rest) = sends rest + 1 := by simp [sends, sendMoves, hturn]
        have hpos := transfer_pos count (data.length - offset)
        have hle := @transfer_le count (data.length - offset) (by omega)
        exact (ih (by omega) hrest).cons (by omega) (by omega)
      | zero =>
        rw [hturn] at hout
        cases hout
      | failed errno =>
        have hcount : sends (turn :: rest) = sends rest := by simp [sends, sendMoves, hturn]
        have htransient : errno.isTransient = true := by rwa [hturn] at hout
        dsimp only
        rw [if_pos htransient]
        apply Sent.cons (show offset + 0 ≤ data.length from hoff) hcount.le
        rw [show slice data offset 0 = [] from List.take_zero, List.append_nil]
        exact ih hoff hrest
    · rw [if_neg hlt]
      refine ⟨rfl, ?_, hpat, Nat.le_add_right _ _⟩
      rw [List.drop_eq_nil_of_le (by omega), List.append_nil]

/-! ## Receiving -/

/-- How many receives it takes at most: one for each byte, and one more to find the stream ended. -/
def recvNeed (len : Nat) (stream : Bytes) : Nat := if len ≤ stream.length then len else stream.length + 1

/-- What a patient schedule makes of a receive: it runs out early, or `out` holds the next bytes of the stream
from `offset` on, all of them when they are fewer than asked for. -/
def Filled (deadline : Timespec) (len : Nat) (turns : List RecvTurn) (offset : Nat) (out stream : Bytes) :
    Option RecvResult → Prop
  | none => recvs turns < recvNeed (len - offset) stream
  | some result =>
    result.status = (if len - offset ≤ stream.length then .ok else if offset + stream.length = 0 then .eof
      else .truncated) ∧
    result.out = overwrite out offset (stream.take (len - offset)) ∧
    result.stream = stream.drop (len - offset) ∧
    (∀ turn ∈ result.rest, PatientRecv deadline turn) ∧
    recvs turns ≤ recvs result.rest + recvNeed (len - offset) stream

/-- A turn that takes the next `n` bytes of the stream; an interrupted one takes none. -/
theorem Filled.cons {deadline : Timespec} {len : Nat} {turn : RecvTurn} {rest : List RecvTurn}
    {offset n : Nat} {out stream : Bytes} {result : Option RecvResult} (hn : offset + n ≤ len)
    (hstream : n ≤ stream.length) (hcount : recvs (turn :: rest) ≤ recvs rest + n)
    (h : Filled deadline len rest (offset + n) (overwrite out offset (stream.take n)) (stream.drop n) result) :
    Filled deadline len (turn :: rest) offset out stream result := by
  have hneed : recvNeed (len - offset) stream = recvNeed (len - (offset + n)) (stream.drop n) + n := by
    unfold recvNeed
    rw [List.length_drop]
    by_cases hfits : len - offset ≤ stream.length
    · rw [if_pos hfits, if_pos (by omega)]
      omega
    · rw [if_neg hfits, if_neg (by omega)]
      omega
  have hsplit : len - offset = n + (len - (offset + n)) := by omega
  cases result with
  | none =>
    have h : recvs rest < recvNeed (len - (offset + n)) (stream.drop n) := h
    show recvs (turn :: rest) < recvNeed (len - offset) stream
    omega
  | some result =>
    obtain ⟨hstatus, hbuf, hleft, hpatient, hused⟩ := h
    refine ⟨?_, ?_, ?_, hpatient, by omega⟩
    · rw [hstatus, List.length_drop]
      by_cases hfits : len - offset ≤ stream.length
      · rw [if_pos hfits, if_pos (by omega)]
      · rw [if_neg hfits, if_neg (by omega), show offset + n + (stream.length - n) = offset + stream.length by omega]
    · have hlen : (stream.take n).length = n := by
        rw [List.length_take]
        omega
      have happ := overwrite_overwrite out offset (stream.take n) ((stream.drop n).take (len - (offset + n)))
      rw [hlen] at happ
      rw [hbuf, happ, hsplit, List.take_add]
    · rw [hleft, List.drop_drop, hsplit]

theorem Filled.done {deadline : Timespec} {len : Nat} {turns : List RecvTurn} {offset : Nat}
    (hzero : len - offset = 0) (hpat : ∀ turn ∈ turns, PatientRecv deadline turn) (out stream : Bytes) :
    Filled deadline len turns offset out stream (some ⟨.ok, out, stream, turns⟩) := by
  unfold Filled
  rw [hzero]
  refine ⟨(if_pos (Nat.zero_le _)).symm, ?_, rfl, hpat, Nat.le_add_right _ _⟩
  rw [List.take_zero, overwrite_nil]

theorem recvExactUntil_filled {deadline : Timespec} {len : Nat} {turns : List RecvTurn} :
    ∀ {offset : Nat} {out stream : Bytes}, offset ≤ len → (∀ turn ∈ turns, PatientRecv deadline turn) →
    Filled deadline len turns offset out stream (recvExactUntil deadline len turns offset out stream) := by
  induction turns with
  | nil =>
    intro offset out stream hoff hpat
    rw [recvExactUntil]
    split
    · show recvs [] < recvNeed (len - offset) stream
      rw [recvs, List.countP_nil, recvNeed]
      split <;> omega
    · exact Filled.done (by omega) hpat out stream
  | cons turn rest ih =>
    intro offset out stream hoff hpat
    obtain ⟨hwait, hout⟩ := hpat turn (by simp)
    have hrest : ∀ t ∈ rest, PatientRecv deadline t := fun t ht => hpat t (List.mem_cons_of_mem _ ht)
    rw [recvExactUntil]
    by_cases hlt : offset < len
    · rw [if_pos hlt, hwait]
      dsimp only
      cases hturn : turn.outcome with
      | takes count =>
        have hcount := recvs_takes hturn rest
        dsimp only
        by_cases hend : stream = []
        · have hfits : ¬ len - offset ≤ ([] : Bytes).length := by
            rw [List.length_nil]
            omega
          rw [hend, received_nil, if_neg (by simp)]
          refine ⟨(if_neg hfits).symm, ?_, by simp, hrest, ?_⟩
          · rw [List.take_nil, overwrite_nil]
          · rw [hcount, recvNeed, if_neg hfits, List.length_nil]
        · obtain ⟨hpos, hle⟩ := @length_received stream (len - offset) count hend (by omega)
          have htake := received_eq_take stream (len - offset) count
          have hin := congrArg List.length htake
          rw [List.length_take] at hin
          rw [if_pos (by omega)]
          apply Filled.cons (show offset + (received stream (len - offset) count).length ≤ len by omega)
            (by omega) (by omega)
          rw [← htake]
          exact ih (by omega) hrest
      | failed errno =>
        have hcount := recvs_failed hturn rest
        have htransient : errno.isTransient = true := by rwa [hturn] at hout
        dsimp only
        rw [if_pos htransient]
        apply Filled.cons (show offset + 0 ≤ len from hoff) (Nat.zero_le _) hcount.le
        rw [List.take_zero, overwrite_nil]
        exact ih hoff hrest
    · rw [if_neg hlt]
      exact Filled.done (by omega) hpat out stream

end TcpipCourse.L08
