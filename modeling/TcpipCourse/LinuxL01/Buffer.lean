import TcpipCourse.LinuxL01.Schedule

/-!
# Linux lab 01: what is in the buffer

* `receivedBy`, `sentBy` : the bytes that one call moves; `moved` : those of a run;
* `Echo.ledger` : the totals and the counters; `echoStep_ledger` : only the two calls that move bytes change them;
* `Booked` : the totals are those of the calls so far; `booked_step`, `booked_run` : along every run;
* `echo_buffer` : the pending bytes are what has been received and not yet sent, at every call of every run.
-/

namespace TcpipCourse.LinuxL01
open Lib

/-! ## What the calls move -/

def receivedBy (s : Echo) (a : Answer) : Bytes :=
  match s.pc, a.recv with
  | .recv capacity, .takes count => recvData s.transfer.inbound capacity count
  | _, _ => []

def sentBy (s : Echo) (a : Answer) : Bytes :=
  match s.pc, a.send with
  | .send, .takes count =>
    slice s.transfer.buffer s.transfer.pendingOffset (transfer count s.transfer.pendingLength)
  | _, _ => []

/-- The machine of the echo, with the bytes that its calls move. -/
def watched : Machine Echo Answer (Bytes × Bytes) := ⟨fun s a => (echoStep s a, receivedBy s a, sentBy s a)⟩

theorem watched_run (s : Echo) (answers : List Answer) : watched.run s answers = echoMachine.run s answers := by
  induction answers generalizing s with
  | nil => rfl
  | cons a rest ih => exact ih _

/-- What the calls of a run have received, and what they have sent. -/
def moved (s : Echo) (answers : List Answer) : Bytes × Bytes :=
  ((watched.answers s answers).flatMap Prod.fst, (watched.answers s answers).flatMap Prod.snd)

/-! ## The totals -/

structure Ledger where
  totalRead : Nat
  totalWritten : Nat
  outbound : Bytes
  bytesRead : UInt64
  bytesWritten : UInt64

namespace Echo

def ledger (s : Echo) : Ledger :=
  ⟨s.transfer.totalRead, s.transfer.totalWritten, s.transfer.outbound, s.stats.bytesRead, s.stats.bytesWritten⟩

variable (s : Echo)

@[simp] theorem ledger_cleanup (status : Status) : (s.cleanup status).ledger = s.ledger := by
  unfold cleanup
  split <;> rfl

@[simp] theorem ledger_callRecv : s.callRecv.ledger = s.ledger := by
  unfold callRecv ledger Transfer.compact
  split <;> rfl

theorem ledger_endPass {again : Echo → Echo} (hagain : ∀ s : Echo, (again s).ledger = s.ledger) :
    (s.endPass again).ledger = s.ledger := by
  obtain ⟨_, ⟨n, rfl⟩, ⟨-, hend⟩ | ⟨-, -, hend⟩ | ⟨-, -, -, hend⟩ | ⟨-, hend⟩⟩ := s.endPass_cases again
  · rw [hend]
    exact ledger_cleanup _ _
  · rw [hend]
    exact ledger_cleanup _ _
  · rw [hend]
    rfl
  · rw [hend]
    exact hagain _

@[simp] theorem ledger_pass : s.pass.ledger = s.ledger := by
  unfold pass
  dsimp only
  split
  · rfl
  · split
    · rw [ledger_callRecv]
      rfl
    · exact ledger_endPass { s with progressed := false } fun _ => rfl

@[simp] theorem ledger_endPass_pass : (s.endPass pass).ledger = s.ledger := s.ledger_endPass ledger_pass

@[simp] theorem ledger_afterSend : s.afterSend.ledger = s.ledger := by
  unfold afterSend
  split
  · rw [ledger_callRecv]
  · rw [ledger_endPass_pass]

@[simp] theorem ledger_handle : s.handle.ledger = s.ledger := by
  unfold handle
  rw [ledger_pass]
  rfl

end Echo

/-- The totals after a call that has moved these bytes. -/
def Ledger.post (ledger : Ledger) (received sent : Bytes) : Ledger where
  totalRead := ledger.totalRead + received.length
  totalWritten := ledger.totalWritten + sent.length
  outbound := ledger.outbound ++ sent
  bytesRead := ledger.bytesRead + UInt64.ofNat received.length
  bytesWritten := ledger.bytesWritten + UInt64.ofNat sent.length

theorem Ledger.post_nil (ledger : Ledger) : ledger.post [] [] = ledger := by
  unfold post
  simp

section Step
variable {stream : Bytes} {expectedBytes : Nat} {s : Echo}

/-- **Step lemma.** Every byte that a call moves is counted. -/
theorem echoStep_ledger (h : Inv stream expectedBytes s) (a : Answer) :
    (echoStep s a).ledger = s.ledger.post (receivedBy s a) (sentBy s a) := by
  have hcall := h.call
  have hfits := h.carries.fits
  unfold echoStep receivedBy sentBy
  cases hpc : s.pc with
  | getFlags =>
    rw [Ledger.post_nil]
    dsimp only
    split
    · rfl
    · rfl
    · split
      · rfl
      · split <;> rfl
  | setFlags | restore =>
    rw [Ledger.post_nil]
    dsimp only
    split <;> rfl
  | startClock | create | register | remaining | modify =>
    rw [Ledger.post_nil]
    dsimp only
    split
    · exact s.ledger_cleanup _
    · rfl
  | wait waitMs =>
    rw [Ledger.post_nil]
    dsimp only
    split
    · rfl
    · exact s.ledger_cleanup _
    · exact s.ledger_cleanup _
    · split
      · rfl
      · exact Echo.ledger_handle _
  | socketError =>
    rw [Ledger.post_nil]
    dsimp only
    split
    · exact s.ledger_cleanup _
    · exact s.ledger_handle
  | send =>
    rw [hpc] at hcall
    dsimp only
    cases hsend : a.send with
    | takes count =>
      have hamount := @transfer_le count s.transfer.pendingLength hcall
      have hlen : (slice s.transfer.buffer s.transfer.pendingOffset
          (transfer count s.transfer.pendingLength)).length = transfer count s.transfer.pendingLength := by
        apply length_slice
        rw [s.transfer.buffer_length]
        omega
      dsimp only
      rw [Echo.ledger_afterSend, Ledger.post, hlen]
      simp [Echo.ledger, Transfer.sent]
    | zero =>
      rw [Ledger.post_nil]
      exact s.ledger_cleanup _
    | failed errno =>
      rw [Ledger.post_nil]
      cases errno with
      | eagain | ewouldblock => exact Echo.ledger_afterSend _
      | eintr => exact s.ledger_pass
      | other => exact s.ledger_cleanup _
  | recv capacity =>
    dsimp only
    cases hrecv : a.recv with
    | takes count =>
      dsimp only
      rw [Echo.ledger_endPass_pass, Ledger.post]
      generalize recvData s.transfer.inbound capacity count = data
      unfold Echo.ledger Transfer.received
      split
      · simp
      · next hnone =>
        have hzero : data.length = 0 := by omega
        simp [hzero]
    | failed errno =>
      rw [Ledger.post_nil]
      cases errno with
      | eagain | ewouldblock => exact Echo.ledger_endPass_pass _
      | eintr => exact s.ledger_pass
      | other => exact s.ledger_cleanup _
  | returned status => rw [Ledger.post_nil]

/-- What is received is the next piece of the stream. -/
theorem receivedBy_eq (h : Carries stream expectedBytes s.transfer) (a : Answer) :
    receivedBy s a = slice stream s.transfer.totalRead (receivedBy s a).length := by
  unfold receivedBy
  split
  · next capacity count _ _ => exact (h.arrives capacity count).1
  · rfl

/-- The totals and the counters are those of the bytes received and sent so far. -/
structure Booked (stream received sent : Bytes) (s : Echo) : Prop where
  received : received = stream.take s.transfer.totalRead
  sent : sent = s.transfer.outbound
  bytesRead : s.stats.bytesRead = UInt64.ofNat s.transfer.totalRead
  bytesWritten : s.stats.bytesWritten = UInt64.ofNat s.transfer.totalWritten

/-- **Step lemma.** -/
theorem booked_step {received sent : Bytes} (h : Inv stream expectedBytes s) (hbooked : Booked stream received sent s)
    (a : Answer) : Booked stream (received ++ receivedBy s a) (sent ++ sentBy s a) (echoStep s a) := by
  have hpiece := receivedBy_eq h.carries a
  have hledger := echoStep_ledger h a
  unfold Echo.ledger Ledger.post at hledger
  obtain ⟨hread, hwritten, hout, hbytesRead, hbytesWritten⟩ := Ledger.mk.inj hledger
  refine ⟨?_, ?_, ?_, ?_⟩
  · rw [hread, List.take_add, ← hbooked.received]
    exact congrArg (received ++ ·) hpiece
  · rw [hout, hbooked.sent]
  · rw [hbytesRead, hread, hbooked.bytesRead, UInt64.ofNat_add]
  · rw [hbytesWritten, hwritten, hbooked.bytesWritten, UInt64.ofNat_add]

/-- **Run lemma.** -/
theorem booked_run (h : Inv stream expectedBytes s) (hbooked : Booked stream [] [] s) (answers : List Answer) :
    Inv stream expectedBytes (echoMachine.run s answers) ∧
      Booked stream (moved s answers).1 (moved s answers).2 (echoMachine.run s answers) := by
  have hstep : ∀ (seen : List (Bytes × Bytes)) s a,
      (Inv stream expectedBytes s ∧ Booked stream (seen.flatMap Prod.fst) (seen.flatMap Prod.snd) s) →
      Inv stream expectedBytes (echoStep s a) ∧
        Booked stream ((seen ++ [(receivedBy s a, sentBy s a)]).flatMap Prod.fst)
          ((seen ++ [(receivedBy s a, sentBy s a)]).flatMap Prod.snd) (echoStep s a) := by
    rintro seen s a ⟨hs, hseen⟩
    rw [List.flatMap_append, List.flatMap_append, List.flatMap_singleton, List.flatMap_singleton]
    exact ⟨inv_step hs a, booked_step hs hseen a⟩
  have hrun := watched.trace_invariant hstep ⟨h, hbooked⟩ answers
  rwa [watched_run] at hrun

end Step

theorem returned_run {s : Echo} {status : Status} (h : s.pc = .returned status) (answers : List Answer) :
    echoMachine.run s answers = s ∧ moved s answers = ([], []) := by
  induction answers with
  | nil => exact ⟨rfl, rfl⟩
  | cons a rest ih =>
    have hnext : echoStep s a = s := by
      unfold echoStep
      rw [h]
    have hmoved : moved s (a :: rest) =
        (receivedBy s a ++ (moved (echoStep s a) rest).1, sentBy s a ++ (moved (echoStep s a) rest).2) := rfl
    have hnone : receivedBy s a = [] ∧ sentBy s a = [] := by
      unfold receivedBy sentBy
      rw [h]
      exact ⟨rfl, rfl⟩
    rw [hmoved, hnone.1, hnone.2, hnext, ih.2]
    refine ⟨?_, rfl⟩
    show echoMachine.run (echoStep s a) rest = s
    rw [hnext]
    exact ih.1

/-! ## The buffer -/

/-- What holds at a call, with the bytes received and sent so far. -/
structure BufferLaw (stream received sent : Bytes) (expectedBytes : Nat) (s : Echo) : Prop where
  sent : sent = received.take s.transfer.totalWritten
  pending : slice s.transfer.buffer s.transfer.pendingOffset s.transfer.pendingLength =
    slice received s.transfer.totalWritten (s.transfer.totalRead - s.transfer.totalWritten)
  length_received : received.length = s.transfer.totalRead
  fits : s.transfer.pendingOffset + s.transfer.pendingLength ≤ 16384
  balance : s.transfer.totalWritten + s.transfer.pendingLength = s.transfer.totalRead
  limit : s.transfer.totalRead ≤ expectedBytes
  empty : s.transfer.pendingLength = 0 → s.transfer.pendingOffset = 0
  recv : ∀ capacity, s.pc = .recv capacity →
    1 ≤ capacity ∧ capacity ≤ 16384 - (s.transfer.pendingOffset + s.transfer.pendingLength)
  send : s.pc = .send → 1 ≤ s.transfer.pendingLength
  eof : s.transfer.eofSeen = true → received = stream
  bytesRead : s.stats.bytesRead.toNat = s.transfer.totalRead
  bytesWritten : s.stats.bytesWritten.toNat = s.transfer.totalWritten

theorem bufferLaw_of_inv {stream received sent : Bytes} {expectedBytes : UInt64} {s : Echo}
    (h : Inv stream expectedBytes.toNat s) (hbooked : Booked stream received sent s) :
    BufferLaw stream received sent expectedBytes.toNat s := by
  have hc := h.carries
  have hbalance := hc.balance
  have hlimit := hc.limit
  have hmax := expectedBytes.toNat_lt
  have hcall := h.call
  have hreceived := hbooked.received
  exact
    { sent := by
        rw [hbooked.sent, hc.outbound, hreceived, List.take_take, Nat.min_eq_left (by omega)]
      pending := by
        rw [hc.pending, hreceived, slice_take (by omega)]
        congr 1
        omega
      length_received := by
        rw [hreceived, List.length_take_of_le hc.arrived]
      fits := hc.fits
      balance := hbalance
      limit := hc.limit
      empty := hc.empty
      recv := fun capacity hpc => by
        rw [hpc] at hcall
        obtain ⟨hpos, hroom, -⟩ := hcall
        have hsize : bufferSize = 16384 := rfl
        omega
      send := fun hpc => by
        rw [hpc] at hcall
        exact hcall
      eof := fun heof => by
        rw [hreceived, (hc.eof heof).1, List.take_length]
      bytesRead := by
        rw [hbooked.bytesRead]
        exact UInt64.toNat_ofNat_of_lt' (Nat.lt_of_le_of_lt hlimit hmax)
      bytesWritten := by
        rw [hbooked.bytesWritten]
        exact UInt64.toNat_ofNat_of_lt' (Nat.lt_of_le_of_lt (by omega) hmax) }

/-- **The buffer never loses or overwrites a byte.** Whatever the readiness events and the outcomes of the calls, at
every call of every echo in either trigger mode: what has been sent is the front of what has been received, and the
pending bytes in the buffer are the rest of it; a `recv` is given some room and no more than is free behind the
pending bytes, and a `send` some bytes. The byte counters are the totals. -/
theorem echo_buffer (fd : Int) (trigger : Trigger) (expectedBytes : UInt64) (timeoutMs : Int)
    (buffer : Vector UInt8 bufferSize) (fdFlags : UInt32) (stream : Bytes) (answers : List Answer) :
    let entry := echo fd trigger expectedBytes.toNat timeoutMs buffer fdFlags stream
    BufferLaw stream (moved entry answers).1 (moved entry answers).2 expectedBytes.toNat
      (echoMachine.run entry answers) := by
  intro entry
  have hinv := inv_start trigger expectedBytes.toNat timeoutMs buffer fdFlags stream
  have hbooked : Booked stream [] [] (Echo.start trigger expectedBytes.toNat timeoutMs buffer fdFlags stream) :=
    ⟨rfl, rfl, rfl, rfl⟩
  by_cases hvalid : fd < 0 ∨ timeoutMs < 0
  · have hentry : entry = { Echo.start trigger expectedBytes.toNat timeoutMs buffer fdFlags stream with
        pc := .returned .invalidArgument } := if_pos hvalid
    have hreturned : entry.pc = .returned .invalidArgument := by rw [hentry]
    obtain ⟨hrun, hmoved⟩ := returned_run hreturned answers
    rw [hmoved, hrun, hentry]
    exact { bufferLaw_of_inv hinv hbooked with
      recv := fun capacity hpc => Pc.noConfusion hpc
      send := fun hpc => Pc.noConfusion hpc }
  · have hentry : entry = Echo.start trigger expectedBytes.toNat timeoutMs buffer fdFlags stream := if_neg hvalid
    rw [hentry]
    obtain ⟨hinv', hbooked'⟩ := booked_run hinv hbooked answers
    exact bufferLaw_of_inv hinv' hbooked'

/-- The same as `steady`, with two bytes for a `recv`. -/
def paired : Answer := { steady with recv := .takes 2 }

theorem echo_buffer_three :
    let entry := echo 3 .level 3 1000 (.replicate bufferSize 0) 2 [97, 98, 99]
    let s := echoMachine.run entry (List.replicate 12 paired)
    moved entry (List.replicate 12 paired) = ([97, 98], [97]) ∧ s.pc = .recv 1 ∧
      BufferLaw [97, 98, 99] [97, 98] [97] 3 s := by
  intro entry s
  have hmoved : moved entry (List.replicate 12 paired) = ([97, 98], [97]) := by decide +kernel
  have hlaw : BufferLaw [97, 98, 99] (moved entry (List.replicate 12 paired)).1
      (moved entry (List.replicate 12 paired)).2 3 s :=
    echo_buffer 3 .level 3 1000 (.replicate bufferSize 0) 2 [97, 98, 99] (List.replicate 12 paired)
  rw [hmoved] at hlaw
  exact ⟨hmoved, by decide +kernel, hlaw⟩

end TcpipCourse.LinuxL01
