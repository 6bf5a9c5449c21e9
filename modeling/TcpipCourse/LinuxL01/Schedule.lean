import TcpipCourse.LinuxL01.Echo

/-!
# Linux lab 01: the echo does not depend on the schedule

* `Carries` : the stream is what has been sent back, what is pending in the buffer and what is still to come;
* `Transfer.sent`, `Transfer.compact`, `Transfer.received` keep it (`Carries.sent`, `Carries.compact`,
  `Carries.received`);
* `Echoed` : how an echo of a stream ends;
* `Inv`, `inv_step`, `inv_run` : the invariant of the loop, at every call of every run;
* `echo_schedule_independent` : the end is that of the stream, in both trigger modes and under every schedule.
-/

namespace TcpipCourse.LinuxL01
open Lib

/-! ## The buffer -/

/-- The stream, split at `totalWritten` and `totalRead`. -/
structure Carries (stream : Bytes) (expectedBytes : Nat) (t : Transfer) : Prop where
  inbound : t.inbound = stream.drop t.totalRead
  outbound : t.outbound = stream.take t.totalWritten
  pending : slice t.buffer t.pendingOffset t.pendingLength = slice stream t.totalWritten t.pendingLength
  balance : t.totalWritten + t.pendingLength = t.totalRead
  arrived : t.totalRead ≤ stream.length
  limit : t.totalRead ≤ expectedBytes
  fits : t.pendingOffset + t.pendingLength ≤ bufferSize
  empty : t.pendingLength = 0 → t.pendingOffset = 0
  eof : t.eofSeen = true → t.totalRead = stream.length ∧ t.totalRead < expectedBytes

section Buffer
variable {stream : Bytes} {expectedBytes : Nat} {t : Transfer}

theorem Carries.sent (h : Carries stream expectedBytes t) {amount : Nat} (hle : amount ≤ t.pendingLength) :
    Carries stream expectedBytes (t.sent amount) := by
  have hbalance := h.balance
  have harrived := h.arrived
  have hfits := h.fits
  have hfront : slice t.buffer t.pendingOffset amount = slice stream t.totalWritten amount := by
    rw [← take_slice t.buffer hle, h.pending, take_slice stream hle]
  exact
    { inbound := h.inbound
      outbound := by
        show t.outbound ++ slice t.buffer t.pendingOffset amount = stream.take (t.totalWritten + amount)
        rw [h.outbound, hfront, List.take_add, slice]
      pending := by
        show slice t.buffer (if t.pendingLength - amount = 0 then 0 else t.pendingOffset + amount)
          (t.pendingLength - amount) = slice stream (t.totalWritten + amount) (t.pendingLength - amount)
        split
        · next hzero => rw [hzero, slice, slice, List.take_zero, List.take_zero]
        · rw [← drop_slice, h.pending, drop_slice]
      balance := by
        show t.totalWritten + amount + (t.pendingLength - amount) = t.totalRead
        omega
      arrived := harrived
      limit := h.limit
      fits := by
        show (if t.pendingLength - amount = 0 then 0 else t.pendingOffset + amount) + (t.pendingLength - amount) ≤
          bufferSize
        split <;> omega
      empty := fun hzero => if_pos hzero
      eof := h.eof }

theorem Carries.compact (h : Carries stream expectedBytes t) : Carries stream expectedBytes t.compact := by
  unfold Transfer.compact
  split
  · have hfits := h.fits
    have hlen : (slice t.buffer t.pendingOffset t.pendingLength).length = t.pendingLength :=
      length_slice (by rw [t.buffer_length]; exact hfits)
    exact
      { h with
        pending := by
          have hback : slice (overwrite t.buffer 0 (slice t.buffer t.pendingOffset t.pendingLength)) 0
              (slice t.buffer t.pendingOffset t.pendingLength).length = _ :=
            slice_overwrite (by rw [hlen, t.buffer_length]; omega)
          rw [hlen] at hback
          exact hback.trans h.pending
        fits := by
          show 0 + t.pendingLength ≤ bufferSize
          omega
        empty := fun _ => rfl }
  · exact h

/-- There is room behind the pending bytes once they have been compacted. -/
theorem Carries.room (h : Carries stream expectedBytes t) (hroom : t.pendingLength < bufferSize) :
    t.compact.pendingOffset + t.compact.pendingLength < bufferSize := by
  have hfits := h.fits
  unfold Transfer.compact
  split
  · show 0 + t.pendingLength < bufferSize
    omega
  · omega

/-- A `recv` asks for a byte at least, and for no more than there is room and need for. -/
theorem capacity_spec (hroom : t.pendingOffset + t.pendingLength < bufferSize) (hmore : t.totalRead < expectedBytes) :
    1 ≤ t.capacity expectedBytes ∧
      t.pendingOffset + t.pendingLength + t.capacity expectedBytes ≤ bufferSize ∧
      t.totalRead + t.capacity expectedBytes ≤ expectedBytes := by
  unfold Transfer.capacity
  dsimp only
  split <;> omega

theorem recvData_eq (inbound : Bytes) (capacity count : Nat) :
    recvData inbound capacity count = inbound.take (recvData inbound capacity count).length := by
  rw [recvData, TcpipCourse.received, List.take_take, List.length_take, List.take_eq_take_iff]
  omega

theorem eq_nil_of_recvData {inbound : Bytes} {capacity count : Nat} (hpos : 1 ≤ capacity)
    (h : (recvData inbound capacity count).length = 0) : inbound = [] := by
  by_contra hne
  obtain ⟨hlen, hle⟩ := @length_received inbound capacity count hne hpos
  rw [recvData, List.length_take] at h
  omega

/-- What a `recv` stores is the next piece of the stream. -/
theorem Carries.arrives (h : Carries stream expectedBytes t) (capacity count : Nat) :
    recvData t.inbound capacity count = slice stream t.totalRead (recvData t.inbound capacity count).length ∧
      t.totalRead + (recvData t.inbound capacity count).length ≤ stream.length := by
  have harrived := h.arrived
  have hfront := recvData_eq t.inbound capacity count
  have hlen := congrArg List.length hfront
  rw [List.length_take, h.inbound, List.length_drop] at hlen
  refine ⟨?_, by rw [h.inbound]; omega⟩
  rw [slice, ← h.inbound]
  exact hfront

theorem Carries.received (h : Carries stream expectedBytes t) {capacity : Nat} (hpos : 1 ≤ capacity)
    (hbuffer : t.pendingOffset + t.pendingLength + capacity ≤ bufferSize)
    (hlimit : t.totalRead + capacity ≤ expectedBytes) (count : Nat) :
    Carries stream expectedBytes (t.received (recvData t.inbound capacity count)) := by
  have hbalance := h.balance
  have harrived := h.arrived
  have hle : (recvData t.inbound capacity count).length ≤ capacity := List.length_take_le _ _
  have hnil := @eq_nil_of_recvData t.inbound capacity count hpos
  obtain ⟨hdata, hmax⟩ := h.arrives capacity count
  unfold Transfer.received
  split
  · next hsome =>
    generalize recvData t.inbound capacity count = data at hle hmax hdata hsome ⊢
    have hstore : t.pendingOffset + t.pendingLength + data.length ≤ t.buffer.length := by
      rw [t.buffer_length]
      omega
    exact
      { inbound := by
          show t.inbound.drop data.length = stream.drop (t.totalRead + data.length)
          rw [h.inbound, List.drop_drop]
        outbound := h.outbound
        pending := by
          show slice (overwrite t.buffer (t.pendingOffset + t.pendingLength) data) t.pendingOffset
            (t.pendingLength + data.length) = slice stream t.totalWritten (t.pendingLength + data.length)
          rw [slice_add, slice_add, slice_overwrite hstore, slice_overwrite_before hstore (Nat.le_refl _),
            h.pending, hbalance, ← hdata]
        balance := by
          show t.totalWritten + (t.pendingLength + data.length) = t.totalRead + data.length
          omega
        arrived := by
          show t.totalRead + data.length ≤ stream.length
          omega
        limit := by
          show t.totalRead + data.length ≤ expectedBytes
          omega
        fits := by
          show t.pendingOffset + (t.pendingLength + data.length) ≤ bufferSize
          omega
        empty := fun hzero => h.empty (Nat.eq_zero_of_add_eq_zero_right hzero)
        eof := fun heof => by
          obtain ⟨hall, -⟩ := h.eof heof
          omega }
  · next hzero =>
    refine { h with eof := fun _ => ?_ }
    have hend := hnil (by omega)
    rw [h.inbound, List.drop_eq_nil_iff] at hend
    show t.totalRead = stream.length ∧ t.totalRead < expectedBytes
    omega

end Buffer

/-! ## How an echo ends -/

/-- The status and the bytes sent back that belong to a stream. -/
def Echoed (stream : Bytes) (expectedBytes : Nat) (status : Status) (out : Bytes) : Prop :=
  (expectedBytes ≤ stream.length ∧ status = .ok ∧ out = stream.take expectedBytes) ∨
  (stream = [] ∧ status = .eof ∧ out = []) ∨
  (stream ≠ [] ∧ stream.length < expectedBytes ∧ status = .truncated ∧ out = stream)

/-- A call that is given up, or an echo of the stream. -/
def Ended (stream : Bytes) (expectedBytes : Nat) (t : Transfer) (status : Status) : Prop :=
  status = .timeout ∨ status = .system ∨ Echoed stream expectedBytes status t.outbound

section Ends
variable {stream : Bytes} {expectedBytes : Nat} {t : Transfer}

theorem Carries.ended_ok (h : Carries stream expectedBytes t) (hall : t.totalWritten = expectedBytes) :
    Ended stream expectedBytes t .ok := by
  have hbalance := h.balance
  have harrived := h.arrived
  refine .inr (.inr (.inl ⟨by omega, rfl, ?_⟩))
  rw [h.outbound, hall]

theorem Carries.ended_eof (h : Carries stream expectedBytes t) (heof : t.eofSeen = true)
    (hnone : t.pendingLength = 0) :
    Ended stream expectedBytes t (if t.totalRead = 0 then .eof else .truncated) := by
  have hbalance := h.balance
  obtain ⟨hall, hshort⟩ := h.eof heof
  have hout : t.outbound = stream := by
    rw [h.outbound, show t.totalWritten = stream.length by omega, List.take_length]
  split
  · next hzero =>
    have hnil : stream = [] := List.eq_nil_of_length_eq_zero (by omega)
    exact .inr (.inr (.inr (.inl ⟨hnil, rfl, hout.trans hnil⟩)))
  · next hsome =>
    refine .inr (.inr (.inr (.inr ⟨?_, by omega, rfl, hout⟩)))
    rintro rfl
    exact hsome hall

end Ends

/-! ## The loop -/

def AtCall (stream : Bytes) (expectedBytes : Nat) (t : Transfer) (status : Status) : Pc → Prop
  | .send => 1 ≤ t.pendingLength
  | .recv capacity => 1 ≤ capacity ∧ t.pendingOffset + t.pendingLength + capacity ≤ bufferSize ∧
      t.totalRead + capacity ≤ expectedBytes
  | .restore => Ended stream expectedBytes t status
  | .returned status => Ended stream expectedBytes t status
  | _ => True

/-- The invariant of a run. -/
structure Inv (stream : Bytes) (expectedBytes : Nat) (s : Echo) : Prop where
  expected : s.expectedBytes = expectedBytes
  carries : Carries stream expectedBytes s.transfer
  call : AtCall stream expectedBytes s.transfer s.status s.pc

section Loop
variable {stream : Bytes} {expectedBytes : Nat} {s : Echo}

theorem inv_cleanup (hexp : s.expectedBytes = expectedBytes) (h : Carries stream expectedBytes s.transfer)
    {status : Status} (hend : Ended stream expectedBytes s.transfer status) :
    Inv stream expectedBytes (s.cleanup status) := by
  unfold Echo.cleanup
  split <;> exact ⟨hexp, h, hend⟩

/-- A call that fails otherwise than by `EINTR` and `EAGAIN` is given up. -/
theorem inv_fail (hexp : s.expectedBytes = expectedBytes) (h : Carries stream expectedBytes s.transfer) :
    Inv stream expectedBytes (s.cleanup .system) := inv_cleanup hexp h (.inr (.inl rfl))

theorem inv_callSend (hexp : s.expectedBytes = expectedBytes) (h : Carries stream expectedBytes s.transfer)
    (hsend : s.wantsSend = true) : Inv stream expectedBytes s.callSend := by
  rw [Echo.wantsSend, Bool.and_eq_true, decide_eq_true_eq] at hsend
  exact ⟨hexp, h, Nat.pos_of_ne_zero hsend.1⟩

theorem inv_callRecv (hexp : s.expectedBytes = expectedBytes) (h : Carries stream expectedBytes s.transfer)
    (hrecv : s.wantsRecv = true) : Inv stream expectedBytes s.callRecv := by
  simp only [Echo.wantsRecv, Bool.and_eq_true, decide_eq_true_eq] at hrecv
  obtain ⟨⟨⟨-, hmore⟩, -⟩, hroom⟩ := hrecv
  have hfree := h.room hroom
  have hread : s.transfer.compact.totalRead = s.transfer.totalRead := by
    unfold Transfer.compact
    split <;> rfl
  rw [← hread, hexp] at hmore
  refine ⟨hexp, h.compact, ?_⟩
  show AtCall stream expectedBytes s.transfer.compact s.status (.recv (s.transfer.compact.capacity s.expectedBytes))
  rw [hexp]
  exact capacity_spec hfree hmore

theorem inv_endPass (hexp : s.expectedBytes = expectedBytes) (h : Carries stream expectedBytes s.transfer)
    {again : Echo → Echo}
    (hagain : ∀ s' : Echo, s'.progressed = s.progressed → s'.progressed = true → s'.expectedBytes = expectedBytes →
      Carries stream expectedBytes s'.transfer → Inv stream expectedBytes (again s')) :
    Inv stream expectedBytes (s.endPass again) := by
  obtain ⟨_, ⟨n, rfl⟩, ⟨hall, hend⟩ | ⟨heof, hnone, hend⟩ | ⟨-, -, -, hend⟩ | ⟨hgo, hend⟩⟩ := s.endPass_cases again
  · rw [hend]
    apply inv_cleanup
    · exact hexp
    · exact h
    · exact h.ended_ok (hall.trans hexp)
  · rw [hend]
    apply inv_cleanup
    · exact hexp
    · exact h
    · exact h.ended_eof heof hnone
  · rw [hend]
    exact ⟨hexp, h, trivial⟩
  · rw [hend]
    exact hagain _ rfl hgo hexp h

theorem inv_pass (hexp : s.expectedBytes = expectedBytes) (h : Carries stream expectedBytes s.transfer) :
    Inv stream expectedBytes s.pass := by
  unfold Echo.pass
  dsimp only
  split
  · next hsend => exact inv_callSend hexp h hsend
  · split
    · next hrecv => exact inv_callRecv hexp h hrecv
    · refine @inv_endPass _ _ { s with progressed := false } hexp h id fun s' hidle hgo => ?_
      rw [hidle] at hgo
      cases hgo

theorem inv_endPass_pass (hexp : s.expectedBytes = expectedBytes) (h : Carries stream expectedBytes s.transfer) :
    Inv stream expectedBytes (s.endPass Echo.pass) :=
  inv_endPass hexp h fun _ _ _ => inv_pass

theorem inv_afterSend (hexp : s.expectedBytes = expectedBytes) (h : Carries stream expectedBytes s.transfer) :
    Inv stream expectedBytes s.afterSend := by
  unfold Echo.afterSend
  split
  · next hrecv => exact inv_callRecv hexp h hrecv
  · exact inv_endPass_pass hexp h

theorem inv_handle (hexp : s.expectedBytes = expectedBytes) (h : Carries stream expectedBytes s.transfer) :
    Inv stream expectedBytes s.handle := by
  unfold Echo.handle
  exact inv_pass hexp h

/-- **Step lemma.** Every call keeps the invariant, whatever the kernel answers. -/
theorem inv_step (h : Inv stream expectedBytes s) (a : Answer) : Inv stream expectedBytes (echoStep s a) := by
  have hexp := h.expected
  have hc := h.carries
  have hcall := h.call
  unfold echoStep
  cases hpc : s.pc with
  | getFlags =>
    dsimp only
    split
    · exact h
    · exact ⟨hexp, hc, .inr (.inl rfl)⟩
    · split
      · next hzero =>
        have hbalance := hc.balance
        have hlimit := hc.limit
        have hnone : expectedBytes = 0 := hexp.symm.trans hzero
        exact ⟨hexp, hc, hc.ended_ok (by omega)⟩
      · split <;> exact ⟨hexp, hc, trivial⟩
  | setFlags =>
    dsimp only
    split
    · exact h
    · exact ⟨hexp, hc, .inr (.inl rfl)⟩
    · exact ⟨hexp, hc, trivial⟩
  | startClock | create | register | remaining | modify =>
    dsimp only
    split
    · exact inv_fail hexp hc
    · exact ⟨hexp, hc, trivial⟩
  | wait waitMs =>
    dsimp only
    split
    · exact ⟨hexp, hc, trivial⟩
    · exact inv_fail hexp hc
    · exact inv_cleanup hexp hc (.inl rfl)
    · split
      · exact ⟨hexp, hc, trivial⟩
      · exact inv_handle hexp hc
  | socketError =>
    dsimp only
    split
    · exact inv_fail hexp hc
    · exact inv_handle hexp hc
  | send =>
    rw [hpc] at hcall
    dsimp only
    split
    · exact inv_afterSend hexp (hc.sent (transfer_le hcall))
    · exact inv_afterSend hexp hc
    · exact inv_afterSend hexp hc
    · exact inv_pass hexp hc
    · exact inv_fail hexp hc
    · exact inv_fail hexp hc
  | recv capacity =>
    rw [hpc] at hcall
    obtain ⟨hpos, hroom, hlimit⟩ := hcall
    dsimp only
    split
    · exact inv_endPass_pass hexp (hc.received hpos hroom hlimit _)
    · exact inv_endPass_pass hexp hc
    · exact inv_endPass_pass hexp hc
    · exact inv_pass hexp hc
    · exact inv_fail hexp hc
  | restore =>
    rw [hpc] at hcall
    dsimp only
    split
    · exact h
    · exact ⟨hexp, hc, .inr (.inl rfl)⟩
    · exact ⟨hexp, hc, hcall⟩
  | returned status => exact h

/-- **Run lemma.** -/
theorem inv_run (h : Inv stream expectedBytes s) (answers : List Answer) :
    Inv stream expectedBytes (echoMachine.run s answers) := by
  have hstep : ∀ s a, Inv stream expectedBytes s → Inv stream expectedBytes (echoMachine.next s a) :=
    fun _ a hs => inv_step hs a
  exact echoMachine.run_invariant hstep h answers

end Loop

theorem inv_start (trigger : Trigger) (expectedBytes : Nat) (timeoutMs : Int) (buffer : Vector UInt8 bufferSize)
    (fdFlags : UInt32) (stream : Bytes) :
    Inv stream expectedBytes (Echo.start trigger expectedBytes timeoutMs buffer fdFlags stream) where
  expected := rfl
  carries :=
    { inbound := rfl
      outbound := rfl
      pending := rfl
      balance := rfl
      arrived := Nat.zero_le _
      limit := Nat.zero_le _
      fits := Nat.zero_le _
      empty := fun _ => rfl
      eof := fun heof => by cases heof }
  call := trivial

theorem Echoed.unique {stream : Bytes} {expectedBytes : Nat} (hexp : 1 ≤ expectedBytes) {status status' : Status}
    {out out' : Bytes} (h : Echoed stream expectedBytes status out) (h' : Echoed stream expectedBytes status' out') :
    status' = status ∧ out' = out := by
  have hlen : stream = [] → stream.length = 0 := fun hnil => by rw [hnil]; rfl
  rcases h with ⟨hle, rfl, rfl⟩ | ⟨hnil, rfl, rfl⟩ | ⟨hne, hlt, rfl, rfl⟩
  · rcases h' with ⟨-, rfl, rfl⟩ | ⟨hnil, -, -⟩ | ⟨-, hlt, -, -⟩
    · exact ⟨rfl, rfl⟩
    · have := hlen hnil
      omega
    · omega
  · rcases h' with ⟨hle, -, -⟩ | ⟨-, rfl, rfl⟩ | ⟨hne, -, -, -⟩
    · have := hlen hnil
      omega
    · exact ⟨rfl, rfl⟩
    · exact absurd hnil hne
  · rcases h' with ⟨hle, -, -⟩ | ⟨hnil, -, -⟩ | ⟨-, -, rfl, rfl⟩
    · omega
    · exact absurd hnil hne
    · exact ⟨rfl, rfl⟩

/-- A call with valid arguments on a stream returns a status other than `TIMEOUT` and `SYSTEM`, with `out` sent
back, under some schedule of readiness events and of outcomes of the calls. -/
def Returns (trigger : Trigger) (expectedBytes : Nat) (stream : Bytes) (status : Status) (out : Bytes) : Prop :=
  ∃ fd timeoutMs buffer fdFlags answers, 0 ≤ fd ∧ 0 ≤ timeoutMs ∧
    let s := echoMachine.run (echo fd trigger expectedBytes timeoutMs buffer fdFlags stream) answers
    s.pc = .returned status ∧ status ≠ .timeout ∧ status ≠ .system ∧ s.transfer.outbound = out

/-- **The echo does not depend on the schedule.** Whatever the readiness events and the outcomes of the calls, an
echo that ends without `TIMEOUT` or `SYSTEM` ends as its stream says: `OK` with the first `expectedBytes` bytes
sent back, `EOF` with nothing, or `TRUNCATED` with the whole of a shorter stream. So any two of them, in either
trigger mode, agree on the status and on the bytes sent back. -/
theorem echo_schedule_independent {expectedBytes : Nat} (hexp : 1 ≤ expectedBytes) (stream : Bytes) :
    (∀ trigger status out, Returns trigger expectedBytes stream status out →
      (expectedBytes ≤ stream.length ∧ status = .ok ∧ out = stream.take expectedBytes) ∨
      (stream = [] ∧ status = .eof ∧ out = []) ∨
      (stream ≠ [] ∧ stream.length < expectedBytes ∧ status = .truncated ∧ out = stream)) ∧
    ∀ trigger trigger' status status' out out', Returns trigger expectedBytes stream status out →
      Returns trigger' expectedBytes stream status' out' → status' = status ∧ out' = out := by
  have hends : ∀ trigger status out, Returns trigger expectedBytes stream status out →
      Echoed stream expectedBytes status out := by
    rintro trigger status out ⟨fd, timeoutMs, buffer, fdFlags, answers, hfd, htimeout, hpc, ht, hs, rfl⟩
    have hvalid : ¬ (fd < 0 ∨ timeoutMs < 0) := by omega
    rw [echo, if_neg hvalid] at hpc ⊢
    have hcall := (inv_run (inv_start trigger expectedBytes timeoutMs buffer fdFlags stream) answers).call
    rw [hpc] at hcall
    exact (hcall.resolve_left ht).resolve_left hs
  refine ⟨hends, ?_⟩
  intro trigger trigger' status status' out out' h h'
  exact (hends _ _ _ h).unique hexp (hends _ _ _ h')

/-- Every call succeeds and moves one byte. -/
def steady : Answer := ⟨none, some ⟨0, 0⟩, none, fun _ => .ready false, false, .takes 1, .takes 1⟩

/-- The same, with every `send` refused and every `recv` interrupted. -/
def stalled : Answer := ⟨none, some ⟨0, 0⟩, none, fun _ => .ready false, false, .failed .eagain, .failed .eintr⟩

/-- Two of three bytes, edge-triggered without and level-triggered with stalls: both runs echo them. -/
theorem echo_schedule_independent_two :
    let edge := echoMachine.run (echo 3 .edge 2 1000 (.replicate bufferSize 0) 2 [97, 98, 99])
      (List.replicate 16 steady)
    let level := echoMachine.run (echo 4 .level 2 1000 (.replicate bufferSize 0) 2050 [97, 98, 99])
      (List.replicate 9 stalled ++ List.replicate 16 steady)
    (edge.pc = .returned .ok ∧ edge.transfer.outbound = [97, 98]) ∧
      (level.pc = .returned .ok ∧ level.transfer.outbound = [97, 98]) := by
  intro edge level
  have hedgeOk : edge.pc = .returned .ok := by decide +kernel
  have hlevelOk : level.pc = .returned .ok := by decide +kernel
  have hedge : Returns .edge 2 [97, 98, 99] .ok edge.transfer.outbound :=
    ⟨3, 1000, .replicate bufferSize 0, 2, List.replicate 16 steady, by decide, by decide, hedgeOk, by decide,
      by decide, rfl⟩
  have hlevel : Returns .level 2 [97, 98, 99] .ok level.transfer.outbound :=
    ⟨4, 1000, .replicate bufferSize 0, 2050, List.replicate 9 stalled ++ List.replicate 16 steady, by decide,
      by decide, hlevelOk, by decide, by decide, rfl⟩
  obtain ⟨hends, hagree⟩ := @echo_schedule_independent 2 (by decide) [97, 98, 99]
  have hout : edge.transfer.outbound = [97, 98] := by
    rcases hends _ _ _ hedge with ⟨-, -, htake⟩ | ⟨hnil, -⟩ | ⟨-, hlt, -⟩
    · exact htake
    · cases hnil
    · exact absurd hlt (by decide)
  exact ⟨⟨hedgeOk, hout⟩, hlevelOk, (hagree _ _ _ _ _ _ hedge hlevel).2.trans hout⟩

end TcpipCourse.LinuxL01
