import TcpipCourse.LinuxL01.Buffer
import TcpipCourse.LinuxL01.Wakeup

/-!
# Linux lab 01: the echo returns

* `Moves`, `Stalls` : the pending call does what it is for, or is put off by `EINTR` or `EAGAIN`;
* `Echo.left`, `Echo.rank` : what is left to do;
* `SameWork` : the code between two calls leaves it as it is, and is soon at a call again;
* `handle_rank` : an event leads to a call, or to the end;
* `going_move`, `going_stall` : one answer; `echo_returns` : the main result.
-/

namespace TcpipCourse.LinuxL01
open Lib

/-! ## Answers -/

/-- The pending call succeeds: the clock is normal, and no wait ends without an event. -/
def Moves (s : Echo) (a : Answer) : Prop :=
  match s.pc with
  | .getFlags | .setFlags | .restore => a.fcntl = none
  | .startClock | .remaining => ∃ now, a.clock = some now ∧ now.Normal
  | .create | .register | .modify => a.epoll = none
  | .wait waitMs => ∃ err, a.wait waitMs = .ready err
  | .socketError => a.socketError = false
  | .send => ∃ count, a.send = .takes count
  | .recv _ => ∃ count, a.recv = .takes count
  | .returned _ => True

/-- The pending call is interrupted, or has to wait. -/
def Stalls (s : Echo) (a : Answer) : Prop :=
  match s.pc with
  | .getFlags | .setFlags | .restore => a.fcntl = some .eintr
  | .wait waitMs => a.wait waitMs = .failed .eintr
  | .send => ∃ errno, errno.isTransient = true ∧ a.send = .failed errno
  | .recv _ => ∃ errno, errno.isTransient = true ∧ a.recv = .failed errno
  | _ => False

/-! ## Time -/

theorem deadline_normal {now : Timespec} {timeoutMs : Int} (hnow : now.Normal) (htimeout : 0 ≤ timeoutMs) :
    (deadline now timeoutMs).Normal := by
  obtain ⟨h0, h1⟩ := hnow
  unfold nsPerS at h1
  unfold deadline nsPerS nsPerMs
  rw [Int.tmod_eq_emod_of_nonneg htimeout]
  dsimp only
  split
  · refine ⟨?_, ?_⟩ <;> dsimp only [nsPerS] <;> omega
  · refine ⟨?_, ?_⟩ <;> dsimp only [nsPerS] <;> omega

theorem early_of_compareTime {now deadline : Timespec} (h : ¬ compareTime now deadline ≥ 0) :
    now.tvSec < deadline.tvSec ∨ (now.tvSec = deadline.tvSec ∧ now.tvNsec < deadline.tvNsec) := by
  unfold compareTime at h
  split at h
  · split at h <;> omega
  · split at h
    · split at h <;> omega
    · omega

theorem remainingMs_nonneg {deadline now : Timespec} (hdeadline : deadline.Normal) (hnow : now.Normal) :
    0 ≤ remainingMs deadline (some now) := by
  obtain ⟨hd0, -⟩ := hdeadline
  obtain ⟨-, hn1⟩ := hnow
  have hmax : intMax = 2147483647 := rfl
  have hs : nsPerS = 1000000000 := rfl
  unfold remainingMs
  dsimp only
  by_cases hlate : compareTime now deadline ≥ 0
  · rw [if_pos hlate]
  · have hearly := early_of_compareTime hlate
    have hseconds : 0 ≤ if deadline.tvNsec - now.tvNsec < 0 then deadline.tvSec - now.tvSec - 1
        else deadline.tvSec - now.tvSec := by
      split <;> omega
    have hnanoseconds : 0 ≤ if deadline.tvNsec - now.tvNsec < 0 then deadline.tvNsec - now.tvNsec + nsPerS
        else deadline.tvNsec - now.tvNsec := by
      split <;> omega
    rw [if_neg hlate]
    generalize (if deadline.tvNsec - now.tvNsec < 0 then deadline.tvSec - now.tvSec - 1
      else deadline.tvSec - now.tvSec) = seconds at hseconds ⊢
    generalize (if deadline.tvNsec - now.tvNsec < 0 then deadline.tvNsec - now.tvNsec + nsPerS
      else deadline.tvNsec - now.tvNsec) = nanoseconds at hnanoseconds ⊢
    have hround : 0 ≤ (nanoseconds + 999999).tdiv 1000000 := Int.tdiv_nonneg (by omega) (by decide)
    split
    · omega
    · split <;> omega

/-! ## What is left -/

/-- The bytes to send and to receive, and the end of the stream. -/
def Echo.left (s : Echo) : Nat :=
  (s.expectedBytes - s.transfer.totalWritten) + (s.expectedBytes - s.transfer.totalRead) +
    (if s.transfer.eofSeen then 0 else 1)

/-- How far a call is from the next transfer, along one turn of the loop. -/
def Pc.rank : Pc → Nat
  | .returned _ => 0
  | .restore => 1
  | .send | .recv _ => 2
  | .socketError => 3
  | .wait _ => 4
  | .remaining => 5
  | .modify => 6
  | .register => 7
  | .create => 8
  | .startClock => 9
  | .setFlags => 10
  | .getFlags => 11

def Echo.rank (s : Echo) : Nat := 5 * s.left + s.pc.rank

def Decided (status : Status) : Prop := status ≠ .timeout ∧ status ≠ .system

def GoingAt (s : Echo) : Pc → Prop
  | .recv _ => s.transfer.eofSeen = false
  | .restore => Decided s.status
  | .returned status => Decided status
  | _ => True

/-- The invariant of a run without failures. -/
structure Going (stream : Bytes) (expectedBytes : Nat) (s : Echo) : Prop where
  inv : Inv stream expectedBytes s
  timeout : 0 ≤ s.timeoutMs
  deadline : s.deadline.Normal
  call : GoingAt s s.pc

/-- The code between two calls: what is left stays, and the next call is one of the loop. -/
structure SameWork (s s' : Echo) : Prop where
  left : s'.left = s.left
  timeout : s'.timeoutMs = s.timeoutMs
  deadline : s'.deadline = s.deadline
  rank : s'.pc.rank ≤ 6
  call : GoingAt s' s'.pc

section Work
variable (s : Echo)

theorem sameWork_cleanup {status : Status} (h : Decided status) : SameWork s (s.cleanup status) := by
  unfold Echo.cleanup
  split
  · exact ⟨rfl, rfl, rfl, Nat.le_of_ble_eq_true rfl, h⟩
  · exact ⟨rfl, rfl, rfl, Nat.le_of_ble_eq_true rfl, h⟩

theorem sameWork_callSend : SameWork s s.callSend := ⟨rfl, rfl, rfl, Nat.le_of_ble_eq_true rfl, trivial⟩

theorem sameWork_callRecv (h : s.wantsRecv = true) : SameWork s s.callRecv := by
  have hcompact : s.transfer.compact.totalRead = s.transfer.totalRead ∧
      s.transfer.compact.totalWritten = s.transfer.totalWritten ∧
      s.transfer.compact.eofSeen = s.transfer.eofSeen := by
    unfold Transfer.compact
    split <;> exact ⟨rfl, rfl, rfl⟩
  obtain ⟨hread, hwritten, heof⟩ := hcompact
  simp only [Echo.wantsRecv, Bool.and_eq_true, Bool.not_eq_true'] at h
  refine ⟨?_, rfl, rfl, Nat.le_of_ble_eq_true rfl, heof.trans h.1.1.1⟩
  unfold Echo.left Echo.callRecv
  dsimp only
  rw [hread, hwritten, heof]

theorem sameWork_endPass {again : Echo → Echo}
    (hagain : ∀ s' : Echo, s'.progressed = s.progressed → s'.progressed = true → SameWork s' (again s')) :
    SameWork s (s.endPass again) := by
  obtain ⟨_, ⟨n, rfl⟩, ⟨-, hend⟩ | ⟨-, -, hend⟩ | ⟨-, -, -, hend⟩ | ⟨hgo, hend⟩⟩ := s.endPass_cases again
  · rw [hend]
    exact { sameWork_cleanup _ ⟨by decide, by decide⟩ with }
  · rw [hend]
    have hdecided : Decided (if s.transfer.totalRead = 0 then .eof else .truncated) := by
      split <;> exact ⟨by decide, by decide⟩
    exact { sameWork_cleanup _ hdecided with }
  · rw [hend]
    exact ⟨rfl, rfl, rfl, Nat.le_refl _, trivial⟩
  · rw [hend]
    have hnext := hagain { s with stats := { s.stats with drainPasses := n } } rfl hgo
    exact { hnext with }

theorem sameWork_pass : SameWork s s.pass := by
  unfold Echo.pass
  dsimp only
  split
  · exact { sameWork_callSend s with }
  · split
    · next hrecv => exact { sameWork_callRecv { s with progressed := false } hrecv with }
    · have hend : SameWork { s with progressed := false } (({ s with progressed := false } : Echo).endPass id) := by
        refine sameWork_endPass _ fun s' hidle hgo => ?_
        rw [hidle] at hgo
        cases hgo
      exact { hend with }

theorem sameWork_endPass_pass : SameWork s (s.endPass Echo.pass) :=
  sameWork_endPass s fun s' _ _ => sameWork_pass s'

theorem sameWork_afterSend : SameWork s s.afterSend := by
  unfold Echo.afterSend
  split
  · next hrecv => exact sameWork_callRecv s hrecv
  · exact sameWork_endPass_pass s

theorem sameWork_handle : SameWork s s.handle := by
  unfold Echo.handle
  exact { sameWork_pass _ with }

end Work

section Loop
variable {stream : Bytes} {expectedBytes : Nat} {s : Echo}

/-- With calls to spend, there is something to send or to receive, or the echo is at its end. -/
theorem handle_rank (hexp : s.expectedBytes = expectedBytes) (h : Carries stream expectedBytes s.transfer) :
    s.handle.pc.rank ≤ 2 := by
  have hbudget : (if s.trigger = .edge then intMax else 1) > 0 := by
    split <;> decide
  have hbalance := h.balance
  have hlimit := h.limit
  have hcleanup : ∀ (s : Echo) status, (s.cleanup status).pc.rank ≤ 2 := by
    intro s status
    unfold Echo.cleanup
    split <;> exact Nat.le_of_ble_eq_true rfl
  unfold Echo.handle Echo.pass
  generalize (if s.trigger = .edge then intMax else 1) = budget at hbudget ⊢
  dsimp only
  split
  · exact Nat.le_refl _
  · next hsend =>
    split
    · exact Nat.le_refl _
    · next hrecv =>
      simp only [Echo.wantsSend, Bool.and_eq_true, decide_eq_true_eq, hbudget, and_true, not_not] at hsend
      simp only [Echo.wantsRecv, Bool.and_eq_true, Bool.not_eq_true', decide_eq_true_eq, hbudget, and_true, hsend,
        show (0 : Nat) < bufferSize from by decide, not_and, Nat.not_lt] at hrecv
      obtain ⟨_, -, ⟨-, hend⟩ | ⟨-, -, hend⟩ | ⟨hmore, hopen, -, -⟩ | ⟨hgo, -⟩⟩ := Echo.endPass_cases
        { s with readBudget := budget, writeBudget := budget, progressed := false } id
      · rw [hend]
        exact hcleanup _ _
      · rw [hend]
        exact hcleanup _ _
      · have hread : s.transfer.eofSeen = false → s.expectedBytes ≤ s.transfer.totalRead := hrecv
        dsimp only at hmore hopen
        cases heof : s.transfer.eofSeen with
        | true => exact absurd ⟨heof, hsend⟩ hopen
        | false =>
          have hall := hread heof
          omega
      · cases hgo

/-- The code behind a call keeps the invariant, and is at most four calls further from a transfer. -/
theorem SameWork.going {s s1 s' : Echo} (h : Going stream expectedBytes s) (hwork : SameWork s1 s')
    (hinv : Inv stream expectedBytes s') (htimeout : s1.timeoutMs = s.timeoutMs)
    (hdeadline : s1.deadline = s.deadline) :
    Going stream expectedBytes s' ∧ s'.rank ≤ 5 * s1.left + 6 := by
  refine ⟨⟨hinv, ?_, ?_, hwork.call⟩, ?_⟩
  · rw [hwork.timeout, htimeout]
    exact h.timeout
  · rw [hwork.deadline, hdeadline]
    exact h.deadline
  · have hrank := hwork.rank
    unfold Echo.rank
    rw [hwork.left]
    omega

theorem left_sent (h : Inv stream expectedBytes s) (hpc : s.pc = .send) (count : Nat) :
    let s' := { s with transfer := s.transfer.sent (transfer count s.transfer.pendingLength) }
    s'.left < s.left := by
  have hcall := h.call
  rw [hpc] at hcall
  have hpos := transfer_pos count s.transfer.pendingLength
  have hle := @transfer_le count s.transfer.pendingLength hcall
  have hbalance := h.carries.balance
  have hlimit := h.carries.limit
  have hexp := h.expected
  show s.expectedBytes - (s.transfer.totalWritten + transfer count s.transfer.pendingLength) +
    (s.expectedBytes - s.transfer.totalRead) + (if s.transfer.eofSeen then 0 else 1) < s.left
  unfold Echo.left
  omega

theorem left_received (h : Inv stream expectedBytes s) {capacity : Nat} (hpc : s.pc = .recv capacity)
    (hopen : s.transfer.eofSeen = false) (count : Nat) :
    let s' := { s with transfer := s.transfer.received (recvData s.transfer.inbound capacity count) }
    s'.left < s.left := by
  have hcall := h.call
  rw [hpc] at hcall
  obtain ⟨-, -, hmore⟩ := hcall
  have hle : (recvData s.transfer.inbound capacity count).length ≤ capacity := List.length_take_le _ _
  have hexp := h.expected
  generalize recvData s.transfer.inbound capacity count = data at hle ⊢
  intro s'
  have hleft : s.left = (s.expectedBytes - s.transfer.totalWritten) + (s.expectedBytes - s.transfer.totalRead) + 1 := by
    unfold Echo.left
    rw [hopen]
    rfl
  rw [hleft]
  by_cases hdata : data.length > 0
  · have hreceived : s'.left = (s.expectedBytes - s.transfer.totalWritten) +
        (s.expectedBytes - (s.transfer.totalRead + data.length)) + 1 := by
      show Echo.left { s with transfer := s.transfer.received data } = _
      unfold Echo.left Transfer.received
      rw [if_pos hdata]
      dsimp only
      rw [hopen]
      rfl
    omega
  · have hended : s'.left = (s.expectedBytes - s.transfer.totalWritten) + (s.expectedBytes - s.transfer.totalRead) := by
      show Echo.left { s with transfer := s.transfer.received data } = _
      unfold Echo.left Transfer.received
      rw [if_neg hdata]
      rfl
    omega

/-- A call that moves no bytes: the next one is nearer to a transfer. -/
theorem going_nearer {s s' : Echo} {pc : Pc} (h : Going stream expectedBytes s) (hpc : s.pc = pc)
    (hinv : Inv stream expectedBytes s') (hleft : s'.left = s.left) (htimeout : s'.timeoutMs = s.timeoutMs)
    (hdeadline : s'.deadline.Normal) (hcall : GoingAt s' s'.pc) (hrank : s'.pc.rank < pc.rank) :
    Going stream expectedBytes s' ∧ s'.rank < s.rank := by
  refine ⟨⟨hinv, by rw [htimeout]; exact h.timeout, hdeadline, hcall⟩, ?_⟩
  unfold Echo.rank
  rw [hleft, hpc]
  omega

theorem SameWork.going_less {s s1 s' : Echo} (h : Going stream expectedBytes s) (hwork : SameWork s1 s')
    (hinv : Inv stream expectedBytes s') (htimeout : s1.timeoutMs = s.timeoutMs)
    (hdeadline : s1.deadline = s.deadline) (hless : s1.left < s.left) (hpc : s.pc.rank = 2) :
    Going stream expectedBytes s' ∧ s'.rank < s.rank := by
  obtain ⟨hgoing, hle⟩ := hwork.going h hinv htimeout hdeadline
  have hrank : s.rank = 5 * s.left + s.pc.rank := rfl
  refine ⟨hgoing, ?_⟩
  omega

theorem going_handle {pc : Pc} (h : Going stream expectedBytes s) (hpc : s.pc = pc) {stats : Stats}
    (hinv : Inv stream expectedBytes ({ s with stats := stats } : Echo).handle) (hfar : 2 < pc.rank) :
    Going stream expectedBytes ({ s with stats := stats } : Echo).handle ∧
      ({ s with stats := stats } : Echo).handle.rank < s.rank := by
  have hwork := sameWork_handle { s with stats := stats }
  have hnear := @handle_rank _ _ { s with stats := stats } h.inv.expected h.inv.carries
  apply going_nearer h hpc hinv hwork.left hwork.timeout
  · rw [hwork.deadline]
    exact h.deadline
  · exact hwork.call
  · omega

theorem going_getFlags (h : Going stream expectedBytes s) (hpc : s.pc = .getFlags) {a : Answer} (hmove : Moves s a) :
    Going stream expectedBytes (echoStep s a) ∧ (echoStep s a).rank < s.rank := by
  have hinv := inv_step h.inv a
  unfold Moves at hmove
  unfold echoStep at hinv ⊢
  rw [hpc] at hmove hinv ⊢
  dsimp only at hmove hinv ⊢
  rw [hmove] at hinv ⊢
  dsimp only at hinv ⊢
  split at hinv
  · next hzero =>
    rw [if_pos hzero]
    exact going_nearer h hpc hinv rfl rfl h.deadline ⟨by decide, by decide⟩ (Nat.le_of_ble_eq_true rfl)
  · next hsome =>
    rw [if_neg hsome]
    split at hinv
    · next hclear =>
      rw [if_pos hclear]
      exact going_nearer h hpc hinv rfl rfl h.deadline trivial (Nat.le_of_ble_eq_true rfl)
    · next hset =>
      rw [if_neg hset]
      exact going_nearer h hpc hinv rfl rfl h.deadline trivial (Nat.le_of_ble_eq_true rfl)

/-- **Step lemma.** An answer that succeeds. -/
theorem going_move (h : Going stream expectedBytes s) {a : Answer} (hmove : Moves s a)
    (hreturned : ∀ status, s.pc ≠ .returned status) :
    Going stream expectedBytes (echoStep s a) ∧ (echoStep s a).rank < s.rank := by
  have hinv := inv_step h.inv a
  have hcall := h.call
  cases hpc : s.pc with
  | getFlags => exact going_getFlags h hpc hmove
  | setFlags | create | register | modify =>
    unfold Moves at hmove
    unfold echoStep at hinv ⊢
    rw [hpc] at hmove hinv ⊢
    dsimp only at hmove hinv ⊢
    rw [hmove] at hinv ⊢
    exact going_nearer h hpc hinv rfl rfl h.deadline trivial (Nat.le_of_ble_eq_true rfl)
  | startClock =>
    unfold Moves at hmove
    unfold echoStep at hinv ⊢
    rw [hpc] at hmove hinv ⊢
    obtain ⟨now, hnow, hnormal⟩ := hmove
    dsimp only at hinv ⊢
    rw [hnow] at hinv ⊢
    exact going_nearer h hpc hinv rfl rfl (deadline_normal hnormal h.timeout) trivial
      (Nat.le_of_ble_eq_true rfl)
  | remaining =>
    unfold Moves at hmove
    unfold echoStep at hinv ⊢
    rw [hpc] at hmove hinv ⊢
    obtain ⟨now, hnow, hnormal⟩ := hmove
    have hwait := remainingMs_nonneg h.deadline hnormal
    dsimp only at hinv ⊢
    rw [hnow, if_neg (by omega)] at hinv ⊢
    exact going_nearer h hpc hinv rfl rfl h.deadline trivial (Nat.le_of_ble_eq_true rfl)
  | wait waitMs =>
    unfold Moves at hmove
    unfold echoStep at hinv ⊢
    rw [hpc] at hmove hinv ⊢
    obtain ⟨err, hready⟩ := hmove
    dsimp only at hinv ⊢
    rw [hready] at hinv ⊢
    dsimp only at hinv ⊢
    cases err with
    | true =>
      exact going_nearer h hpc hinv rfl rfl h.deadline trivial (Nat.le_of_ble_eq_true rfl)
    | false =>
      rw [if_neg (by decide), ← hpc] at hinv ⊢
      exact going_handle h hpc hinv (Nat.le_of_ble_eq_true rfl)
  | socketError =>
    unfold Moves at hmove
    unfold echoStep at hinv ⊢
    rw [hpc] at hmove hinv ⊢
    dsimp only at hmove hinv ⊢
    rw [hmove, if_neg (by decide)] at hinv ⊢
    exact going_handle h hpc hinv (Nat.le_of_ble_eq_true rfl)
  | send =>
    unfold Moves at hmove
    unfold echoStep at hinv ⊢
    rw [hpc] at hmove hinv ⊢
    obtain ⟨count, hcount⟩ := hmove
    dsimp only at hinv ⊢
    rw [hcount] at hinv ⊢
    exact (sameWork_afterSend _).going_less h hinv rfl rfl (left_sent h.inv hpc count) (by rw [hpc]; rfl)
  | recv capacity =>
    rw [hpc] at hcall
    unfold Moves at hmove
    unfold echoStep at hinv ⊢
    rw [hpc] at hmove hinv ⊢
    obtain ⟨count, hcount⟩ := hmove
    dsimp only at hinv ⊢
    rw [hcount] at hinv ⊢
    exact (sameWork_endPass_pass _).going_less h hinv rfl rfl (left_received h.inv hpc hcall count) (by rw [hpc]; rfl)
  | restore =>
    rw [hpc] at hcall
    unfold Moves at hmove
    unfold echoStep at hinv ⊢
    rw [hpc] at hmove hinv ⊢
    dsimp only at hmove hinv ⊢
    rw [hmove] at hinv ⊢
    exact going_nearer h hpc hinv rfl rfl h.deadline hcall (Nat.le_of_ble_eq_true rfl)
  | returned status => exact absurd hpc (hreturned status)

/-- **Step lemma.** An answer that puts the call off. -/
theorem going_stall (h : Going stream expectedBytes s) {a : Answer} (hstall : Stalls s a) :
    Going stream expectedBytes (echoStep s a) ∧ (echoStep s a).rank ≤ s.rank + 4 := by
  have hinv := inv_step h.inv a
  have hrank : s.rank = 5 * s.left + s.pc.rank := rfl
  unfold echoStep at hinv ⊢
  unfold Stalls at hstall
  cases hpc : s.pc with
  | getFlags | setFlags | restore =>
    rw [hpc] at hstall
    dsimp only at hstall ⊢
    rw [hstall]
    exact ⟨h, Nat.le_add_right _ _⟩
  | wait waitMs =>
    rw [hpc] at hstall hinv
    dsimp only at hstall hinv ⊢
    rw [hstall] at hinv ⊢
    refine ⟨⟨hinv, h.timeout, h.deadline, trivial⟩, ?_⟩
    rw [hrank, hpc]
    exact Nat.add_le_add_left (by decide : 5 ≤ 4 + 4) _
  | send =>
    rw [hpc] at hstall hinv
    obtain ⟨errno, htransient, herrno⟩ := hstall
    dsimp only at hinv ⊢
    rw [herrno] at hinv ⊢
    rw [hrank, hpc]
    cases errno with
    | eagain | ewouldblock =>
      obtain ⟨hgoing, hle⟩ := (sameWork_afterSend _).going h hinv rfl rfl
      exact ⟨hgoing, hle⟩
    | eintr =>
      obtain ⟨hgoing, hle⟩ := (sameWork_pass _).going h hinv rfl rfl
      exact ⟨hgoing, hle⟩
    | other => cases htransient
  | recv capacity =>
    rw [hpc] at hstall hinv
    obtain ⟨errno, htransient, herrno⟩ := hstall
    dsimp only at hinv ⊢
    rw [herrno] at hinv ⊢
    rw [hrank, hpc]
    cases errno with
    | eagain | ewouldblock =>
      obtain ⟨hgoing, hle⟩ := (sameWork_endPass_pass _).going h hinv rfl rfl
      exact ⟨hgoing, hle⟩
    | eintr =>
      obtain ⟨hgoing, hle⟩ := (sameWork_pass _).going h hinv rfl rfl
      exact ⟨hgoing, hle⟩
    | other => cases htransient
  | startClock | create | register | remaining | socketError | modify | returned status =>
    rw [hpc] at hstall
    exact hstall.elim

end Loop

/-- **Main result.** An echo whose calls do not fail returns, however often they are put off: with `k` answers that
put a call off, it has returned after more than `10 * expectedBytes + 16 + 5 * k` answers. The status and the bytes
sent back are those of the stream, and the flags of the descriptor are what they were. -/
theorem echo_returns {fd : Int} (hfd : 0 ≤ fd) (trigger : Trigger) (expectedBytes : Nat) {timeoutMs : Int}
    (htimeout : 0 ≤ timeoutMs) (buffer : Vector UInt8 bufferSize) (fdFlags : UInt32) (stream : Bytes) {k : Nat}
    {answers : List Answer}
    (hrun : echoMachine.Stalling Moves Stalls k (echo fd trigger expectedBytes timeoutMs buffer fdFlags stream) answers)
    (hlen : 10 * expectedBytes + 16 + 5 * k < answers.length) :
    let s := echoMachine.run (echo fd trigger expectedBytes timeoutMs buffer fdFlags stream) answers
    ∃ status, s.pc = .returned status ∧ s.fdFlags = fdFlags ∧
      Echoed stream expectedBytes status s.transfer.outbound := by
  intro s
  have hvalid : ¬ (fd < 0 ∨ timeoutMs < 0) := by omega
  have hawake : Awake trigger fdFlags s _ :=
    awake_run (awake_echo fd trigger expectedBytes timeoutMs buffer fdFlags stream) answers
  have hentry : echo fd trigger expectedBytes timeoutMs buffer fdFlags stream =
      Echo.start trigger expectedBytes timeoutMs buffer fdFlags stream := if_neg hvalid
  have hstart : Going stream expectedBytes (echo fd trigger expectedBytes timeoutMs buffer fdFlags stream) := by
    rw [hentry]
    exact ⟨inv_start trigger expectedBytes timeoutMs buffer fdFlags stream, htimeout,
      (by decide : Timespec.Normal ⟨0, 0⟩), trivial⟩
  have hrank : (echo fd trigger expectedBytes timeoutMs buffer fdFlags stream).rank = 10 * expectedBytes + 16 := by
    rw [hentry]
    show 5 * (expectedBytes + expectedBytes + 1) + 11 = _
    omega
  have hdone : ∀ (s : Echo) a, (∃ status, s.pc = .returned status) →
      ∃ status, (echoStep s a).pc = .returned status := by
    rintro s a ⟨status, hpc⟩
    have hsame : echoStep s a = s := (returned_run hpc [a]).1
    exact ⟨status, by rw [hsame, hpc]⟩
  have hkeep : ∀ (s : Echo) a, Going stream expectedBytes s → Moves s a ∨ Stalls s a →
      Going stream expectedBytes (echoMachine.next s a) := by
    rintro s a h (hmove | hstall)
    · by_cases hreturned : ∃ status, s.pc = .returned status
      · obtain ⟨status, hpc⟩ := hreturned
        have hsame : echoMachine.next s a = s := (returned_run hpc [a]).1
        rwa [hsame]
      · exact (going_move h hmove (not_exists.mp hreturned)).1
    · exact (going_stall h hstall).1
  have hless : ∀ (s : Echo) a, Going stream expectedBytes s → ¬ (∃ status, s.pc = .returned status) → Moves s a →
      (echoMachine.next s a).rank < s.rank :=
    fun s a h hopen hmove => (going_move h hmove (not_exists.mp hopen)).2
  have hmore : ∀ (s : Echo) a, Going stream expectedBytes s → ¬ (∃ status, s.pc = .returned status) → Stalls s a →
      (echoMachine.next s a).rank ≤ s.rank + 4 := fun s a h _ hstall => (going_stall h hstall).2
  obtain ⟨hgoing, status, hpc⟩ := echoMachine.run_done_of_stalling hkeep hdone hless hmore hrun hstart
    (by rw [hrank]; exact hlen)
  have hcall := hgoing.call
  have hend := hgoing.inv.call
  unfold Awake at hawake
  rw [hpc] at hcall hend
  rw [show s.pc = .returned status from hpc] at hawake
  refine ⟨status, hpc, ?_, (hend.resolve_left hcall.1).resolve_left hcall.2⟩
  rcases hawake with hsame | ⟨hsystem, -⟩
  · exact hsame
  · exact absurd (List.mem_singleton.mp hsystem).symm hcall.2

/-- Two of three bytes, one at a time, behind one interrupted call. -/
theorem echo_returns_two :
    let s := echoMachine.run (echo 3 .edge 2 1000 (.replicate bufferSize 0) 2 [97, 98, 99])
      ({ steady with fcntl := some .eintr } :: List.replicate 42 steady)
    ∃ status, s.pc = .returned status ∧ s.fdFlags = 2 ∧ Echoed [97, 98, 99] 2 status s.transfer.outbound := by
  have hmoves : ∀ s : Echo, ∀ a ∈ List.replicate 42 steady, Moves s a := by
    intro s a ha
    rw [List.eq_of_mem_replicate ha]
    unfold Moves
    cases s.pc with
    | getFlags | setFlags | restore | create | register | modify | socketError => rfl
    | startClock | remaining => exact ⟨⟨0, 0⟩, rfl, by decide⟩
    | wait waitMs => exact ⟨false, rfl⟩
    | send | recv capacity => exact ⟨1, rfl⟩
    | returned status => trivial
  exact echo_returns (by decide) .edge 2 (by decide) (.replicate bufferSize 0) 2 [97, 98, 99]
    (.stall (show _ = _ from rfl) (echoMachine.stalling_of_moves hmoves _)) (by decide)

end TcpipCourse.LinuxL01
