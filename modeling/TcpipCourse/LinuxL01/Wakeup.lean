import TcpipCourse.LinuxL01.Schedule

/-!
# Linux lab 01: the echo waits for what it needs

An edge-triggered descriptor is reported once, so a loop that waits with bytes unread or unsent may wait for ever.

* `setNonblocking` : the function that the lab exports;
* `Refusals`, `refusals` : which of the last `send` and `recv` the kernel has refused since the last event;
* `SendDone`, `RecvDone`, `Drained` : there is nothing left to do before the next event;
* `AwakeAt` : the invariant at a call; `awake_getFlags` … `awake_recv` : what one answer makes of it there, and
  `awake_step`, `awake_run` : at every call of every run;
* `echo_wakeup` : the main result.
-/

namespace TcpipCourse.LinuxL01
open Lib

/-- `tcpip_linux_l01_set_nonblocking`: the status, and the flags afterwards. -/
def setNonblocking (fd : Int) (flags : UInt32) (getTurns setTurns : List FcntlTurn) : Option (Status × UInt32) :=
  if fd < 0 then some (.invalidArgument, flags)
  else
    (getFlags flags getTurns).bind fun
      | .error _ => some (.system, flags)
      | .ok found =>
        if found &&& oNonblock = 0 then TcpipCourse.setFlags flags (found ||| oNonblock) setTurns
        else some (.ok, flags)

/-- `OK` means that the bit is set, and nothing but the bit is ever changed. -/
theorem setNonblocking_spec {fd : Int} {flags flags' : UInt32} {getTurns setTurns : List FcntlTurn} {status : Status}
    (h : setNonblocking fd flags getTurns setTurns = some (status, flags')) :
    (status = .ok → flags' = flags ||| oNonblock) ∧ (status ≠ .ok → flags' = flags) := by
  unfold setNonblocking at h
  split at h
  · cases h
    exact ⟨fun hok => (by cases hok), fun _ => rfl⟩
  · obtain ⟨found, hfound, hset⟩ := Option.bind_eq_some_iff.mp h
    obtain ⟨done, -, hdone⟩ := Option.map_eq_some_iff.mp hfound
    cases done with
    | false =>
      subst hdone
      cases hset
      exact ⟨fun hok => (by cases hok), fun _ => rfl⟩
    | true =>
      subst hdone
      rw [if_pos rfl] at hset
      dsimp only at hset
      split at hset
      · rcases setFlags_cases hset with ⟨rfl, rfl, -⟩ | ⟨rfl, rfl⟩
        · exact ⟨fun _ => rfl, fun hne => absurd rfl hne⟩
        · exact ⟨fun hok => (by cases hok), fun _ => rfl⟩
      · next hclear =>
        cases hset
        exact ⟨fun _ => (or_nonblock_of_and_ne_zero hclear).symm, fun hne => absurd rfl hne⟩

/-! ## What the kernel has refused -/

/-- Whether an event has been handled, and which calls were refused with `EAGAIN` since. -/
structure Refusals where
  event : Bool
  send : Bool
  recv : Bool
  deriving DecidableEq, Repr

def Refusals.fresh : Refusals := ⟨false, false, false⟩

/-- What becomes of them with one answer. -/
def Refusals.next (r : Refusals) (s : Echo) (a : Answer) : Refusals :=
  match s.pc with
  | .wait waitMs =>
    match a.wait waitMs with
    | .ready _ => ⟨true, false, false⟩
    | _ => r
  | .send =>
    match a.send with
    | .failed .eagain | .failed .ewouldblock => { r with send := true }
    | .takes _ => { r with send := false }
    | _ => r
  | .recv _ =>
    match a.recv with
    | .failed .eagain | .failed .ewouldblock => { r with recv := true }
    | .takes _ => { r with recv := false }
    | _ => r
  | _ => r

/-- The machine of the echo, with the refusals beside it. -/
def noted : Machine (Echo × Refusals) Answer Unit := ⟨fun (s, r) a => ((echoStep s a, r.next s a), ())⟩

def refusals (s : Echo) (answers : List Answer) : Refusals := (noted.run (s, .fresh) answers).2

theorem noted_run_fst (s : Echo) (r : Refusals) (answers : List Answer) :
    (noted.run (s, r) answers).1 = echoMachine.run s answers := by
  induction answers generalizing s r with
  | nil => rfl
  | cons a rest ih => exact ih _ _

/-! ## Nothing left to do -/

/-- Nothing is pending, the kernel takes no more, or the calls of one event are used up. -/
def SendDone (s : Echo) (r : Refusals) : Prop := s.transfer.pendingLength = 0 ∨ r.send = true ∨ s.writeBudget ≤ 0

/-- The stream has ended, all bytes are read, there is no room, the kernel has no more, or the calls of one event
are used up. -/
def RecvDone (s : Echo) (r : Refusals) : Prop :=
  s.transfer.eofSeen = true ∨ s.expectedBytes ≤ s.transfer.totalRead ∨ bufferSize ≤ s.transfer.pendingLength ∨
    r.recv = true ∨ s.readBudget ≤ 0

def Drained (s : Echo) (r : Refusals) : Prop := SendDone s r ∧ RecvDone s r

theorem sendDone_of_not_wantsSend {s : Echo} (h : s.wantsSend = false) (r : Refusals) : SendDone s r := by
  rw [Echo.wantsSend, Bool.and_eq_false_iff, decide_eq_false_iff_not, decide_eq_false_iff_not, not_not, Int.not_lt] at h
  exact h.imp_right .inr

theorem recvDone_of_not_wantsRecv {s : Echo} (h : s.wantsRecv = false) (r : Refusals) : RecvDone s r := by
  simp only [Echo.wantsRecv, Bool.and_eq_false_iff, Bool.not_eq_false', decide_eq_false_iff_not, Nat.not_lt,
    Int.not_lt] at h
  unfold RecvDone
  tauto

/-! ## The invariant -/

/-- The descriptor is nonblocking, and remembered as it was. -/
structure Nonblocking (trigger : Trigger) (flags : UInt32) (s : Echo) : Prop where
  trigger_eq : s.trigger = trigger
  original : s.originalFlags = flags
  set : s.fdFlags = flags ||| oNonblock
  changed : s.flagsChanged = false → s.fdFlags = flags

def AwakeAt (trigger : Trigger) (flags : UInt32) (s : Echo) (r : Refusals) : Pc → Prop
  | .getFlags => s.trigger = trigger ∧ s.fdFlags = flags ∧ s.flagsChanged = false ∧ s.transfer.pendingLength = 0 ∧
      r.event = false
  | .setFlags => s.trigger = trigger ∧ s.fdFlags = flags ∧ s.originalFlags = flags ∧ s.transfer.pendingLength = 0 ∧
      r.event = false
  | .startClock | .create | .register => Nonblocking trigger flags s ∧ s.transfer.pendingLength = 0 ∧ r.event = false
  | .remaining | .wait _ => Nonblocking trigger flags s ∧
      s.interest = interestMask trigger (s.transfer.pendingLength ≠ 0) ∧
      (r.event = true → trigger = .edge → Drained s r)
  | .socketError => Nonblocking trigger flags s
  | .send => Nonblocking trigger flags s ∧ s.progressed = false
  | .recv _ => Nonblocking trigger flags s ∧ (s.progressed = false → SendDone s r)
  | .modify => Nonblocking trigger flags s ∧ (trigger = .edge → Drained s r)
  | .restore => s.originalFlags = flags ∧ s.fdFlags = flags ||| oNonblock
  | .returned status => FlagsKept flags [status] s.fdFlags

def Awake (trigger : Trigger) (flags : UInt32) (s : Echo) (r : Refusals) : Prop := AwakeAt trigger flags s r s.pc

section Loop
variable {trigger : Trigger} {flags : UInt32} {s : Echo} {r : Refusals}

theorem awake_cleanup (h : Nonblocking trigger flags s) (status : Status) :
    Awake trigger flags (s.cleanup status) r := by
  unfold Echo.cleanup
  split
  · exact ⟨h.original, h.set⟩
  · next hchanged => exact .inl (h.changed (Bool.eq_false_of_not_eq_true hchanged))

theorem awake_callRecv (h : Nonblocking trigger flags s) (hsend : s.progressed = false → SendDone s r) :
    Awake trigger flags s.callRecv r := by
  have hpending : s.transfer.compact.pendingLength = s.transfer.pendingLength := by
    unfold Transfer.compact
    split <;> rfl
  refine ⟨{ h with }, fun hidle => ?_⟩
  have hdone := hsend hidle
  unfold SendDone at hdone ⊢
  rwa [← hpending] at hdone

/-- The end of a pass, when its next pass keeps the invariant: a pass without progress has found nothing to do. -/
theorem awake_endPass (h : Nonblocking trigger flags s) (hsend : s.progressed = false → SendDone s r)
    (hrecv : s.progressed = false → RecvDone s r) {again : Echo → Echo}
    (hagain : ∀ s' : Echo, s'.progressed = s.progressed → s'.progressed = true → Nonblocking trigger flags s' →
      Awake trigger flags (again s') r) : Awake trigger flags (s.endPass again) r := by
  obtain ⟨_, ⟨n, rfl⟩, ⟨-, hend⟩ | ⟨-, -, hend⟩ | ⟨-, -, hstop, hend⟩ | ⟨hgo, hend⟩⟩ := s.endPass_cases again
  · rw [hend]
    apply awake_cleanup
    exact { h with }
  · rw [hend]
    apply awake_cleanup
    exact { h with }
  · rw [hend]
    refine ⟨{ h with }, fun hedge => ?_⟩
    have hidle : s.progressed = false := by
      rw [h.trigger_eq, hedge] at hstop
      exact hstop.resolve_left (by decide)
    exact ⟨hsend hidle, hrecv hidle⟩
  · rw [hend]
    exact hagain _ rfl hgo { h with }

theorem awake_pass (h : Nonblocking trigger flags s) : Awake trigger flags s.pass r := by
  unfold Echo.pass
  dsimp only
  split
  · exact ⟨{ h with }, rfl⟩
  · next hsend =>
    have hsend := Bool.eq_false_of_not_eq_true hsend
    split
    · exact awake_callRecv { h with } fun _ => sendDone_of_not_wantsSend hsend r
    · next hrecv =>
      have hrecv := Bool.eq_false_of_not_eq_true hrecv
      refine @awake_endPass trigger flags { s with progressed := false } r { h with }
        (fun _ => sendDone_of_not_wantsSend hsend r) (fun _ => recvDone_of_not_wantsRecv hrecv r) id
        fun s' hidle hgo => ?_
      rw [hidle] at hgo
      cases hgo

theorem awake_afterSend (h : Nonblocking trigger flags s) (hsend : s.progressed = false → SendDone s r) :
    Awake trigger flags s.afterSend r := by
  unfold Echo.afterSend
  split
  · exact awake_callRecv h hsend
  · next hrecv =>
    exact awake_endPass h hsend (fun _ => recvDone_of_not_wantsRecv (Bool.eq_false_of_not_eq_true hrecv) r)
      fun _ _ _ => awake_pass

theorem awake_handle (h : Nonblocking trigger flags s) : Awake trigger flags s.handle r := by
  unfold Echo.handle
  exact awake_pass { h with }

theorem awake_of_pc {pc : Pc} (hpc : s.pc = pc) : Awake trigger flags s r ↔ AwakeAt trigger flags s r pc := by
  rw [Awake, hpc]

theorem awake_getFlags (h : Awake trigger flags s r) (hpc : s.pc = .getFlags) (a : Answer) :
    Awake trigger flags (echoStep s a) (r.next s a) := by
  obtain ⟨htrigger, hflags, hchanged, hpending, hevent⟩ := (awake_of_pc hpc).mp h
  unfold echoStep Refusals.next
  rw [hpc]
  dsimp only
  split
  · exact h
  · exact .inl hflags
  · split
    · exact .inl hflags
    · split
      · exact ⟨htrigger, hflags, hflags, hpending, hevent⟩
      · next hset =>
        refine ⟨⟨htrigger, hflags, ?_, fun _ => hflags⟩, hpending, hevent⟩
        rw [← hflags]
        exact (or_nonblock_of_and_ne_zero hset).symm

theorem awake_setFlags (h : Awake trigger flags s r) (hpc : s.pc = .setFlags) (a : Answer) :
    Awake trigger flags (echoStep s a) (r.next s a) := by
  obtain ⟨htrigger, hflags, horiginal, hpending, hevent⟩ := (awake_of_pc hpc).mp h
  unfold echoStep Refusals.next
  rw [hpc]
  dsimp only
  split
  · exact h
  · exact .inl hflags
  · exact ⟨⟨htrigger, horiginal, by rw [← horiginal], fun hno => (by cases hno)⟩, hpending, hevent⟩

theorem awake_wait (h : Awake trigger flags s r) {waitMs : Int} (hpc : s.pc = .wait waitMs) (a : Answer) :
    Awake trigger flags (echoStep s a) (r.next s a) := by
  obtain ⟨hset, hinterest, hdrained⟩ := (awake_of_pc hpc).mp h
  unfold echoStep Refusals.next
  rw [hpc]
  dsimp only
  cases a.wait waitMs with
  | ready err =>
    dsimp only
    split
    · exact { hset with }
    · exact awake_handle { hset with }
  | expired => exact awake_cleanup hset _
  | failed errno =>
    cases errno with
    | eintr => exact ⟨{ hset with }, hinterest, hdrained⟩
    | eagain | ewouldblock | other => exact awake_cleanup hset _

theorem awake_send (h : Awake trigger flags s r) (hpc : s.pc = .send) (a : Answer) :
    Awake trigger flags (echoStep s a) (r.next s a) := by
  obtain ⟨hset, hidle⟩ := (awake_of_pc hpc).mp h
  unfold echoStep Refusals.next
  rw [hpc]
  dsimp only
  cases a.send with
  | takes count => exact awake_afterSend { hset with } fun hno => (by cases hno)
  | zero => exact awake_cleanup hset _
  | failed errno =>
    cases errno with
    | eagain | ewouldblock => exact awake_afterSend { hset with } fun _ => .inr (.inl rfl)
    | eintr => exact awake_pass hset
    | other => exact awake_cleanup hset _

theorem awake_recv (h : Awake trigger flags s r) {capacity : Nat} (hpc : s.pc = .recv capacity) (a : Answer) :
    Awake trigger flags (echoStep s a) (r.next s a) := by
  obtain ⟨hset, hsend⟩ := (awake_of_pc hpc).mp h
  unfold echoStep Refusals.next
  rw [hpc]
  dsimp only
  cases a.recv with
  | takes count =>
    dsimp only
    have hended : ∀ data : Bytes, (s.progressed || decide (data.length > 0)) = false →
        s.progressed = false ∧ s.transfer.received data = { s.transfer with eofSeen := true } := by
      intro data hidle
      rw [Bool.or_eq_false_iff, decide_eq_false_iff_not] at hidle
      exact ⟨hidle.1, if_neg hidle.2⟩
    apply awake_endPass
    · exact { hset with }
    · intro hidle
      obtain ⟨hprogressed, hreceived⟩ := hended _ hidle
      unfold SendDone
      dsimp only
      rw [hreceived]
      exact hsend hprogressed
    · intro hidle
      refine .inl ?_
      dsimp only
      rw [(hended _ hidle).2]
    · exact fun _ _ _ => awake_pass
  | failed errno =>
    cases errno with
    | eagain | ewouldblock =>
      apply awake_endPass
      · exact { hset with }
      · exact hsend
      · exact fun _ => .inr (.inr (.inr (.inl rfl)))
      · exact fun _ _ _ => awake_pass
    | eintr => exact awake_pass hset
    | other => exact awake_cleanup hset _

/-- **Step lemma.** -/
theorem awake_step (h : Awake trigger flags s r) (a : Answer) : Awake trigger flags (echoStep s a) (r.next s a) := by
  cases hpc : s.pc with
  | getFlags => exact awake_getFlags h hpc a
  | setFlags => exact awake_setFlags h hpc a
  | wait waitMs => exact awake_wait h hpc a
  | send => exact awake_send h hpc a
  | recv capacity => exact awake_recv h hpc a
  | startClock | create =>
    obtain ⟨hset, hrest⟩ := (awake_of_pc hpc).mp h
    unfold echoStep Refusals.next
    rw [hpc]
    dsimp only
    split
    · exact awake_cleanup hset _
    · exact ⟨{ hset with }, hrest⟩
  | register =>
    obtain ⟨hset, hpending, hevent⟩ := (awake_of_pc hpc).mp h
    unfold echoStep Refusals.next
    rw [hpc]
    dsimp only
    split
    · exact awake_cleanup hset _
    · refine ⟨{ hset with }, ?_, fun hyes => absurd (hevent.symm.trans hyes) (by decide)⟩
      show interestMask s.trigger false = interestMask trigger (decide (s.transfer.pendingLength ≠ 0))
      rw [hset.trigger_eq, hpending]
      rfl
  | remaining =>
    obtain ⟨hset, hinterest, hdrained⟩ := (awake_of_pc hpc).mp h
    unfold echoStep Refusals.next
    rw [hpc]
    dsimp only
    split
    · exact awake_cleanup hset _
    · exact ⟨{ hset with }, hinterest, hdrained⟩
  | socketError =>
    have hset := (awake_of_pc hpc).mp h
    unfold echoStep Refusals.next
    rw [hpc]
    dsimp only
    split
    · exact awake_cleanup hset _
    · exact awake_handle hset
  | modify =>
    obtain ⟨hset, hdrained⟩ := (awake_of_pc hpc).mp h
    unfold echoStep Refusals.next
    rw [hpc]
    dsimp only
    split
    · exact awake_cleanup hset _
    · exact ⟨{ hset with }, by rw [← hset.trigger_eq], fun _ => hdrained⟩
  | restore =>
    obtain ⟨horiginal, hset⟩ := (awake_of_pc hpc).mp h
    unfold echoStep Refusals.next
    rw [hpc]
    dsimp only
    split
    · exact h
    · exact .inr ⟨List.mem_singleton_self _, hset⟩
    · exact .inl horiginal
  | returned status =>
    unfold echoStep Refusals.next
    rw [hpc]
    exact h

/-- **Run lemma.** -/
theorem awake_run (h : Awake trigger flags s .fresh) (answers : List Answer) :
    Awake trigger flags (echoMachine.run s answers) (refusals s answers) := by
  have hstep : ∀ (x : Echo × Refusals) a, Awake trigger flags x.1 x.2 →
      Awake trigger flags (noted.next x a).1 (noted.next x a).2 := fun _ a hx => awake_step hx a
  have hrun := noted.run_invariant hstep (s := (s, .fresh)) h answers
  rwa [noted_run_fst] at hrun

end Loop

theorem awake_echo (fd : Int) (trigger : Trigger) (expectedBytes : Nat) (timeoutMs : Int)
    (buffer : Vector UInt8 bufferSize) (fdFlags : UInt32) (stream : Bytes) :
    Awake trigger fdFlags (echo fd trigger expectedBytes timeoutMs buffer fdFlags stream) .fresh := by
  unfold echo
  dsimp only
  split
  · exact .inl rfl
  · exact ⟨rfl, rfl, rfl, rfl, rfl⟩

/-- **Main result.** In every run of an echo: the descriptor is nonblocking whenever a `send` or a `recv` is called;
whenever the loop waits, it waits for room exactly when bytes are pending, and, edge-triggered and behind an event, it
has nothing left to send or to receive; and when the call returns, the flags are put back, or `O_NONBLOCK` is left set
and the status is `SYSTEM`. Behind a `set_nonblocking` that succeeds they are put back in either case. -/
theorem echo_wakeup (fd : Int) (trigger : Trigger) (expectedBytes : Nat) (timeoutMs : Int)
    (buffer : Vector UInt8 bufferSize) (fdFlags : UInt32) (stream : Bytes) (answers : List Answer) :
    let entry := echo fd trigger expectedBytes timeoutMs buffer fdFlags stream
    let s := echoMachine.run entry answers
    let refused := refusals entry answers
    ((s.pc = .send ∨ ∃ capacity, s.pc = .recv capacity) → s.fdFlags &&& oNonblock ≠ 0) ∧
    (∀ waitMs, s.pc = .wait waitMs → s.interest = interestMask trigger (s.transfer.pendingLength ≠ 0) ∧
      (refused.event = true → trigger = .edge → Drained s refused)) ∧
    (∀ status, s.pc = .returned status → FlagsKept fdFlags [status] s.fdFlags) ∧
    ∀ flags getTurns setTurns, setNonblocking fd flags getTurns setTurns = some (.ok, fdFlags) →
      fdFlags = flags ||| oNonblock ∧ ∀ status, s.pc = .returned status → s.fdFlags = fdFlags := by
  intro entry s refused
  have hawake : Awake trigger fdFlags s refused :=
    awake_run (awake_echo fd trigger expectedBytes timeoutMs buffer fdFlags stream) answers
  unfold Awake at hawake
  have hkept : ∀ status, s.pc = .returned status → FlagsKept fdFlags [status] s.fdFlags := by
    intro status hpc
    rw [hpc] at hawake
    exact hawake
  refine ⟨?_, ?_, hkept, ?_⟩
  · intro hcall
    have hset : s.fdFlags = fdFlags ||| oNonblock := by
      rcases hcall with hpc | ⟨capacity, hpc⟩
      · rw [hpc] at hawake
        exact hawake.1.set
      · rw [hpc] at hawake
        exact hawake.1.set
    rw [hset]
    exact or_nonblock_and_ne_zero fdFlags
  · intro waitMs hpc
    rw [hpc] at hawake
    exact hawake.2
  · intro flags getTurns setTurns hset
    have hbit := (setNonblocking_spec hset).1 rfl
    refine ⟨hbit, fun status hpc => ?_⟩
    rcases hkept status hpc with hsame | ⟨-, hleft⟩
    · exact hsame
    · rw [hleft, hbit, or_nonblock_or_nonblock]

/-- Every call succeeds but a `send` and a `recv`, which are refused. -/
def refusing : Answer := { steady with send := .failed .eagain, recv := .failed .eagain }

/-- One byte of two is received and refused: the loop waits for room. Accepted, the echo returns with the flags that
`set_nonblocking` has left. -/
theorem echo_wakeup_refused :
    let entry := echo 3 .edge 2 1000 (.replicate bufferSize 0) 2050 [97, 98]
    let waiting := List.replicate 7 steady ++ List.replicate 4 refusing
    let s := echoMachine.run entry waiting
    let t := echoMachine.run entry (waiting ++ List.replicate 16 steady)
    setNonblocking 3 2 [none] [some .eintr, none] = some (.ok, 2050) ∧
      (s.pc = .wait 1000 ∧ s.interest = interestMask .edge true ∧ Drained s (refusals entry waiting)) ∧
      t.pc = .returned .ok ∧ t.fdFlags = 2050 := by
  intro entry waiting s t
  have hset : setNonblocking 3 2 [none] [some .eintr, none] = some (.ok, 2050) := rfl
  have hwait : s.pc = .wait 1000 := by decide +kernel
  have hpending : s.transfer.pendingLength ≠ 0 := by decide +kernel
  have hevent : (refusals entry waiting).event = true := by decide +kernel
  have hreturned : t.pc = .returned .ok := by decide +kernel
  obtain ⟨-, hwaits, -, -⟩ := echo_wakeup 3 .edge 2 1000 (.replicate bufferSize 0) 2050 [97, 98] waiting
  obtain ⟨-, -, -, hflags⟩ := echo_wakeup 3 .edge 2 1000 (.replicate bufferSize 0) 2050 [97, 98]
    (waiting ++ List.replicate 16 steady)
  obtain ⟨hinterest, hdrained⟩ := hwaits 1000 hwait
  refine ⟨hset, ⟨hwait, ?_, hdrained hevent rfl⟩, hreturned, (hflags 2 _ _ hset).2 .ok hreturned⟩
  rw [show s.interest = _ from hinterest, decide_eq_true hpending]

end TcpipCourse.LinuxL01
