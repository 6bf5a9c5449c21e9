import TcpipCourse.Common
import TcpipCourse.Lib.Span

/-!
# Stream sockets and clocks, as the lessons use them

The lessons call the kernel in loops: they read the monotonic clock, `poll`, and then `send` or `recv`. What
the kernel answers is not theirs to choose, so a loop runs against a script of answers.

* `Timespec`, `Errno`, `PollResult` : what the calls return;
* `WaitTurn` : one turn of a wait loop; `IoTurn` : one turn of a transfer loop, with its whole wait;
* `transfer`, `received` : how many bytes one call moves, and which;
* `sends`, `recvs` : how many turns of a schedule move bytes.
-/

namespace TcpipCourse
open Lib

structure Timespec where
  tvSec : Int
  tvNsec : Int
  deriving DecidableEq, Repr

def intMax : Int := 2147483647

def nsPerMs : Int := 1000000

def nsPerS : Int := 1000000000

/-- The time in nanoseconds. -/
def Timespec.ns (time : Timespec) : Int := time.tvSec * nsPerS + time.tvNsec

/-- As `clock_gettime` returns it: less than a second is in `tv_nsec`. -/
def Timespec.Normal (time : Timespec) : Prop := 0 ≤ time.tvNsec ∧ time.tvNsec < nsPerS

instance (time : Timespec) : Decidable time.Normal := inferInstanceAs (Decidable (_ ∧ _))

/-- The values of `errno` that the loops tell apart. -/
inductive Errno where
  | eintr
  | eagain
  | ewouldblock
  | other
  deriving DecidableEq, Repr

/-- `errno == EINTR || errno == EAGAIN || errno == EWOULDBLOCK` -/
def Errno.isTransient : Errno → Bool
  | .eintr | .eagain | .ewouldblock => true
  | .other => false

/-- `descriptor.revents`; `requested` stands for the bits of `events`. -/
structure Revents where
  requested : Bool
  err : Bool
  hup : Bool
  nval : Bool
  deriving DecidableEq, Repr

/-- What `poll` on one descriptor returns. -/
inductive PollResult where
  | ready (revents : Revents)
  | expired
  | failed (errno : Errno)
  deriving DecidableEq, Repr

/-- `poll` has nothing to report: no bit that the wait asks about, and no failure but an interruption. -/
def PollResult.quiet : PollResult → Bool
  | .ready revents => !(revents.nval || revents.requested || revents.err || revents.hup)
  | .expired => true
  | .failed errno => errno = .eintr

/-- One turn of a wait loop: what the clock reads (`none` when `clock_gettime` fails), and what `poll`
returns for the timeout that it is given. -/
structure WaitTurn where
  clock : Option Timespec
  poll : Int → PollResult

/-- What `recv` does: it takes bytes off the stream, or fails. -/
inductive RecvOutcome where
  | takes (count : Nat)
  | failed (errno : Errno)
  deriving DecidableEq, Repr

/-- What `send` does: it accepts bytes, returns zero, or fails. -/
inductive SendOutcome where
  | takes (count : Nat)
  | zero
  | failed (errno : Errno)
  deriving DecidableEq, Repr

/-- One turn of a transfer loop: the turns of its wait, and how the `send` or `recv` behind it goes. -/
structure IoTurn (ω : Type) where
  waits : List WaitTurn
  outcome : ω

abbrev SendTurn := IoTurn SendOutcome

abbrev RecvTurn := IoTurn RecvOutcome

/-- How many of at most `limit` bytes a call moves: `count` of them, but one at least and `limit` at most. -/
def transfer (count limit : Nat) : Nat := max 1 (min count limit)

theorem transfer_pos (count limit : Nat) : 1 ≤ transfer count limit := Nat.le_max_left _ _

theorem transfer_le {count limit : Nat} (h : 1 ≤ limit) : transfer count limit ≤ limit := by
  unfold transfer
  omega

/-- The bytes that `recv` takes off `stream`, the rest of what the peer sent before it closed: none only when
there are none left. -/
def received (stream : Bytes) (requested count : Nat) : Bytes :=
  stream.take (transfer count (min requested stream.length))

theorem length_received {stream : Bytes} {requested count : Nat} (hs : stream ≠ []) (hr : 1 ≤ requested) :
    1 ≤ (received stream requested count).length ∧ (received stream requested count).length ≤ requested := by
  have hpos := List.length_pos_iff.mpr hs
  have hle := @transfer_le count (min requested stream.length) (by omega)
  have h1 := transfer_pos count (min requested stream.length)
  unfold received
  rw [List.length_take]
  omega

theorem received_nil (requested count : Nat) : received [] requested count = [] := List.take_nil

theorem received_eq_take (stream : Bytes) (requested count : Nat) :
    received stream requested count = stream.take (received stream requested count).length := by
  unfold received
  rw [List.length_take, List.take_eq_take_iff]
  omega

/-! ## Schedules -/

/-- The send accepts bytes or is interrupted. -/
def sendPatient : SendOutcome → Bool
  | .takes _ => true
  | .zero => false
  | .failed errno => errno.isTransient

/-- The receive takes bytes or is interrupted. -/
def recvPatient : RecvOutcome → Bool
  | .takes _ => true
  | .failed errno => errno.isTransient

def sendMoves : SendOutcome → Bool
  | .takes _ => true
  | _ => false

def recvMoves : RecvOutcome → Bool
  | .takes _ => true
  | .failed _ => false

/-- How many sends of the schedule accept bytes. -/
def sends (turns : List SendTurn) : Nat := turns.countP fun turn => sendMoves turn.outcome

/-- How many receives of the schedule find the descriptor readable. -/
def recvs (turns : List RecvTurn) : Nat := turns.countP fun turn => recvMoves turn.outcome

theorem recvs_takes {turn : RecvTurn} {count : Nat} (h : turn.outcome = .takes count) (rest : List RecvTurn) :
    recvs (turn :: rest) = recvs rest + 1 := by
  simp [recvs, recvMoves, h]

theorem recvs_failed {turn : RecvTurn} {errno : Errno} (h : turn.outcome = .failed errno) (rest : List RecvTurn) :
    recvs (turn :: rest) = recvs rest := by
  simp [recvs, recvMoves, h]

/-- A wait that is interrupted once and then finds the descriptor ready. -/
def readyWait : List WaitTurn :=
  [⟨some ⟨0, 0⟩, fun _ => .failed .eintr⟩, ⟨some ⟨0, 5⟩, fun _ => .ready ⟨true, false, false, false⟩⟩]

end TcpipCourse
