import Mathlib.Tactic.IntervalCases
import TcpipCourse.Socket

/-!
# File status flags

The servers of the lessons make a descriptor nonblocking for the time of a call and put its flags back before they
return. Every `fcntl` is repeated as long as it is interrupted.

* `fcntlRetry` : such a call against a script of answers;
* `getFlags`, `setFlags` : `F_GETFL` and `F_SETFL`;
* `or_nonblock_or_nonblock`, `or_nonblock_and_ne_zero`, `or_nonblock_of_and_ne_zero` : setting the bit;
* `FlagsKept`, `FlagsKept.run` : what a call may do to the flags, and what follows for a run of calls.
-/

namespace TcpipCourse

/-- `O_NONBLOCK` on the Linux targets of the course. -/
def oNonblock : UInt32 := 0x800

/-- What one `fcntl` returns: `none` when it succeeds. -/
abbrev FcntlTurn := Option Errno

/-- `do { result = fcntl(..); } while (result < 0 && errno == EINTR);`, and whether the last call succeeds. -/
def fcntlRetry : List FcntlTurn → Option Bool
  | [] => none
  | none :: _ => some true
  | some errno :: rest => if errno = .eintr then fcntlRetry rest else some false

/-- `F_GETFL` on a descriptor with the given flags. -/
def getFlags (flags : UInt32) (turns : List FcntlTurn) : Option (Except Status UInt32) :=
  (fcntlRetry turns).map fun done => if done then .ok flags else .error .system

/-- `F_SETFL`: the status, and the flags of the descriptor afterwards. -/
def setFlags (flags newFlags : UInt32) (turns : List FcntlTurn) : Option (Status × UInt32) :=
  (fcntlRetry turns).map fun done => if done then (.ok, newFlags) else (.system, flags)

/-- A call that is only interrupted before it succeeds. -/
def FcntlPatient (turns : List FcntlTurn) : Prop := fcntlRetry turns = some true

instance (turns : List FcntlTurn) : Decidable (FcntlPatient turns) := inferInstanceAs (Decidable (_ = _))

theorem setFlags_cases {flags newFlags : UInt32} {turns : List FcntlTurn} {status : Status} {flags' : UInt32}
    (h : setFlags flags newFlags turns = some (status, flags')) :
    (status = .ok ∧ flags' = newFlags ∧ FcntlPatient turns) ∨ (status = .system ∧ flags' = flags) := by
  obtain ⟨done, hturns, hdone⟩ := Option.map_eq_some_iff.mp h
  cases done with
  | true => exact .inl ⟨(congrArg Prod.fst hdone).symm, (congrArg Prod.snd hdone).symm, hturns⟩
  | false => exact .inr ⟨(congrArg Prod.fst hdone).symm, (congrArg Prod.snd hdone).symm⟩

theorem getFlags_patient {turns : List FcntlTurn} (h : FcntlPatient turns) (flags : UInt32) :
    getFlags flags turns = some (.ok flags) := by
  rw [getFlags, h]
  rfl

theorem setFlags_patient {turns : List FcntlTurn} (h : FcntlPatient turns) (flags newFlags : UInt32) :
    setFlags flags newFlags turns = some (.ok, newFlags) := by
  rw [setFlags, h]
  rfl

/-! ## The bit -/

theorem or_nonblock_or_nonblock (flags : UInt32) : flags ||| oNonblock ||| oNonblock = flags ||| oNonblock := by
  rw [UInt32.or_assoc, UInt32.or_self]

theorem or_nonblock_and_ne_zero (flags : UInt32) : (flags ||| oNonblock) &&& oNonblock ≠ 0 := by
  have hbit : (flags ||| oNonblock) &&& oNonblock = oNonblock := by
    apply UInt32.eq_of_toBitVec_eq
    apply BitVec.eq_of_getLsbD_eq
    intro i _
    rw [UInt32.toBitVec_and, UInt32.toBitVec_or, BitVec.getLsbD_and, BitVec.getLsbD_or]
    exact Bool.and_eq_right_iff_imp.mpr fun hi => by rw [hi, Bool.or_true]
  rw [hbit]
  decide

theorem getLsbD_oNonblock (i : Nat) : oNonblock.toBitVec.getLsbD i = decide (i = 11) := by
  by_cases hi : i < 32
  · interval_cases i <;> rfl
  · rw [BitVec.getLsbD_of_ge _ _ (by omega)]
    simp; omega

theorem or_nonblock_of_and_ne_zero {flags : UInt32} (h : flags &&& oNonblock ≠ 0) : flags ||| oNonblock = flags := by
  have hbit : flags.toBitVec.getLsbD 11 = true := by
    by_contra hclear
    apply h
    apply UInt32.eq_of_toBitVec_eq
    simp only [UInt32.toBitVec_and]
    apply BitVec.eq_of_getLsbD_eq
    intro i hi
    rw [BitVec.getLsbD_and, getLsbD_oNonblock]
    by_cases h11 : i = 11
    · rw [h11, Bool.eq_false_of_not_eq_true hclear]
      rfl
    · simp [h11]
  apply UInt32.eq_of_toBitVec_eq
  simp only [UInt32.toBitVec_or]
  apply BitVec.eq_of_getLsbD_eq
  intro i hi
  rw [BitVec.getLsbD_or, getLsbD_oNonblock]
  by_cases h11 : i = 11
  · rw [h11, hbit]
    rfl
  · simp [h11]

/-! ## Calls that put the flags back -/

/-- The flags are what they were; or `O_NONBLOCK` is left set, and one of the statuses is `SYSTEM`. -/
def FlagsKept (flags : UInt32) (statuses : List Status) (flags' : UInt32) : Prop :=
  flags' = flags ∨ (.system ∈ statuses ∧ flags' = flags ||| oNonblock)

/-- A call in front of a run: once the bit was left set, later calls find it set. -/
theorem FlagsKept.run {flags first last : UInt32} {status : Status} {statuses : List Status}
    (hcall : FlagsKept flags [status] first) (hrun : FlagsKept first statuses last) :
    FlagsKept flags (status :: statuses) last := by
  rcases hcall with hfirst | ⟨hmem, hfirst⟩
  · rcases hrun with hlast | ⟨hmem, hlast⟩
    · exact .inl (hlast.trans hfirst)
    · exact .inr ⟨List.mem_cons_of_mem _ hmem, by rw [hlast, hfirst]⟩
  · refine .inr ⟨by simp [List.mem_singleton.mp hmem], ?_⟩
    rcases hrun with hlast | ⟨-, hlast⟩
    · exact hlast.trans hfirst
    · rw [hlast, hfirst, or_nonblock_or_nonblock]

theorem FlagsKept.of_restored {flags flags' : UInt32} {status status' : Status}
    (h : (status' = status ∧ flags' = flags) ∨ (status' = .system ∧ flags' = flags ||| oNonblock)) :
    FlagsKept flags [status'] flags' := by
  rcases h with ⟨-, hsame⟩ | ⟨hsystem, hset⟩
  · exact .inl hsame
  · exact .inr ⟨List.mem_singleton.mpr hsystem.symm, hset⟩

end TcpipCourse
