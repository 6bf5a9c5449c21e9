import TcpipCourse.Lib.Flags
import TcpipCourse.L07.Reassembly

/-!
# Linux lab 02: snapshots of `TCP_INFO`

* `capture` : the fields that the kernel's answer covers; `mapState` : its states in the vocabulary of lesson 07;
  `checkInvariants` : the violations of a snapshot, as bits and as a number;
* `captured_copies` : which fields a snapshot has, for every layout and every length of the answer;
* `captured_violations` : what is reported about an answer, in terms of the answer.
-/

namespace TcpipCourse.LinuxL02
open Lib

inductive Status where
  | ok
  | invalidArgument
  | unsupported
  | system
  deriving DecidableEq, Repr

/-- The fields of a snapshot, in the order of their presence bits. -/
inductive Field where
  | state
  | caState
  | retransmits
  | sndMss
  | rcvMss
  | unacked
  | lost
  | rttUs
  | rttvarUs
  | totalRetrans
  deriving DecidableEq, Repr

def Field.bit : Field → UInt32
  | .state => 0x1
  | .caState => 0x2
  | .retransmits => 0x4
  | .sndMss => 0x8
  | .rcvMss => 0x10
  | .unacked => 0x20
  | .lost => 0x40
  | .rttUs => 0x80
  | .rttvarUs => 0x100
  | .totalRetrans => 0x200

structure Snapshot where
  present : UInt32
  state : UInt8
  caState : UInt8
  retransmits : UInt8
  sndMss : UInt32
  rcvMss : UInt32
  unacked : UInt32
  lost : UInt32
  rttUs : UInt32
  rttvarUs : UInt32
  totalRetrans : UInt32
  deriving DecidableEq, Repr

def Snapshot.cleared : Snapshot := ⟨0, 0, 0, 0, 0, 0, 0, 0, 0, 0, 0⟩

/-! ## Capture -/

/-- The members of `struct tcp_info` that are copied. -/
structure TcpInfo where
  tcpiState : UInt8
  tcpiCaState : UInt8
  tcpiRetransmits : UInt8
  tcpiSndMss : UInt32
  tcpiRcvMss : UInt32
  tcpiUnacked : UInt32
  tcpiLost : UInt32
  tcpiRtt : UInt32
  tcpiRttvar : UInt32
  tcpiTotalRetrans : UInt32
  deriving DecidableEq, Repr

/-- The values of `errno` that `capture` tells apart. -/
inductive Errno where
  | enoprotoopt
  | eopnotsupp
  | enotsock
  | einval
  | other
  deriving DecidableEq, Repr

/-- What `getsockopt` does: it fails, or sets the returned length and the members. -/
inductive Answer where
  | failed (errno : Errno)
  | returned (length : Nat) (info : TcpInfo)
  deriving DecidableEq, Repr

def Snapshot.copy (snapshot : Snapshot) (info : TcpInfo) (field : Field) : Snapshot :=
  let snapshot := { snapshot with present := snapshot.present ||| field.bit }
  match field with
  | .state => { snapshot with state := info.tcpiState }
  | .caState => { snapshot with caState := info.tcpiCaState }
  | .retransmits => { snapshot with retransmits := info.tcpiRetransmits }
  | .sndMss => { snapshot with sndMss := info.tcpiSndMss }
  | .rcvMss => { snapshot with rcvMss := info.tcpiRcvMss }
  | .unacked => { snapshot with unacked := info.tcpiUnacked }
  | .lost => { snapshot with lost := info.tcpiLost }
  | .rttUs => { snapshot with rttUs := info.tcpiRtt }
  | .rttvarUs => { snapshot with rttvarUs := info.tcpiRttvar }
  | .totalRetrans => { snapshot with totalRetrans := info.tcpiTotalRetrans }

/-- The fields in the order in which they are copied. -/
def Field.all : List Field :=
  [.state, .caState, .retransmits, .sndMss, .rcvMss, .unacked, .lost, .rttUs, .rttvarUs, .totalRetrans]

/-- `TCPIP_LINUX_L02_FIELD_AVAILABLE`; `ends` is the offset of each member plus its size, in the `struct tcp_info` of
the system. -/
def copyAvailable (ends : Field → Nat) (length : Nat) (info : TcpInfo) (snapshot : Snapshot) (field : Field) :
    Snapshot :=
  if length ≥ ends field then snapshot.copy info field else snapshot

def capture (fd : Int) (ends : Field → Nat) (answer : Answer) : Status × Snapshot :=
  if fd < 0 then (.invalidArgument, .cleared)
  else match answer with
    | .failed errno => (if errno = .other then .system else .unsupported, .cleared)
    | .returned length info => (.ok, Field.all.foldl (copyAvailable ends length info) .cleared)

/-! ## States -/

/-- The states of Linux by their numbers; `TCP_CLOSING` and `TCP_NEW_SYN_RECV` are folded into their neighbors. The
state is `CLOSED` with every other number. -/
def mapState (linuxState : UInt8) : Status × L07.TcpState :=
  match linuxState.toNat with
  | 7 => (.ok, .closed)
  | 10 => (.ok, .listen)
  | 2 => (.ok, .synSent)
  | 3 => (.ok, .synReceived)
  | 1 => (.ok, .established)
  | 4 => (.ok, .finWait1)
  | 5 => (.ok, .finWait2)
  | 8 => (.ok, .closeWait)
  | 9 => (.ok, .lastAck)
  | 6 => (.ok, .timeWait)
  | 11 => (.ok, .finWait1)
  | 12 => (.ok, .synReceived)
  | _ => (.unsupported, .closed)

/-! ## Invariants -/

inductive Violation where
  | missingState
  | unknownState
  | zeroSndMss
  | zeroRcvMss
  | zeroRtt
  | lostWithoutRetrans
  | unknownPresence
  deriving DecidableEq, Repr

def Violation.bit : Violation → UInt32
  | .missingState => 0x1
  | .unknownState => 0x2
  | .zeroSndMss => 0x4
  | .zeroRcvMss => 0x8
  | .zeroRtt => 0x10
  | .lostWithoutRetrans => 0x20
  | .unknownPresence => 0x40

structure Violations where
  bits : UInt32
  count : Nat
  deriving DecidableEq, Repr

def addViolation (violations : Violations) (violation : Violation) : Violations :=
  ⟨violations.bits ||| violation.bit,
    if violations.bits &&& violation.bit = 0 then violations.count + 1 else violations.count⟩

def knownPresence : UInt32 := mask Field.bit Field.all

def Snapshot.has (snapshot : Snapshot) (field : Field) : Bool := snapshot.present &&& field.bit ≠ 0

def checkInvariants (snapshot : Snapshot) : Violations :=
  let violations : Violations := ⟨0, 0⟩
  let violations :=
    if snapshot.present &&& ~~~knownPresence ≠ 0 then addViolation violations .unknownPresence else violations
  let violations :=
    if !snapshot.has .state then addViolation violations .missingState
    else if (mapState snapshot.state).1 ≠ .ok then addViolation violations .unknownState
    else violations
  let violations :=
    if snapshot.has .sndMss ∧ snapshot.sndMss = 0 then addViolation violations .zeroSndMss else violations
  let violations :=
    if snapshot.has .rcvMss ∧ snapshot.rcvMss = 0 then addViolation violations .zeroRcvMss else violations
  let violations :=
    if snapshot.has .rttUs ∧ snapshot.rttUs = 0 then addViolation violations .zeroRtt else violations
  if snapshot.has .lost ∧ snapshot.lost ≠ 0 ∧ (!snapshot.has .totalRetrans ∨ snapshot.totalRetrans = 0) ∧
      (!snapshot.has .retransmits ∨ snapshot.retransmits = 0) then
    addViolation violations .lostWithoutRetrans
  else violations

/-! ## What a snapshot has -/

theorem flags_field : Flags Field.bit where
  ne_zero f := by cases f <;> decide
  disjoint f g h := by cases f <;> cases g <;> first | rfl | exact absurd rfl h

theorem flags_violation : Flags Violation.bit where
  ne_zero f := by cases f <;> decide
  disjoint f g h := by cases f <;> cases g <;> first | rfl | exact absurd rfl h

def Snapshot.value (snapshot : Snapshot) : Field → Nat
  | .state => snapshot.state.toNat
  | .caState => snapshot.caState.toNat
  | .retransmits => snapshot.retransmits.toNat
  | .sndMss => snapshot.sndMss.toNat
  | .rcvMss => snapshot.rcvMss.toNat
  | .unacked => snapshot.unacked.toNat
  | .lost => snapshot.lost.toNat
  | .rttUs => snapshot.rttUs.toNat
  | .rttvarUs => snapshot.rttvarUs.toNat
  | .totalRetrans => snapshot.totalRetrans.toNat

/-- The member of the answer that a field is copied from. -/
def TcpInfo.value (info : TcpInfo) : Field → Nat
  | .state => info.tcpiState.toNat
  | .caState => info.tcpiCaState.toNat
  | .retransmits => info.tcpiRetransmits.toNat
  | .sndMss => info.tcpiSndMss.toNat
  | .rcvMss => info.tcpiRcvMss.toNat
  | .unacked => info.tcpiUnacked.toNat
  | .lost => info.tcpiLost.toNat
  | .rttUs => info.tcpiRtt.toNat
  | .rttvarUs => info.tcpiRttvar.toNat
  | .totalRetrans => info.tcpiTotalRetrans.toNat

theorem copy_present (snapshot : Snapshot) (info : TcpInfo) (field : Field) :
    (snapshot.copy info field).present = snapshot.present ||| field.bit := by
  cases field <;> rfl

theorem copy_value (snapshot : Snapshot) (info : TcpInfo) (field other : Field) :
    (snapshot.copy info field).value other = if other = field then info.value other else snapshot.value other := by
  cases field <;> cases other <;> rfl

section
variable (ends : Field → Nat) (length : Nat) (info : TcpInfo)

/-- The bits and the values of the fields that are covered, and nothing else. -/
theorem copies_spec (fields : List Field) :
    let snapshot := fields.foldl (copyAvailable ends length info) .cleared
    snapshot.present = mask Field.bit (fields.filter fun f => ends f ≤ length) ∧
      ∀ f, snapshot.value f = if f ∈ fields ∧ ends f ≤ length then info.value f else 0 := by
  induction fields using List.reverseRecOn with
  | nil =>
    refine ⟨rfl, fun f => ?_⟩
    cases f <;> rfl
  | append_singleton fields g ih =>
    obtain ⟨hpresent, hvalue⟩ := ih
    dsimp only
    rw [List.foldl_append, List.foldl_cons, List.foldl_nil, List.filter_append, copyAvailable]
    by_cases hends : ends g ≤ length
    · rw [if_pos hends, List.filter_cons_of_pos (by simpa using hends), List.filter_nil, mask_concat, copy_present,
        hpresent]
      refine ⟨rfl, fun f => ?_⟩
      rw [copy_value, hvalue]
      by_cases hf : f = g
      · subst hf
        rw [if_pos rfl, if_pos ⟨by simp, hends⟩]
      · rw [if_neg hf]
        simp [hf]
    · rw [if_neg hends, List.filter_cons_of_neg (by simpa using hends), List.filter_nil, List.append_nil]
      refine ⟨hpresent, fun f => ?_⟩
      rw [hvalue]
      by_cases hf : f = g
      · subst hf
        simp [hends]
      · simp [hf]

theorem mem_all (f : Field) : f ∈ Field.all := by cases f <;> decide

/-- What a successful capture leaves. -/
structure Captured (snapshot : Snapshot) : Prop where
  has : ∀ f, snapshot.has f = true ↔ ends f ≤ length
  value : ∀ f, snapshot.value f = if ends f ≤ length then info.value f else 0
  known : snapshot.present &&& ~~~knownPresence = 0

theorem captured_copies : Captured ends length info (Field.all.foldl (copyAvailable ends length info) .cleared) := by
  obtain ⟨hpresent, hvalue⟩ := copies_spec ends length info Field.all
  refine ⟨fun f => ?_, fun f => ?_, ?_⟩
  · unfold Snapshot.has
    rw [hpresent, decide_eq_true_iff, ne_eq, flags_field.mask_and_eq_zero_iff, not_not, List.mem_filter]
    simp [mem_all]
  · rw [hvalue]
    simp [mem_all]
  · rw [hpresent]
    apply mask_and_eq_zero
    intro f _
    cases f <;> decide

end

/-! ## What is reported -/

theorem mapState_ok_iff (linuxState : UInt8) :
    (mapState linuxState).1 = .ok ↔ 1 ≤ linuxState.toNat ∧ linuxState.toNat ≤ 12 := by
  unfold mapState
  split
  all_goals simp only [imp_false] at *
  all_goals simp
  all_goals omega

def Violates (snapshot : Snapshot) : Violation → Prop
  | .missingState => !snapshot.has .state
  | .unknownState => snapshot.has .state ∧ (mapState snapshot.state).1 ≠ .ok
  | .zeroSndMss => snapshot.has .sndMss ∧ snapshot.sndMss = 0
  | .zeroRcvMss => snapshot.has .rcvMss ∧ snapshot.rcvMss = 0
  | .zeroRtt => snapshot.has .rttUs ∧ snapshot.rttUs = 0
  | .lostWithoutRetrans => snapshot.has .lost ∧ snapshot.lost ≠ 0 ∧
      (!snapshot.has .totalRetrans ∨ snapshot.totalRetrans = 0) ∧
      (!snapshot.has .retransmits ∨ snapshot.retransmits = 0)
  | .unknownPresence => snapshot.present &&& ~~~knownPresence ≠ 0

instance (snapshot : Snapshot) : DecidablePred (Violates snapshot)
  | .missingState => inferInstanceAs (Decidable (_ = true))
  | .unknownState | .zeroSndMss | .zeroRcvMss | .zeroRtt | .lostWithoutRetrans => inferInstanceAs (Decidable (_ ∧ _))
  | .unknownPresence => inferInstanceAs (Decidable (_ ≠ _))

/-- The violations in the order in which they are looked for. -/
def Violation.all : List Violation :=
  [.unknownPresence, .missingState, .unknownState, .zeroSndMss, .zeroRcvMss, .zeroRtt, .lostWithoutRetrans]

theorem state_violations (snapshot : Snapshot) (violations : Violations) :
    (if !snapshot.has .state then addViolation violations .missingState
      else if (mapState snapshot.state).1 ≠ .ok then addViolation violations .unknownState
      else violations) =
    [.missingState, .unknownState].foldl (fun violations violation =>
      if Violates snapshot violation then addViolation violations violation else violations) violations := by
  simp only [List.foldl_cons, List.foldl_nil, Violates]
  by_cases hstate : snapshot.has .state = true
  · simp [hstate]
  · simp [hstate]

theorem checkInvariants_eq (snapshot : Snapshot) : checkInvariants snapshot =
    Violation.all.foldl (fun violations violation =>
      if Violates snapshot violation then addViolation violations violation else violations) ⟨0, 0⟩ := by
  unfold checkInvariants
  dsimp only
  rw [state_violations]
  rfl

theorem tally_violations {snapshot : Snapshot} {violations : List Violation} (hnodup : violations.Nodup) :
    let result := violations.foldl (fun violations violation =>
      if Violates snapshot violation then addViolation violations violation else violations) ⟨0, 0⟩
    Tally Violation.bit result.bits result.count (violations.filter fun v => Violates snapshot v) := by
  induction violations using List.reverseRecOn with
  | nil => exact ⟨rfl, rfl⟩
  | append_singleton violations v ih =>
    obtain ⟨hrest, -, hdisjoint⟩ := List.nodup_append.mp hnodup
    dsimp only
    rw [List.foldl_append, List.foldl_cons, List.foldl_nil, List.filter_append]
    by_cases hv : Violates snapshot v
    · rw [if_pos hv, List.filter_cons_of_pos (by simpa using hv), List.filter_nil]
      apply flags_violation.tally_concat (ih hrest)
      intro hmem
      exact hdisjoint v (List.mem_filter.mp hmem).1 v (by simp) rfl
    · rw [if_neg hv, List.filter_cons_of_neg (by simpa using hv), List.filter_nil, List.append_nil]
      exact ih hrest

/-- Each bit tells one invariant, and the number is that of the bits. -/
theorem checkInvariants_spec (snapshot : Snapshot) :
    (∀ v : Violation, (checkInvariants snapshot).bits &&& v.bit ≠ 0 ↔ Violates snapshot v) ∧
      (checkInvariants snapshot).count =
        (Violation.all.filter fun v => (checkInvariants snapshot).bits &&& v.bit ≠ 0).length := by
  obtain ⟨hbits, hcount⟩ := @tally_violations snapshot Violation.all (by decide)
  rw [← checkInvariants_eq] at hbits hcount
  have hbit : ∀ v : Violation, (checkInvariants snapshot).bits &&& v.bit ≠ 0 ↔ Violates snapshot v := by
    intro v
    rw [hbits, ne_eq, flags_violation.mask_and_eq_zero_iff, not_not, List.mem_filter, decide_eq_true_iff]
    exact and_iff_right (by cases v <;> decide)
  refine ⟨hbit, ?_⟩
  rw [hcount]
  apply congrArg
  apply List.filter_congr
  intro v _
  exact decide_eq_decide.mpr (hbit v).symm

/-- What is wrong with an answer, as far as it reaches. -/
def Wrong (ends : Field → Nat) (length : Nat) (info : TcpInfo) : Violation → Prop
  | .missingState => length < ends .state
  | .unknownState => ends .state ≤ length ∧ (info.tcpiState.toNat = 0 ∨ 12 < info.tcpiState.toNat)
  | .zeroSndMss => ends .sndMss ≤ length ∧ info.tcpiSndMss = 0
  | .zeroRcvMss => ends .rcvMss ≤ length ∧ info.tcpiRcvMss = 0
  | .zeroRtt => ends .rttUs ≤ length ∧ info.tcpiRtt = 0
  | .lostWithoutRetrans => ends .lost ≤ length ∧ info.tcpiLost ≠ 0 ∧
      (ends .totalRetrans ≤ length → info.tcpiTotalRetrans = 0) ∧
      (ends .retransmits ≤ length → info.tcpiRetransmits = 0)
  | .unknownPresence => False

theorem Captured.value_eq {ends : Field → Nat} {length : Nat} {info : TcpInfo} {snapshot : Snapshot}
    (h : Captured ends length info snapshot) {f : Field} (hends : ends f ≤ length) :
    snapshot.value f = info.value f := by
  rw [h.value, if_pos hends]

theorem Captured.violates_iff {ends : Field → Nat} {length : Nat} {info : TcpInfo} {snapshot : Snapshot}
    (h : Captured ends length info snapshot) (v : Violation) : Violates snapshot v ↔ Wrong ends length info v := by
  have hword : ∀ {a b : UInt32}, a.toNat = b.toNat → (a = 0 ↔ b = 0) := fun hab => by rw [UInt32.toNat_inj.mp hab]
  have hbyte : ∀ {a b : UInt8}, a.toNat = b.toNat → (a = 0 ↔ b = 0) := fun hab => by rw [UInt8.toNat_inj.mp hab]
  cases v with
  | missingState =>
    simp only [Violates, Wrong, Bool.not_eq_true', ← Bool.not_eq_true, h.has]
    omega
  | unknownState =>
    simp only [Violates, Wrong, h.has, ne_eq, mapState_ok_iff]
    refine and_congr_right fun hends => ?_
    have hvalue : snapshot.state.toNat = info.tcpiState.toNat := h.value_eq hends
    omega
  | zeroSndMss =>
    simp only [Violates, Wrong, h.has]
    exact and_congr_right fun hends => hword (h.value_eq hends)
  | zeroRcvMss =>
    simp only [Violates, Wrong, h.has]
    exact and_congr_right fun hends => hword (h.value_eq hends)
  | zeroRtt =>
    simp only [Violates, Wrong, h.has]
    exact and_congr_right fun hends => hword (h.value_eq hends)
  | lostWithoutRetrans =>
    simp only [Violates, Wrong, Bool.not_eq_true', ← Bool.not_eq_true, h.has]
    refine and_congr_right fun hlost => and_congr (not_congr (hword (h.value_eq hlost))) (and_congr ?_ ?_)
    · rw [← imp_iff_not_or]
      exact imp_congr_right fun hends => hword (h.value_eq hends)
    · rw [← imp_iff_not_or]
      exact imp_congr_right fun hends => hbyte (h.value_eq hends)
  | unknownPresence => exact iff_of_false (not_not.mpr h.known) id

end TcpipCourse.LinuxL02
