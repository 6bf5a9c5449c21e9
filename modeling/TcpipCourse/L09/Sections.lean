import TcpipCourse.Lib.Reads
import TcpipCourse.L09.Stable

/-!
# Lesson 09: the first A record against a reference parser

* `firstAReply` : `tcpip_l09_first_a` with its 16-bit loop counters and with what it leaves in `out` and `ttl`;
  `firstAReply_eq` : it is `firstA`, with cleared outputs on an error;
* `QuestionAt`, `RecordAt` : one question and one complete record; `FirstAAt` : the record that should be found;
* `skipQuestions_iff`, `readRecord_iff`, `scanAnswers_of_reads` : the loops read what the reference parser reads;
* `firstA_reference` : the main result.
-/

namespace TcpipCourse.L09
open Lib

/-! ## Counters and outputs -/

section Loops
variable (message : Bytes)

/-- A counter below a 16-bit bound can be raised: it does not wrap. -/
theorem toNat_succ_of_lt {index count : UInt16} (h : index < count) : (index + 1).toNat = index.toNat + 1 := by
  have hlt := UInt16.lt_iff_toNat_lt.mp h
  have hcount := count.toNat_lt
  rw [UInt16.toNat_add, show UInt16.toNat 1 = 1 from rfl]
  omega

theorem remaining_succ {index count : UInt16} (h : index < count) :
    count.toNat - index.toNat = count.toNat - (index + 1).toNat + 1 := by
  have hlt := UInt16.lt_iff_toNat_lt.mp h
  rw [toNat_succ_of_lt h]
  omega

theorem remaining_zero {index count : UInt16} (h : ¬ index < count) : count.toNat - index.toNat = 0 := by
  rw [UInt16.lt_iff_toNat_lt] at h
  omega

/-- `for (index = 0U; index < header.question_count; index += 1U)` -/
def questionLoop (count index : UInt16) (cursor : Nat) : Except Status Nat :=
  if _h : index < count then
    match skipName message cursor with
    | .error status => .error status
    | .ok cursor =>
      if cursor > message.length ∨ message.length - cursor < 4 then .error .truncated
      else questionLoop count (index + 1) (cursor + 4)
  else .ok cursor
termination_by count.toNat - index.toNat
decreasing_by
  rw [remaining_succ _h]
  exact Nat.lt_succ_self _

/-- `for (index = 0U; index < header.answer_count; index += 1U)`, and the `return` behind it. -/
def answerLoop (count index : UInt16) (cursor : Nat) (stored : Answer) : Status × Answer :=
  if _h : index < count then
    match readRecord message cursor with
    | .error status => (status, stored)
    | .ok record =>
      if record.type = 1 ∧ record.recordClass = 1 then
        if record.dataLen ≠ 4 then (.malformed, stored)
        else (.ok, ⟨overwrite stored.out 0 (slice message record.cursor 4), record.recordTtl⟩)
      else answerLoop count (index + 1) (record.cursor + record.dataLen.toNat) stored
  else (.malformed, stored)
termination_by count.toNat - index.toNat
decreasing_by
  rw [remaining_succ _h]
  exact Nat.lt_succ_self _

def clearedAnswer : Answer := ⟨List.replicate 4 0, 0⟩

/-- The status, and what the two outputs hold on return. -/
def firstAReply : Status × Answer :=
  let stored := clearedAnswer
  match parseMessage message with
  | .error status => (status, stored)
  | .ok header =>
    if header.flags &&& 0x8000 = 0 ∨ header.flags &&& 0x7800 ≠ 0 ∨ header.flags &&& 0x0040 ≠ 0 then
      (.malformed, stored)
    else if header.flags &&& 0x0200 ≠ 0 then (.truncated, stored)
    else if header.rcode ≠ 0 then (.malformed, stored)
    else
      match questionLoop message header.questionCount 0 dnsHeaderSize with
      | .error status => (status, stored)
      | .ok cursor => answerLoop message header.answerCount 0 cursor stored

/-- An outcome with the outputs as they are left. -/
def replyOf : Except Status Answer → Status × Answer
  | .error status => (status, clearedAnswer)
  | .ok answer => (.ok, answer)

end Loops

section Counters
variable {message : Bytes}

theorem questionLoop_eq (count index : UInt16) (cursor : Nat) :
    questionLoop message count index cursor = skipQuestions message (count.toNat - index.toNat) cursor := by
  induction index, cursor using questionLoop.induct message count with
  | case1 index cursor h status hname =>
    rw [questionLoop, dif_pos h, hname, remaining_succ h, skipQuestions, hname]
  | case2 index cursor h next hname hshort =>
    rw [questionLoop, dif_pos h, hname, remaining_succ h, skipQuestions, hname]
    simp only [hshort, if_true]
  | case3 index cursor h next hname hroom ih =>
    rw [questionLoop, dif_pos h, hname, remaining_succ h, skipQuestions, hname]
    simp only [hroom, if_false]
    exact ih
  | case4 index cursor h => rw [questionLoop, dif_neg h, remaining_zero h, skipQuestions]

theorem answerLoop_eq (count index : UInt16) (cursor : Nat) :
    answerLoop message count index cursor clearedAnswer =
      replyOf (scanAnswers message (count.toNat - index.toNat) cursor) := by
  induction index, cursor using answerLoop.induct message count with
  | case1 index cursor h status hrecord =>
    rw [answerLoop, dif_pos h, hrecord, remaining_succ h, scanAnswers, hrecord]
    rfl
  | case2 index cursor h record hrecord ha hlen =>
    rw [answerLoop, dif_pos h, hrecord, remaining_succ h, scanAnswers, hrecord]
    dsimp only
    rw [if_pos ha, if_pos hlen, if_pos ha, if_pos hlen]
    rfl
  | case3 index cursor h record hrecord ha hlen =>
    rw [answerLoop, dif_pos h, hrecord, remaining_succ h, scanAnswers, hrecord]
    have hfour : record.dataLen.toNat = 4 := congrArg UInt16.toNat (not_not.mp hlen)
    have hbounds := readRecord_bounds hrecord
    have hslice : (slice message record.cursor 4).length = 4 := length_slice (by omega)
    have hstored : overwrite clearedAnswer.out 0 (slice message record.cursor 4) = slice message record.cursor 4 := by
      rw [overwrite_zero_append _ _ (by rw [hslice]; exact Nat.le_refl _), hslice]
      exact List.append_nil _
    dsimp only
    rw [if_pos ha, if_neg hlen, if_pos ha, if_neg hlen, hstored]
    rfl
  | case4 index cursor h record hrecord ha ih =>
    rw [answerLoop, dif_pos h, hrecord, remaining_succ h, scanAnswers, hrecord]
    simp only [ha, if_false]
    exact ih
  | case5 index cursor h =>
    rw [answerLoop, dif_neg h, remaining_zero h, scanAnswers]
    rfl

/-- The counters do not wrap, and the outputs are written only on success. -/
theorem firstAReply_eq (message : Bytes) : firstAReply message = replyOf (firstA message) := by
  unfold firstAReply firstA
  dsimp only
  cases parseMessage message with
  | error status => rfl
  | ok header =>
    dsimp only
    split
    · rfl
    · split
      · rfl
      · split
        · rfl
        · rw [questionLoop_eq, show UInt16.toNat 0 = 0 from rfl, Nat.sub_zero]
          cases skipQuestions message header.questionCount.toNat dnsHeaderSize with
          | error status => rfl
          | ok cursor => exact answerLoop_eq header.answerCount 0 cursor

end Counters

/-! ## Errors -/

section Errors
variable {message : Bytes} {status : Status}

theorem skipName_error {cursor : Nat} (h : skipName message cursor = .error status) : status ≠ .ok := by
  unfold skipName at h
  dsimp only at h
  split at h
  · next hno =>
    cases h
    exact hno
  · cases h

theorem skipQuestions_error (count : Nat) : ∀ {cursor : Nat}, skipQuestions message count cursor = .error status →
    status ≠ .ok := by
  induction count with
  | zero =>
    intro cursor h
    cases h
  | succ count ih =>
    intro cursor h
    rw [skipQuestions] at h
    cases hname : skipName message cursor with
    | error status' =>
      rw [hname] at h
      cases h
      exact skipName_error hname
    | ok fields =>
      rw [hname] at h
      dsimp only at h
      split at h
      · cases h
        decide
      · exact ih h

theorem readRecord_error {cursor : Nat} (h : readRecord message cursor = .error status) : status ≠ .ok := by
  unfold readRecord at h
  cases hname : skipName message cursor with
  | error status' =>
    rw [hname] at h
    cases h
    exact skipName_error hname
  | ok fields =>
    rw [hname] at h
    dsimp only at h
    split at h
    · cases h
      decide
    · split at h
      · cases h
        decide
      · cases h

theorem scanAnswers_error (count : Nat) : ∀ {cursor : Nat}, scanAnswers message count cursor = .error status →
    status ≠ .ok := by
  induction count with
  | zero =>
    intro cursor h
    cases h
    decide
  | succ count ih =>
    intro cursor h
    rw [scanAnswers] at h
    cases hrecord : readRecord message cursor with
    | error status' =>
      rw [hrecord] at h
      cases h
      exact readRecord_error hrecord
    | ok record =>
      rw [hrecord] at h
      dsimp only at h
      split at h
      · split at h
        · cases h
          decide
        · cases h
      · exact ih h

end Errors

/-! ## The reference parser -/

/-- A name is decoded at `offset`, and what follows it starts at `next`. -/
def NameAt (message : Bytes) (offset next : Nat) : Prop :=
  let name := decodeName message offset (List.replicate (maxTextName + 1) 0)
  name.status = .ok ∧ name.nextOffset = next

/-- A question: a name, then its type and its class. -/
def QuestionAt (message : Bytes) (offset : Nat) (question : UInt16 × UInt16) (next : Nat) : Prop :=
  ∃ fields, NameAt message offset fields ∧ fields + 4 ≤ message.length ∧
    question = (readU16 message fields, readU16 message (fields + 2)) ∧ next = fields + 4

/-- A complete record: a name, ten bytes of fixed fields, and the data. -/
def RecordAt (message : Bytes) (offset : Nat) (record : RecordFields) (next : Nat) : Prop :=
  ∃ fields, NameAt message offset fields ∧ fields + 10 ≤ message.length ∧
    record =
      { type := readU16 message fields
        recordClass := readU16 message (fields + 2)
        recordTtl := readU32 message (fields + 4)
        dataLen := readU16 message (fields + 8)
        cursor := fields + 10 } ∧
    next = record.cursor + record.dataLen.toNat ∧ next ≤ message.length

def RecordFields.IsA (record : RecordFields) : Prop := record.type = 1 ∧ record.recordClass = 1

/-- The questions are complete, and the answers start at `cursor`. -/
def AnswersAt (message : Bytes) (cursor : Nat) : Prop :=
  ∃ questions, questions.length = (readU16 message 4).toNat ∧
    Reads (QuestionAt message) dnsHeaderSize questions cursor

/-- `record` is the first of the counted answers that is an A record: it, all records before it and all questions are
complete. -/
def FirstAAt (message : Bytes) (record : RecordFields) : Prop :=
  ∃ cursor before next, AnswersAt message cursor ∧ Reads (RecordAt message) cursor (before ++ [record]) next ∧
    before.length < (readU16 message 6).toNat ∧ (∀ r ∈ before, ¬ r.IsA) ∧ record.IsA

/-- All questions and all counted answers are complete, and no answer is an A record. -/
def NoAAt (message : Bytes) : Prop :=
  ∃ cursor records next, AnswersAt message cursor ∧ Reads (RecordAt message) cursor records next ∧
    records.length = (readU16 message 6).toNat ∧ ∀ r ∈ records, ¬ r.IsA

/-- A successful, untruncated standard response: QR set; opcode, Z, TC and RCODE zero. -/
structure StandardResponse (message : Bytes) : Prop where
  header : dnsHeaderSize ≤ message.length
  qr : readU16 message 2 &&& 0x8000 ≠ 0
  opcode : readU16 message 2 &&& 0x7800 = 0
  z : readU16 message 2 &&& 0x0040 = 0
  tc : readU16 message 2 &&& 0x0200 = 0
  rcode : readU16 message 2 &&& 0x000f = 0

/-! ## The loops against it -/

section Reference
variable {message : Bytes}

theorem nameAt_of_internal {offset : Nat} {name : DecodedName} (h : decodeNameInternal message offset = .ok name) :
    NameAt message offset name.nextOffset := by
  obtain ⟨labels, hops, hexpands, -, hwire, hdecoded⟩ := decodeNameInternal_sound h
  have hin := hexpands.lt_length
  have htext := length_textName_le hwire
  have hmax : maxTextName = 253 := rfl
  unfold NameAt decodeName
  rw [if_neg (by omega), h]
  dsimp only
  rw [if_neg (by rw [hdecoded, List.length_append, List.length_replicate, List.length_singleton]; omega)]
  exact ⟨rfl, rfl⟩

theorem skipName_iff {cursor next : Nat} : skipName message cursor = .ok next ↔ NameAt message cursor next := by
  unfold skipName NameAt
  dsimp only
  split
  · next hno => simp [hno]
  · next hok => simp [not_not.mp hok]

theorem skipQuestions_iff (count : Nat) : ∀ {cursor next : Nat}, skipQuestions message count cursor = .ok next ↔
    ∃ questions, questions.length = count ∧ Reads (QuestionAt message) cursor questions next := by
  induction count with
  | zero =>
    intro cursor next
    simp [skipQuestions, reads_nil_iff]
  | succ count ih =>
    intro cursor next
    constructor
    · intro h
      rw [skipQuestions] at h
      cases hname : skipName message cursor with
      | error status =>
        rw [hname] at h
        cases h
      | ok fields =>
        rw [hname] at h
        dsimp only at h
        split at h
        · cases h
        · next hroom =>
          obtain ⟨questions, hlen, hreads⟩ := ih.mp h
          refine ⟨(readU16 message fields, readU16 message (fields + 2)) :: questions, by simp [hlen], ?_⟩
          exact .cons ⟨fields, skipName_iff.mp hname, by omega, rfl, rfl⟩ hreads
    · rintro ⟨questions, hlen, hreads⟩
      obtain ⟨question, questions, rfl⟩ := List.exists_cons_of_length_eq_add_one hlen
      obtain ⟨_, ⟨fields, hname, hroom, -, rfl⟩, hrest⟩ := reads_cons_iff.mp hreads
      rw [skipQuestions, skipName_iff.mpr hname]
      dsimp only
      rw [if_neg (by omega)]
      exact ih.mpr ⟨questions, by simpa using hlen, hrest⟩

theorem readRecord_iff {cursor : Nat} {record : RecordFields} :
    readRecord message cursor = .ok record ↔
      RecordAt message cursor record (record.cursor + record.dataLen.toNat) := by
  constructor
  · intro h
    have hbounds := readRecord_bounds h
    unfold readRecord at h
    cases hname : skipName message cursor with
    | error status =>
      rw [hname] at h
      cases h
    | ok fields =>
      rw [hname] at h
      dsimp only at h
      split at h
      · cases h
      · split at h
        · cases h
        · cases h
          exact ⟨fields, skipName_iff.mp hname, by omega, rfl, rfl, hbounds⟩
  · rintro ⟨fields, hname, hroom, rfl, -, hfits⟩
    unfold readRecord
    rw [skipName_iff.mpr hname]
    dsimp only at hfits ⊢
    rw [if_neg (by omega), if_neg (by omega)]

/-- Records that are no A records are passed over, as far as the count goes. -/
theorem scanAnswers_of_reads {records : List RecordFields} (hno : ∀ r ∈ records, ¬ r.IsA) (count : Nat) :
    ∀ {cursor next : Nat}, Reads (RecordAt message) cursor records next →
      scanAnswers message (records.length + count) cursor = scanAnswers message count next := by
  induction records with
  | nil =>
    intro cursor next h
    rw [reads_nil_iff.mp h, List.length_nil, Nat.zero_add]
  | cons record records ih =>
    intro cursor next h
    obtain ⟨middle, hrecord, hrest⟩ := reads_cons_iff.mp h
    obtain ⟨-, -, -, -, hmiddle, -⟩ := id hrecord
    subst hmiddle
    have hhead : ¬ (record.type = 1 ∧ record.recordClass = 1) := hno record List.mem_cons_self
    rw [List.length_cons, Nat.add_right_comm, scanAnswers, readRecord_iff.mpr hrecord]
    dsimp only
    rw [if_neg hhead]
    exact ih (fun r hr => hno r (List.mem_cons_of_mem _ hr)) hrest

theorem scanAnswers_firstA {before : List RecordFields} {record : RecordFields} {cursor next count : Nat}
    (hno : ∀ r ∈ before, ¬ r.IsA) (ha : record.IsA) (hcount : before.length < count)
    (h : Reads (RecordAt message) cursor (before ++ [record]) next) :
    scanAnswers message count cursor =
      if record.dataLen ≠ 4 then .error .malformed else .ok ⟨slice message record.cursor 4, record.recordTtl⟩ := by
  obtain ⟨middle, hbefore, hrecord⟩ := reads_append_iff.mp h
  obtain ⟨_, hrecord, -⟩ := reads_cons_iff.mp hrecord
  obtain ⟨-, -, -, -, hend, -⟩ := id hrecord
  subst hend
  rw [show count = before.length + (count - before.length - 1 + 1) by omega, scanAnswers_of_reads hno _ hbefore,
    scanAnswers, readRecord_iff.mpr hrecord]
  dsimp only
  rw [if_pos (show record.type = 1 ∧ record.recordClass = 1 from ha)]

/-- A scan that succeeds has passed over complete records and stopped at a complete A record of four bytes. -/
theorem scanAnswers_ok {answer : Answer} (count : Nat) :
    ∀ {cursor : Nat}, scanAnswers message count cursor = .ok answer →
      ∃ before record next, Reads (RecordAt message) cursor (before ++ [record]) next ∧ before.length < count ∧
        (∀ r ∈ before, ¬ r.IsA) ∧ record.IsA ∧ record.dataLen = 4 := by
  induction count with
  | zero =>
    intro cursor h
    cases h
  | succ count ih =>
    intro cursor h
    rw [scanAnswers] at h
    cases hrecord : readRecord message cursor with
    | error status =>
      rw [hrecord] at h
      cases h
    | ok record =>
      have hat := readRecord_iff.mp hrecord
      rw [hrecord] at h
      dsimp only at h
      split at h
      · next ha =>
        split at h
        · cases h
        · next hfour =>
          refine ⟨[], record, _, .cons hat (.nil _), Nat.succ_pos _, by simp, ha, not_not.mp hfour⟩
      · next hnot =>
        obtain ⟨before, found, next, hreads, hlt, hno, ha, hfour⟩ := ih h
        refine ⟨record :: before, found, next, .cons hat hreads, by simpa using hlt, ?_, ha, hfour⟩
        exact List.forall_mem_cons.mpr ⟨hnot, hno⟩

theorem firstA_eq (h : StandardResponse message) :
    firstA message = (skipQuestions message (readU16 message 4).toNat dnsHeaderSize).bind
      (scanAnswers message (readU16 message 6).toNat) := by
  have hheader := h.header
  have hrcode : ¬ (readU16 message 2 &&& 0x000f).toUInt8 ≠ 0 := by
    rw [h.rcode]
    decide
  unfold firstA parseMessage
  rw [if_neg (by omega)]
  dsimp only
  rw [if_neg (by simp [h.qr, h.opcode, h.z]), if_neg (by simp [h.tc]), if_neg hrcode]
  cases skipQuestions message (readU16 message 4).toNat dnsHeaderSize with
  | error status => rfl
  | ok cursor => rfl

/-- A message with a header is reported truncated for its TC bit, or after it has passed all header checks. -/
theorem firstA_truncated (hheader : dnsHeaderSize ≤ message.length) (h : firstA message = .error .truncated) :
    readU16 message 2 &&& 0x0200 ≠ 0 ∨ StandardResponse message := by
  unfold firstA parseMessage at h
  rw [if_neg (by omega)] at h
  dsimp only at h
  split at h
  · cases h
  · next hflags =>
    rw [not_or, not_or, not_not, not_not] at hflags
    split at h
    · next htc => exact .inl htc
    · next htc =>
      split at h
      · cases h
      · next hrcode =>
        rw [not_not, ← UInt8.toNat_inj, UInt16.toNat_toUInt8, UInt16.toNat_and,
          show UInt16.toNat 0x000f = 2 ^ 4 - 1 from rfl, Nat.and_two_pow_sub_one_eq_mod] at hrcode
        refine .inr ⟨hheader, hflags.1, hflags.2.1, hflags.2.2, not_not.mp htc, ?_⟩
        rw [← UInt16.toNat_inj, UInt16.toNat_and, show UInt16.toNat 0x000f = 2 ^ 4 - 1 from rfl,
          Nat.and_two_pow_sub_one_eq_mod]
        exact (Nat.mod_eq_of_lt (by omega)).symm.trans hrcode

theorem firstA_error (h : StandardResponse message) {status : Status} (herror : firstA message = .error status) :
    status ≠ .ok := by
  rw [firstA_eq h] at herror
  cases hquestions : skipQuestions message (readU16 message 4).toNat dnsHeaderSize with
  | error status' =>
    rw [hquestions] at herror
    cases herror
    exact skipQuestions_error _ hquestions
  | ok cursor =>
    rw [hquestions, Except.bind] at herror
    exact scanAnswers_error _ herror

theorem firstA_of_firstAAt (h : StandardResponse message) {record : RecordFields} (hfirst : FirstAAt message record) :
    firstA message =
      if record.dataLen ≠ 4 then .error .malformed else .ok ⟨slice message record.cursor 4, record.recordTtl⟩ := by
  obtain ⟨cursor, before, next, hquestions, hreads, hlt, hno, ha⟩ := hfirst
  rw [firstA_eq h, (skipQuestions_iff _).mpr hquestions]
  exact scanAnswers_firstA hno ha hlt hreads

theorem firstA_of_noAAt (h : StandardResponse message) (hnone : NoAAt message) :
    firstA message = .error .malformed := by
  obtain ⟨cursor, records, next, hquestions, hreads, hlen, hno⟩ := hnone
  rw [firstA_eq h, (skipQuestions_iff _).mpr hquestions, Except.bind, ← hlen,
    ← Nat.add_zero records.length, scanAnswers_of_reads hno 0 hreads]
  rfl

theorem firstA_ok (h : StandardResponse message) {answer : Answer} (hok : firstA message = .ok answer) :
    ∃ record, FirstAAt message record ∧ record.dataLen = 4 := by
  rw [firstA_eq h] at hok
  cases hquestions : skipQuestions message (readU16 message 4).toNat dnsHeaderSize with
  | error status =>
    rw [hquestions] at hok
    cases hok
  | ok cursor =>
    rw [hquestions, Except.bind] at hok
    obtain ⟨before, record, next, hreads, hlt, hno, ha, hfour⟩ := scanAnswers_ok _ hok
    exact ⟨record, ⟨cursor, before, next, (skipQuestions_iff _).mp hquestions, hreads, hlt, hno, ha⟩, hfour⟩

end Reference

/-- **The first A record is the reference parser's.** On a standard response `first_a` succeeds exactly when the first
A record is reached complete and has four bytes of data, and returns these and its TTL; it is malformed when that
record has complete data of another length, or when all counted answers are complete and none is an A record. On any
message, an outcome other than success leaves the address and the TTL cleared. -/
theorem firstA_reference (message : Bytes) :
    (StandardResponse message →
      ((firstAReply message).1 = .ok ↔ ∃ record, FirstAAt message record ∧ record.dataLen = 4) ∧
        (∀ record, FirstAAt message record → record.dataLen = 4 →
          firstAReply message = (.ok, ⟨slice message record.cursor 4, record.recordTtl⟩)) ∧
        (∀ record, FirstAAt message record → record.dataLen ≠ 4 → (firstAReply message).1 = .malformed) ∧
        (NoAAt message → (firstAReply message).1 = .malformed)) ∧
      ((firstAReply message).1 ≠ .ok → (firstAReply message).2 = ⟨[0, 0, 0, 0], 0⟩) := by
  rw [firstAReply_eq]
  refine ⟨fun h => ⟨⟨fun hok => ?_, ?_⟩, ?_, ?_, ?_⟩, fun hno => ?_⟩
  · cases hfirst : firstA message with
    | error status =>
      rw [hfirst] at hok
      exact absurd hok (firstA_error h hfirst)
    | ok answer => exact firstA_ok h hfirst
  · rintro ⟨record, hfirst, hfour⟩
    rw [firstA_of_firstAAt h hfirst, if_neg (not_not.mpr hfour)]
    rfl
  · intro record hfirst hfour
    rw [firstA_of_firstAAt h hfirst, if_neg (not_not.mpr hfour)]
    rfl
  · intro record hfirst hother
    rw [firstA_of_firstAAt h hfirst, if_pos hother]
    rfl
  · intro hnone
    rw [firstA_of_noAAt h hnone]
    rfl
  · cases hfirst : firstA message with
    | error status => rfl
    | ok answer =>
      rw [hfirst] at hno
      exact absurd rfl hno

/-- One answer, an A record of the root. -/
theorem firstA_reference_root :
    firstAReply [0, 0, 128, 0, 0, 0, 0, 1, 0, 0, 0, 0, 0, 0, 1, 0, 1, 0, 0, 0, 5, 0, 4, 10, 0, 0, 1] =
      (.ok, ⟨[10, 0, 0, 1], 5⟩) := by
  refine ((firstA_reference _).1 ⟨by decide, by decide, by decide, by decide, by decide, by decide⟩).2.1
    ⟨1, 1, 5, 4, 23⟩ ?_ rfl
  have hname := nameAt_of_internal (@decodeNameInternal_complete
    [0, 0, 128, 0, 0, 0, 0, 1, 0, 0, 0, 0, 0, 0, 1, 0, 1, 0, 0, 0, 5, 0, 4, 10, 0, 0, 1] 12 0 13 []
    (.root rfl) (by decide) (by decide))
  refine ⟨12, [], 27, ⟨[], rfl, .nil _⟩, reads_cons_iff.mpr ⟨27, ?_, .nil _⟩, by decide, ?_, ⟨rfl, rfl⟩⟩
  · exact ⟨13, hname, by decide, rfl, rfl, by decide⟩
  · simp

end TcpipCourse.L09
