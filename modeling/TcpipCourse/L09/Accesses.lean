import TcpipCourse.Lib.Logged
import TcpipCourse.L09.Sections

/-!
# Lesson 09: what a walk does with the message

The walk to the first A record, once more, with a log: where it subtracts the cursor from the length of the message,
what it reads, and from where to where it completes a question or a record.

* `Access`, `Access.Safe` : the events, and that they stay inside a message of a given length;
* `…Logged` : the functions with their log; `…Logged_value` : what they return;
* `Expands.bounds`, `decodeNameInternal_bounds` : the next offset lies behind the offset and inside the message;
* `firstALogged_safe`, `firstALogged_count` : no access is unsafe, and few entries are completed.
-/

namespace TcpipCourse.L09
open Lib Logged

/-! ## The events -/

inductive Access where
  /-- `message_len - cursor` -/
  | minus (cursor : Nat)
  /-- `size` bytes from `offset` on -/
  | read (offset size : Nat)
  | question (start next : Nat)
  | record (start next : Nat)
  deriving DecidableEq, Repr

/-- No subtraction wraps, no read leaves the message, and the cursor is moved on by a whole entry. -/
def Access.Safe (len : Nat) : Access → Prop
  | minus cursor => cursor ≤ len
  | read offset size => offset + size ≤ len
  | question start next => start + 5 ≤ next ∧ next ≤ len
  | record start next => start + 11 ≤ next ∧ next ≤ len

/-- A question or a record was completed. -/
def Access.completes : Access → Bool
  | minus _ | read _ _ => false
  | question _ _ | record _ _ => true

def minus (len cursor : Nat) : Logged Access Nat := ⟨[.minus cursor], len - cursor⟩

def readByte (bytes : Bytes) (offset : Nat) : Logged Access UInt8 := ⟨[.read offset 1], bytes.getD offset 0⟩

def readField16 (bytes : Bytes) (offset : Nat) : Logged Access UInt16 := ⟨[.read offset 2], readU16 bytes offset⟩

def readField32 (bytes : Bytes) (offset : Nat) : Logged Access UInt32 := ⟨[.read offset 4], readU32 bytes offset⟩

def readSpan (bytes : Bytes) (offset size : Nat) : Logged Access Bytes := ⟨[.read offset size], slice bytes offset size⟩

section
variable {len cursor offset size : Nat} {bytes : Bytes} {P : Access → Prop}

@[simp] theorem value_minus : (minus len cursor).value = len - cursor := rfl

@[simp] theorem value_readByte : (readByte bytes offset).value = bytes.getD offset 0 := rfl

@[simp] theorem value_readField16 : (readField16 bytes offset).value = readU16 bytes offset := rfl

@[simp] theorem value_readField32 : (readField32 bytes offset).value = readU32 bytes offset := rfl

@[simp] theorem value_readSpan : (readSpan bytes offset size).value = slice bytes offset size := rfl

@[simp] theorem all_minus : All P (minus len cursor) ↔ P (.minus cursor) := all_mk _ _

@[simp] theorem all_readByte : All P (readByte bytes offset) ↔ P (.read offset 1) := all_mk _ _

@[simp] theorem all_readField16 : All P (readField16 bytes offset) ↔ P (.read offset 2) := all_mk _ _

@[simp] theorem all_readField32 : All P (readField32 bytes offset) ↔ P (.read offset 4) := all_mk _ _

@[simp] theorem all_readSpan : All P (readSpan bytes offset size) ↔ P (.read offset size) := all_mk _ _

end

/-! ## Names -/

section Names
variable (message : Bytes)

def followPointerLogged (st : DecodeState) (length : UInt8) : Logged Access Turn := do
  let room ← minus message.length st.cursor
  if room < 2 then return .fail .truncated
  else
    let low ← readByte message (st.cursor + 1)
    let target := pointerTarget length low
    if target.val ≥ message.length then return .fail .malformed
    else
      let nextOffset := st.nextOffset.getD (st.cursor + 2)
      if visitedGet st.visited target then return .fail .malformed
      else
        let pointerHops := st.pointerHops + 1
        if pointerHops > maxPointerHops then return .fail .malformed
        else return .again { st with cursor := target.val, nextOffset := some nextOffset,
                                     visited := visitedSet st.visited target, pointerHops := pointerHops }

/-- Only the `memcpy` of the label touches the message. -/
def copyLabelLogged (st : DecodeState) (length : UInt8) : Logged Access Turn := do
  let cursor := st.cursor + 1
  let room ← minus message.length cursor
  if length.toNat > room then return .fail .truncated
  else if st.expandedWireLen > maxWireName - (length.toNat + 1) then return .fail .malformed
  else
    let label ← readSpan message cursor length.toNat
    match appendLabel st.decoded label with
    | .error status => return .fail status
    | .ok decoded => return .again { st with cursor := cursor + length.toNat, decoded := decoded,
                                             expandedWireLen := st.expandedWireLen + (length.toNat + 1) }

def decodeStepLogged (st : DecodeState) : Logged Access Turn := do
  if st.cursor ≥ message.length then return .fail .truncated
  else
    let length ← readByte message st.cursor
    if length &&& 0xc0 = 0xc0 then followPointerLogged message st length
    else if length &&& 0xc0 ≠ 0 then return .fail .malformed
    else if length = 0 then
      if st.expandedWireLen + 1 > maxWireName then return .fail .malformed
      else return .done ⟨st.decoded ++ [0], st.nextOffset.getD (st.cursor + 1)⟩
    else copyLabelLogged message st length

end Names

theorem followPointerLogged_value (message : Bytes) (st : DecodeState) (length : UInt8) :
    (followPointerLogged message st length).value = followPointer message st length := by
  simp only [followPointerLogged, value_bind, value_ite, value_pure]
  rfl

theorem copyLabelLogged_value (message : Bytes) (st : DecodeState) (length : UInt8) :
    (copyLabelLogged message st length).value = copyLabel message st length := by
  simp only [copyLabelLogged, value_bind, value_ite, value_pure]
  unfold copyLabel
  dsimp only
  rw [value_readSpan]
  cases appendLabel st.decoded (slice message (st.cursor + 1) length.toNat) <;> rfl

theorem decodeStepLogged_value (message : Bytes) (st : DecodeState) :
    (decodeStepLogged message st).value = decodeStep message st := by
  simp only [decodeStepLogged, value_bind, value_ite, value_pure, followPointerLogged_value, copyLabelLogged_value]
  rfl

def decodeLoopLogged (message : Bytes) (st : DecodeState) : Logged Access (Except Status DecodedName) :=
  let turn := decodeStepLogged message st
  match _h : turn.value with
  | .fail status => ⟨turn.log, .error status⟩
  | .done name => ⟨turn.log, .ok name⟩
  | .again st' => ⟨turn.log ++ (decodeLoopLogged message st').log, (decodeLoopLogged message st').value⟩
termination_by st.budget
decreasing_by all_goals exact decodeStep_budget ((decodeStepLogged_value message st).symm.trans _h)

section Walk
variable (message : Bytes)

def decodeNameInternalLogged (offset : Nat) : Logged Access (Except Status DecodedName) :=
  decodeLoopLogged message (decodeInit offset)

def decodeNameLogged (offset : Nat) (out : Bytes) : Logged Access DecodeResult := do
  if offset ≥ message.length then return ⟨.truncated, out, 0, 0⟩
  else
    match ← decodeNameInternalLogged message offset with
    | .error status => return ⟨status, out, 0, 0⟩
    | .ok name =>
      if name.decoded.length > out.length then return ⟨.capacity, out, 0, 0⟩
      else return ⟨.ok, overwrite out 0 name.decoded, name.nextOffset, name.decoded.length - 1⟩

/-! ## The sections -/

def skipNameLogged (cursor : Nat) : Logged Access (Except Status Nat) := do
  let name ← decodeNameLogged message cursor (List.replicate (maxTextName + 1) 0)
  if name.status ≠ .ok then return .error name.status else return .ok name.nextOffset

def skipQuestionsLogged : (count cursor : Nat) → Logged Access (Except Status Nat)
  | 0, cursor => pure (.ok cursor)
  | count + 1, cursor => do
    match ← skipNameLogged message cursor with
    | .error status => return .error status
    | .ok next =>
      if next > message.length then return .error .truncated
      else
        let room ← minus message.length next
        if room < 4 then return .error .truncated
        else
          tell (.question cursor (next + 4))
          skipQuestionsLogged count (next + 4)

def readRecordLogged (cursor : Nat) : Logged Access (Except Status RecordFields) := do
  match ← skipNameLogged message cursor with
  | .error status => return .error status
  | .ok cursor =>
    if cursor > message.length then return .error .truncated
    else
      let room ← minus message.length cursor
      if room < 10 then return .error .truncated
      else
        let type ← readField16 message cursor
        let recordClass ← readField16 message (cursor + 2)
        let recordTtl ← readField32 message (cursor + 4)
        let dataLen ← readField16 message (cursor + 8)
        let room ← minus message.length (cursor + 10)
        if dataLen.toNat > room then return .error .truncated
        else return .ok ⟨type, recordClass, recordTtl, dataLen, cursor + 10⟩

/-- A record is complete once its data lies inside the message. -/
def scanAnswersLogged : (count cursor : Nat) → Logged Access (Except Status Answer)
  | 0, _ => pure (.error .malformed)
  | count + 1, cursor => do
    match ← readRecordLogged message cursor with
    | .error status => return .error status
    | .ok record =>
      tell (.record cursor (record.cursor + record.dataLen.toNat))
      if record.type = 1 ∧ record.recordClass = 1 then
        if record.dataLen ≠ 4 then return .error .malformed
        else
          let out ← readSpan message record.cursor 4
          return .ok ⟨out, record.recordTtl⟩
      else scanAnswersLogged count (record.cursor + record.dataLen.toNat)

def parseMessageLogged : Logged Access (Except Status DnsHeader) := do
  if message.length < dnsHeaderSize then return .error .truncated
  else
    let flags ← readField16 message 2
    let id ← readField16 message 0
    let questionCount ← readField16 message 4
    let answerCount ← readField16 message 6
    let authorityCount ← readField16 message 8
    let additionalCount ← readField16 message 10
    return .ok ⟨id, flags, questionCount, answerCount, authorityCount, additionalCount, (flags &&& 0x000f).toUInt8⟩

def firstALogged : Logged Access (Except Status Answer) := do
  match ← parseMessageLogged message with
  | .error status => return .error status
  | .ok header =>
    if header.flags &&& 0x8000 = 0 ∨ header.flags &&& 0x7800 ≠ 0 ∨ header.flags &&& 0x0040 ≠ 0 then
      return .error .malformed
    else if header.flags &&& 0x0200 ≠ 0 then return .error .truncated
    else if header.rcode ≠ 0 then return .error .malformed
    else
      match ← skipQuestionsLogged message header.questionCount.toNat dnsHeaderSize with
      | .error status => return .error status
      | .ok cursor => scanAnswersLogged message header.answerCount.toNat cursor

end Walk

/-! ## What they return -/

section Values
variable (message : Bytes)

theorem decodeLoopLogged_value (st : DecodeState) :
    (decodeLoopLogged message st).value = decodeLoop message st := by
  induction st using decodeLoopLogged.induct message with
  | case1 st turn status hturn =>
    rw [decodeLoopLogged, hturn, decodeLoop, ← decodeStepLogged_value, hturn]
  | case2 st turn name hturn =>
    rw [decodeLoopLogged, hturn, decodeLoop, ← decodeStepLogged_value, hturn]
  | case3 st turn st' hturn ih =>
    rw [decodeLoopLogged, hturn, decodeLoop, ← decodeStepLogged_value, hturn]
    exact ih

theorem decodeNameLogged_value (offset : Nat) (out : Bytes) :
    (decodeNameLogged message offset out).value = decodeName message offset out := by
  have hvalue : (decodeNameInternalLogged message offset).value = decodeNameInternal message offset :=
    decodeLoopLogged_value message _
  simp only [decodeNameLogged, decodeName, value_ite, value_bind, hvalue, value_pure]
  cases decodeNameInternal message offset with
  | error status => rfl
  | ok name => simp only [value_ite, value_pure]

theorem skipNameLogged_value (cursor : Nat) : (skipNameLogged message cursor).value = skipName message cursor := by
  simp only [skipNameLogged, skipName, value_bind, value_ite, value_pure, decodeNameLogged_value]

theorem skipQuestionsLogged_value (count : Nat) : ∀ cursor,
    (skipQuestionsLogged message count cursor).value = skipQuestions message count cursor := by
  induction count with
  | zero => exact fun _ => rfl
  | succ count ih =>
    intro cursor
    rw [skipQuestionsLogged, skipQuestions, value_bind, skipNameLogged_value]
    cases skipName message cursor with
    | error status => rfl
    | ok next =>
      simp only [value_ite, value_bind, value_pure, ih]
      by_cases hout : next > message.length
      · rw [if_pos hout, if_pos (Or.inl hout)]
      · rw [if_neg hout]
        simp only [hout, false_or]
        rfl

theorem readRecordLogged_value (cursor : Nat) :
    (readRecordLogged message cursor).value = readRecord message cursor := by
  rw [readRecordLogged, readRecord, value_bind, skipNameLogged_value]
  cases skipName message cursor with
  | error status => rfl
  | ok next =>
    simp only [value_ite, value_bind, value_pure]
    by_cases hout : next > message.length
    · rw [if_pos hout, if_pos (Or.inl hout)]
    · rw [if_neg hout]
      simp only [hout, false_or]
      rfl

theorem scanAnswersLogged_value (count : Nat) : ∀ cursor,
    (scanAnswersLogged message count cursor).value = scanAnswers message count cursor := by
  induction count with
  | zero => exact fun _ => rfl
  | succ count ih =>
    intro cursor
    rw [scanAnswersLogged, scanAnswers, value_bind, readRecordLogged_value]
    cases readRecord message cursor with
    | error status => rfl
    | ok record =>
      simp only [value_ite, value_bind, value_pure, ih]
      rfl

theorem parseMessageLogged_value : (parseMessageLogged message).value = parseMessage message := by
  simp only [parseMessageLogged, value_ite, value_bind, value_pure]
  rfl

theorem firstALogged_value : (firstALogged message).value = firstA message := by
  rw [firstALogged, firstA, value_bind, parseMessageLogged_value]
  cases parseMessage message with
  | error status => rfl
  | ok header =>
    simp only [value_ite, value_bind, value_pure, skipQuestionsLogged_value]
    cases skipQuestions message header.questionCount.toNat dnsHeaderSize with
    | error status => rfl
    | ok cursor =>
      dsimp only
      rw [scanAnswersLogged_value]

end Values

/-! ## Where a name ends -/

/-- The next offset lies behind the offset and inside the message, however the name jumps. -/
theorem Expands.bounds {message : Bytes} {off hops next : Nat} {labels : List Bytes}
    (h : Expands message off labels hops next) : off < next ∧ next ≤ message.length := by
  induction h with
  | root h =>
    obtain ⟨hlt, -⟩ := List.getElem?_eq_some_iff.mp h
    omega
  | label _ _ _ _ _ ih => omega
  | pointer _ _ hlow _ _ =>
    obtain ⟨hlt, -⟩ := List.getElem?_eq_some_iff.mp hlow
    omega

theorem decodeNameInternal_bounds {message : Bytes} {offset : Nat} {name : DecodedName}
    (h : decodeNameInternal message offset = .ok name) :
    offset < name.nextOffset ∧ name.nextOffset ≤ message.length := by
  obtain ⟨labels, hops, hexpands, -⟩ := decodeNameInternal_sound h
  exact hexpands.bounds

theorem skipName_bounds {message : Bytes} {cursor next : Nat} (h : skipName message cursor = .ok next) :
    cursor < next ∧ next ≤ message.length := by
  unfold skipName decodeName at h
  dsimp only at h
  by_cases hout : cursor ≥ message.length
  · rw [if_pos hout] at h
    cases h
  rw [if_neg hout] at h
  cases hname : decodeNameInternal message cursor with
  | error status =>
    have hno : status ≠ .ok := by
      rcases decodeNameInternal_error hname with rfl | rfl <;> decide
    rw [hname] at h
    dsimp only at h
    rw [if_pos hno] at h
    cases h
  | ok name =>
    have hbounds := decodeNameInternal_bounds hname
    rw [hname] at h
    dsimp only at h
    split at h
    · cases h
    · split at h
      · cases h
      · obtain rfl := Except.ok.inj h
        exact hbounds

theorem readRecord_behind {message : Bytes} {cursor : Nat} {record : RecordFields}
    (h : readRecord message cursor = .ok record) :
    cursor + 11 ≤ record.cursor + record.dataLen.toNat ∧ record.cursor + record.dataLen.toNat ≤ message.length := by
  refine ⟨?_, readRecord_bounds h⟩
  unfold readRecord at h
  cases hname : skipName message cursor with
  | error status =>
    rw [hname] at h
    cases h
  | ok next =>
    have hbounds := skipName_bounds hname
    rw [hname] at h
    dsimp only at h
    split at h
    · cases h
    · split at h
      · cases h
      · obtain rfl := Except.ok.inj h
        dsimp only
        omega

/-! ## What is logged -/

/-- An access inside the message that completes nothing. -/
def Access.Plain (len : Nat) (access : Access) : Prop := access.Safe len ∧ access.completes = false

theorem plain_minus {len cursor : Nat} (h : cursor ≤ len) : All (Access.Plain len) (minus len cursor) :=
  all_minus.mpr ⟨h, rfl⟩

theorem plain_readByte {bytes : Bytes} {len offset : Nat} (h : offset < len) :
    All (Access.Plain len) (readByte bytes offset) :=
  all_readByte.mpr ⟨h, rfl⟩

theorem plain_readField16 {bytes : Bytes} {len offset : Nat} (h : offset + 2 ≤ len) :
    All (Access.Plain len) (readField16 bytes offset) :=
  all_readField16.mpr ⟨h, rfl⟩

theorem plain_readField32 {bytes : Bytes} {len offset : Nat} (h : offset + 4 ≤ len) :
    All (Access.Plain len) (readField32 bytes offset) :=
  all_readField32.mpr ⟨h, rfl⟩

theorem plain_readSpan {bytes : Bytes} {len offset size : Nat} (h : offset + size ≤ len) :
    All (Access.Plain len) (readSpan bytes offset size) :=
  all_readSpan.mpr ⟨h, rfl⟩

section Safety
variable (message : Bytes)

theorem followPointerLogged_plain {st : DecodeState} (length : UInt8) (hin : st.cursor < message.length) :
    All (Access.Plain message.length) (followPointerLogged message st length) := by
  unfold followPointerLogged
  refine (plain_minus hin.le).bind (.ite (fun _ => all_pure _) fun hroom => ?_)
  rw [value_minus] at hroom
  refine (plain_readByte (by omega)).bind (.ite (fun _ => all_pure _) fun _ => .ite (fun _ => all_pure _) fun _ => ?_)
  exact .ite (fun _ => all_pure _) fun _ => all_pure _

theorem copyLabelLogged_plain {st : DecodeState} (length : UInt8) (hin : st.cursor < message.length) :
    All (Access.Plain message.length) (copyLabelLogged message st length) := by
  unfold copyLabelLogged
  refine (plain_minus hin).bind (.ite (fun _ => all_pure _) fun hroom => .ite (fun _ => all_pure _) fun _ => ?_)
  rw [value_minus] at hroom
  refine (plain_readSpan (by omega)).bind ?_
  split <;> exact all_pure _

theorem decodeStepLogged_plain (st : DecodeState) :
    All (Access.Plain message.length) (decodeStepLogged message st) := by
  unfold decodeStepLogged
  refine .ite (fun _ => all_pure _) fun hin => (plain_readByte (by omega)).bind ?_
  refine .ite (fun _ => followPointerLogged_plain message _ (by omega)) fun _ => .ite (fun _ => all_pure _) fun _ => ?_
  refine .ite (fun _ => .ite (fun _ => all_pure _) fun _ => all_pure _) fun _ => ?_
  exact copyLabelLogged_plain message _ (by omega)

theorem decodeLoopLogged_plain (st : DecodeState) :
    All (Access.Plain message.length) (decodeLoopLogged message st) := by
  induction st using decodeLoopLogged.induct message with
  | case1 st turn status hturn =>
    rw [decodeLoopLogged, hturn]
    exact decodeStepLogged_plain message st
  | case2 st turn name hturn =>
    rw [decodeLoopLogged, hturn]
    exact decodeStepLogged_plain message st
  | case3 st turn st' hturn ih =>
    rw [decodeLoopLogged, hturn]
    exact fun access hmem => (List.mem_append.mp hmem).elim (decodeStepLogged_plain message st access) (ih access)

theorem skipNameLogged_plain (cursor : Nat) : All (Access.Plain message.length) (skipNameLogged message cursor) := by
  unfold skipNameLogged
  refine .bind ?_ (.ite (fun _ => all_pure _) fun _ => all_pure _)
  unfold decodeNameLogged
  refine .ite (fun _ => all_pure _) fun _ => .bind (decodeLoopLogged_plain message _) ?_
  split
  · exact all_pure _
  · exact .ite (fun _ => all_pure _) fun _ => all_pure _

theorem readRecordLogged_plain (cursor : Nat) :
    All (Access.Plain message.length) (readRecordLogged message cursor) := by
  unfold readRecordLogged
  refine (skipNameLogged_plain message cursor).bind ?_
  split
  · exact all_pure _
  · refine .ite (fun _ => all_pure _) fun hin => (plain_minus (by omega)).bind ?_
    refine .ite (fun _ => all_pure _) fun hroom => ?_
    rw [value_minus] at hroom
    refine (plain_readField16 (by omega)).bind ((plain_readField16 (by omega)).bind ?_)
    refine (plain_readField32 (by omega)).bind ((plain_readField16 (by omega)).bind ?_)
    exact (plain_minus (by omega)).bind (.ite (fun _ => all_pure _) fun _ => all_pure _)

theorem parseMessageLogged_plain : All (Access.Plain message.length) (parseMessageLogged message) := by
  unfold parseMessageLogged dnsHeaderSize
  refine .ite (fun _ => all_pure _) fun hlen => ?_
  refine (plain_readField16 (by omega)).bind ((plain_readField16 (by omega)).bind ?_)
  refine (plain_readField16 (by omega)).bind ((plain_readField16 (by omega)).bind ?_)
  exact (plain_readField16 (by omega)).bind ((plain_readField16 (by omega)).bind (all_pure _))

theorem Access.Plain.safe {len : Nat} {access : Access} (h : access.Plain len) : access.Safe len := h.1

theorem skipQuestionsLogged_safe (count : Nat) : ∀ cursor,
    All (Access.Safe message.length) (skipQuestionsLogged message count cursor) := by
  induction count with
  | zero => exact fun _ => all_pure _
  | succ count ih =>
    intro cursor
    rw [skipQuestionsLogged]
    refine ((skipNameLogged_plain message cursor).mono fun _ => Access.Plain.safe).bind ?_
    rw [skipNameLogged_value]
    cases hname : skipName message cursor with
    | error status => exact all_pure _
    | ok next =>
      obtain ⟨hlt, hle⟩ := skipName_bounds hname
      refine .ite (fun _ => all_pure _) fun _ => ((plain_minus hle).mono fun _ => Access.Plain.safe).bind ?_
      refine .ite (fun _ => all_pure _) fun hroom => ((all_tell _).mpr ?_).bind (ih _)
      rw [value_minus] at hroom
      exact ⟨by omega, by omega⟩

theorem scanAnswersLogged_safe (count : Nat) : ∀ cursor,
    All (Access.Safe message.length) (scanAnswersLogged message count cursor) := by
  induction count with
  | zero => exact fun _ => all_pure _
  | succ count ih =>
    intro cursor
    rw [scanAnswersLogged]
    refine ((readRecordLogged_plain message cursor).mono fun _ => Access.Plain.safe).bind ?_
    rw [readRecordLogged_value]
    cases hrecord : readRecord message cursor with
    | error status => exact all_pure _
    | ok record =>
      have hbehind := readRecord_behind hrecord
      have hdone : All (Access.Safe message.length) (tell (.record cursor (record.cursor + record.dataLen.toNat))) :=
        (all_tell _).mpr hbehind
      refine hdone.bind (.ite (fun _ => .ite (fun _ => all_pure _) fun hlen => ?_) fun _ => ih _)
      have hfour : record.dataLen.toNat = 4 := congrArg UInt16.toNat (not_not.mp hlen)
      exact ((plain_readSpan (by omega)).mono fun _ => Access.Plain.safe).bind (all_pure _)

theorem firstALogged_safe : All (Access.Safe message.length) (firstALogged message) := by
  unfold firstALogged
  refine ((parseMessageLogged_plain message).mono fun _ => Access.Plain.safe).bind ?_
  split
  · exact all_pure _
  · refine .ite (fun _ => all_pure _) fun _ => .ite (fun _ => all_pure _) fun _ => ?_
    refine .ite (fun _ => all_pure _) fun _ => ?_
    refine (skipQuestionsLogged_safe message _ _).bind ?_
    split
    · exact all_pure _
    · exact scanAnswersLogged_safe message _ _

/-! ## How many entries are completed -/

theorem completes_of_plain {α : Type} {len : Nat} {t : Logged Access α} (h : All (Access.Plain len) t) :
    count Access.completes t = 0 :=
  count_eq_zero (h.mono fun _ => And.right)

@[simp] theorem count_minus (len cursor : Nat) : count Access.completes (minus len cursor) = 0 := rfl

/-- Where a walk has come to: its cursor, or the end of the message when it stops early. -/
def reached {ε : Type} (len : Nat) : Except ε Nat → Nat
  | .ok cursor => cursor
  | .error _ => len

theorem skipQuestionsLogged_count (questions : Nat) : ∀ {cursor}, cursor ≤ message.length →
    let walk := skipQuestionsLogged message questions cursor
    cursor + 5 * count Access.completes walk ≤ reached message.length walk.value ∧
      reached message.length walk.value ≤ message.length := by
  induction questions with
  | zero => exact fun h => ⟨Nat.le_refl _, h⟩
  | succ questions ih =>
    intro cursor hcursor
    dsimp only
    rw [skipQuestionsLogged, count_bind, value_bind, skipNameLogged_value,
      completes_of_plain (skipNameLogged_plain message cursor), Nat.zero_add]
    cases hname : skipName message cursor with
    | error status => exact ⟨hcursor, Nat.le_refl _⟩
    | ok next =>
      obtain ⟨hlt, hle⟩ := skipName_bounds hname
      dsimp only
      rw [if_neg (by omega), count_bind, value_bind, value_minus, count_minus, Nat.zero_add]
      by_cases hroom : message.length - next < 4
      · rw [if_pos hroom]
        exact ⟨hcursor, Nat.le_refl _⟩
      · obtain ⟨hcount, hend⟩ := @ih (next + 4) (by omega)
        rw [if_neg hroom, count_bind, value_bind]
        have hone : count Access.completes (tell (Access.question cursor (next + 4))) = 1 := rfl
        exact ⟨by rw [hone]; omega, hend⟩

theorem scanAnswersLogged_count (answers : Nat) : ∀ {cursor}, cursor ≤ message.length →
    cursor + 11 * count Access.completes (scanAnswersLogged message answers cursor) ≤ message.length := by
  induction answers with
  | zero => exact fun h => h
  | succ answers ih =>
    intro cursor hcursor
    rw [scanAnswersLogged, count_bind, readRecordLogged_value,
      completes_of_plain (readRecordLogged_plain message cursor), Nat.zero_add]
    cases hrecord : readRecord message cursor with
    | error status => exact hcursor
    | ok record =>
      obtain ⟨hbehind, hin⟩ := readRecord_behind hrecord
      have hone : count Access.completes (tell (Access.record cursor (record.cursor + record.dataLen.toNat))) = 1 := rfl
      dsimp only
      rw [count_bind, hone]
      split
      · have hzero : count Access.completes (if record.dataLen ≠ 4 then pure (.error .malformed)
            else do
              let out ← readSpan message record.cursor 4
              return .ok ⟨out, record.recordTtl⟩ : Logged Access (Except Status Answer)) = 0 := by
          split <;> rfl
        rw [hzero]
        omega
      · have hrest := @ih (record.cursor + record.dataLen.toNat) hin
        omega

theorem firstALogged_count : count Access.completes (firstALogged message) ≤ (message.length - 12) / 5 := by
  rw [firstALogged, count_bind, completes_of_plain (parseMessageLogged_plain message), Nat.zero_add,
    parseMessageLogged_value]
  cases hparse : parseMessage message with
  | error status => exact Nat.zero_le _
  | ok header =>
    have hlen : 12 ≤ message.length := by
      by_contra hshort
      rw [parseMessage, if_pos (show message.length < dnsHeaderSize from Nat.lt_of_not_le hshort)] at hparse
      cases hparse
    obtain ⟨hquestions, hend⟩ := skipQuestionsLogged_count message header.questionCount.toNat hlen
    dsimp only
    split
    · exact Nat.zero_le _
    · split
      · exact Nat.zero_le _
      · split
        · exact Nat.zero_le _
        · unfold dnsHeaderSize
          rw [count_bind]
          cases hwalk : (skipQuestionsLogged message header.questionCount.toNat 12).value with
          | error status =>
            rw [hwalk] at hquestions
            dsimp only [reached] at hquestions ⊢
            rw [count_pure]
            omega
          | ok cursor =>
            rw [hwalk] at hquestions hend
            dsimp only [reached] at hquestions hend ⊢
            have hanswers := scanAnswersLogged_count message header.answerCount.toNat hend
            omega

end Safety

end TcpipCourse.L09
