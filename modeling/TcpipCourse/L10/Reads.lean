import TcpipCourse.L10.Grammar
import TcpipCourse.Lib.Loop

/-!
# Lesson 10: what the header loop reads and writes

The turns of the header loop once more, position by position and with a log. Where `&&` or `||` may leave a byte
unread, the log has it.

* `Access` : a byte of the input that is read, and an entry of `headers[]` that is written;
* `…Logged` : the functions with their log; `…Logged_value` : what they return;
* `InLoop` : the states at the loop condition; `AtLine` : what they have in common;
* `headerStepLogged_safe` : no turn reads behind the block or writes behind the table;
* `headerLoop_safe` : the main result.
-/

namespace TcpipCourse.L10
open Lib Logged

/-! ## The events -/

inductive Access where
  /-- `input[offset]` -/
  | read (offset : Nat)
  /-- `message->headers[index] = …` -/
  | header (index : Nat)
  deriving DecidableEq, Repr

def Access.Safe (headerEnd : Nat) : Access → Prop
  | read offset => offset < headerEnd
  | header index => index < maxHeaders

def readByte (input : Bytes) (offset : Nat) : Logged Access UInt8 := ⟨[.read offset], input.getD offset 0⟩

@[simp] theorem value_readByte (input : Bytes) (offset : Nat) :
    (readByte input offset).value = input.getD offset 0 := rfl

theorem safe_readByte {input : Bytes} {offset headerEnd : Nat} (h : offset < headerEnd) :
    All (Access.Safe headerEnd) (readByte input offset) := (all_mk _ _).mpr h

/-! ## Lines -/

/-- `for (index = begin; index + 1 < end; index += 1)`, with `count` positions left. -/
def findCrlfFromLogged (input : Bytes) : (count index : Nat) → Logged Access FindCrlf
  | count + 2, index => do
    let a ← readByte input index
    let b ← readByte input (index + 1)
    if a = cr ∧ b = lf then return .found index
    else if a = cr ∨ a = lf then return .bare
    else findCrlfFromLogged input (count + 1) (index + 1)
  | _, _ => pure .absent

def findCrlfLogged (input : Bytes) (start stop : Nat) : Logged Access FindCrlf :=
  findCrlfFromLogged input (stop - start) start

theorem findCrlfFromLogged_value {input : Bytes} (count : Nat) : ∀ {index : Nat}, index + count ≤ input.length →
    (findCrlfFromLogged input count index).value = findCrlfFrom (slice input index count) index := by
  induction count using Nat.twoStepInduction with
  | zero => exact fun _ => rfl
  | one =>
    intro index hin
    rw [slice_succ (by omega) 0 0]
    rfl
  | more count _ ih =>
    intro index hin
    rw [slice_succ (by omega) (count + 1) 0, slice_succ (by omega) count 0, findCrlfFrom,
      ← slice_succ (by omega) count 0, ← ih (by omega)]
    simp only [findCrlfFromLogged, value_bind, value_ite, value_pure]
    rfl

theorem findCrlfFromLogged_safe {input : Bytes} {headerEnd : Nat} (count : Nat) : ∀ {index : Nat},
    index + count ≤ headerEnd → All (Access.Safe headerEnd) (findCrlfFromLogged input count index) := by
  induction count using Nat.twoStepInduction with
  | zero => exact fun _ => all_pure _
  | one => exact fun _ => all_pure _
  | more count _ ih =>
    intro index hin
    rw [findCrlfFromLogged]
    refine (safe_readByte (by omega)).bind ((safe_readByte (by omega)).bind ?_)
    exact .ite (fun _ => all_pure _) fun _ => .ite (fun _ => all_pure _) fun _ => ih (by omega)

section
variable {input : Bytes} {start stop : Nat}

theorem findCrlfLogged_value (hle : start ≤ stop) (hin : stop ≤ input.length) :
    (findCrlfLogged input start stop).value = findCrlf input start stop :=
  findCrlfFromLogged_value _ (by omega)

theorem findCrlfLogged_safe (hle : start ≤ stop) : All (Access.Safe stop) (findCrlfLogged input start stop) :=
  findCrlfFromLogged_safe _ (by omega)

end

/-! ## The parts of a line -/

/-- `while (i < length && line[i] != stop) { if (!ok(line[i])) … }` -/
def untilByte (stop : UInt8) (ok : UInt8 → Bool) (index : Nat) (byte : UInt8) : Option Nat ⊕ Nat :=
  if byte = stop then .inl (some index)
  else if ok byte then .inr (index + 1)
  else .inl none

/-- `while (value_begin < line_end && (… == ' ' || … == '\t'))` -/
def skipOws (count : Nat) (byte : UInt8) : Nat ⊕ Nat := if isOws byte then .inr (count + 1) else .inl count

def isControl (byte : UInt8) : Bool := (byte < sp && byte != tab) || byte == del

def untilControl (_ : Unit) (byte : UInt8) : Bool ⊕ Unit := if isControl byte then .inl true else .inr ()

/-- The state is what is left of the literal. -/
def untilOther (literal : Bytes) (byte : UInt8) : Bool ⊕ Bytes :=
  match literal with
  | c :: literal => if toLower byte = c then .inr literal else .inl false
  | [] => .inl false

def untilNoDigit (limit parsed : Nat) (byte : UInt8) : Except Status Nat ⊕ Nat :=
  if !isDigit byte then .inl (.error .malformed)
  else if parsed > (limit - (byte - 48).toNat) / 10 then .inl (.error .malformed)
  else .inr (parsed * 10 + (byte - 48).toNat)

theorem loopList_untilByte {stop : UInt8} {ok : UInt8 → Bool} (l : Bytes) : ∀ index : Nat,
    loopList (untilByte stop ok) some l index = scanUntil stop ok l index := by
  induction l with
  | nil => exact fun _ => rfl
  | cons c l ih =>
    intro index
    rw [loopList, scanUntil, untilByte]
    by_cases hstop : c = stop
    · rw [if_pos hstop, if_pos hstop]
    · by_cases hok : ok c = true
      · rw [if_neg hstop, if_neg hstop, if_pos hok, if_pos hok]
        exact ih _
      · rw [if_neg hstop, if_neg hstop, if_neg hok, if_neg hok]

theorem loopList_skipOws (l : Bytes) : ∀ count : Nat,
    loopList skipOws id l count = count + (l.takeWhile isOws).length := by
  induction l with
  | nil => exact fun _ => rfl
  | cons c l ih =>
    intro count
    rw [loopList, skipOws, List.takeWhile_cons]
    by_cases hows : isOws c = true
    · rw [if_pos hows, if_pos hows, List.length_cons]
      exact (ih _).trans (by omega)
    · rw [if_neg hows, if_neg hows]
      rfl

theorem loopList_untilControl (l : Bytes) :
    loopList untilControl (fun _ => false) l () = l.any (fun b => (b < sp && b != tab) || b == del) := by
  change _ = l.any isControl
  induction l with
  | nil => rfl
  | cons c l ih =>
    rw [loopList, untilControl, List.any_cons]
    cases hc : isControl c with
    | true => rw [if_pos rfl, Bool.true_or]
    | false =>
      rw [if_neg Bool.false_ne_true, Bool.false_or]
      exact ih

theorem loopList_untilOther {l : Bytes} : ∀ {literal : Bytes}, l.length = literal.length →
    loopList untilOther (fun _ => true) l literal = asciiEqual l literal := by
  induction l with
  | nil =>
    intro literal hlen
    obtain rfl := List.length_eq_zero_iff.mp hlen.symm
    rfl
  | cons b l ih =>
    intro literal hlen
    cases literal with
    | nil => cases hlen
    | cons c literal =>
      rw [loopList, untilOther, asciiEqual, List.map_cons]
      by_cases hbc : toLower b = c
      · rw [if_pos hbc, hbc, List.cons_beq_cons, beq_self_eq_true, Bool.true_and]
        exact ih (Nat.succ.inj hlen)
      · rw [if_neg hbc, List.cons_beq_cons, beq_false_of_ne hbc, Bool.false_and]

theorem loopList_untilNoDigit {limit : Nat} (l : Bytes) : ∀ parsed : Nat,
    loopList (untilNoDigit limit) .ok l parsed = contentLengthFrom limit l parsed := by
  induction l with
  | nil => exact fun _ => rfl
  | cons c l ih =>
    intro parsed
    rw [loopList, contentLengthFrom, untilNoDigit]
    dsimp only
    by_cases hdigit : (!isDigit c) = true
    · rw [if_pos hdigit, if_pos hdigit]
    · rw [if_neg hdigit, if_neg hdigit]
      by_cases hover : parsed > (limit - (c - 48).toNat) / 10
      · rw [if_pos hover, if_pos hover]
      · rw [if_neg hover, if_neg hover]
        exact ih _

/-- `while (value_end > value_begin && …) value_end -= 1u;` : how many of the bytes are left. -/
def trimLogged (input : Bytes) (valueBegin : Nat) : (count : Nat) → Logged Access Nat
  | 0 => pure 0
  | count + 1 => do
    let byte ← readByte input (valueBegin + count)
    if isOws byte then trimLogged input valueBegin count else return count + 1

def asciiEqualLogged (input : Bytes) (data length : Nat) (right : Bytes) : Logged Access Bool :=
  if length ≠ right.length then pure false
  else loopSpan untilOther (fun _ => true) (readByte input) length data right

def parseContentLengthLogged (limit : Nat) (input : Bytes) (data length : Nat) : Logged Access (Except Status Nat) := do
  if length = 0 then return .error .malformed
  else match ← loopSpan (untilNoDigit limit) .ok (readByte input) length data 0 with
    | .error status => return .error status
    | .ok parsed => if parsed > maxBodyBytes then return .error .capacity else return .ok parsed

section Values
variable {input : Bytes} {data length headerEnd : Nat}

theorem loop_value {β σ : Type} {turn : σ → UInt8 → β ⊕ σ} {done : σ → β} (s : σ) (hin : data + length ≤ input.length) :
    (loopSpan turn done (readByte input) length data s).value = loopList turn done (slice input data length) s :=
  loopSpan_value (value_readByte input) s hin

theorem loop_safe {β σ : Type} {turn : σ → UInt8 → β ⊕ σ} {done : σ → β} (s : σ) (hin : data + length ≤ headerEnd) :
    All (Access.Safe headerEnd) (loopSpan turn done (readByte input) length data s) :=
  loopSpan_all s fun i _ hi => safe_readByte (by omega)

theorem trimLogged_value (hin : data + length ≤ input.length) :
    (trimLogged input data length).value = ((slice input data length).rdropWhile isOws).length := by
  induction length with
  | zero => rfl
  | succ length ih =>
    have hlen : (slice input data length).length = length := length_slice (by omega)
    rw [slice_add, slice_succ (by omega) 0 0, show slice input (data + length + 1) 0 = [] from rfl,
      List.rdropWhile_concat, trimLogged, value_bind, value_ite, value_readByte, ih (by omega)]
    split
    · rfl
    · rw [List.length_append, hlen]
      rfl

theorem trimLogged_safe (hin : data + length ≤ headerEnd) :
    All (Access.Safe headerEnd) (trimLogged input data length) := by
  induction length with
  | zero => exact all_pure _
  | succ length ih =>
    rw [trimLogged]
    exact (safe_readByte (by omega)).bind (.ite (fun _ => ih (by omega)) fun _ => all_pure _)

theorem asciiEqualLogged_value (hin : data + length ≤ input.length) (right : Bytes) :
    (asciiEqualLogged input data length right).value = asciiEqual (slice input data length) right := by
  have hlen : (slice input data length).length = length := length_slice hin
  rw [asciiEqualLogged, value_ite, loop_value right hin]
  split
  · next hne =>
    rw [value_pure, asciiEqual, beq_false_of_ne]
    intro heq
    exact hne (by rw [← heq, List.length_map, hlen])
  · next heq => exact loopList_untilOther (by rw [hlen, not_not.mp heq])

theorem asciiEqualLogged_safe (hin : data + length ≤ headerEnd) (right : Bytes) :
    All (Access.Safe headerEnd) (asciiEqualLogged input data length right) :=
  .ite (fun _ => all_pure _) fun _ => loop_safe right hin

theorem parseContentLengthLogged_value {limit : Nat} (hin : data + length ≤ input.length) :
    (parseContentLengthLogged limit input data length).value =
      parseContentLength limit (slice input data length) := by
  have hlen : (slice input data length).length = length := length_slice hin
  rw [parseContentLengthLogged, parseContentLength, value_ite, hlen, value_bind, loop_value 0 hin,
    loopList_untilNoDigit]
  split
  · rfl
  · cases contentLengthFrom limit (slice input data length) 0 with
    | error status => rfl
    | ok parsed => exact value_ite _ _ _

theorem parseContentLengthLogged_safe {limit : Nat} (hin : data + length ≤ headerEnd) :
    All (Access.Safe headerEnd) (parseContentLengthLogged limit input data length) := by
  unfold parseContentLengthLogged
  refine .ite (fun _ => all_pure _) fun _ => (loop_safe 0 hin).bind ?_
  split
  · exact all_pure _
  · exact .ite (fun _ => all_pure _) fun _ => all_pure _

end Values

/-! ## One line -/

def applyHeaderLogged (input : Bytes) (st : HeaderState) (cursor nameLength valueBegin valueLength : Nat) :
    Logged Access (Except Status HeaderState) := do
  if ← asciiEqualLogged input cursor nameLength (ascii "transfer-encoding".toList) then return .error .malformed
  else if ← asciiEqualLogged input cursor nameLength (ascii "content-length".toList) then
    match ← parseContentLengthLogged sizeMax input valueBegin valueLength with
    | .error status => return .error status
    | .ok parsedLength =>
      if st.haveContentLength ∧ parsedLength ≠ st.contentLength then return .error .malformed
      else return .ok { st with haveContentLength := true, contentLength := parsedLength }
  else return .ok st

def parseHeaderLineLogged (input : Bytes) (lineEnd : Nat) (st : HeaderState) :
    Logged Access (Except Status HeaderState) := do
  let length := lineEnd - st.cursor
  match ← loopSpan (untilByte colonByte isTchar) some (readByte input) length st.cursor 0 with
  | none => return .error .malformed
  | some colon =>
    if colon = 0 ∨ colon = length then return .error .malformed
    else
      let first := st.cursor + colon + 1
      let blanks ← loopSpan skipOws id (readByte input) (lineEnd - first) first 0
      let valueBegin := first + blanks
      let valueLength ← trimLogged input valueBegin (lineEnd - valueBegin)
      if ← loopSpan untilControl (fun _ => false) (readByte input) valueLength valueBegin () then
        return .error .malformed
      else
        let header : HeaderView := ⟨.at st.cursor colon, .at valueBegin valueLength⟩
        let message := { st.message with headers := st.message.headers ++ [header] }
        tell (.header st.message.headers.length)
        match ← applyHeaderLogged input { st with message := message } st.cursor colon valueBegin valueLength with
        | .error status => return .error status
        | .ok st => return .ok { st with cursor := lineEnd + 2 }

def headerStepLogged (input : Bytes) (headerEnd : Nat) (st : HeaderState) : Logged Access HeaderTurn := do
  if st.cursor + 1 < headerEnd then
    let a ← readByte input st.cursor
    let b ← readByte input (st.cursor + 1)
    if a = cr ∧ b = lf then return .stop { st with cursor := st.cursor + 2 }
    else if a = sp ∨ a = tab then return .fail .malformed
    else if st.message.headers.length = maxHeaders then return .fail .capacity
    else match ← findCrlfLogged input st.cursor headerEnd with
      | .found lineEnd =>
        if lineEnd = st.cursor then return .fail .malformed
        else match ← parseHeaderLineLogged input lineEnd st with
          | .error status => return .fail status
          | .ok st => return .again st
      | _ => return .fail .malformed
  else return .stop st

section Line
variable {input : Bytes} {headerEnd lineEnd : Nat}

theorem applyHeaderLogged_value {st : HeaderState} {cursor nameLength valueBegin valueLength : Nat}
    (hname : cursor + nameLength ≤ input.length) (hvalue : valueBegin + valueLength ≤ input.length) :
    (applyHeaderLogged input st cursor nameLength valueBegin valueLength).value =
      applyHeader st (slice input cursor nameLength) (slice input valueBegin valueLength) := by
  rw [applyHeaderLogged, applyHeader]
  simp only [value_bind, value_ite, value_pure, asciiEqualLogged_value hname]
  rw [parseContentLengthLogged_value hvalue]
  cases parseContentLength sizeMax (slice input valueBegin valueLength) with
  | error status => rfl
  | ok parsedLength =>
    dsimp only
    rw [value_ite]
    rfl

theorem applyHeaderLogged_safe {st : HeaderState} {cursor nameLength valueBegin valueLength : Nat}
    (hname : cursor + nameLength ≤ headerEnd) (hvalue : valueBegin + valueLength ≤ headerEnd) :
    All (Access.Safe headerEnd) (applyHeaderLogged input st cursor nameLength valueBegin valueLength) := by
  unfold applyHeaderLogged
  refine (asciiEqualLogged_safe hname _).bind (.ite (fun _ => all_pure _) fun _ => ?_)
  refine (asciiEqualLogged_safe hname _).bind (.ite (fun _ => ?_) fun _ => all_pure _)
  refine (parseContentLengthLogged_safe hvalue).bind ?_
  split
  · exact all_pure _
  · exact .ite (fun _ => all_pure _) fun _ => all_pure _

/-- Behind the colon: the blanks, the value, and the blanks that are trimmed. -/
theorem slice_trimmed {first : Nat} (hfirst : first ≤ lineEnd) (hin : lineEnd ≤ input.length) :
    let rest := slice input first (lineEnd - first)
    let valueBegin := first + (rest.takeWhile isOws).length
    let value := (rest.dropWhile isOws).rdropWhile isOws
    valueBegin + value.length ≤ lineEnd ∧
      slice input valueBegin (lineEnd - valueBegin) = rest.dropWhile isOws ∧
      slice input valueBegin value.length = value := by
  intro rest valueBegin value
  have hlen : rest.length = lineEnd - first := length_slice (by omega)
  have hblanks : (rest.takeWhile isOws).length ≤ rest.length := (List.takeWhile_prefix _).length_le
  have hsplit : slice input valueBegin (lineEnd - valueBegin) = rest.dropWhile isOws := by
    rw [Nat.sub_add_eq, ← drop_slice, drop_length_takeWhile]
  have hprefix : value <+: slice input valueBegin (lineEnd - valueBegin) := by
    rw [hsplit]
    exact List.rdropWhile_prefix _ _
  have hvalue := hprefix.length_le
  rw [length_slice (by omega)] at hvalue
  refine ⟨by omega, hsplit, ?_⟩
  rw [← take_slice input hvalue]
  exact (List.prefix_iff_eq_take.mp hprefix).symm

theorem scanUntil_le {stop : UInt8} {ok : UInt8 → Bool} {l : Bytes} {k : Nat} (h : scanUntil stop ok l 0 = some k) :
    k ≤ l.length := by
  obtain ⟨front, back, rfl, hk, -, -⟩ := scanUntil_some h
  rw [hk, List.length_append]
  omega

theorem parseHeaderLineLogged_value {st : HeaderState} (hcursor : st.cursor ≤ lineEnd) (hin : lineEnd ≤ input.length) :
    (parseHeaderLineLogged input lineEnd st).value = parseHeaderLine input lineEnd st := by
  have hlen : (slice input st.cursor (lineEnd - st.cursor)).length = lineEnd - st.cursor := length_slice (by omega)
  rw [parseHeaderLineLogged, parseHeaderLine]
  dsimp only
  rw [value_bind, loop_value 0 (by omega), loopList_untilByte]
  cases hscan : scanUntil colonByte isTchar (slice input st.cursor (lineEnd - st.cursor)) 0 with
  | none => rfl
  | some colon =>
    have hcolon := scanUntil_le hscan
    dsimp only
    rw [value_ite, hlen]
    split
    · rfl
    · next hne =>
      have hrest : (slice input st.cursor (lineEnd - st.cursor)).drop (colon + 1) =
          slice input (st.cursor + colon + 1) (lineEnd - (st.cursor + colon + 1)) := by
        rw [drop_slice, Nat.add_assoc, Nat.sub_sub]
      have hname : (slice input st.cursor (lineEnd - st.cursor)).take colon = slice input st.cursor colon :=
        take_slice input (by omega)
      obtain ⟨hle, hsplit, hvalue⟩ := slice_trimmed (show st.cursor + colon + 1 ≤ lineEnd by omega) hin
      rw [hrest, hname, value_bind, loop_value 0 (by omega), loopList_skipOws, Nat.zero_add, value_bind,
        trimLogged_value (by omega), hsplit, value_bind, loop_value () (by omega), hvalue, loopList_untilControl,
        value_ite]
      split
      · rfl
      · rw [value_bind, value_bind, applyHeaderLogged_value (by omega) (by omega), hvalue]
        cases applyHeader _ _ _ <;> rfl

theorem parseHeaderLineLogged_safe {st : HeaderState} (hcursor : st.cursor ≤ lineEnd) (hin : lineEnd ≤ input.length)
    (hend : lineEnd ≤ headerEnd) (hroom : st.message.headers.length < maxHeaders) :
    All (Access.Safe headerEnd) (parseHeaderLineLogged input lineEnd st) := by
  have hlen : (slice input st.cursor (lineEnd - st.cursor)).length = lineEnd - st.cursor := length_slice (by omega)
  rw [parseHeaderLineLogged]
  refine (loop_safe 0 (by omega)).bind ?_
  rw [loop_value 0 (by omega), loopList_untilByte]
  cases hscan : scanUntil colonByte isTchar (slice input st.cursor (lineEnd - st.cursor)) 0 with
  | none => exact all_pure _
  | some colon =>
    have hcolon := scanUntil_le hscan
    refine .ite (fun _ => all_pure _) fun hne => ?_
    obtain ⟨hle, hsplit, -⟩ := slice_trimmed (show st.cursor + colon + 1 ≤ lineEnd by omega) hin
    refine (loop_safe 0 (by omega)).bind ?_
    rw [loop_value 0 (by omega), loopList_skipOws, Nat.zero_add]
    refine (trimLogged_safe (by omega)).bind ?_
    rw [trimLogged_value (by omega), hsplit]
    refine (loop_safe () (by omega)).bind (.ite (fun _ => all_pure _) fun _ => ?_)
    have hwrite : All (Access.Safe headerEnd) (tell (.header st.message.headers.length)) := (all_tell _).mpr hroom
    refine hwrite.bind ((applyHeaderLogged_safe (by omega) (by omega)).bind ?_)
    split <;> exact all_pure _

theorem headerStepLogged_value (hin : headerEnd ≤ input.length) (st : HeaderState) :
    (headerStepLogged input headerEnd st).value = headerStep input headerEnd st := by
  rw [headerStepLogged, headerStep]
  simp only [value_bind, value_ite, value_pure]
  by_cases hcursor : st.cursor + 1 < headerEnd
  · rw [if_pos hcursor, if_pos hcursor, findCrlfLogged_value (by omega) hin]
    cases hline : findCrlf input st.cursor headerEnd with
    | found lineEnd =>
      obtain ⟨hle, hstop⟩ := findCrlf_found hline
      dsimp only
      rw [value_ite, value_bind, parseHeaderLineLogged_value hle (by omega)]
      cases parseHeaderLine input lineEnd st <;> rfl
    | bare => rfl
    | absent => rfl
  · rw [if_neg hcursor, if_neg hcursor]

theorem headerStepLogged_safe (hin : headerEnd ≤ input.length) {st : HeaderState}
    (hcount : st.message.headers.length ≤ maxHeaders) :
    All (Access.Safe headerEnd) (headerStepLogged input headerEnd st) := by
  unfold headerStepLogged
  refine .ite (fun hcursor => ?_) fun _ => all_pure _
  refine (safe_readByte (by omega)).bind ((safe_readByte hcursor).bind (.ite (fun _ => all_pure _) fun _ => ?_))
  refine .ite (fun _ => all_pure _) fun _ => .ite (fun _ => all_pure _) fun hfull => ?_
  refine (findCrlfLogged_safe (by omega)).bind ?_
  rw [findCrlfLogged_value (by omega) hin]
  cases hline : findCrlf input st.cursor headerEnd with
  | found lineEnd =>
    obtain ⟨hle, hstop⟩ := findCrlf_found hline
    refine .ite (fun _ => all_pure _) fun _ => ?_
    refine (parseHeaderLineLogged_safe hle (by omega) (by omega) (lt_of_le_of_ne hcount hfull)).bind ?_
    split <;> exact all_pure _
  | bare => exact all_pure _
  | absent => exact all_pure _

end Line

/-! ## The states at the loop condition -/

/-- The states in which `while (cursor + 1 < header_end)` is evaluated. -/
inductive InLoop (input : Bytes) (headerEnd : Nat) : HeaderState → Prop
  | start {lineEnd : Nat} {message : MessageView} (find : findCrlf input 0 headerEnd = .found lineEnd)
      (nonempty : lineEnd ≠ 0) (line : parseStartLine (input.take lineEnd) .zero = .ok message) :
      InLoop input headerEnd ⟨message, lineEnd + 2, false, 0⟩
  | again {st st' : HeaderState} (loop : InLoop input headerEnd st)
      (turn : headerStep input headerEnd st = .again st') : InLoop input headerEnd st'

/-- CRLF stands in front of the position. -/
structure LineStart (input : Bytes) (cursor : Nat) : Prop where
  behind : 2 ≤ cursor
  atCr : input.getD (cursor - 2) 0 = cr
  atLf : input.getD (cursor - 1) 0 = lf

/-- A line starts at the cursor, at least the empty one. -/
structure AtLine (input : Bytes) (headerEnd : Nat) (st : HeaderState) : Prop where
  start : LineStart input st.cursor
  inside : st.cursor + 2 ≤ headerEnd
  count : st.message.headers.length ≤ maxHeaders
  length : st.contentLength ≤ maxBodyBytes

section Loop
variable {input : Bytes} {headerEnd : Nat} {st st' : HeaderState}

theorem lineStart_of_findCrlf {start lineEnd : Nat} (h : findCrlf input start headerEnd = .found lineEnd) :
    LineStart input (lineEnd + 2) := by
  obtain ⟨line, rest, hl, hend, -⟩ := findCrlfFrom_found h
  obtain ⟨-, hstop⟩ := findCrlf_found h
  have hget : ∀ k < headerEnd - start, input.getD (start + k) 0 = (line ++ cr :: lf :: rest).getD k 0 := by
    intro k hk
    rw [← hl, getD_slice hk]
  refine ⟨by omega, ?_, ?_⟩
  · rw [show lineEnd + 2 - 2 = start + line.length by omega, hget _ (by omega),
      List.getD_append_right _ _ _ _ (Nat.le_refl _), Nat.sub_self]
    rfl
  · rw [show lineEnd + 2 - 1 = start + (line.length + 1) by omega, hget _ (by omega),
      List.getD_append_right _ _ _ _ (by omega), Nat.add_sub_cancel_left]
    rfl

theorem findCrlfFrom_ne_absent (front : Bytes) : ∀ index : Nat, findCrlfFrom (front ++ crlf) index ≠ .absent := by
  induction front with
  | nil =>
    intro index h
    cases h
  | cons a front ih =>
    intro index
    obtain ⟨b, rest, hb⟩ : ∃ b rest, front ++ crlf = b :: rest := by
      cases front with
      | nil => exact ⟨cr, [lf], rfl⟩
      | cons b front => exact ⟨b, front ++ crlf, rfl⟩
    rw [List.cons_append, hb, findCrlfFrom, ← hb]
    split
    · intro h
      cases h
    · split
      · intro h
        cases h
      · exact ih (index + 1)

variable (hend : findHeaderEnd input = some headerEnd)
include hend

theorem findCrlf_ne_absent {cursor : Nat} (h : cursor + 2 ≤ headerEnd) : findCrlf input cursor headerEnd ≠ .absent := by
  obtain ⟨h4, hle, -⟩ := findHeaderEnd_bounds hend
  obtain ⟨⟨-, -, hcr, hlf⟩, -⟩ := findHeaderEnd_first hend
  have hlast : slice input (headerEnd - 2) 2 = crlf := by
    rw [slice_succ (by omega) 1 0, slice_succ (by omega) 0 0, show headerEnd - 2 = headerEnd - 4 + 2 by omega, hcr, hlf]
    rfl
  have hblock : slice input cursor (headerEnd - cursor) = slice input cursor (headerEnd - 2 - cursor) ++ crlf := by
    rw [← hlast, slice_append_slice input (by omega)]
    congr 1
    omega
  rw [findCrlf, hblock]
  exact findCrlfFrom_ne_absent _ _

theorem lineStart_headerEnd : LineStart input headerEnd := by
  obtain ⟨h4, -, -⟩ := findHeaderEnd_bounds hend
  obtain ⟨⟨-, -, hcr, hlf⟩, -⟩ := findHeaderEnd_first hend
  refine ⟨by omega, ?_, ?_⟩
  · rwa [show headerEnd - 4 + 2 = headerEnd - 2 by omega] at hcr
  · rwa [show headerEnd - 4 + 3 = headerEnd - 1 by omega] at hlf

theorem AtLine.again (h : AtLine input headerEnd st) (hturn : headerStep input headerEnd st = .again st') :
    AtLine input headerEnd st' ∧ st.cursor < st'.cursor := by
  obtain ⟨lineEnd, hfind, hlt, -, hroom, hline, hcursor⟩ := headerStep_again hturn
  have hlate := lineEnd_le hfind hlt (findHeaderEnd_lf hend)
  obtain ⟨f, -, -, framed, happly, rfl⟩ := parseHeaderLine_ok_iff.mp hline
  obtain ⟨-, hframed⟩ := applyHeader_ok_iff.mp happly
  have hcount := h.count
  have hlength := h.length
  have hheaders : framed.message.headers.length = st.message.headers.length + 1 := by
    rcases hframed with ⟨-, rfl⟩ | ⟨-, n, -, -, -, rfl⟩ <;> exact List.length_append
  refine ⟨⟨lineStart_of_findCrlf hfind, by dsimp only; omega, by dsimp only; omega, ?_⟩, by dsimp only; omega⟩
  rcases hframed with ⟨-, rfl⟩ | ⟨-, n, -, hn, -, rfl⟩
  · exact hlength
  · exact hn

/-- Only the empty line stops the loop, and the first one is the end of the block. -/
theorem AtLine.stop (h : AtLine input headerEnd st) (hturn : headerStep input headerEnd st = .stop st') :
    st' = { st with cursor := headerEnd } := by
  have hbehind := h.start.behind
  have hinside := h.inside
  rcases headerStep_stop hturn with ⟨-, hcr, hlf, rfl⟩ | ⟨hout, -⟩
  · have hblank : BlankLine input (st.cursor - 2) := by
      refine ⟨h.start.atCr, ?_, ?_, ?_⟩
      · rw [show st.cursor - 2 + 1 = st.cursor - 1 by omega, h.start.atLf]
      · rw [show st.cursor - 2 + 2 = st.cursor by omega, hcr]
      · rw [show st.cursor - 2 + 3 = st.cursor + 1 by omega, hlf]
    have hfirst := (findHeaderEnd_first hend).2 (st.cursor - 2)
    have hcursor : st.cursor + 2 = headerEnd := by
      by_contra hne
      exact hfirst (by omega) hblank
    rw [hcursor]
  · omega

theorem InLoop.atLine (h : InLoop input headerEnd st) : AtLine input headerEnd st := by
  induction h with
  | start hfind hne hline =>
    obtain ⟨hheaders, -⟩ := parseStartLine_frame hline
    refine ⟨lineStart_of_findCrlf hfind, ?_, ?_, Nat.zero_le _⟩
    · exact lineEnd_le hfind (Nat.pos_of_ne_zero hne) (findHeaderEnd_lf hend)
    · rw [hheaders]
      exact Nat.zero_le _
  | again _ hturn ih => exact (ih.again hend hturn).1

theorem headerLoop_ok_end {last : HeaderState} (hok : headerLoop input headerEnd st = .ok last) :
    AtLine input headerEnd st → last.cursor = headerEnd ∧ last.contentLength ≤ maxBodyBytes := by
  refine headerLoop_ok_induct ?_ ?_ hok
  · intro st hturn h
    rw [h.stop hend hturn]
    exact ⟨rfl, h.length⟩
  · intro st next hturn ih h
    exact ih (h.again hend hturn).1

/-- **The header loop is safe.** Once CRLFCRLF is found, in every state at the loop condition a line starts at the
cursor, no turn reads behind the block or writes behind the table, the end of the line is there, and the turn moves
the cursor on or fails. The loop only ends with the cursor at the end of the block, and with a length that neither of
the two tests behind the loop refuses. -/
theorem headerLoop_safe :
    findCrlf input 0 headerEnd ≠ .absent ∧ ∀ st, InLoop input headerEnd st →
      (LineStart input st.cursor ∧ 0 < st.cursor ∧ st.cursor ≤ headerEnd) ∧
      (headerStepLogged input headerEnd st).value = headerStep input headerEnd st ∧
      (∀ access ∈ (headerStepLogged input headerEnd st).log, access.Safe headerEnd) ∧
      findCrlf input st.cursor headerEnd ≠ .absent ∧
      (∀ st', headerStep input headerEnd st = .again st' → st.cursor < st'.cursor) ∧
      (∀ st', headerStep input headerEnd st = .stop st' →
        st.cursor < st'.cursor ∧ LineStart input st'.cursor ∧ st'.cursor = headerEnd) ∧
      ∀ last, headerLoop input headerEnd st = .ok last →
        ¬ last.cursor ≠ headerEnd ∧ ¬ last.contentLength > sizeMax - headerEnd := by
  obtain ⟨h4, hle, h4096⟩ := findHeaderEnd_bounds hend
  refine ⟨findCrlf_ne_absent hend (by omega), fun st hst => ?_⟩
  have h := hst.atLine hend
  have hbehind := h.start.behind
  have hinside := h.inside
  refine ⟨⟨h.start, by omega, by omega⟩, headerStepLogged_value hle st, headerStepLogged_safe hle h.count,
    findCrlf_ne_absent hend hinside, fun st' hturn => (h.again hend hturn).2, ?_, ?_⟩
  · intro st' hturn
    rw [h.stop hend hturn]
    exact ⟨by dsimp only; omega, lineStart_headerEnd hend, rfl⟩
  · intro last hok
    obtain ⟨hcursor, hlength⟩ := headerLoop_ok_end hend hok h
    have hmax : maxBodyBytes ≤ sizeMax - 4096 := by decide
    exact ⟨not_not.mpr hcursor, by omega⟩

end Loop

/-- A request with one header line goes through the loop. -/
theorem headerLoop_safe_host :
    let input := ascii "GET / HTTP/1.1\r\nHost: x\r\n\r\n".toList
    ∃ st last, InLoop input 27 st ∧ LineStart input st.cursor ∧ headerLoop input 27 st = .ok last ∧
      ¬ last.cursor ≠ 27 ∧ ¬ last.contentLength > sizeMax - 27 := by
  intro input
  have hend : findHeaderEnd input = some 27 := by decide +kernel
  have hok : (parseHead input 27).isOk = true := by decide +kernel
  cases hhead : parseHead input 27 with
  | error status =>
    rw [hhead] at hok
    cases hok
  | ok last =>
    obtain ⟨lineEnd, message, hfind, hne, hline, hloop, -⟩ := parseHead_ok hhead
    have hst := InLoop.start hfind hne hline
    obtain ⟨⟨hstart, -, -⟩, -, -, -, -, -, hlast⟩ := (headerLoop_safe hend).2 _ hst
    exact ⟨_, last, hst, hstart, hloop, hlast last hloop⟩

end TcpipCourse.L10
