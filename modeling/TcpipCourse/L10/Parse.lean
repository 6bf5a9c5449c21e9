import Mathlib.Data.List.DropRight
import TcpipCourse.Common
import TcpipCourse.Lib.Span

/-!
# Lesson 10: parsing one HTTP message

* `parseStartLine` : the request line or the status line;
* `headerStep`, `headerLoop` : one header line, and the loop over the lines of the header block;
* `parseMessage` : the search for the end of the headers and everything behind it.

A view holds spans of the input as offset and length; the pointers of a zeroed view are null.
-/

namespace TcpipCourse.L10
open Lib

def maxHeaders : Nat := 16

def maxHeaderBytes : Nat := 4096

def maxBodyBytes : Nat := 8192

/-! ## Bytes -/

def cr : UInt8 := 13

def lf : UInt8 := 10

def sp : UInt8 := 32

def tab : UInt8 := 9

def colonByte : UInt8 := 58

def del : UInt8 := 127

def ascii (cs : List Char) : Bytes := cs.map fun c => UInt8.ofNat c.toNat

def isTchar (byte : UInt8) : Bool :=
  (48 ≤ byte && byte ≤ 57) || (65 ≤ byte && byte ≤ 90) || (97 ≤ byte && byte ≤ 122) ||
    -- the fifteen marks from '!' to '~' that a token may hold
    [33, 35, 36, 37, 38, 39, 42, 43, 45, 46, 94, 95, 96, 124, 126].contains byte

def toLower (byte : UInt8) : UInt8 := if 65 ≤ byte ∧ byte ≤ 90 then byte + (97 - 65) else byte

/-- `left` is folded to lower case, `right` is a literal in lower case. -/
def asciiEqual (left right : Bytes) : Bool := left.map toLower == right

/-! ## Lines -/

/-- `1` with the offset, `-1` and `0`. -/
inductive FindCrlf where
  | found (lineEnd : Nat)
  | bare
  | absent
  deriving DecidableEq, Repr

/-- The loop from `index` on, over the bytes up to `end`. -/
def findCrlfFrom : Bytes → (index : Nat) → FindCrlf
  | a :: b :: rest, index =>
    if a = cr ∧ b = lf then .found index
    else if a = cr ∨ a = lf then .bare
    else findCrlfFrom (b :: rest) (index + 1)
  | _, _ => .absent

def findCrlf (input : Bytes) (start stop : Nat) : FindCrlf :=
  findCrlfFrom (slice input start (stop - start)) start

/-- `while (i < length && line[i] != stop) { if (!ok(line[i])) return MALFORMED; i += 1; }` : where the loop
stops. -/
def scanUntil (stop : UInt8) (ok : UInt8 → Bool) : Bytes → (index : Nat) → Option Nat
  | [], index => some index
  | c :: rest, index =>
    if c = stop then some index
    else if ok c then scanUntil stop ok rest (index + 1)
    else none

/-! ## The view -/

/-- `data` is an offset into the input, or null. -/
structure Span where
  data : Option Nat
  length : Nat
  deriving DecidableEq, Repr

def Span.zero : Span := ⟨none, 0⟩

def Span.at (data length : Nat) : Span := ⟨some data, length⟩

structure HeaderView where
  name : Span
  value : Span
  deriving DecidableEq, Repr

inductive MessageKind where
  | request
  | response
  deriving DecidableEq, Repr

/-- `headers` holds the first `header_count` entries; `kind` is `none` while it is zero. -/
structure MessageView where
  kind : Option MessageKind
  method : Span
  target : Span
  version : Span
  statusCode : Nat
  reason : Span
  headers : List HeaderView
  body : Span
  contentLength : Nat
  messageLength : Nat
  deriving DecidableEq, Repr

/-- `memset(message, 0, sizeof(*message))` -/
def MessageView.zero : MessageView :=
  ⟨none, .zero, .zero, .zero, 0, .zero, [], .zero, 0, 0⟩

/-! ## The start line -/

def httpVersion : Bytes := ascii ['H', 'T', 'T', 'P', '/', '1', '.', '1']

def validVersion (data : Bytes) : Bool := data == httpVersion

def isDigit (byte : UInt8) : Bool := 48 ≤ byte && byte ≤ 57

/-- The line is the first `length` bytes of the input. -/
def parseStatusLine (line : Bytes) (message : MessageView) : Except Status MessageView :=
  let length := line.length
  let firstSpace := (line.takeWhile (· ≠ sp)).length
  if !validVersion (line.take firstSpace) || firstSpace + 4 ≥ length then .error .malformed
  else
    let codeAt := firstSpace + 1
    let d1 := line.getD codeAt 0
    let d2 := line.getD (codeAt + 1) 0
    let d3 := line.getD (codeAt + 2) 0
    if d1 < 49 || d1 > 57 || d2 < 48 || d2 > 57 || d3 < 48 || d3 > 57 then .error .malformed
    else if codeAt + 3 < length ∧ line.getD (codeAt + 3) 0 ≠ sp then .error .malformed
    else if (line.drop (codeAt + 4)).any (fun b => b < sp || b == del) then .error .malformed
    else .ok { message with
      kind := some .response
      version := .at 0 firstSpace
      statusCode := (d1 - 48).toNat * 100 + (d2 - 48).toNat * 10 + (d3 - 48).toNat
      reason := if codeAt + 3 < length then .at (codeAt + 4) (length - (codeAt + 4))
        else ⟨some length, message.reason.length⟩ }

def parseRequestLine (line : Bytes) (message : MessageView) : Except Status MessageView :=
  let length := line.length
  match scanUntil sp isTchar line 0 with
  | none => .error .malformed
  | some firstSpace =>
    if firstSpace = 0 ∨ firstSpace = length then .error .malformed
    else match scanUntil sp (fun b => !(b ≤ sp || b == del)) (line.drop (firstSpace + 1)) (firstSpace + 1) with
      | none => .error .malformed
      | some secondSpace =>
        if secondSpace = firstSpace + 1 ∨ secondSpace = length ∨
            validVersion (slice line (secondSpace + 1) (length - secondSpace - 1)) = false then
          .error .malformed
        else .ok { message with
          kind := some .request
          method := .at 0 firstSpace
          target := .at (firstSpace + 1) (secondSpace - firstSpace - 1)
          version := .at (secondSpace + 1) (length - secondSpace - 1) }

def parseStartLine (line : Bytes) (message : MessageView) : Except Status MessageView :=
  if line.length ≥ 5 ∧ line.take 5 = ascii ['H', 'T', 'T', 'P', '/'] then parseStatusLine line message
  else parseRequestLine line message

/-! ## Header lines -/

/-- The digit loop; `limit` is `SIZE_MAX`. -/
def contentLengthFrom (limit : Nat) : Bytes → (parsed : Nat) → Except Status Nat
  | [], parsed => .ok parsed
  | c :: rest, parsed =>
    if !isDigit c then .error .malformed
    else
      let digit := (c - 48).toNat
      if parsed > (limit - digit) / 10 then .error .malformed
      else contentLengthFrom limit rest (parsed * 10 + digit)

def parseContentLength (limit : Nat) (value : Bytes) : Except Status Nat :=
  if value.length = 0 then .error .malformed
  else match contentLengthFrom limit value 0 with
    | .error status => .error status
    | .ok parsed => if parsed > maxBodyBytes then .error .capacity else .ok parsed

def isOws (byte : UInt8) : Bool := byte == sp || byte == tab

structure HeaderState where
  message : MessageView
  cursor : Nat
  haveContentLength : Bool
  contentLength : Nat
  deriving DecidableEq, Repr

/-- What a header line does to the framing once it is recorded. -/
def applyHeader (st : HeaderState) (name value : Bytes) : Except Status HeaderState :=
  if asciiEqual name (ascii "transfer-encoding".toList) then .error .malformed
  else if asciiEqual name (ascii "content-length".toList) then
    match parseContentLength sizeMax value with
    | .error status => .error status
    | .ok parsedLength =>
      if st.haveContentLength ∧ parsedLength ≠ st.contentLength then .error .malformed
      else .ok { st with haveContentLength := true, contentLength := parsedLength }
  else .ok st

/-- The line from `st.cursor` to `lineEnd`: name, colon, and a value without the blanks around it. -/
def parseHeaderLine (input : Bytes) (lineEnd : Nat) (st : HeaderState) : Except Status HeaderState :=
  let line := slice input st.cursor (lineEnd - st.cursor)
  match scanUntil colonByte isTchar line 0 with
  | none => .error .malformed
  | some colon =>
    if colon = 0 ∨ colon = line.length then .error .malformed
    else
      let rest := line.drop (colon + 1)
      let valueBegin := st.cursor + colon + 1 + (rest.takeWhile isOws).length
      let value := (rest.dropWhile isOws).rdropWhile isOws
      if value.any (fun b => (b < sp && b != tab) || b == del) then .error .malformed
      else
        let header : HeaderView := ⟨.at st.cursor colon, .at valueBegin value.length⟩
        let message := { st.message with headers := st.message.headers ++ [header] }
        match applyHeader { st with message := message } (line.take colon) value with
        | .error status => .error status
        | .ok st => .ok { st with cursor := lineEnd + 2 }

/-- How one turn of the header loop ends. -/
inductive HeaderTurn where
  | fail (status : Status)
  | stop (st : HeaderState)
  | again (st : HeaderState)

/-- One turn of `while (cursor + 1 < header_end)`. -/
def headerStep (input : Bytes) (headerEnd : Nat) (st : HeaderState) : HeaderTurn :=
  if st.cursor + 1 < headerEnd then
    let a := input.getD st.cursor 0
    let b := input.getD (st.cursor + 1) 0
    if a = cr ∧ b = lf then .stop { st with cursor := st.cursor + 2 }
    else if a = sp ∨ a = tab then .fail .malformed
    else if st.message.headers.length = maxHeaders then .fail .capacity
    else match findCrlf input st.cursor headerEnd with
      | .found lineEnd =>
        if lineEnd = st.cursor then .fail .malformed
        else match parseHeaderLine input lineEnd st with
          | .error status => .fail status
          | .ok st => .again st
      | _ => .fail .malformed
  else .stop st

/-- A line that is found holds neither CR nor LF, and CRLF follows it. -/
theorem findCrlfFrom_found {l : Bytes} : ∀ {index lineEnd : Nat}, findCrlfFrom l index = .found lineEnd →
    ∃ line rest, l = line ++ cr :: lf :: rest ∧ lineEnd = index + line.length ∧ ∀ b ∈ line, b ≠ cr ∧ b ≠ lf := by
  induction l with
  | nil => intro index lineEnd h; cases h
  | cons a l ih =>
    intro index lineEnd h
    cases l with
    | nil => cases h
    | cons b rest =>
      rw [findCrlfFrom] at h
      split at h
      · next hab =>
        cases h
        exact ⟨[], rest, by rw [hab.1, hab.2]; rfl, rfl, by simp⟩
      · split at h
        · cases h
        · next hbare =>
          obtain ⟨line, rest', hl, hend, hline⟩ := ih h
          refine ⟨a :: line, rest', by rw [hl]; rfl, by rw [hend, List.length_cons]; omega, ?_⟩
          intro c hc
          rcases List.mem_cons.mp hc with rfl | hc
          · exact ⟨fun h => hbare (.inl h), fun h => hbare (.inr h)⟩
          · exact hline c hc

theorem findCrlf_found {input : Bytes} {start stop lineEnd : Nat} (h : findCrlf input start stop = .found lineEnd) :
    start ≤ lineEnd ∧ lineEnd + 2 ≤ stop := by
  obtain ⟨line, rest, hl, hend, -⟩ := findCrlfFrom_found h
  have hlen := congrArg List.length hl
  simp only [List.length_append, List.length_cons, slice, List.length_take, List.length_drop] at hlen
  omega

theorem parseHeaderLine_cursor {input : Bytes} {lineEnd : Nat} {st st' : HeaderState}
    (h : parseHeaderLine input lineEnd st = .ok st') : st'.cursor = lineEnd + 2 := by
  unfold parseHeaderLine at h
  dsimp only at h
  split at h
  · cases h
  · split at h
    · cases h
    · split at h
      · cases h
      · split at h
        · cases h
        · cases h
          rfl

theorem headerStep_again {input : Bytes} {headerEnd : Nat} {st st' : HeaderState}
    (h : headerStep input headerEnd st = .again st') :
    ∃ lineEnd, findCrlf input st.cursor headerEnd = .found lineEnd ∧ st.cursor < lineEnd ∧
      lineEnd + 2 ≤ headerEnd ∧ st.message.headers.length ≠ maxHeaders ∧
      parseHeaderLine input lineEnd st = .ok st' ∧ st'.cursor = lineEnd + 2 := by
  unfold headerStep at h
  dsimp only at h
  split at h
  · split at h
    · cases h
    · split at h
      · cases h
      · split at h
        · cases h
        · next hroom =>
          split at h
          · next lineEnd hfind =>
            split at h
            · cases h
            · next hne =>
              split at h
              · cases h
              · next st'' hline =>
                cases h
                obtain ⟨hle, hstop⟩ := findCrlf_found hfind
                exact ⟨lineEnd, hfind, by omega, hstop, hroom, hline, parseHeaderLine_cursor hline⟩
          · cases h
  · cases h

theorem headerStep_stop {input : Bytes} {headerEnd : Nat} {st st' : HeaderState}
    (h : headerStep input headerEnd st = .stop st') :
    (st.cursor + 1 < headerEnd ∧ input.getD st.cursor 0 = cr ∧ input.getD (st.cursor + 1) 0 = lf ∧
      st' = { st with cursor := st.cursor + 2 }) ∨ ¬ st.cursor + 1 < headerEnd ∧ st' = st := by
  unfold headerStep at h
  dsimp only at h
  split at h
  · next hin =>
    split at h
    · next hcrlf =>
      cases h
      exact .inl ⟨hin, hcrlf.1, hcrlf.2, rfl⟩
    · split at h
      · cases h
      · split at h
        · cases h
        · split at h
          · split at h
            · cases h
            · split at h <;> cases h
          · cases h
  · next hin =>
    cases h
    exact .inr ⟨hin, rfl⟩

theorem headerStep_lt {input : Bytes} {headerEnd : Nat} {st st' : HeaderState}
    (h : headerStep input headerEnd st = .again st') : headerEnd - st'.cursor < headerEnd - st.cursor := by
  obtain ⟨lineEnd, -, hlt, hstop, -, -, hcursor⟩ := headerStep_again h
  omega

/-- `while (cursor + 1 < header_end)` -/
def headerLoop (input : Bytes) (headerEnd : Nat) (st : HeaderState) : Except Status HeaderState :=
  match _h : headerStep input headerEnd st with
  | .fail status => .error status
  | .stop st' => .ok st'
  | .again st' => headerLoop input headerEnd st'
termination_by headerEnd - st.cursor
decreasing_by exact headerStep_lt (by assumption)

/-- A loop that ends well, from its last turn back to the first one. -/
@[elab_as_elim]
theorem headerLoop_ok_induct {input : Bytes} {headerEnd : Nat} {last : HeaderState} {motive : HeaderState → Prop}
    (stop : ∀ st, headerStep input headerEnd st = .stop last → motive st)
    (again : ∀ st next, headerStep input headerEnd st = .again next → motive next → motive st) {st : HeaderState} :
    headerLoop input headerEnd st = .ok last → motive st := by
  induction st using headerLoop.induct input headerEnd with
  | case1 st status h =>
    intro hok
    rw [headerLoop, h] at hok
    cases hok
  | case2 st last' h =>
    intro hok
    rw [headerLoop, h] at hok
    cases hok
    exact stop st h
  | case3 st next h ih =>
    intro hok
    rw [headerLoop, h] at hok
    exact again st next h (ih hok)

/-! ## The message -/

/-- From `index` on: the offset behind the first CRLFCRLF. -/
def findHeaderEndFrom : Bytes → (index : Nat) → Option Nat
  | a :: b :: c :: d :: rest, index =>
    if a = cr ∧ b = lf ∧ c = cr ∧ d = lf then some (index + 4)
    else findHeaderEndFrom (b :: c :: d :: rest) (index + 1)
  | _, _ => none

def scanLimit (input : Bytes) : Nat := if input.length < maxHeaderBytes then input.length else maxHeaderBytes

def findHeaderEnd (input : Bytes) : Option Nat := findHeaderEndFrom (input.take (scanLimit input)) 0

/-- A LF without CR before it, or a CR with something else than LF behind it; `prev` is the byte before. -/
def hasBare : (prev : Option UInt8) → Bytes → Bool
  | _, [] => false
  | prev, c :: rest =>
    (c == lf && prev != some cr) || (c == cr && rest.head?.any (· != lf)) || hasBare (some c) rest

/-- Everything between the search for the end of the headers and the length check; it reads the bytes up to
`headerEnd` only. -/
def parseHead (input : Bytes) (headerEnd : Nat) : Except Status HeaderState :=
  match findCrlf input 0 headerEnd with
  | .found lineEnd =>
    if lineEnd = 0 then .error .malformed
    else match parseStartLine (input.take lineEnd) .zero with
      | .error status => .error status
      | .ok message =>
        match headerLoop input headerEnd
            { message := message, cursor := lineEnd + 2, haveContentLength := false, contentLength := 0 } with
        | .error status => .error status
        | .ok st =>
          if st.cursor ≠ headerEnd then .error .malformed
          else if st.contentLength > sizeMax - headerEnd then .error .capacity
          else .ok st
  | _ => .error .malformed

structure ParseResult where
  status : Status
  message : MessageView
  deriving DecidableEq, Repr

def parseMessage (input : Bytes) : ParseResult :=
  if input.length = 0 then ⟨.truncated, .zero⟩
  else match findHeaderEnd input with
    | none =>
      if hasBare none (input.take (scanLimit input)) then ⟨.malformed, .zero⟩
      else if input.length ≥ maxHeaderBytes then ⟨.capacity, .zero⟩
      else ⟨.truncated, .zero⟩
    | some headerEnd =>
      match parseHead input headerEnd with
      | .error status => ⟨status, .zero⟩
      | .ok st =>
        let messageLength := headerEnd + st.contentLength
        if input.length < messageLength then ⟨.truncated, .zero⟩
        else ⟨.ok, { st.message with
          contentLength := st.contentLength
          body := .at headerEnd st.contentLength
          messageLength := messageLength }⟩

end TcpipCourse.L10
