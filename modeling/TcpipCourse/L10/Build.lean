import Mathlib.Tactic.IntervalCases
import TcpipCourse.L10.StartLine

/-!
# Lesson 10: building a request

* `decimalSize`, `writeDecimal` : the digits of the body length, counted and then written from the last one on;
* `buildRequest` : the checks, and the stores behind them;
* `requestBytes` : what is stored; `isMessage_requestBytes` : it is a message of the grammar;
* `buildRequest_parse` : when a request is built, and what the parser reads in it.

The path and the body are always there, and the output buffer has `cap` bytes.
-/

namespace TcpipCourse.L10
open Lib

/-! ## Decimal numbers -/

def decimalSizeFrom (value digits : Nat) : Nat :=
  if value ≥ 10 then decimalSizeFrom (value / 10) (digits + 1) else digits
termination_by value

def decimalSize (value : Nat) : Nat := decimalSizeFrom value 1

/-- `out[index - 1u] = (uint8_t)('0' + (value % 10u))`, from the last digit on; the number starts at `start`. -/
def writeDecimal (out : Bytes) (start : Nat) : (index value : Nat) → Bytes
  | 0, _ => out
  | index + 1, value =>
    writeDecimal (out.set (start + index) (48 + UInt8.ofNat (value % 10))) start index (value / 10)

def decimalText (n : Nat) : Bytes := ascii (Nat.toDigits 10 n)

theorem ascii_digitChar {n : Nat} (h : n < 10) : ascii [Nat.digitChar n] = [48 + UInt8.ofNat n] := by
  interval_cases n <;> rfl

theorem decimalText_eq (n : Nat) :
    decimalText n = (if n ≥ 10 then decimalText (n / 10) else []) ++ [48 + UInt8.ofNat (n % 10)] := by
  rw [decimalText, Nat.toDigits_eq_if (by omega)]
  split
  · next hlt =>
    rw [if_neg (by omega), List.nil_append, ascii_digitChar hlt, Nat.mod_eq_of_lt hlt]
  · next hge =>
    rw [if_pos (by omega), ← ascii_digitChar (Nat.mod_lt n (by omega)), ascii, List.map_append]
    rfl

theorem decimalSizeFrom_eq (value : Nat) : ∀ digits,
    decimalSizeFrom value (digits + 1) = digits + (decimalText value).length := by
  induction value using Nat.strong_induction_on with
  | _ value ih =>
    intro digits
    rw [decimalSizeFrom, decimalText_eq, List.length_append, List.length_singleton]
    split
    · next hge =>
      rw [ih (value / 10) (by omega)]
      omega
    · rfl

theorem decimalSize_eq (n : Nat) : decimalSize n = (decimalText n).length := by
  rw [decimalSize, decimalSizeFrom_eq, Nat.zero_add]

theorem writeDecimal_eq (n : Nat) : ∀ (out : Bytes) (start : Nat),
    writeDecimal out start (decimalText n).length n = overwrite out start (decimalText n) := by
  induction n using Nat.strong_induction_on with
  | _ n ih =>
    intro out start
    rw [decimalText_eq, List.length_append, List.length_singleton, writeDecimal, set_eq_overwrite]
    split
    · next hge => rw [ih (n / 10) (by omega), overwrite_overwrite_after]
    · rfl

theorem digitValue_digit {d : Nat} (h : d < 10) :
    isDigit (48 + UInt8.ofNat d) = true ∧ digitValue (48 + UInt8.ofNat d) = d := by
  interval_cases d <;> exact ⟨rfl, rfl⟩

theorem decimal_append_digit (value : Bytes) (c : UInt8) :
    decimal (value ++ [c]) = decimal value * 10 + digitValue c := by
  rw [decimal, List.reverse_append, List.map_append, Nat.ofDigits_append, decimal]
  simp
  ring

theorem decimalText_denotes (n : Nat) : Denotes (decimalText n) n := by
  induction n using Nat.strong_induction_on with
  | _ n ih =>
    obtain ⟨hdigit, hvalue⟩ := digitValue_digit (Nat.mod_lt n (by omega : 10 > 0))
    rw [decimalText_eq]
    split
    · next hge =>
      obtain ⟨-, hdigits, hnumber⟩ := ih (n / 10) (by omega)
      refine ⟨by simp, ?_, ?_⟩
      · intro b hb
        rcases List.mem_append.mp hb with hb | hb
        · exact hdigits b hb
        · rw [List.mem_singleton.mp hb]
          exact hdigit
      · rw [decimal_append_digit, hnumber, hvalue]
        omega
    · next hlt =>
      refine ⟨by simp, ?_, ?_⟩
      · intro b hb
        rw [List.mem_singleton.mp hb]
        exact hdigit
      · rw [List.nil_append, decimal_cons, hvalue, List.length_nil, Nat.pow_zero, Nat.mul_one]
        show n % 10 + 0 = n
        omega

/-! ## The builder -/

def slash : UInt8 := 47

def requestPrefix : Bytes := ascii "POST ".toList

def requestMiddle : Bytes := ascii " HTTP/1.1\r\nHost: localhost\r\nContent-Length: ".toList

def requestSuffix : Bytes := ascii "\r\nConnection: close\r\n\r\n".toList

/-- `*written` and the output buffer behind the call. -/
structure BuildResult where
  status : Status
  written : Nat
  out : Bytes
  deriving DecidableEq, Repr

def buildRequest (path body out : Bytes) : BuildResult :=
  let cap := out.length
  if path.length = 0 then ⟨.invalidArgument, 0, out⟩
  else if body.length > maxBodyBytes then ⟨.capacity, 0, out⟩
  else
    let digits := decimalSize body.length
    let fixed := requestPrefix.length + requestMiddle.length + digits + requestSuffix.length
    if path.length > sizeMax - fixed then ⟨.capacity, 0, out⟩
    else
      let headerLength := fixed + path.length
      if headerLength > maxHeaderBytes ∨ body.length > sizeMax - headerLength ∨ headerLength + body.length > cap then
        ⟨.capacity, 0, out⟩
      else if path.getD 0 0 ≠ slash then ⟨.invalidArgument, 0, out⟩
      else if path.any (fun b => b ≤ sp || b == del) then ⟨.invalidArgument, 0, out⟩
      else
        let cursor := 0
        let out := overwrite out cursor requestPrefix
        let cursor := cursor + requestPrefix.length
        let out := overwrite out cursor path
        let cursor := cursor + path.length
        let out := overwrite out cursor requestMiddle
        let cursor := cursor + requestMiddle.length
        let out := writeDecimal out cursor digits body.length
        let cursor := cursor + digits
        let out := overwrite out cursor requestSuffix
        let cursor := cursor + requestSuffix.length
        let out := if body.length ≠ 0 then overwrite out cursor body else out
        let cursor := cursor + body.length
        ⟨.ok, cursor, out⟩

/-! ## What is built -/

/-- A path of visible bytes that starts with a slash, and a body within the limit. -/
structure ValidRequest (path body : Bytes) : Prop where
  rooted : path.head? = some slash
  visible : ∀ b ∈ path, sp < b ∧ b ≠ del
  bound : body.length ≤ maxBodyBytes

/-- The fixed text, the path and the digits of the body length. -/
def requestHeader (path : Bytes) (n : Nat) : Bytes :=
  requestPrefix ++ path ++ requestMiddle ++ decimalText n ++ requestSuffix

def requestBytes (path body : Bytes) : Bytes := requestHeader path body.length ++ body

/-- The fixed text, the path and the digits of the body length, counted. -/
def requestHeaderLength (path : Bytes) (n : Nat) : Nat :=
  requestPrefix.length + requestMiddle.length + requestSuffix.length + path.length + (decimalText n).length

theorem length_requestHeader (path : Bytes) (n : Nat) :
    (requestHeader path n).length = requestHeaderLength path n := by
  simp only [requestHeader, requestHeaderLength, List.length_append]
  omega

theorem length_requestBytes (path body : Bytes) :
    (requestBytes path body).length = requestHeaderLength path body.length + body.length := by
  rw [requestBytes, List.length_append, length_requestHeader]

/-- What the builder asks for. -/
structure Buildable (path body : Bytes) (cap : Nat) : Prop where
  valid : ValidRequest path body
  header : requestHeaderLength path body.length ≤ maxHeaderBytes
  total : requestHeaderLength path body.length + body.length ≤ cap

theorem visible_any_iff (path : Bytes) :
    path.any (fun b => b ≤ sp || b == del) = false ↔ ∀ b ∈ path, sp < b ∧ b ≠ del := by
  rw [List.any_eq_false]
  refine forall₂_congr fun b _ => ?_
  rw [← target_byte_iff, Bool.not_eq_true, Bool.not_eq_true']

/-- Where the checks pass, the request is stored at the start of the buffer. -/
theorem buildRequest_eq {path body out : Bytes} (h : Buildable path body out.length) :
    buildRequest path body out =
      ⟨.ok, (requestBytes path body).length, overwrite out 0 (requestBytes path body)⟩ := by
  obtain ⟨⟨hrooted, hvisible, hbody⟩, hheader, htotal⟩ := h
  obtain ⟨rest, rfl⟩ : ∃ rest, path = slash :: rest := List.head?_eq_some_iff.mp hrooted
  have hmax : maxHeaderBytes = 4096 := rfl
  have hmax' : maxBodyBytes = 8192 := rfl
  have hsize : sizeMax = 18446744073709551615 := rfl
  have hcount := hheader
  rw [requestHeaderLength] at hcount
  have hfixed : requestPrefix.length + requestMiddle.length + (decimalText body.length).length +
      requestSuffix.length + (slash :: rest).length = requestHeaderLength (slash :: rest) body.length := by
    rw [requestHeaderLength]
    omega
  have hstore : ∀ (src more : Bytes) (k : Nat), k = src.length →
      overwrite (overwrite out 0 src) k more = overwrite out 0 (src ++ more) := by
    rintro src more _ rfl
    nth_rewrite 1 [← Nat.zero_add src.length]
    rw [overwrite_overwrite]
  have hskip : ∀ (out : Bytes) (k : Nat),
      (if body.length ≠ 0 then overwrite out k body else out) = overwrite out k body := by
    intro out k
    split
    · rfl
    · next hnil => rw [List.eq_nil_of_length_eq_zero (not_not.mp hnil), overwrite_nil]
  unfold buildRequest
  dsimp only
  rw [if_neg (by rw [List.length_cons]; omega), if_neg (by omega), decimalSize_eq, hfixed, if_neg (by omega),
    if_neg (by omega), if_neg (by simp), (visible_any_iff _).mpr hvisible, if_neg (by simp), hskip, writeDecimal_eq]
  rw [hstore, hstore, hstore, hstore, hstore]
  · rw [length_requestBytes, ← hfixed]
    congr 1
    omega
  all_goals simp only [List.length_append, Nat.zero_add]

theorem take_buildRequest {path body out : Bytes} (h : Buildable path body out.length) :
    (buildRequest path body out).out.take (buildRequest path body out).written = requestBytes path body := by
  rw [buildRequest_eq h]
  exact take_overwrite_zero (by rw [length_requestBytes]; exact h.total)

theorem buildRequest_fail {path body out : Bytes} (h : ¬ Buildable path body out.length) :
    (buildRequest path body out).status ≠ .ok ∧ (buildRequest path body out).written = 0 ∧
      (buildRequest path body out).out = out := by
  unfold buildRequest
  dsimp only
  split
  · exact ⟨by simp, rfl, rfl⟩
  · next hpath =>
    split
    · exact ⟨by simp, rfl, rfl⟩
    · next hbody =>
      split
      · exact ⟨by simp, rfl, rfl⟩
      · split
        · exact ⟨by simp, rfl, rfl⟩
        · next hlength =>
          split
          · exact ⟨by simp, rfl, rfl⟩
          · next hslash =>
            split
            · exact ⟨by simp, rfl, rfl⟩
            · next hvisible =>
              rw [decimalSize_eq] at hlength
              rw [Bool.not_eq_true, visible_any_iff] at hvisible
              refine absurd ⟨⟨?_, hvisible, by omega⟩, ?_, ?_⟩ h
              · obtain ⟨c, rest, rfl⟩ := List.exists_cons_of_length_pos (Nat.pos_of_ne_zero hpath)
                exact congrArg some (not_not.mp hslash)
              · rw [requestHeaderLength]
                omega
              · rw [requestHeaderLength]
                omega

/-! ## What is read -/

/-- The three fields of a request with `n` bytes in its body. -/
def requestFields (n : Nat) : List Field :=
  [⟨ascii "Host".toList, ascii " localhost".toList⟩, ⟨ascii "Content-Length".toList, sp :: decimalText n⟩,
    ⟨ascii "Connection".toList, ascii " close".toList⟩]

def requestLine (path : Bytes) : StartLine := .request (ascii "POST".toList) path

theorem requestHeader_eq (path : Bytes) (n : Nat) :
    requestHeader path n = headerBlock (requestLine path).bytes (requestFields n) := by
  have hmiddle : requestMiddle = sp :: httpVersion ++ crlf ++ (ascii "Host: localhost".toList ++ crlf ++
      ascii "Content-Length: ".toList) := by decide
  have hsuffix : requestSuffix = crlf ++ (ascii "Connection: close".toList ++ crlf) ++ crlf := by decide
  have hhost : (Field.mk (ascii "Host".toList) (ascii " localhost".toList)).line =
      ascii "Host: localhost".toList := by decide
  have hlength : (Field.mk (ascii "Content-Length".toList) (sp :: decimalText n)).line =
      ascii "Content-Length: ".toList ++ decimalText n := rfl
  have hconnection : (Field.mk (ascii "Connection".toList) (ascii " close".toList)).line =
      ascii "Connection: close".toList := by decide
  have hprefix : requestPrefix = ascii "POST".toList ++ [sp] := by decide
  rw [headerBlock, requestFields, fieldLines_cons, fieldLines_cons, fieldLines_cons, hhost, hlength, hconnection,
    requestHeader, hprefix, hmiddle, hsuffix, requestLine, StartLine.bytes]
  simp only [fieldLines, List.flatMap_nil, List.append_assoc, List.cons_append, List.nil_append]

/-- One blank in front of a value without blanks is all that is trimmed. -/
theorem trimmed_of_blank {name text : Bytes} (htext : ∀ b ∈ text, isOws b = false) :
    (Field.mk name (sp :: text)).trimmed = text := by
  have hdrop : (sp :: text).dropWhile isOws = text := by
    rw [List.dropWhile_cons, if_pos (by decide), List.dropWhile_eq_self_iff]
    intro hpos
    rw [htext _ (List.getElem_mem hpos)]
    decide
  show ((sp :: text).dropWhile isOws).rdropWhile isOws = text
  rw [hdrop, List.rdropWhile_eq_self_iff]
  intro hl
  rw [htext _ (List.getLast_mem hl)]
  decide

theorem decimalText_digit {n : Nat} {b : UInt8} (hb : b ∈ decimalText n) :
    isOws b = false ∧ isFieldByte b = true := by
  have hdigit := (decimalText_denotes n).digits b hb
  constructor
  · rw [isOws, Bool.or_eq_false_iff, beq_eq_false_iff_ne, beq_eq_false_iff_ne]
    exact ⟨ne_of_test hdigit (by decide), ne_of_test hdigit (by decide)⟩
  · have hdel : b ≠ del := ne_of_test hdigit (by decide)
    rw [isDigit, Bool.and_eq_true, decide_eq_true_iff] at hdigit
    have hsp : sp ≤ b := UInt8.le_trans (by decide) hdigit.1
    simp [isFieldByte, hsp, hdel]

theorem trimmed_decimalText (n : Nat) :
    (Field.mk (ascii "Content-Length".toList) (sp :: decimalText n)).trimmed = decimalText n :=
  trimmed_of_blank fun _ hb => (decimalText_digit hb).1

theorem trimmed_requestFields (n : Nat) : (requestFields n).map (fun f => (f.name, f.trimmed)) =
    [(ascii "Host".toList, ascii "localhost".toList), (ascii "Content-Length".toList, decimalText n),
      (ascii "Connection".toList, ascii "close".toList)] := by
  simp only [requestFields, List.map_cons, List.map_nil, trimmed_decimalText]
  rfl

theorem framing_requestFields {n : Nat} (h : n ≤ maxBodyBytes) : Framing (requestFields n) n := by
  have hname : ascii "Content-Length".toList ≠ [] ∧ (ascii "Content-Length".toList).all isTchar = true ∧
      ¬ Named (ascii "Content-Length".toList) "transfer-encoding" := by decide
  refine Framing.cons (Framing.cons (Framing.cons (Framing.nil h) ?_ (by decide) ?_) ?_ hname.2.2 ?_) ?_
    (by decide) ?_
  · exact ⟨by decide, List.all_eq_true.mp (by decide), List.all_eq_true.mp (by decide)⟩
  · exact fun hnamed => absurd hnamed (by decide)
  · refine ⟨hname.1, List.all_eq_true.mp hname.2.1, ?_⟩
    intro b hb
    rcases List.mem_cons.mp hb with rfl | hb
    · decide
    · exact (decimalText_digit hb).2
  · intro _
    rw [trimmed_decimalText]
    exact decimalText_denotes n
  · exact ⟨by decide, List.all_eq_true.mp (by decide), List.all_eq_true.mp (by decide)⟩
  · exact fun hnamed => absurd hnamed (by decide)

theorem requestLine_wellFormed {path body : Bytes} (h : ValidRequest path body) : (requestLine path).WellFormed := by
  refine ⟨⟨by decide, List.all_eq_true.mp (by decide)⟩, ?_, h.visible⟩
  rintro rfl
  cases h.rooted

theorem StartLine.WellFormed.clean_request {method target : Bytes} (h : (StartLine.request method target).WellFormed) :
    ∀ b ∈ (StartLine.request method target).bytes, b ≠ cr ∧ b ≠ lf := by
  intro b hb
  rw [StartLine.bytes, List.mem_append, List.mem_cons, List.mem_append, List.mem_cons] at hb
  have hversion : ∀ b ∈ httpVersion, b ≠ cr ∧ b ≠ lf := clean_of_notMem (by decide)
  rcases hb with hb | rfl | hb | rfl | hb
  · exact ⟨ne_of_test (h.1.2 b hb) (by decide), ne_of_test (h.1.2 b hb) (by decide)⟩
  · decide
  · have hvisible := (h.2.2 b hb).1
    constructor
    · rintro rfl
      exact absurd hvisible (by decide)
    · rintro rfl
      exact absurd hvisible (by decide)
  · decide
  · exact hversion b hb

theorem isMessage_requestBytes {path body : Bytes} {cap : Nat} (h : Buildable path body cap) (rest : Bytes) :
    IsMessage (requestBytes path body ++ rest) (requestLine path).bytes (requestFields body.length) body rest where
  input_eq := by rw [requestBytes, requestHeader_eq, List.append_assoc]
  block := by
    rw [← requestHeader_eq, length_requestHeader]
    exact h.header
  nonempty := by simp [requestLine, StartLine.bytes]
  clean := (requestLine_wellFormed h.valid).clean_request
  start := ⟨_, parseStartLine_ok_iff.mpr ⟨_, requestLine_wellFormed h.valid, rfl, rfl, by simp [requestLine]⟩⟩
  count := Nat.le_of_ble_eq_true rfl
  framing := framing_requestFields h.valid.bound
  bodiless := fun hno => absurd (show Named (ascii "Content-Length".toList) "content-length" by decide)
    (hno _ (List.mem_cons_of_mem _ List.mem_cons_self))

theorem parseMessage_requestBytes {path body : Bytes} {cap : Nat} (h : Buildable path body cap) (rest : Bytes) :
    parseMessage (requestBytes path body ++ rest) = ⟨.ok, { (requestLine path).record .zero with
      headers := fieldViews ((requestLine path).bytes.length + 2) (requestFields body.length)
      contentLength := body.length
      body := .at (requestHeaderLength path body.length) body.length
      messageLength := requestHeaderLength path body.length + body.length }⟩ := by
  have hstart : parseStartLine (requestLine path).bytes .zero = .ok ((requestLine path).record .zero) :=
    parseStartLine_ok_iff.mpr ⟨_, requestLine_wellFormed h.valid, rfl, rfl, by simp [requestLine]⟩
  rw [parseMessage_of_message (isMessage_requestBytes h rest) hstart, ← requestHeader_eq, length_requestHeader]

/-- What the parser says about `input`: a request for `path` with this body, in `n` bytes. -/
structure ReadsRequest (input path body : Bytes) (n : Nat) : Prop where
  status : (parseMessage input).status = .ok
  kind : (parseMessage input).message.kind = some .request
  method : (parseMessage input).message.method.bytes input = ascii "POST".toList
  target : (parseMessage input).message.target.bytes input = path
  version : (parseMessage input).message.version.bytes input = httpVersion
  headers : (parseMessage input).message.headers.map (fun h => (h.name.bytes input, h.value.bytes input)) =
    [(ascii "Host".toList, ascii "localhost".toList), (ascii "Content-Length".toList, decimalText body.length),
      (ascii "Connection".toList, ascii "close".toList)]
  contentLength : (parseMessage input).message.contentLength = body.length
  body : (parseMessage input).message.body.bytes input = body
  messageLength : (parseMessage input).message.messageLength = n

theorem readsRequest_requestBytes {path body : Bytes} {cap : Nat} (h : Buildable path body cap) (rest : Bytes) :
    ReadsRequest (requestBytes path body ++ rest) path body
      (requestHeaderLength path body.length + body.length) := by
  have hparse := parseMessage_requestBytes h rest
  obtain ⟨after, hline⟩ : ∃ after, requestBytes path body ++ rest = (requestLine path).bytes ++ after := by
    refine ⟨crlf ++ (fieldLines (requestFields body.length) ++ crlf) ++ (body ++ rest), ?_⟩
    rw [requestBytes, requestHeader_eq, headerBlock]
    simp only [List.append_assoc]
  have hfields : (requestBytes path body ++ rest).drop ((requestLine path).bytes.length + 2) =
      fieldLines (requestFields body.length) ++ (crlf ++ (body ++ rest)) := by
    have hlen : ((requestLine path).bytes ++ crlf).length = (requestLine path).bytes.length + 2 := List.length_append
    rw [requestBytes, requestHeader_eq, headerBlock, ← hlen, List.append_assoc, List.append_assoc, List.drop_left,
      List.append_assoc]
  obtain ⟨hmethod, htarget, hversion⟩ :=
    StartLine.bytes_record_request .zero (ascii "POST".toList) path after
  rw [show (StartLine.request (ascii "POST".toList) path).bytes = (requestLine path).bytes from rfl,
    ← hline] at hmethod htarget hversion
  constructor
  · rw [hparse]
  · rw [hparse]
    rfl
  · rw [hparse]
    exact hmethod
  · rw [hparse]
    exact htarget
  · rw [hparse]
    exact hversion
  · rw [hparse]
    exact (bytes_fieldViews hfields).trans (trimmed_requestFields _)
  · rw [hparse]
  · rw [hparse]
    show slice _ (requestHeaderLength path body.length) body.length = body
    rw [requestBytes, ← length_requestHeader, slice, List.append_assoc, List.drop_left, List.take_left]
  · rw [hparse]

/-- **Build, then parse.** A request is built if and only if the path and the body are as the builder asks and
its bytes fit; then the parser reads it back from the bytes written, whatever comes behind them. Otherwise
nothing is written. -/
theorem buildRequest_parse (path body out : Bytes) :
    let built := buildRequest path body out
    (built.status = .ok ↔ Buildable path body out.length) ∧
      (built.status = .ok → built.written = requestHeaderLength path body.length + body.length ∧
        ∀ rest, ReadsRequest (built.out.take built.written ++ rest) path body built.written) ∧
      (built.status ≠ .ok → built.written = 0 ∧ built.out = out) := by
  intro built
  by_cases h : Buildable path body out.length
  · have hbuilt : built = _ := buildRequest_eq h
    rw [length_requestBytes] at hbuilt
    refine ⟨?_, ?_, ?_⟩
    · rw [hbuilt]
      exact iff_of_true rfl h
    · intro _
      rw [hbuilt]
      refine ⟨rfl, ?_⟩
      intro rest
      dsimp only
      rw [← length_requestBytes, take_overwrite_zero (by rw [length_requestBytes]; exact h.total),
        length_requestBytes]
      exact readsRequest_requestBytes h rest
    · intro hne
      rw [hbuilt] at hne
      exact absurd rfl hne
  · obtain ⟨hstatus, hwritten, hout⟩ := buildRequest_fail h
    exact ⟨iff_of_false hstatus h, fun hok => absurd hok hstatus, fun _ => ⟨hwritten, hout⟩⟩

theorem buildRequest_parse_two :
    let built := buildRequest [47, 97] [111, 107] (List.replicate 77 0)
    let refused := buildRequest [47, 97] [111, 107] (List.replicate 76 0)
    (built.status = .ok ∧ built.written = 77 ∧ ReadsRequest (built.out.take 77 ++ [7]) [47, 97] [111, 107] 77) ∧
      refused.status ≠ .ok ∧ refused.written = 0 ∧ refused.out = List.replicate 76 0 := by
  intro built refused
  have hok : built.status = .ok := by decide +kernel
  have hshort : refused.status ≠ .ok := by decide +kernel
  have hwritten : built.written = 77 := by decide +kernel
  have hreads := ((buildRequest_parse [47, 97] [111, 107] (List.replicate 77 0)).2.1 hok).2 [7]
  rw [show (buildRequest [47, 97] [111, 107] (List.replicate 77 0)).written = 77 from hwritten] at hreads
  exact ⟨⟨hok, hwritten, hreads⟩, hshort,
    (buildRequest_parse [47, 97] [111, 107] (List.replicate 76 0)).2.2 hshort⟩

end TcpipCourse.L10
