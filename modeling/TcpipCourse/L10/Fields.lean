import Mathlib.Data.Nat.Digits.Defs
import TcpipCourse.L10.Parse

/-!
# Lesson 10: field lines

* `Field` : what a field line says, apart from how it is found;
* `Denotes` : the number a `Content-Length` value stands for;
* `parseContentLength_ok_iff` : the digit loop accepts the values that denote a number within the body limit;
* `applyHeader_ok_iff` : what a field may do to the framing;
* `parseHeaderLine_ok_iff` : the lines that are accepted, and what becomes of the locals of the loop.
-/

namespace TcpipCourse.L10
open Lib

/-! ## Fields -/

/-- A field line is the name, a colon and everything up to the CRLF. -/
structure Field where
  name : Bytes
  value : Bytes
  deriving DecidableEq

def Field.line (f : Field) : Bytes := f.name ++ colonByte :: f.value

/-- The value without the spaces and tabs around it. -/
def Field.trimmed (f : Field) : Bytes := (f.value.dropWhile isOws).rdropWhile isOws

/-- TAB, or any byte from SP on but DEL. -/
def isFieldByte (byte : UInt8) : Bool := byte == tab || (sp ≤ byte && byte != del)

/-- A token, and a value without control bytes. -/
structure Field.WellFormed (f : Field) : Prop where
  nonempty : f.name ≠ []
  token : ∀ b ∈ f.name, isTchar b = true
  text : ∀ b ∈ f.value, isFieldByte b = true

/-- The names are the same but for the case of ASCII letters; `literal` is in lower case. -/
def Named (name : Bytes) (literal : String) : Prop := name.map toLower = ascii literal.toList

instance (name : Bytes) (literal : String) : Decidable (Named name literal) :=
  inferInstanceAs (Decidable (_ = _))

theorem asciiEqual_iff {name : Bytes} {literal : String} :
    asciiEqual name (ascii literal.toList) = true ↔ Named name literal := by
  rw [asciiEqual, beq_iff_eq, Named]

theorem ne_of_test {test : UInt8 → Bool} {b c : UInt8} (hb : test b = true) (hc : test c = false) : b ≠ c := by
  rintro rfl
  rw [hb] at hc
  cases hc

theorem Field.WellFormed.clean {f : Field} (h : f.WellFormed) : ∀ b ∈ f.line, b ≠ cr ∧ b ≠ lf := by
  intro b hb
  rcases List.mem_append.mp hb with hb | hb
  · exact ⟨ne_of_test (h.token b hb) (by decide), ne_of_test (h.token b hb) (by decide)⟩
  · rcases List.mem_cons.mp hb with rfl | hb
    · decide
    · exact ⟨ne_of_test (h.text b hb) (by decide), ne_of_test (h.text b hb) (by decide)⟩

theorem Field.length_line (f : Field) : f.line.length = f.name.length + 1 + f.value.length := by
  rw [Field.line, List.length_append, List.length_cons]
  omega

/-! ## Trimming -/

theorem forall_dropWhile {p ok : UInt8 → Bool} (hp : ∀ b, p b = true → ok b = true) (l : Bytes) :
    (∀ b ∈ l.dropWhile p, ok b = true) ↔ ∀ b ∈ l, ok b = true := by
  constructor
  · intro h b hb
    rw [← List.takeWhile_append_dropWhile (p := p) (l := l), List.mem_append] at hb
    rcases hb with hb | hb
    · exact hp b (List.mem_takeWhile_imp hb)
    · exact h b hb
  · intro h b hb
    exact h b ((List.dropWhile_sublist p).subset hb)

theorem Field.forall_trimmed (f : Field) :
    (∀ b ∈ f.trimmed, isFieldByte b = true) ↔ ∀ b ∈ f.value, isFieldByte b = true := by
  have hows : ∀ b, isOws b = true → isFieldByte b = true := by
    intro b hb
    rw [isOws, Bool.or_eq_true, beq_iff_eq, beq_iff_eq] at hb
    rcases hb with rfl | rfl <;> decide
  have hrev : ∀ l : Bytes, (∀ b ∈ l.reverse, isFieldByte b = true) ↔ ∀ b ∈ l, isFieldByte b = true := by
    intro l
    simp only [List.mem_reverse]
  rw [Field.trimmed, List.rdropWhile, hrev, forall_dropWhile hows, hrev, forall_dropWhile hows]

/-! ## Numbers -/

def digitValue (byte : UInt8) : Nat := (byte - 48).toNat

/-- The number with these decimal digits, the most significant first. -/
def decimal (value : Bytes) : Nat := Nat.ofDigits 10 (value.reverse.map digitValue)

/-- The value is a nonempty run of digits with the number `n`. -/
structure Denotes (value : Bytes) (n : Nat) : Prop where
  nonempty : value ≠ []
  digits : ∀ b ∈ value, isDigit b = true
  number : decimal value = n

theorem decimal_cons (c : UInt8) (rest : Bytes) :
    decimal (c :: rest) = digitValue c * 10 ^ rest.length + decimal rest := by
  rw [decimal, List.reverse_cons, List.map_append, Nat.ofDigits_append, List.length_map, List.length_reverse,
    List.map_singleton, Nat.ofDigits_singleton, decimal]
  ring

theorem contentLengthFrom_ok {limit : Nat} {value : Bytes} : ∀ {parsed n : Nat},
    contentLengthFrom limit value parsed = .ok n →
      (∀ b ∈ value, isDigit b = true) ∧ parsed * 10 ^ value.length + decimal value = n := by
  induction value with
  | nil =>
    intro parsed n h
    cases h
    exact ⟨by simp, by simp [decimal]⟩
  | cons c rest ih =>
    intro parsed n h
    rw [contentLengthFrom] at h
    split at h
    · cases h
    · next hdigit =>
      dsimp only at h
      split at h
      · cases h
      · obtain ⟨hrest, hn⟩ := ih h
        refine ⟨?_, ?_⟩
        · intro b hb
          rcases List.mem_cons.mp hb with rfl | hb
          · simpa using hdigit
          · exact hrest b hb
        · rw [decimal_cons, List.length_cons, ← hn, digitValue]
          ring

/-- Digits whose number stays within the limit never overflow on the way. -/
theorem contentLengthFrom_of_le {limit : Nat} {value : Bytes} : ∀ {parsed : Nat},
    (∀ b ∈ value, isDigit b = true) → parsed * 10 ^ value.length + decimal value ≤ limit →
    contentLengthFrom limit value parsed = .ok (parsed * 10 ^ value.length + decimal value) := by
  induction value with
  | nil =>
    intro parsed _ _
    simp [contentLengthFrom, decimal]
  | cons c rest ih =>
    intro parsed hdigits hle
    have hc := hdigits c (by simp)
    have hsum : parsed * 10 ^ (c :: rest).length + decimal (c :: rest) =
        (parsed * 10 + digitValue c) * 10 ^ rest.length + decimal rest := by
      rw [decimal_cons, List.length_cons]
      ring
    rw [hsum] at hle ⊢
    have hstep : parsed * 10 + digitValue c ≤ limit := by
      have := Nat.le_mul_of_pos_right (parsed * 10 + digitValue c) (Nat.pow_pos (n := rest.length) (by omega : 0 < 10))
      omega
    rw [contentLengthFrom, hc]
    simp only [Bool.not_true, Bool.false_eq_true, if_false]
    rw [if_neg (by rw [← digitValue]; omega), ← digitValue]
    exact ih (fun b hb => hdigits b (List.mem_cons_of_mem _ hb)) hle

theorem parseContentLength_ok_iff {value : Bytes} {n : Nat} :
    parseContentLength sizeMax value = .ok n ↔ Denotes value n ∧ n ≤ maxBodyBytes := by
  unfold parseContentLength
  constructor
  · intro h
    split at h
    · cases h
    · next hne =>
      split at h
      · cases h
      · next parsed hparsed =>
        split at h
        · cases h
        · next hle =>
          cases h
          obtain ⟨hdigits, hnum⟩ := contentLengthFrom_ok hparsed
          rw [Nat.zero_mul, Nat.zero_add] at hnum
          exact ⟨⟨fun hnil => hne (by rw [hnil]; rfl), hdigits, hnum⟩, by omega⟩
  · rintro ⟨⟨hne, hdigits, hnum⟩, hle⟩
    have hmax : maxBodyBytes ≤ sizeMax := by decide
    have hloop : contentLengthFrom sizeMax value 0 = .ok (0 * 10 ^ value.length + decimal value) :=
      contentLengthFrom_of_le hdigits (by omega)
    rw [Nat.zero_mul, Nat.zero_add, hnum] at hloop
    rw [if_neg (by simpa using hne), hloop]
    dsimp only
    rw [if_neg (by omega)]

/-! ## One line -/

theorem scanUntil_some {stop : UInt8} {ok : UInt8 → Bool} {l : Bytes} : ∀ {index k : Nat},
    scanUntil stop ok l index = some k → ∃ front back, l = front ++ back ∧ k = index + front.length ∧
      (∀ b ∈ front, ok b = true) ∧ (back = [] ∨ ∃ rest, back = stop :: rest) := by
  induction l with
  | nil =>
    intro index k h
    cases h
    exact ⟨[], [], rfl, rfl, by simp, .inl rfl⟩
  | cons c l ih =>
    intro index k h
    rw [scanUntil] at h
    split at h
    · next hstop =>
      cases h
      exact ⟨[], c :: l, rfl, rfl, by simp, .inr ⟨l, by rw [hstop]⟩⟩
    · split at h
      · next hok =>
        obtain ⟨front, back, rfl, hk, hfront, hback⟩ := ih h
        refine ⟨c :: front, back, rfl, by rw [hk, List.length_cons]; omega, ?_, hback⟩
        intro b hb
        rcases List.mem_cons.mp hb with rfl | hb
        · exact hok
        · exact hfront b hb
      · cases h

theorem scanUntil_append {stop : UInt8} {ok : UInt8 → Bool} (hstop : ok stop = false) {front : Bytes} :
    ∀ {index : Nat} (rest : Bytes), (∀ b ∈ front, ok b = true) →
    scanUntil stop ok (front ++ stop :: rest) index = some (index + front.length) := by
  induction front with
  | nil =>
    intro index rest _
    simp [scanUntil]
  | cons c front ih =>
    intro index rest hfront
    have hc := hfront c (by simp)
    rw [List.cons_append, scanUntil, if_neg (ne_of_test hc hstop), if_pos hc,
      ih rest fun b hb => hfront b (List.mem_cons_of_mem _ hb), List.length_cons]
    congr 1
    omega

/-- The entry of a field whose line starts at `cursor`. -/
def fieldView (cursor : Nat) (f : Field) : HeaderView :=
  ⟨.at cursor f.name.length, .at (cursor + f.name.length + 1 + (f.value.takeWhile isOws).length) f.trimmed.length⟩

/-- The locals once the field is recorded. -/
def HeaderState.record (st : HeaderState) (f : Field) : HeaderState :=
  { st with message := { st.message with headers := st.message.headers ++ [fieldView st.cursor f] } }

theorem applyHeader_ok_iff {st st' : HeaderState} {name value : Bytes} :
    applyHeader st name value = .ok st' ↔ ¬ Named name "transfer-encoding" ∧
      (¬ Named name "content-length" ∧ st' = st ∨ Named name "content-length" ∧
        ∃ n, Denotes value n ∧ n ≤ maxBodyBytes ∧ (st.haveContentLength = true → n = st.contentLength) ∧
          st' = { st with haveContentLength := true, contentLength := n }) := by
  unfold applyHeader
  simp only [asciiEqual_iff]
  by_cases hte : Named name "transfer-encoding"
  · simp [hte]
  · by_cases hcl : Named name "content-length"
    · simp only [hte, hcl, if_true, if_false, not_false_eq_true, not_true_eq_false, true_and, false_and, false_or]
      constructor
      · intro h
        split at h
        · cases h
        · next n hn =>
          obtain ⟨hdenotes, hle⟩ := parseContentLength_ok_iff.mp hn
          split at h
          · cases h
          · next hsame =>
            cases h
            exact ⟨n, hdenotes, hle, fun hhave => by_contra fun hne => hsame ⟨hhave, hne⟩, rfl⟩
      · rintro ⟨n, hdenotes, hle, hsame, rfl⟩
        rw [parseContentLength_ok_iff.mpr ⟨hdenotes, hle⟩]
        dsimp only
        rw [if_neg fun hne => hne.2 (hsame hne.1)]
    · simp only [hte, hcl, if_false, not_false_eq_true, true_and, false_and, or_false, Except.ok.injEq]
      exact eq_comm

theorem parseHeaderLine_line {input : Bytes} {lineEnd : Nat} {st : HeaderState} {f : Field}
    (hline : slice input st.cursor (lineEnd - st.cursor) = f.line) (hne : f.name ≠ [])
    (htoken : ∀ b ∈ f.name, isTchar b = true) :
    parseHeaderLine input lineEnd st =
      if f.trimmed.any (fun b => (b < sp && b != tab) || b == del) then .error .malformed
      else match applyHeader (st.record f) f.name f.trimmed with
        | .error status => .error status
        | .ok st => .ok { st with cursor := lineEnd + 2 } := by
  have hscan : scanUntil colonByte isTchar f.line 0 = some f.name.length := by
    rw [Field.line, scanUntil_append (by decide) f.value htoken, Nat.zero_add]
  have hvalue : f.line.drop (f.name.length + 1) = f.value := by
    rw [Field.line, ← List.drop_drop, List.drop_left]
    rfl
  have hname : f.line.take f.name.length = f.name := List.take_left
  have hlen := f.length_line
  have hpos : f.name.length ≠ 0 := by simpa using hne
  unfold parseHeaderLine
  rw [hline]
  simp only [hscan, hvalue, hname]
  rw [if_neg (by omega)]
  rfl

theorem any_control_iff (l : Bytes) :
    l.any (fun b => (b < sp && b != tab) || b == del) = false ↔ ∀ b ∈ l, isFieldByte b = true := by
  rw [List.any_eq_false]
  refine forall₂_congr fun b _ => ?_
  by_cases hlt : b < sp
  · have hdel : b ≠ del := by
      rintro rfl
      exact absurd hlt (by decide)
    simp [isFieldByte, hlt, hdel]
  · have htab : b ≠ tab := by
      rintro rfl
      exact hlt (by decide)
    simp [isFieldByte, hlt, htab, UInt8.not_lt.mp hlt]

/-- **One line.** The lines that are accepted, and the locals behind them. -/
theorem parseHeaderLine_ok_iff {input : Bytes} {lineEnd : Nat} {st st' : HeaderState} :
    parseHeaderLine input lineEnd st = .ok st' ↔ ∃ f : Field, f.WellFormed ∧
      slice input st.cursor (lineEnd - st.cursor) = f.line ∧
      ∃ framed, applyHeader (st.record f) f.name f.trimmed = .ok framed ∧
        st' = { framed with cursor := lineEnd + 2 } := by
  constructor
  · intro h
    have hfield : ∃ f : Field, slice input st.cursor (lineEnd - st.cursor) = f.line ∧ f.name ≠ [] ∧
        ∀ b ∈ f.name, isTchar b = true := by
      have h' := h
      unfold parseHeaderLine at h'
      dsimp only at h'
      split at h'
      · cases h'
      · next colon hscan =>
        split at h'
        · cases h'
        · next hcolon =>
          obtain ⟨name, back, hsplit, hk, hname, hback⟩ := scanUntil_some hscan
          have hlen := congrArg List.length hsplit
          rw [List.length_append] at hlen
          rcases hback with rfl | ⟨value, rfl⟩
          · exact absurd (.inr (by simp at hlen; omega)) hcolon
          · refine ⟨⟨name, value⟩, hsplit, ?_, hname⟩
            rintro rfl
            exact hcolon (.inl (by simpa using hk))
    obtain ⟨f, hline, hne, htoken⟩ := hfield
    rw [parseHeaderLine_line hline hne htoken] at h
    split at h
    · cases h
    · next hclean =>
      rw [Bool.not_eq_true, any_control_iff, f.forall_trimmed] at hclean
      split at h
      · cases h
      · next framed hframed =>
        cases h
        exact ⟨f, ⟨hne, htoken, hclean⟩, hline, framed, hframed, rfl⟩
  · rintro ⟨f, hf, hline, framed, hframed, rfl⟩
    have hclean := (any_control_iff _).mpr (f.forall_trimmed.mpr hf.text)
    rw [parseHeaderLine_line hline hf.nonempty hf.token, hclean, hframed]
    rfl

end TcpipCourse.L10
