import TcpipCourse.L10.Grammar

/-!
# Lesson 10: the two forms of a start line

* `StartLine` : a request line or a status line, by its parts; `StartLine.record` : the view with these parts;
* `parseRequestLine_ok_iff`, `parseStatusLine_ok_iff` : the lines each branch of the parser takes;
* `parseStartLine_ok_iff` : the lines the parser takes;
* `parseStartLine_forms` : where these are the two forms, and where they are not.

A status line may end behind the code. The parser has a branch for such a line, and turns the line away before
it gets there.
-/

namespace TcpipCourse.L10
open Lib

/-! ## The forms -/

/-- `d1`, `d2` and `d3` are the digits of the code; a status line without a reason ends behind them. -/
inductive StartLine where
  | request (method target : Bytes)
  | response (d1 d2 d3 : UInt8) (reason : Option Bytes)
  deriving DecidableEq

def StartLine.WellFormed : StartLine → Prop
  | .request method target =>
    (method ≠ [] ∧ ∀ b ∈ method, isTchar b = true) ∧ target ≠ [] ∧ ∀ b ∈ target, sp < b ∧ b ≠ del
  | .response d1 d2 d3 reason =>
    (isDigit d1 = true ∧ d1 ≠ 48) ∧ isDigit d2 = true ∧ isDigit d3 = true ∧
      ∀ text ∈ reason, ∀ b ∈ text, sp ≤ b ∧ b ≠ del

def StartLine.bytes : StartLine → Bytes
  | .request method target => method ++ sp :: (target ++ sp :: httpVersion)
  | .response d1 d2 d3 none => httpVersion ++ [sp, d1, d2, d3]
  | .response d1 d2 d3 (some text) => httpVersion ++ sp :: d1 :: d2 :: d3 :: sp :: text

/-- The parts of the line, as spans of the line. -/
def StartLine.record (message : MessageView) : StartLine → MessageView
  | .request method target => { message with
      kind := some .request
      method := .at 0 method.length
      target := .at (method.length + 1) target.length
      version := .at (method.length + 1 + target.length + 1) httpVersion.length }
  | .response d1 d2 d3 none => { message with
      kind := some .response
      version := .at 0 httpVersion.length
      statusCode := decimal [d1, d2, d3]
      reason := .at (httpVersion.length + 4) 0 }
  | .response d1 d2 d3 (some text) => { message with
      kind := some .response
      version := .at 0 httpVersion.length
      statusCode := decimal [d1, d2, d3]
      reason := .at (httpVersion.length + 5) text.length }

theorem clean_of_notMem {l : Bytes} (h : cr ∉ l ∧ lf ∉ l) : ∀ b ∈ l, b ≠ cr ∧ b ≠ lf := by
  intro b hb
  constructor
  · rintro rfl
    exact h.1 hb
  · rintro rfl
    exact h.2 hb

theorem decimal_three (d1 d2 d3 : UInt8) :
    decimal [d1, d2, d3] = digitValue d1 * 100 + digitValue d2 * 10 + digitValue d3 := by
  rw [decimal_cons, decimal_cons, decimal_cons]
  simp [decimal, Nat.add_assoc]

/-- The spans of a request line read its parts back, also with more bytes behind the line. -/
theorem StartLine.bytes_record_request (message : MessageView) (method target rest : Bytes) :
    let input := (StartLine.request method target).bytes ++ rest
    let view := (StartLine.request method target).record message
    view.method.bytes input = method ∧ view.target.bytes input = target ∧
      view.version.bytes input = httpVersion := by
  intro input view
  have hinput : input = method ++ [sp] ++ (target ++ [sp] ++ (httpVersion ++ rest)) := by
    simp [input, StartLine.bytes]
  have hfront : (method ++ [sp]).length = method.length + 1 := List.length_append
  have hmiddle : (target ++ [sp]).length = target.length + 1 := List.length_append
  refine ⟨?_, ?_, ?_⟩
  · show slice input 0 method.length = method
    rw [hinput, slice, List.drop_zero, List.append_assoc, List.take_left]
  · show slice input (method.length + 1) target.length = target
    rw [hinput, ← hfront, slice, List.drop_left, List.append_assoc, List.take_left]
  · show slice input (method.length + 1 + target.length + 1) httpVersion.length = httpVersion
    rw [hinput, slice, Nat.add_assoc, ← List.drop_drop, ← hfront, List.drop_left, ← hmiddle, List.drop_left,
      List.take_left]

/-! ## The request line -/

theorem target_byte_iff (b : UInt8) : (!(b ≤ sp || b == del)) = true ↔ sp < b ∧ b ≠ del := by
  simp [UInt8.not_le]

theorem validVersion_iff (data : Bytes) : validVersion data = true ↔ data = httpVersion := by
  rw [validVersion, beq_iff_eq]

theorem parseRequestLine_parts {method target version : Bytes} {message : MessageView}
    (hmethod : ∀ b ∈ method, isTchar b = true) (htarget : ∀ b ∈ target, sp < b ∧ b ≠ del) :
    parseRequestLine (method ++ sp :: (target ++ sp :: version)) message =
      if method = [] ∨ target = [] ∨ version ≠ httpVersion then .error .malformed
      else .ok ((StartLine.request method target).record message) := by
  have hlen : (method ++ sp :: (target ++ sp :: version)).length =
      method.length + 1 + (target.length + 1 + version.length) := by
    simp only [List.length_append, List.length_cons]
    omega
  have hfirst : scanUntil sp isTchar (method ++ sp :: (target ++ sp :: version)) 0 = some method.length := by
    rw [scanUntil_append (by decide) _ hmethod, Nat.zero_add]
  have hdrop : (method ++ sp :: (target ++ sp :: version)).drop (method.length + 1) = target ++ sp :: version := by
    rw [← List.drop_drop, List.drop_left]
    rfl
  have hsecond := @scanUntil_append sp (fun b => !(b ≤ sp || b == del)) (by decide) target (method.length + 1)
    version fun b hb => (target_byte_iff b).mpr (htarget b hb)
  have hversion : slice (method ++ sp :: (target ++ sp :: version)) (method.length + 1 + target.length + 1)
      (method.length + 1 + (target.length + 1 + version.length) - (method.length + 1 + target.length) - 1) =
      version := by
    rw [slice, Nat.add_assoc _ target.length, ← List.drop_drop, hdrop, ← List.drop_drop, List.drop_left,
      show _ - _ - 1 = version.length by omega]
    exact List.take_length
  rw [parseRequestLine, hlen, hfirst]
  dsimp only
  rw [hdrop, hsecond]
  dsimp only
  rw [hversion]
  by_cases hm : method = []
  · rw [if_pos (.inl (by rw [hm]; rfl)), if_pos (.inl hm)]
  · have hpos := List.length_pos_of_ne_nil hm
    rw [if_neg (by omega)]
    by_cases ht : target = []
    · rw [if_pos (.inl (by rw [ht]; rfl)), if_pos (.inr (.inl ht))]
    · have hpos' := List.length_pos_of_ne_nil ht
      by_cases hv : version = httpVersion
      · have hok : ¬ (method.length + 1 + target.length = method.length + 1 ∨
            method.length + 1 + target.length = method.length + 1 + (target.length + 1 + version.length) ∨
            validVersion version = false) := by
          rw [(validVersion_iff _).mpr hv]
          simp only [Bool.true_eq_false, or_false]
          omega
        rw [if_neg hok, if_neg (by simp [hm, ht, hv]), hv]
        simp only [StartLine.record]
        congr 3
        · omega
        · omega
      · have hbad : validVersion version = false := by
          rw [← Bool.not_eq_true, validVersion_iff]
          exact hv
        rw [if_pos (.inr (.inr hbad)), if_pos (.inr (.inr hv))]

theorem cut_of_scans {line : Bytes} {firstSpace secondSpace : Nat}
    (hfirst : scanUntil sp isTchar line 0 = some firstSpace) (hin : firstSpace ≠ line.length)
    (hsecond : scanUntil sp (fun b => !(b ≤ sp || b == del)) (line.drop (firstSpace + 1)) (firstSpace + 1) =
      some secondSpace) (hin' : secondSpace ≠ line.length) :
    ∃ method target version, line = method ++ sp :: (target ++ sp :: version) ∧
      (∀ b ∈ method, isTchar b = true) ∧ ∀ b ∈ target, sp < b ∧ b ≠ del := by
  obtain ⟨method, back, rfl, hk, hmethod, hback⟩ := scanUntil_some hfirst
  rw [Nat.zero_add] at hk
  rcases hback with rfl | ⟨more, rfl⟩
  · exact absurd (by simpa using hk) hin
  · rw [hk, ← List.drop_drop, List.drop_left] at hsecond
    obtain ⟨target, back, hmore, hk', htarget, hback⟩ := scanUntil_some hsecond
    have hmore : more = target ++ back := hmore
    rcases hback with rfl | ⟨version, rfl⟩
    · refine absurd ?_ hin'
      rw [hk', hmore]
      simp only [List.length_append, List.length_cons, List.length_nil]
      omega
    · exact ⟨method, target, version, by rw [hmore], hmethod, fun b hb => (target_byte_iff b).mp (htarget b hb)⟩

theorem parseRequestLine_ok_iff {line : Bytes} {message m : MessageView} :
    parseRequestLine line message = .ok m ↔ ∃ method target, (StartLine.request method target).WellFormed ∧
      line = (StartLine.request method target).bytes ∧ m = (StartLine.request method target).record message := by
  constructor
  · intro h
    have hsplit : ∃ method target version, line = method ++ sp :: (target ++ sp :: version) ∧
        (∀ b ∈ method, isTchar b = true) ∧ ∀ b ∈ target, sp < b ∧ b ≠ del := by
      have h' := h
      unfold parseRequestLine at h'
      dsimp only at h'
      split at h'
      · cases h'
      · next firstSpace hfirst =>
        split at h'
        · cases h'
        · next hin =>
          split at h'
          · cases h'
          · next secondSpace hsecond =>
            split at h'
            · cases h'
            · next hin' =>
              exact cut_of_scans hfirst (not_or.mp hin).2 hsecond (not_or.mp (not_or.mp hin').2).1
    obtain ⟨method, target, version, rfl, hmethod, htarget⟩ := hsplit
    rw [parseRequestLine_parts hmethod htarget] at h
    split at h
    · cases h
    · next hparts =>
      rw [not_or, not_or, not_not] at hparts
      obtain ⟨hm, ht, rfl⟩ := hparts
      cases h
      exact ⟨method, target, ⟨⟨hm, hmethod⟩, ht, htarget⟩, rfl, rfl⟩
  · rintro ⟨method, target, ⟨⟨hm, hmethod⟩, ht, htarget⟩, rfl, rfl⟩
    rw [StartLine.bytes, parseRequestLine_parts hmethod htarget, if_neg (by simp [hm, ht])]

/-! ## The status line -/

theorem code_byte_iff (d1 d2 d3 : UInt8) :
    (d1 < 49 || d1 > 57 || d2 < 48 || d2 > 57 || d3 < 48 || d3 > 57) = false ↔
      (isDigit d1 = true ∧ d1 ≠ 48) ∧ isDigit d2 = true ∧ isDigit d3 = true := by
  simp only [isDigit, Bool.or_eq_false_iff, decide_eq_false_iff_not, Bool.and_eq_true,
    decide_eq_true_eq, gt_iff_lt, UInt8.lt_iff_toNat_lt, UInt8.le_iff_toNat_le, ne_eq, ← UInt8.toNat_inj]
  have h48 : (48 : UInt8).toNat = 48 := rfl
  have h49 : (49 : UInt8).toNat = 49 := rfl
  omega

theorem reason_any_iff (text : Bytes) :
    text.any (fun b => b < sp || b == del) = false ↔ ∀ b ∈ text, sp ≤ b ∧ b ≠ del := by
  rw [List.any_eq_false]
  refine forall₂_congr fun b _ => ?_
  simp [UInt8.not_lt]

theorem parseStatusLine_parts (d1 d2 d3 e : UInt8) (text : Bytes) (message : MessageView) :
    parseStatusLine (httpVersion ++ sp :: d1 :: d2 :: d3 :: e :: text) message =
      if d1 < 49 || d1 > 57 || d2 < 48 || d2 > 57 || d3 < 48 || d3 > 57 then .error .malformed
      else if e ≠ sp then .error .malformed
      else if text.any (fun b => b < sp || b == del) then .error .malformed
      else .ok ((StartLine.response d1 d2 d3 (some text)).record message) := by
  have hlen : (httpVersion ++ sp :: d1 :: d2 :: d3 :: e :: text).length = text.length + 13 := rfl
  have hspace : ((httpVersion ++ sp :: d1 :: d2 :: d3 :: e :: text).takeWhile (· ≠ sp)).length = 8 := rfl
  have hversion : validVersion ((httpVersion ++ sp :: d1 :: d2 :: d3 :: e :: text).take 8) = true := rfl
  have hroom : ¬ 8 + 4 ≥ text.length + 13 := by omega
  have hbehind : 8 + 1 + 3 < text.length + 13 := by omega
  unfold parseStatusLine
  dsimp only
  rw [hlen, hspace, hversion]
  rw [if_neg (by rw [decide_eq_false hroom]; decide), if_pos hbehind]
  simp only [hbehind, true_and]
  refine if_congr Iff.rfl rfl (if_congr Iff.rfl rfl (if_congr Iff.rfl rfl ?_))
  rw [StartLine.record, decimal_three]
  rfl

theorem parseStatusLine_short (d1 d2 d3 : UInt8) (message : MessageView) :
    parseStatusLine (httpVersion ++ [sp, d1, d2, d3]) message = .error .malformed := rfl

/-- A line with the version up to its first space, and more than four bytes behind it. -/
theorem cut_of_version {line : Bytes} (hversion : line.take (line.takeWhile (· ≠ sp)).length = httpVersion)
    (hroom : ¬ (line.takeWhile (· ≠ sp)).length + 4 ≥ line.length) :
    ∃ d1 d2 d3 e text, line = httpVersion ++ sp :: d1 :: d2 :: d3 :: e :: text := by
  have hcut := List.takeWhile_append_dropWhile (p := fun b => decide (b ≠ sp)) (l := line)
  have hfront : line.takeWhile (· ≠ sp) = httpVersion := by
    rw [← hversion]
    nth_rewrite 3 [← hcut]
    rw [List.take_left]
  rw [hfront] at hcut hroom
  have hlen := congrArg List.length hcut
  rw [List.length_append] at hlen
  match hback : line.dropWhile (· ≠ sp) with
  | c :: d1 :: d2 :: d3 :: e :: text =>
    have hc : c = sp := by
      have hstop := List.head?_dropWhile_not (fun b => decide (b ≠ sp)) line
      rw [hback] at hstop
      simpa using hstop
    exact ⟨d1, d2, d3, e, text, by rw [← hcut, hback, hc]⟩
  | [] | [_] | [_, _] | [_, _, _] | [_, _, _, _] =>
    rw [hback] at hlen
    simp only [List.length_cons, List.length_nil] at hlen
    omega

theorem parseStatusLine_ok_iff {line : Bytes} {message m : MessageView} :
    parseStatusLine line message = .ok m ↔ ∃ d1 d2 d3 text,
      (StartLine.response d1 d2 d3 (some text)).WellFormed ∧
      line = (StartLine.response d1 d2 d3 (some text)).bytes ∧
      m = (StartLine.response d1 d2 d3 (some text)).record message := by
  constructor
  · intro h
    have hsplit : ∃ d1 d2 d3 e text, line = httpVersion ++ sp :: d1 :: d2 :: d3 :: e :: text := by
      have h' := h
      unfold parseStatusLine at h'
      dsimp only at h'
      split at h'
      · cases h'
      · next hversion =>
        rw [Bool.or_eq_true, not_or, Bool.not_eq_true', Bool.not_eq_false, validVersion_iff,
          decide_eq_true_iff] at hversion
        exact cut_of_version hversion.1 hversion.2
    obtain ⟨d1, d2, d3, e, text, rfl⟩ := hsplit
    rw [parseStatusLine_parts] at h
    split at h
    · cases h
    · next hcode =>
      split at h
      · cases h
      · next hspace =>
        split at h
        · cases h
        · next htext =>
          cases h
          rw [Bool.not_eq_true, code_byte_iff] at hcode
          rw [Bool.not_eq_true, reason_any_iff] at htext
          rw [not_not] at hspace
          refine ⟨d1, d2, d3, text, ⟨hcode.1, hcode.2.1, hcode.2.2, ?_⟩, by rw [hspace]; rfl, rfl⟩
          intro t ht
          cases ht
          exact htext
  · rintro ⟨d1, d2, d3, text, ⟨h1, h2, h3, htext⟩, rfl, rfl⟩
    rw [StartLine.bytes, parseStatusLine_parts, (code_byte_iff d1 d2 d3).mpr ⟨h1, h2, h3⟩,
      (reason_any_iff text).mpr (htext text rfl)]
    rfl

/-! ## Both forms -/

theorem StartLine.take_response (d1 d2 d3 : UInt8) (reason : Option Bytes) :
    (StartLine.response d1 d2 d3 reason).bytes.length ≥ 5 ∧
      (StartLine.response d1 d2 d3 reason).bytes.take 5 = ascii ['H', 'T', 'T', 'P', '/'] := by
  cases reason with
  | none => exact ⟨by simp [StartLine.bytes, httpVersion, ascii], rfl⟩
  | some text => exact ⟨by simp [StartLine.bytes, httpVersion, ascii], rfl⟩

/-- No method starts like a version: a slash is no token byte, and a space ends the method. -/
theorem StartLine.take_request {method target : Bytes} (h : (StartLine.request method target).WellFormed) :
    (StartLine.request method target).bytes.take 5 ≠ ascii ['H', 'T', 'T', 'P', '/'] := by
  intro htake
  have hget : ∀ k < 5, (StartLine.request method target).bytes.getD k 0 =
      (ascii ['H', 'T', 'T', 'P', '/']).getD k 0 := fun k hk => getD_eq_of_take_eq (b := ascii _) htake hk 0
  by_cases hlen : method.length < 5
  · have hsp : (StartLine.request method target).bytes.getD method.length 0 = sp := by
      rw [StartLine.bytes, List.getD_append_right _ _ _ _ (Nat.le_refl _), Nat.sub_self]
      rfl
    have hno : ∀ k < 5, (ascii ['H', 'T', 'T', 'P', '/']).getD k 0 ≠ sp := by decide
    exact hno method.length hlen ((hget _ hlen).symm.trans hsp)
  · have hlen : 4 < method.length := by omega
    have hslash := hget 4 (by omega)
    rw [StartLine.bytes, List.getD_append _ _ _ _ hlen, List.getD_eq_getElem _ _ hlen] at hslash
    exact ne_of_test (h.1.2 _ (List.getElem_mem hlen)) (by decide) hslash

/-- **The lines the parser takes**, and the views it makes of them. -/
theorem parseStartLine_ok_iff {line : Bytes} {message m : MessageView} :
    parseStartLine line message = .ok m ↔ ∃ form : StartLine, form.WellFormed ∧ line = form.bytes ∧
      m = form.record message ∧ ∀ d1 d2 d3, form ≠ .response d1 d2 d3 none := by
  constructor
  · intro h
    rw [parseStartLine] at h
    split at h
    · obtain ⟨d1, d2, d3, text, hform, hline, hm⟩ := parseStatusLine_ok_iff.mp h
      exact ⟨.response d1 d2 d3 (some text), hform, hline, hm, by simp⟩
    · obtain ⟨method, target, hform, hline, hm⟩ := parseRequestLine_ok_iff.mp h
      exact ⟨.request method target, hform, hline, hm, by simp⟩
  · rintro ⟨form, hform, rfl, rfl, hnone⟩
    match form with
    | .request method target =>
      rw [parseStartLine, if_neg fun hprefix => StartLine.take_request hform hprefix.2]
      exact parseRequestLine_ok_iff.mpr ⟨method, target, hform, rfl, rfl⟩
    | .response d1 d2 d3 (some text) =>
      rw [parseStartLine, if_pos (StartLine.take_response d1 d2 d3 _)]
      exact parseStatusLine_ok_iff.mpr ⟨d1, d2, d3, text, hform, rfl, rfl⟩
    | .response d1 d2 d3 none => exact absurd rfl (hnone d1 d2 d3)

theorem parseStartLine_short (d1 d2 d3 : UInt8) (message : MessageView) :
    parseStartLine (StartLine.response d1 d2 d3 none).bytes message = .error .malformed := by
  rw [parseStartLine, if_pos (StartLine.take_response d1 d2 d3 none)]
  exact parseStatusLine_short d1 d2 d3 message

/-- The parser takes the line if and only if it has one of the two forms, and then records the parts of this
form. -/
def TakesForms (line : Bytes) (message : MessageView) : Prop :=
  ((∃ m, parseStartLine line message = .ok m) ↔ ∃ form : StartLine, form.WellFormed ∧ line = form.bytes) ∧
    ∀ form : StartLine, form.WellFormed → line = form.bytes →
      parseStartLine line message = .ok (form.record message)

/-- **The two forms of a start line.** The parser takes them as they are, but for a status line that ends behind
the code. -/
theorem parseStartLine_forms (line : Bytes) (message : MessageView) :
    TakesForms line message ↔ ¬ ∃ d1 d2 d3, (StartLine.response d1 d2 d3 none).WellFormed ∧
      line = (StartLine.response d1 d2 d3 none).bytes := by
  constructor
  · rintro ⟨-, hrecord⟩ ⟨d1, d2, d3, hform, hline⟩
    have hok := hrecord _ hform hline
    rw [hline, parseStartLine_short] at hok
    cases hok
  · intro hlong
    have hrecord : ∀ form : StartLine, form.WellFormed → line = form.bytes →
        parseStartLine line message = .ok (form.record message) := by
      intro form hform hline
      refine parseStartLine_ok_iff.mpr ⟨form, hform, hline, rfl, ?_⟩
      rintro d1 d2 d3 rfl
      exact hlong ⟨d1, d2, d3, hform, hline⟩
    refine ⟨⟨?_, ?_⟩, hrecord⟩
    · rintro ⟨m, hm⟩
      obtain ⟨form, hform, hline, -, -⟩ := parseStartLine_ok_iff.mp hm
      exact ⟨form, hform, hline⟩
    · rintro ⟨form, hform, hline⟩
      exact ⟨_, hrecord form hform hline⟩

/-- `HTTP/1.1 200` is a status line without a reason; the line and a message that starts with it are malformed. -/
theorem parseStartLine_forms_short :
    (StartLine.response 50 48 48 none).WellFormed ∧
      (StartLine.response 50 48 48 none).bytes = ascii "HTTP/1.1 200".toList ∧
      (∀ b ∈ ascii "HTTP/1.1 200".toList, b ≠ cr ∧ b ≠ lf) ∧
      ¬ TakesForms (ascii "HTTP/1.1 200".toList) .zero ∧
      (parseMessage (ascii "HTTP/1.1 200\r\n\r\n".toList)).status = .malformed := by
  have hform : (StartLine.response 50 48 48 none).WellFormed := ⟨by decide, by decide, by decide, by simp⟩
  have hbytes : (StartLine.response 50 48 48 none).bytes = ascii "HTTP/1.1 200".toList := by decide
  refine ⟨hform, hbytes, clean_of_notMem (by decide), ?_, by decide +kernel⟩
  rintro ⟨-, hrecord⟩
  have hok := hrecord _ hform hbytes.symm
  rw [← hbytes, parseStartLine_short] at hok
  cases hok

end TcpipCourse.L10
