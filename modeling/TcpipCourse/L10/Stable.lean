import TcpipCourse.L10.Parse

/-!
# Lesson 10: verdicts under more input

* `parseHead_congr` : the head of a message depends on the header block only;
* `findHeaderEnd_congr` : so does where the block ends;
* `hasBare_of_parseHead_ok` : a block that is accepted holds no bare CR or LF;
* `parseHead_error` : a rejected head is `MALFORMED` or `CAPACITY`;
* `parseMessage_stable` : what becomes of each final verdict when input is added.
-/

namespace TcpipCourse.L10
open Lib

/-! ## The head depends on the block only -/

theorem findCrlf_congr {a b : Bytes} {start stop : Nat} (hab : a.take stop = b.take stop) (h : start ≤ stop) :
    findCrlf a start stop = findCrlf b start stop := by
  unfold findCrlf
  rw [slice_eq_of_take_eq hab (by omega)]

theorem parseHeaderLine_congr {a b : Bytes} {lineEnd e : Nat} {st : HeaderState} (hab : a.take e = b.take e)
    (hcursor : st.cursor ≤ lineEnd) (hend : lineEnd ≤ e) :
    parseHeaderLine a lineEnd st = parseHeaderLine b lineEnd st := by
  unfold parseHeaderLine
  rw [slice_eq_of_take_eq hab (by omega)]

theorem headerStep_congr {a b : Bytes} {e : Nat} (hab : a.take e = b.take e) (st : HeaderState) :
    headerStep a e st = headerStep b e st := by
  unfold headerStep
  by_cases hin : st.cursor + 1 < e
  · rw [if_pos hin, if_pos hin, getD_eq_of_take_eq hab (by omega), getD_eq_of_take_eq hab (by omega),
      findCrlf_congr hab (by omega)]
    cases hfind : findCrlf b st.cursor e with
    | found lineEnd =>
      obtain ⟨hle, hstop⟩ := findCrlf_found hfind
      dsimp only
      rw [parseHeaderLine_congr hab hle (by omega)]
    | bare => rfl
    | absent => rfl
  · rw [if_neg hin, if_neg hin]

theorem headerLoop_congr {a b : Bytes} {e : Nat} (hab : a.take e = b.take e) (st : HeaderState) :
    headerLoop a e st = headerLoop b e st := by
  induction st using headerLoop.induct a e with
  | case1 st status h =>
    have h' := h
    rw [headerStep_congr hab] at h'
    rw [headerLoop, headerLoop, h, h']
  | case2 st st' h =>
    have h' := h
    rw [headerStep_congr hab] at h'
    rw [headerLoop, headerLoop, h, h']
  | case3 st st' h ih =>
    have h' := h
    rw [headerStep_congr hab] at h'
    have ha : headerLoop a e st = headerLoop a e st' := by rw [headerLoop, h]
    have hb : headerLoop b e st = headerLoop b e st' := by rw [headerLoop, h']
    rw [ha, hb, ih]

theorem parseHead_congr {a b : Bytes} {e : Nat} (hab : a.take e = b.take e) : parseHead a e = parseHead b e := by
  unfold parseHead
  rw [findCrlf_congr hab (Nat.zero_le _)]
  cases hfind : findCrlf b 0 e with
  | found lineEnd =>
    obtain ⟨-, hstop⟩ := findCrlf_found hfind
    have hline : a.take lineEnd = b.take lineEnd := by
      have := congrArg (List.take lineEnd) hab
      rwa [List.take_take, List.take_take, Nat.min_eq_left (by omega)] at this
    dsimp only
    rw [hline]
    simp only [headerLoop_congr hab]
  | bare => rfl
  | absent => rfl

/-! ## Where the block ends -/

/-- The terminator that is found is the end of a prefix, and nothing behind it matters. -/
theorem findHeaderEndFrom_prefix {l : Bytes} : ∀ {index e : Nat}, findHeaderEndFrom l index = some e →
    ∃ front, front <+: l ∧ 4 ≤ front.length ∧ e = index + front.length ∧
      ∀ s, findHeaderEndFrom (front ++ s) index = some e := by
  induction l with
  | nil => intro index e h; cases h
  | cons a l ih =>
    intro index e h
    match l with
    | [] => cases h
    | [_] => cases h
    | [_, _] => cases h
    | b :: c :: d :: rest =>
      rw [findHeaderEndFrom] at h
      split at h
      · next hend =>
        cases h
        refine ⟨[a, b, c, d], ⟨rest, rfl⟩, Nat.le_refl _, rfl, fun s => ?_⟩
        show findHeaderEndFrom (a :: b :: c :: d :: s) index = _
        rw [findHeaderEndFrom, if_pos hend]
      · next hend =>
        obtain ⟨front, hpre, hlen, he, hall⟩ := ih h
        match front, hlen with
        | x :: y :: z :: tail, _ =>
          obtain ⟨rfl, hpre1⟩ := List.cons_prefix_cons.mp hpre
          obtain ⟨rfl, hpre2⟩ := List.cons_prefix_cons.mp hpre1
          obtain ⟨rfl, -⟩ := List.cons_prefix_cons.mp hpre2
          refine ⟨a :: x :: y :: z :: tail, List.cons_prefix_cons.mpr ⟨rfl, hpre⟩, by simp, ?_, fun s => ?_⟩
          · rw [he, List.length_cons (a := a)]
            omega
          · show findHeaderEndFrom (a :: x :: y :: z :: (tail ++ s)) index = _
            rw [findHeaderEndFrom, if_neg hend]
            exact hall s

theorem take_scanLimit (input : Bytes) : input.take (scanLimit input) = input.take 4096 := by
  unfold scanLimit maxHeaderBytes
  split
  · rw [List.take_length, List.take_of_length_le (by omega)]
  · rfl

theorem findHeaderEnd_bounds {input : Bytes} {e : Nat} (h : findHeaderEnd input = some e) :
    4 ≤ e ∧ e ≤ input.length ∧ e ≤ 4096 := by
  unfold findHeaderEnd at h
  rw [take_scanLimit] at h
  obtain ⟨front, hpre, hlen, he, -⟩ := findHeaderEndFrom_prefix h
  have hle := hpre.length_le
  rw [List.length_take] at hle
  omega

/-- An input that agrees below the end of the block has its end there too. -/
theorem findHeaderEnd_congr {a b : Bytes} {e : Nat} (h : findHeaderEnd a = some e) (hab : b.take e = a.take e) :
    findHeaderEnd b = some e := by
  obtain ⟨-, -, h4096⟩ := findHeaderEnd_bounds h
  unfold findHeaderEnd at h ⊢
  rw [take_scanLimit] at h ⊢
  obtain ⟨front, hpre, -, he, hall⟩ := findHeaderEndFrom_prefix h
  have hfront : front = b.take e := by
    have := List.prefix_iff_eq_take.mp hpre
    rw [List.take_take, Nat.min_eq_left (by omega)] at this
    rw [hab, this, he, Nat.zero_add]
  have hsplit : b.take 4096 = front ++ (b.drop e).take (4096 - e) := by
    rw [hfront, ← List.take_add]
    congr 1
    omega
  rw [hsplit]
  exact hall _

/-! ## Bare CR and LF -/

theorem hasBare_append {prev : Option UInt8} {a : Bytes} (h : hasBare prev a = true) (b : Bytes) :
    hasBare prev (a ++ b) = true := by
  induction a generalizing prev with
  | nil => cases h
  | cons c rest ih =>
    rw [hasBare, Bool.or_eq_true, Bool.or_eq_true] at h
    rw [List.cons_append, hasBare, Bool.or_eq_true, Bool.or_eq_true]
    rcases h with (h | h) | h
    · exact .inl (.inl h)
    · refine .inl (.inr ?_)
      cases rest with
      | nil => simp at h
      | cons d rest => exact h
    · exact .inr (ih h)

/-- A line without CR and LF, and the CRLF behind it, hold nothing bare. -/
theorem hasBare_line {prev : Option UInt8} {line : Bytes} (hprev : prev ≠ some cr)
    (hline : ∀ b ∈ line, b ≠ cr ∧ b ≠ lf) (rest : Bytes) :
    hasBare prev (line ++ cr :: lf :: rest) = hasBare (some lf) rest := by
  induction line generalizing prev with
  | nil =>
    show hasBare prev (cr :: lf :: rest) = _
    rw [hasBare, hasBare]
    simp [cr, lf]
  | cons c line ih =>
    obtain ⟨hcr, hlf⟩ := hline c (by simp)
    rw [List.cons_append, hasBare, ih (by simpa using hcr) fun b hb => hline b (List.mem_cons_of_mem _ hb)]
    simp [hcr, hlf]

theorem hasBare_prev {prev : Option UInt8} (hprev : prev ≠ some cr) (l : Bytes) :
    hasBare prev l = hasBare none l := by
  cases l with
  | nil => rfl
  | cons c rest =>
    rw [hasBare, hasBare, bne_iff_ne.mpr hprev]
    rfl

/-- The bytes that are left in the block when the loop accepts it hold nothing bare. -/
theorem hasBare_of_headerLoop_ok {input : Bytes} {e : Nat} (he : e ≤ input.length) {st st' : HeaderState}
    (hok : headerLoop input e st = .ok st') (hend : st'.cursor = e) :
    st.cursor ≤ e → hasBare none ((input.take e).drop st.cursor) = false := by
  refine headerLoop_ok_induct ?_ ?_ hok
  · intro st h hcursor
    rcases headerStep_stop h with ⟨hin, hcr, hlf, rfl⟩ | ⟨hin, rfl⟩
    · have hlen : (input.take e).length = e := by
        rw [List.length_take]
        omega
      have hend : st.cursor + 2 = e := hend
      have hdrop : (input.take e).drop st.cursor = [cr, lf] := by
        rw [List.drop_eq_getElem_cons (by omega), List.drop_eq_getElem_cons (by omega),
          List.drop_eq_nil_of_le (by omega), List.getElem_take, List.getElem_take,
          ← List.getD_eq_getElem _ 0, ← List.getD_eq_getElem _ 0, hcr, hlf]
      rw [hdrop]
      decide
    · rw [List.drop_eq_nil_of_le (by rw [List.length_take]; omega)]
      rfl
  · intro st next h ih hcursor
    obtain ⟨lineEnd, hfind, -, hstop, -, -, hnext⟩ := headerStep_again h
    have hrest := ih (by omega)
    obtain ⟨line, rest, hl, hle, hline⟩ := findCrlfFrom_found hfind
    have hblock : (input.take e).drop st.cursor = line ++ cr :: lf :: rest := by
      rw [← hl, slice, List.drop_take]
    have hafter : (input.take e).drop next.cursor = rest := by
      rw [hnext, hle, show st.cursor + line.length + 2 = st.cursor + (line.length + 2) by omega,
        ← List.drop_drop, hblock, ← List.drop_drop, List.drop_left]
      rfl
    rw [hblock, hasBare_line (by simp) hline, hasBare_prev (by simp [cr, lf]), ← hafter]
    exact hrest

/-- A head that is accepted: a start line, and header lines up to the end of the block. -/
theorem parseHead_ok {input : Bytes} {e : Nat} {st : HeaderState} (h : parseHead input e = .ok st) :
    ∃ lineEnd message, findCrlf input 0 e = .found lineEnd ∧ lineEnd ≠ 0 ∧
      parseStartLine (input.take lineEnd) .zero = .ok message ∧
      headerLoop input e ⟨message, lineEnd + 2, false, 0⟩ = .ok st ∧ st.cursor = e := by
  unfold parseHead at h
  split at h
  · next lineEnd hfind =>
    split at h
    · cases h
    · next hne =>
      split at h
      · cases h
      · next message hstart =>
        split at h
        · cases h
        · next last hloop =>
          split at h
          · cases h
          · next hcursor =>
            split at h
            · cases h
            · cases h
              exact ⟨lineEnd, message, hfind, hne, hstart, hloop, not_not.mp hcursor⟩
  · cases h

theorem hasBare_of_parseHead_ok {input : Bytes} {e : Nat} {st : HeaderState} (he : e ≤ input.length)
    (h : parseHead input e = .ok st) : hasBare none (input.take e) = false := by
  obtain ⟨lineEnd, message, hfind, -, -, hloop, hcursor⟩ := parseHead_ok h
  obtain ⟨-, hstop⟩ := findCrlf_found hfind
  obtain ⟨line, rest, hl, hle, hline⟩ := findCrlfFrom_found hfind
  have hrest := hasBare_of_headerLoop_ok he hloop hcursor hstop
  have hblock : input.take e = line ++ cr :: lf :: rest := by
    rw [← hl, slice, List.drop_zero, Nat.sub_zero]
  have hafter : (input.take e).drop (lineEnd + 2) = rest := by
    rw [hblock, hle, Nat.zero_add, ← List.drop_drop, List.drop_left]
    rfl
  rw [hblock, hasBare_line (by simp) hline, hasBare_prev (by simp [cr, lf]), ← hafter]
  exact hrest

/-! ## Which verdicts reject a head -/

/-- The two final verdicts that refuse a message. -/
def Rejects (status : Status) : Prop := status = .malformed ∨ status = .capacity

theorem parseStartLine_error {line : Bytes} {message : MessageView} {status : Status}
    (h : parseStartLine line message = .error status) : status = .malformed := by
  unfold parseStartLine at h
  split at h
  · unfold parseStatusLine at h
    dsimp only at h
    split at h
    · exact (Except.error.inj h).symm
    · split at h
      · exact (Except.error.inj h).symm
      · split at h
        · exact (Except.error.inj h).symm
        · split at h
          · exact (Except.error.inj h).symm
          · cases h
  · unfold parseRequestLine at h
    dsimp only at h
    split at h
    · exact (Except.error.inj h).symm
    · split at h
      · exact (Except.error.inj h).symm
      · split at h
        · exact (Except.error.inj h).symm
        · split at h
          · exact (Except.error.inj h).symm
          · cases h

theorem contentLengthFrom_error {limit : Nat} {value : Bytes} {status : Status} : ∀ {parsed : Nat},
    contentLengthFrom limit value parsed = .error status → status = .malformed := by
  induction value with
  | nil => intro parsed h; cases h
  | cons c rest ih =>
    intro parsed h
    rw [contentLengthFrom] at h
    split at h
    · exact (Except.error.inj h).symm
    · dsimp only at h
      split at h
      · exact (Except.error.inj h).symm
      · exact ih h

theorem applyHeader_error {st : HeaderState} {name value : Bytes} {status : Status}
    (h : applyHeader st name value = .error status) : Rejects status := by
  unfold applyHeader at h
  split at h
  · exact .inl (Except.error.inj h).symm
  · split at h
    · split at h
      · next status' hlen =>
        cases h
        unfold parseContentLength at hlen
        split at hlen
        · exact .inl (Except.error.inj hlen).symm
        · split at hlen
          · next hdigits =>
            cases hlen
            exact .inl (contentLengthFrom_error hdigits)
          · split at hlen
            · exact .inr (Except.error.inj hlen).symm
            · cases hlen
      · split at h
        · exact .inl (Except.error.inj h).symm
        · cases h
    · cases h

theorem parseHeaderLine_error {input : Bytes} {lineEnd : Nat} {st : HeaderState} {status : Status}
    (h : parseHeaderLine input lineEnd st = .error status) : Rejects status := by
  unfold parseHeaderLine at h
  dsimp only at h
  split at h
  · exact .inl (Except.error.inj h).symm
  · split at h
    · exact .inl (Except.error.inj h).symm
    · split at h
      · exact .inl (Except.error.inj h).symm
      · split at h
        · next happly =>
          cases h
          exact applyHeader_error happly
        · cases h

theorem headerStep_fail {input : Bytes} {headerEnd : Nat} {st : HeaderState} {status : Status}
    (h : headerStep input headerEnd st = .fail status) : Rejects status := by
  unfold headerStep at h
  dsimp only at h
  split at h
  · split at h
    · cases h
    · split at h
      · exact .inl (HeaderTurn.fail.inj h).symm
      · split at h
        · exact .inr (HeaderTurn.fail.inj h).symm
        · split at h
          · split at h
            · exact .inl (HeaderTurn.fail.inj h).symm
            · split at h
              · next hline =>
                cases h
                exact parseHeaderLine_error hline
              · cases h
          · exact .inl (HeaderTurn.fail.inj h).symm
  · cases h

theorem headerLoop_error {input : Bytes} {headerEnd : Nat} {st : HeaderState} {status : Status} :
    headerLoop input headerEnd st = .error status → Rejects status := by
  induction st using headerLoop.induct input headerEnd with
  | case1 st status' h =>
    intro herr
    rw [headerLoop, h] at herr
    cases herr
    exact headerStep_fail h
  | case2 st last h =>
    intro herr
    rw [headerLoop, h] at herr
    cases herr
  | case3 st next h ih =>
    intro herr
    have hloop : headerLoop input headerEnd st = headerLoop input headerEnd next := by rw [headerLoop, h]
    rw [hloop] at herr
    exact ih herr

theorem parseHead_error {input : Bytes} {e : Nat} {status : Status} (h : parseHead input e = .error status) :
    Rejects status := by
  unfold parseHead at h
  split at h
  · split at h
    · exact .inl (Except.error.inj h).symm
    · split at h
      · next hstart =>
        cases h
        exact .inl (parseStartLine_error hstart)
      · split at h
        · next hloop =>
          cases h
          exact headerLoop_error hloop
        · split at h
          · exact .inl (Except.error.inj h).symm
          · split at h
            · exact .inr (Except.error.inj h).symm
            · cases h
  · exact .inl (Except.error.inj h).symm

/-! ## Verdicts -/

theorem parseMessage_none {input : Bytes} (hne : input.length ≠ 0) (h : findHeaderEnd input = none) :
    parseMessage input =
      if hasBare none (input.take 4096) then ⟨.malformed, .zero⟩
      else if input.length ≥ 4096 then ⟨.capacity, .zero⟩
      else ⟨.truncated, .zero⟩ := by
  unfold parseMessage
  rw [if_neg hne, h, take_scanLimit]
  rfl

/-- A head that is complete: the verdict is that of the head, or waits for the body. -/
theorem parseMessage_some {input : Bytes} {e : Nat} (h : findHeaderEnd input = some e) :
    parseMessage input =
      match parseHead input e with
      | .error status => ⟨status, .zero⟩
      | .ok st =>
        if input.length < e + st.contentLength then ⟨.truncated, .zero⟩
        else ⟨.ok, { st.message with
          contentLength := st.contentLength
          body := .at e st.contentLength
          messageLength := e + st.contentLength }⟩ := by
  obtain ⟨h4, hle, -⟩ := findHeaderEnd_bounds h
  have hne : ¬ input.length = 0 := by omega
  unfold parseMessage
  cases hhead : parseHead input e with
  | error status => simp only [if_neg hne, h, hhead]
  | ok st => simp only [if_neg hne, h, hhead]

/-- Once the header block is complete, a verdict other than `TRUNCATED` stands. -/
theorem parseMessage_append_of_some {p : Bytes} {e : Nat} (h : findHeaderEnd p = some e)
    (hfinal : (parseMessage p).status ≠ .truncated) (s : Bytes) : parseMessage (p ++ s) = parseMessage p := by
  obtain ⟨-, hle, -⟩ := findHeaderEnd_bounds h
  have htake : (p ++ s).take e = p.take e := List.take_append_of_le_length hle
  rw [parseMessage_some h] at hfinal
  rw [parseMessage_some h, parseMessage_some (findHeaderEnd_congr h htake), parseHead_congr htake]
  cases hhead : parseHead p e with
  | error status => rfl
  | ok st =>
    rw [hhead] at hfinal
    dsimp only at hfinal ⊢
    by_cases hshort : p.length < e + st.contentLength
    · rw [if_pos hshort] at hfinal
      exact absurd rfl hfinal
    · rw [if_neg hshort, if_neg (by rw [List.length_append]; omega)]

theorem take_append_4096 (p s : Bytes) : (p ++ s).take 4096 = p.take 4096 ++ s.take (4096 - p.length) :=
  List.take_append

theorem rejects_of_hasBare {p s : Bytes} {e : Nat} (hp : findHeaderEnd p = none)
    (hbare : hasBare none (p.take 4096) = true) (h : findHeaderEnd (p ++ s) = some e) :
    Rejects (parseMessage (p ++ s)).status := by
  obtain ⟨-, hle, h4096⟩ := findHeaderEnd_bounds h
  have hshort : p.length < e := by
    by_contra hlong
    have htake : p.take e = (p ++ s).take e := (List.take_append_of_le_length (by omega)).symm
    have hsome := findHeaderEnd_congr h htake
    rw [hp] at hsome
    cases hsome
  rw [parseMessage_some h]
  cases hhead : parseHead (p ++ s) e with
  | error status => exact parseHead_error hhead
  | ok st =>
    have hclean := hasBare_of_parseHead_ok hle hhead
    have hblock : (p ++ s).take e = p.take 4096 ++ s.take (e - p.length) := by
      have hall : ∀ n, p.length ≤ n → p.take n = p := fun n => List.take_of_length_le
      rw [List.take_append, hall e (by omega), hall 4096 (by omega)]
    rw [hblock, hasBare_append hbare] at hclean
    cases hclean

theorem parseMessage_none_final {p : Bytes} (hp : findHeaderEnd p = none)
    (hfinal : (parseMessage p).status ≠ .truncated) :
    p.length ≠ 0 ∧ (hasBare none (p.take 4096) = true ∧ parseMessage p = ⟨.malformed, .zero⟩ ∨
      hasBare none (p.take 4096) = false ∧ 4096 ≤ p.length ∧ parseMessage p = ⟨.capacity, .zero⟩) := by
  by_cases hnil : p.length = 0
  · have htrunc : (parseMessage p).status = .truncated := by
      unfold parseMessage
      rw [if_pos hnil]
    exact absurd htrunc hfinal
  · refine ⟨hnil, ?_⟩
    have hverdict := parseMessage_none hnil hp
    by_cases hbare : hasBare none (p.take 4096) = true
    · rw [if_pos hbare] at hverdict
      exact .inl ⟨hbare, hverdict⟩
    · rw [if_neg hbare] at hverdict
      by_cases hlong : p.length ≥ 4096
      · rw [if_pos hlong] at hverdict
        exact .inr ⟨Bool.eq_false_iff.mpr hbare, hlong, hverdict⟩
      · rw [if_neg hlong] at hverdict
        rw [hverdict] at hfinal
        exact absurd rfl hfinal

theorem findHeaderEnd_of_ok {p : Bytes} (h : (parseMessage p).status = .ok) : ∃ e, findHeaderEnd p = some e := by
  have hfinal : (parseMessage p).status ≠ .truncated := by
    rw [h]
    simp
  cases hp : findHeaderEnd p with
  | some e => exact ⟨e, rfl⟩
  | none =>
    obtain ⟨-, ⟨-, hverdict⟩ | ⟨-, -, hverdict⟩⟩ := parseMessage_none_final hp hfinal
    · rw [hverdict] at h
      cases h
    · rw [hverdict] at h
      cases h

theorem parseMessage_append_ok {p : Bytes} (h : (parseMessage p).status = .ok) (s : Bytes) :
    parseMessage (p ++ s) = parseMessage p := by
  obtain ⟨e, hp⟩ := findHeaderEnd_of_ok h
  apply parseMessage_append_of_some hp
  rw [h]
  simp

theorem parseMessage_append_capacity {p : Bytes} (h : (parseMessage p).status = .capacity) (s : Bytes) :
    parseMessage (p ++ s) = parseMessage p := by
  have hfinal : (parseMessage p).status ≠ .truncated := by
    rw [h]
    simp
  cases hp : findHeaderEnd p with
  | some e => exact parseMessage_append_of_some hp hfinal s
  | none =>
    obtain ⟨hnil, ⟨-, hverdict⟩ | ⟨hbare, hlong, hverdict⟩⟩ := parseMessage_none_final hp hfinal
    · rw [hverdict] at h
      cases h
    · have htake : (p ++ s).take 4096 = p.take 4096 := List.take_append_of_le_length hlong
      have hps : findHeaderEnd (p ++ s) = none := by
        unfold findHeaderEnd at hp ⊢
        rw [take_scanLimit] at hp ⊢
        rwa [htake]
      have hlen : (p ++ s).length ≥ 4096 := by
        rw [List.length_append]
        omega
      rw [hverdict, parseMessage_none (by omega) hps, htake, hbare, if_neg (by simp), if_pos hlen]

theorem parseMessage_append_malformed {p : Bytes} (h : (parseMessage p).status = .malformed) (s : Bytes) :
    Rejects (parseMessage (p ++ s)).status ∧
      (findHeaderEnd p ≠ none ∨ findHeaderEnd (p ++ s) = none → parseMessage (p ++ s) = parseMessage p) := by
  have hfinal : (parseMessage p).status ≠ .truncated := by
    rw [h]
    simp
  cases hp : findHeaderEnd p with
  | some e =>
    have hsame := parseMessage_append_of_some hp hfinal s
    exact ⟨.inl (by rw [hsame, h]), fun _ => hsame⟩
  | none =>
    obtain ⟨hnil, ⟨hbare, hverdict⟩ | ⟨-, -, hverdict⟩⟩ := parseMessage_none_final hp hfinal
    · have hnone : findHeaderEnd (p ++ s) = none → parseMessage (p ++ s) = parseMessage p := by
        intro hps
        have hlen : (p ++ s).length ≠ 0 := by
          rw [List.length_append]
          omega
        rw [hverdict, parseMessage_none hlen hps, take_append_4096, if_pos (hasBare_append hbare _)]
      refine ⟨?_, fun hends => hnone (hends.resolve_left fun hne => hne rfl)⟩
      cases hps : findHeaderEnd (p ++ s) with
      | some e => exact rejects_of_hasBare hp hbare hps
      | none => exact .inl (by rw [hnone hps, h])
    · rw [hverdict] at h
      cases h

/-- **Main result.** More input never changes an accepted message or a `CAPACITY`. A `MALFORMED` stays a
rejection, and stays `MALFORMED` unless there is no header block without the input and one with it. -/
theorem parseMessage_stable (p s : Bytes) :
    ((parseMessage p).status = .ok → parseMessage (p ++ s) = parseMessage p) ∧
    ((parseMessage p).status = .capacity → parseMessage (p ++ s) = parseMessage p) ∧
    ((parseMessage p).status = .malformed →
      ((parseMessage (p ++ s)).status = .malformed ∨ (parseMessage (p ++ s)).status = .capacity) ∧
      (findHeaderEnd p ≠ none ∨ findHeaderEnd (p ++ s) = none → parseMessage (p ++ s) = parseMessage p)) :=
  ⟨fun h => parseMessage_append_ok h s, fun h => parseMessage_append_capacity h s,
    fun h => parseMessage_append_malformed h s⟩

/-- A request with the next bytes of the stream behind it. -/
theorem parseMessage_stable_request :
    parseMessage (ascii "GET / HTTP/1.1\r\n\r\n".toList ++ [71, 69, 84]) =
      parseMessage (ascii "GET / HTTP/1.1\r\n\r\n".toList) :=
  (parseMessage_stable _ _).1 (by decide +kernel)

/-- The bare LF is met first in the prefix, and the oversized `Content-Length` in the whole. -/
theorem parseMessage_unstable_malformed :
    (parseMessage (ascii "A / HTTP/1.1\r\nContent-Length: 9999\r\nX\n".toList)).status = .malformed ∧
      (parseMessage (ascii "A / HTTP/1.1\r\nContent-Length: 9999\r\nX\n".toList ++
        ascii "\r\n\r\n".toList)).status = .capacity := by
  constructor <;> decide +kernel

end TcpipCourse.L10
