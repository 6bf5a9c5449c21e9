import TcpipCourse.L10.Fields
import TcpipCourse.L10.Stable

/-!
# Lesson 10: the grammar of a message

* `headerBlock` : a start line, field lines and the empty line, each with its CRLF;
* `Framing` : the fields that a message of `n` body bytes may have; `IsMessage` : the grammar;
* `headerLoop_fields`, `fields_of_headerLoop` : the header loop accepts such fields and nothing else;
* `findHeaderEnd_block` : the search for CRLFCRLF stops at the end of the block;
* `parseMessage_grammar` : the parser accepts the grammar and nothing else.
-/

namespace TcpipCourse.L10
open Lib

/-! ## Messages -/

def crlf : Bytes := [cr, lf]

def fieldLines (fields : List Field) : Bytes := fields.flatMap fun f => f.line ++ crlf

def headerBlock (startLine : Bytes) (fields : List Field) : Bytes :=
  startLine ++ crlf ++ (fieldLines fields ++ crlf)

/-- The entries of fields whose lines start at `cursor`. -/
def fieldViews : Nat → List Field → List HeaderView
  | _, [] => []
  | cursor, f :: fields => fieldView cursor f :: fieldViews (cursor + f.line.length + 2) fields

/-- The fields of a message with `n` bytes in its body. -/
structure Framing (fields : List Field) (n : Nat) : Prop where
  wellFormed : ∀ f ∈ fields, f.WellFormed
  unchunked : ∀ f ∈ fields, ¬ Named f.name "transfer-encoding"
  length : ∀ f ∈ fields, Named f.name "content-length" → Denotes f.trimmed n
  bound : n ≤ maxBodyBytes

/-- The input is a message with this start line, these fields and this body, and `rest` behind it. -/
structure IsMessage (input startLine : Bytes) (fields : List Field) (body rest : Bytes) : Prop where
  input_eq : input = headerBlock startLine fields ++ (body ++ rest)
  block : (headerBlock startLine fields).length ≤ maxHeaderBytes
  nonempty : startLine ≠ []
  clean : ∀ b ∈ startLine, b ≠ cr ∧ b ≠ lf
  start : ∃ message, parseStartLine startLine .zero = .ok message
  count : fields.length ≤ maxHeaders
  framing : Framing fields body.length
  bodiless : (∀ f ∈ fields, ¬ Named f.name "content-length") → body = []

theorem fieldLines_cons (f : Field) (fields : List Field) :
    fieldLines (f :: fields) = f.line ++ crlf ++ fieldLines fields := by
  rw [fieldLines, List.flatMap_cons, ← fieldLines]

theorem Framing.tail {f : Field} {fields : List Field} {n : Nat} (h : Framing (f :: fields) n) :
    Framing fields n where
  wellFormed := fun g hg => h.wellFormed g (List.mem_cons_of_mem _ hg)
  unchunked := fun g hg => h.unchunked g (List.mem_cons_of_mem _ hg)
  length := fun g hg => h.length g (List.mem_cons_of_mem _ hg)
  bound := h.bound

theorem Framing.nil {n : Nat} (h : n ≤ maxBodyBytes) : Framing [] n :=
  ⟨by simp, by simp, by simp, h⟩

theorem Framing.cons {f : Field} {fields : List Field} {n : Nat} (h : Framing fields n) (hf : f.WellFormed)
    (hte : ¬ Named f.name "transfer-encoding") (hcl : Named f.name "content-length" → Denotes f.trimmed n) :
    Framing (f :: fields) n where
  wellFormed := List.forall_mem_cons.mpr ⟨hf, h.wellFormed⟩
  unchunked := List.forall_mem_cons.mpr ⟨hte, h.unchunked⟩
  length := List.forall_mem_cons.mpr ⟨hcl, h.length⟩
  bound := h.bound

/-! ## Lines in the block -/

theorem findCrlfFrom_line {line : Bytes} (hline : ∀ b ∈ line, b ≠ cr ∧ b ≠ lf) (rest : Bytes) : ∀ index : Nat,
    findCrlfFrom (line ++ crlf ++ rest) index = .found (index + line.length) := by
  induction line with
  | nil =>
    intro index
    show findCrlfFrom (cr :: lf :: rest) index = _
    rw [findCrlfFrom, if_pos ⟨rfl, rfl⟩]
    rfl
  | cons c line ih =>
    intro index
    have hc := hline c (by simp)
    have hrest := ih (fun b hb => hline b (List.mem_cons_of_mem _ hb)) (index + 1)
    obtain ⟨d, tail, hd⟩ : ∃ d tail, line ++ crlf ++ rest = d :: tail := by
      cases line with
      | nil => exact ⟨cr, lf :: rest, rfl⟩
      | cons d line => exact ⟨d, _, rfl⟩
    rw [List.cons_append, List.cons_append, hd, findCrlfFrom, if_neg fun h => hc.1 h.1,
      if_neg fun h => h.elim hc.1 hc.2, ← hd, hrest, List.length_cons]
    congr 1
    omega

section Block
variable {input : Bytes} {e : Nat}

theorem getD_of_slice {cursor : Nat} {c : UInt8} {l : Bytes} (h : slice input cursor (e - cursor) = c :: l) :
    cursor < e ∧ input.getD cursor 0 = c := by
  have hlen := congrArg List.length h
  have hle : (slice input cursor (e - cursor)).length ≤ e - cursor := List.length_take_le _ _
  rw [List.length_cons] at hlen
  have hget : (slice input cursor (e - cursor)).getD 0 0 = input.getD (cursor + 0) 0 := getD_slice (by omega) 0
  rw [h] at hget
  exact ⟨by omega, hget.symm⟩

theorem headerStep_empty {st : HeaderState} (h : slice input st.cursor (e - st.cursor) = crlf) :
    headerStep input e st = .stop { st with cursor := st.cursor + 2 } := by
  have hnext : slice input (st.cursor + 1) (e - (st.cursor + 1)) = [lf] := by
    rw [← Nat.sub_sub, ← drop_slice, h]
    rfl
  obtain ⟨-, hcr⟩ := getD_of_slice h
  obtain ⟨hlt, hlf⟩ := getD_of_slice hnext
  rw [headerStep, if_pos hlt]
  dsimp only
  rw [if_pos ⟨hcr, hlf⟩]

theorem headerStep_field {st next : HeaderState} {f : Field} {more : Bytes} (hf : f.WellFormed)
    (hroom : st.message.headers.length < maxHeaders)
    (h : slice input st.cursor (e - st.cursor) = f.line ++ crlf ++ more)
    (hparse : parseHeaderLine input (st.cursor + f.line.length) st = .ok next) :
    headerStep input e st = .again next := by
  obtain ⟨c, name, hname⟩ := List.exists_cons_of_ne_nil hf.nonempty
  have hc : isTchar c = true := hf.token c (by rw [hname]; simp)
  have hline : f.line = c :: (name ++ colonByte :: f.value) := by rw [Field.line, hname, List.cons_append]
  have hfind : findCrlf input st.cursor e = .found (st.cursor + f.line.length) := by
    rw [findCrlf, h]
    exact findCrlfFrom_line hf.clean more st.cursor
  have hfirst := h
  rw [hline] at hfirst
  obtain ⟨-, hget⟩ := getD_of_slice hfirst
  obtain ⟨-, hstop⟩ := findCrlf_found hfind
  have hpos : f.line.length ≠ 0 := by rw [hline]; simp
  rw [headerStep, if_pos (by omega)]
  dsimp only
  rw [hget, if_neg fun h => ne_of_test hc (by decide) h.1,
    if_neg fun h => h.elim (ne_of_test hc (by decide)) (ne_of_test hc (by decide)), if_neg (by omega), hfind]
  dsimp only
  rw [if_neg (by omega), hparse]

/-! ## The loop -/

/-- A field that fits a body of `n` bytes is accepted, and leaves the framing on its way to `n`. -/
theorem Framing.apply {f : Field} {fields : List Field} {n : Nat} (h : Framing (f :: fields) n) {st : HeaderState}
    (hhave : st.haveContentLength = true → st.contentLength = n)
    (hlength : st.contentLength = n ∨ ∃ g ∈ f :: fields, Named g.name "content-length") :
    ∃ framed, applyHeader (st.record f) f.name f.trimmed = .ok framed ∧
      framed.message = (st.record f).message ∧
      (framed.haveContentLength = true → framed.contentLength = n) ∧
      (framed.contentLength = n ∨ ∃ g ∈ fields, Named g.name "content-length") := by
  have hte := h.unchunked f (by simp)
  by_cases hcl : Named f.name "content-length"
  · refine ⟨{ st.record f with haveContentLength := true, contentLength := n }, applyHeader_ok_iff.mpr ⟨hte, ?_⟩,
      rfl, fun _ => rfl, .inl rfl⟩
    exact .inr ⟨hcl, n, h.length f (by simp) hcl, h.bound, fun hset => (hhave hset).symm, rfl⟩
  · refine ⟨st.record f, applyHeader_ok_iff.mpr ⟨hte, .inl ⟨hcl, rfl⟩⟩, rfl, hhave, ?_⟩
    rcases hlength with hlength | ⟨g, hg, hgcl⟩
    · exact .inl hlength
    · rcases List.mem_cons.mp hg with rfl | hg
      · exact absurd hgcl hcl
      · exact .inr ⟨g, hg, hgcl⟩

theorem headerLoop_fields (he : e ≤ input.length) {n : Nat} : ∀ {fields : List Field} {st : HeaderState},
    Framing fields n → slice input st.cursor (e - st.cursor) = fieldLines fields ++ crlf →
    st.message.headers.length + fields.length ≤ maxHeaders →
    (st.haveContentLength = true → st.contentLength = n) →
    (st.contentLength = n ∨ ∃ f ∈ fields, Named f.name "content-length") →
    ∃ st', headerLoop input e st = .ok st' ∧ st'.cursor = e ∧ st'.contentLength = n ∧
      st'.message = { st.message with headers := st.message.headers ++ fieldViews st.cursor fields } := by
  intro fields
  induction fields with
  | nil =>
    intro st _ hblock _ _ hlength
    have hlen := congrArg List.length hblock
    have hend : st.cursor + 2 = e := by
      have : (slice input st.cursor (e - st.cursor)).length = e - st.cursor := by
        by_cases hle : st.cursor ≤ e
        · exact length_slice (by omega)
        · simp [slice, show e - st.cursor = 0 by omega]
      rw [this] at hlen
      have hcrlf : (fieldLines [] ++ crlf).length = 2 := rfl
      omega
    refine ⟨{ st with cursor := st.cursor + 2 }, ?_, hend, ?_, ?_⟩
    · rw [headerLoop, headerStep_empty hblock]
    · exact hlength.resolve_right (by simp)
    · simp [fieldViews]
  | cons f fields ih =>
    intro st hframing hblock hcount hhave hlength
    have hf := hframing.wellFormed f (by simp)
    rw [fieldLines_cons, List.append_assoc (f.line ++ crlf)] at hblock
    have hcrlf : (f.line ++ crlf).length = f.line.length + 2 := List.length_append
    have hline : slice input st.cursor (st.cursor + f.line.length - st.cursor) = f.line := by
      have hfront := hblock
      rw [List.append_assoc] at hfront
      rw [Nat.add_sub_cancel_left, slice_left hfront]
    have hrest := slice_right hblock
    rw [hcrlf, Nat.sub_sub, ← Nat.add_assoc] at hrest
    obtain ⟨framed, happly, hmsg, hhave', hlength'⟩ := hframing.apply hhave hlength
    have hparse := parseHeaderLine_ok_iff.mpr ⟨f, hf, hline, framed, happly, rfl⟩
    have hstep := headerStep_field hf (by rw [List.length_cons] at hcount; omega) hblock hparse
    have hheaders : framed.message.headers = st.message.headers ++ [fieldView st.cursor f] := by
      rw [hmsg]
      rfl
    obtain ⟨st', hloop, hend, hn, hmsg'⟩ :=
      @ih { framed with cursor := st.cursor + f.line.length + 2 } hframing.tail hrest
        (by simp only [hheaders, List.length_append, List.length_cons, List.length_nil] at hcount ⊢; omega)
        hhave' hlength'
    refine ⟨st', ?_, hend, hn, ?_⟩
    · rw [headerLoop, hstep]
      exact hloop
    · rw [hmsg']
      dsimp only
      rw [hheaders, hmsg, fieldViews, List.append_assoc]
      rfl

/-- A line that is not empty ends before the last two line ends of the block. -/
theorem lineEnd_le {start lineEnd : Nat} (hfind : findCrlf input start e = .found lineEnd) (hlt : start < lineEnd)
    (hlf : input.getD (e - 3) 0 = lf) : lineEnd + 4 ≤ e := by
  obtain ⟨line, rest, hl, hend, hclean⟩ := findCrlfFrom_found hfind
  obtain ⟨-, hstop⟩ := findCrlf_found hfind
  have hget : ∀ k < e - start, input.getD (start + k) 0 = (line ++ cr :: lf :: rest).getD k 0 := by
    intro k hk
    rw [← hl, getD_slice hk]
  by_contra hlate
  by_cases hcr : lineEnd = e - 3
  · have hat := hget line.length (by omega)
    rw [show start + line.length = e - 3 by omega, hlf, List.getD_append_right _ _ _ _ (Nat.le_refl _),
      Nat.sub_self] at hat
    exact absurd (show lf = cr from hat) (by decide)
  · have hat := hget (line.length - 1) (by omega)
    rw [show start + (line.length - 1) = e - 3 by omega, hlf, List.getD_append _ _ _ _ (by omega),
      List.getD_eq_getElem _ _ (by omega)] at hat
    exact (hclean _ (List.getElem_mem _)).2 hat.symm

/-- What the loop accepts up to the end of the block are fields and the empty line. -/
theorem fields_of_headerLoop (he : e ≤ input.length) (hlf : input.getD (e - 3) 0 = lf) {st st' : HeaderState}
    (hok : headerLoop input e st = .ok st') (hend : st'.cursor = e) : st.cursor + 2 ≤ e →
    st.message.headers.length ≤ maxHeaders → st.contentLength ≤ maxBodyBytes →
    ∃ fields, slice input st.cursor (e - st.cursor) = fieldLines fields ++ crlf ∧
      Framing fields st'.contentLength ∧ st.message.headers.length + fields.length ≤ maxHeaders ∧
      (st.haveContentLength = true → st'.contentLength = st.contentLength) ∧
      ((∀ f ∈ fields, ¬ Named f.name "content-length") → st'.contentLength = st.contentLength) := by
  refine headerLoop_ok_induct ?_ ?_ hok
  · intro st h hcursor hcount hlength
    rcases headerStep_stop h with ⟨-, hcr, hlf', rfl⟩ | ⟨hout, -⟩
    · have hend : st.cursor + 2 = e := hend
      have hempty : slice input st.cursor (e - st.cursor) = crlf := by
        rw [show e - st.cursor = 2 by omega, slice_succ (by omega) 1 0, slice_succ (by omega) 0 0, hcr, hlf']
        rfl
      exact ⟨[], hempty, Framing.nil hlength, by simpa using hcount, fun _ => rfl, fun _ => rfl⟩
    · exact absurd hcursor (by omega)
  · intro st next h ih hcursor hcount hlength
    obtain ⟨lineEnd, hfind, hlt, hstop, hroom, hparse, hnext⟩ := headerStep_again h
    have hlate := lineEnd_le hfind hlt hlf
    obtain ⟨line, rest, hl, hle, -⟩ := findCrlfFrom_found hfind
    obtain ⟨f, hf, hline, framed, happly, rfl⟩ := parseHeaderLine_ok_iff.mp hparse
    obtain ⟨hte, hframed⟩ := applyHeader_ok_iff.mp happly
    have hheaders : framed.message.headers = st.message.headers ++ [fieldView st.cursor f] := by
      rcases hframed with ⟨-, rfl⟩ | ⟨-, n, -, -, -, rfl⟩ <;> rfl
    have hbound : framed.contentLength ≤ maxBodyBytes := by
      rcases hframed with ⟨-, rfl⟩ | ⟨-, n, -, hn, -, rfl⟩
      · exact hlength
      · exact hn
    obtain ⟨fields, hblock, hframing, htotal, hset, hnone⟩ := ih (by dsimp only; omega)
      (by simp only [hheaders, List.length_append, List.length_cons, List.length_nil]; omega) hbound
    refine ⟨f :: fields, ?_, ?_, ?_, ?_, ?_⟩
    · have hfront : f.line = line := by
        rw [← hline, hle, Nat.add_sub_cancel_left, slice_left hl]
      have hback : rest = fieldLines fields ++ crlf := by
        have hl' : slice input st.cursor (e - st.cursor) = (line ++ crlf) ++ rest := by rw [hl]; simp [crlf]
        rw [← hblock, ← slice_right hl']
        dsimp only
        rw [hle, List.length_append, Nat.sub_sub]
        rfl
      rw [hl, hback, fieldLines_cons, hfront]
      simp [crlf]
    · refine hframing.cons hf hte fun hcl => ?_
      rcases hframed with ⟨hno, -⟩ | ⟨-, n, hn, -, -, rfl⟩
      · exact absurd hcl hno
      · rw [hset rfl]
        exact hn
    · simp only [hheaders, List.length_append, List.length_cons, List.length_nil] at htotal ⊢
      omega
    · intro hhave
      rcases hframed with ⟨-, rfl⟩ | ⟨-, n, -, -, hsame, rfl⟩
      · exact hset hhave
      · rw [hset rfl]
        exact hsame hhave
    · intro hno
      obtain ⟨hnof, hno⟩ := List.forall_mem_cons.mp hno
      rcases hframed with ⟨-, rfl⟩ | ⟨hcl, -⟩
      · exact hnone hno
      · exact absurd hcl hnof

end Block

/-! ## The end of the block -/

theorem findHeaderEndFrom_skip {c : UInt8} (hc : c ≠ cr) (l : Bytes) (index : Nat) :
    findHeaderEndFrom (c :: l) index = findHeaderEndFrom l (index + 1) := by
  match l with
  | [] => rfl
  | [_] => rfl
  | [_, _] => rfl
  | _ :: _ :: _ :: _ => rw [findHeaderEndFrom, if_neg fun h => hc h.1]

theorem findHeaderEndFrom_line {line : Bytes} (hline : ∀ b ∈ line, b ≠ cr ∧ b ≠ lf) {c : UInt8} (hc : c ≠ cr)
    (l : Bytes) : ∀ index : Nat,
    findHeaderEndFrom (line ++ crlf ++ c :: l) index = findHeaderEndFrom (c :: l) (index + line.length + 2) := by
  induction line with
  | nil =>
    intro index
    have hlf : findHeaderEndFrom (lf :: c :: l) (index + 1) = findHeaderEndFrom (c :: l) (index + 2) :=
      findHeaderEndFrom_skip (by decide) _ _
    show findHeaderEndFrom (cr :: lf :: c :: l) index = findHeaderEndFrom (c :: l) (index + 2)
    rw [← hlf]
    match l with
    | [] => rfl
    | _ :: _ => rw [findHeaderEndFrom, if_neg fun h => hc h.2.2.1]
  | cons b line ih =>
    intro index
    rw [List.cons_append, List.cons_append, findHeaderEndFrom_skip (hline b (by simp)).1,
      ih (fun b hb => hline b (List.mem_cons_of_mem _ hb)), List.length_cons]
    congr 1
    omega

theorem findHeaderEndFrom_block {fields : List Field} : ∀ {line : Bytes} {index : Nat} (rest : Bytes),
    (∀ b ∈ line, b ≠ cr ∧ b ≠ lf) → (∀ f ∈ fields, f.WellFormed) →
    findHeaderEndFrom (headerBlock line fields ++ rest) index =
      some (index + (headerBlock line fields).length) := by
  induction fields with
  | nil =>
    intro line
    induction line with
    | nil =>
      intro index rest _ _
      show findHeaderEndFrom (cr :: lf :: cr :: lf :: rest) index = _
      rw [findHeaderEndFrom, if_pos ⟨rfl, rfl, rfl, rfl⟩]
      rfl
    | cons b line ih =>
      intro index rest hline hfields
      have hcons : headerBlock (b :: line) [] = b :: headerBlock line [] := rfl
      rw [hcons, List.cons_append, findHeaderEndFrom_skip (hline b (by simp)).1,
        ih rest (fun b hb => hline b (List.mem_cons_of_mem _ hb)) hfields, List.length_cons]
      congr 1
      omega
  | cons f fields ih =>
    intro line index rest hline hfields
    have hf := hfields f (by simp)
    have hsplit : headerBlock line (f :: fields) = line ++ crlf ++ headerBlock f.line fields := by
      rw [headerBlock, fieldLines_cons, headerBlock]
      simp
    obtain ⟨c, name, hname⟩ := List.exists_cons_of_ne_nil hf.nonempty
    have hfirst : ∃ l, headerBlock f.line fields ++ rest = c :: l := by
      refine ⟨name ++ colonByte :: f.value ++ crlf ++ (fieldLines fields ++ crlf) ++ rest, ?_⟩
      simp [headerBlock, Field.line, hname]
    obtain ⟨l, hl⟩ := hfirst
    have hc : c ≠ cr := ne_of_test (hf.token c (by rw [hname]; simp)) (by decide)
    rw [hsplit, List.append_assoc, hl, findHeaderEndFrom_line hline hc, ← hl,
      ih rest hf.clean fun g hg => hfields g (List.mem_cons_of_mem _ hg), List.length_append, List.length_append]
    congr 1
    have : crlf.length = 2 := rfl
    omega

theorem findHeaderEnd_block {line : Bytes} {fields : List Field} (rest : Bytes)
    (hline : ∀ b ∈ line, b ≠ cr ∧ b ≠ lf) (hfields : ∀ f ∈ fields, f.WellFormed)
    (hlen : (headerBlock line fields).length ≤ maxHeaderBytes) :
    findHeaderEnd (headerBlock line fields ++ rest) = some (headerBlock line fields).length := by
  have h4096 : (headerBlock line fields).length ≤ 4096 := hlen
  rw [findHeaderEnd, take_scanLimit, List.take_append, List.take_of_length_le h4096,
    findHeaderEndFrom_block _ hline hfields, Nat.zero_add]

def BlankLine (l : Bytes) (k : Nat) : Prop :=
  l.getD k 0 = cr ∧ l.getD (k + 1) 0 = lf ∧ l.getD (k + 2) 0 = cr ∧ l.getD (k + 3) 0 = lf

theorem findHeaderEndFrom_first {l : Bytes} : ∀ {index e : Nat}, findHeaderEndFrom l index = some e →
    ∃ k, e = index + k + 4 ∧ BlankLine l k ∧ ∀ j < k, ¬ BlankLine l j := by
  induction l with
  | nil => intro index e h; cases h
  | cons a l ih =>
    intro index e h
    match l with
    | [] => cases h
    | [_] => cases h
    | [_, _] => cases h
    | b :: c :: d :: rest =>
      rw [findHeaderEndFrom] at h
      split at h
      · next hend =>
        cases h
        exact ⟨0, rfl, hend, fun j hj => absurd hj (Nat.not_lt_zero j)⟩
      · next hend =>
        obtain ⟨k, he, hk, hfirst⟩ := ih h
        refine ⟨k + 1, by omega, hk, fun j hj hblank => ?_⟩
        cases j with
        | zero => exact hend hblank
        | succ j => exact hfirst j (by omega) hblank

theorem findHeaderEnd_first {input : Bytes} {e : Nat} (h : findHeaderEnd input = some e) :
    BlankLine input (e - 4) ∧ ∀ j, j + 4 < e → ¬ BlankLine input j := by
  obtain ⟨h4, -, h4096⟩ := findHeaderEnd_bounds h
  have hget : ∀ j < 4096, (input.take 4096).getD j 0 = input.getD j 0 := fun j hj =>
    getD_eq_of_take_eq (List.take_take.trans (by rw [Nat.min_self])) hj 0
  have hblank : ∀ j, j + 4 ≤ e → (BlankLine (input.take 4096) j ↔ BlankLine input j) := by
    intro j hj
    unfold BlankLine
    rw [hget j (by omega), hget (j + 1) (by omega), hget (j + 2) (by omega), hget (j + 3) (by omega)]
  rw [findHeaderEnd, take_scanLimit] at h
  obtain ⟨k, he, hk, hfirst⟩ := findHeaderEndFrom_first h
  obtain rfl : k = e - 4 := by omega
  exact ⟨(hblank _ (by omega)).mp hk, fun j hj hj' => hfirst j (by omega) ((hblank j (by omega)).mpr hj')⟩

theorem findHeaderEnd_lf {input : Bytes} {e : Nat} (h : findHeaderEnd input = some e) :
    input.getD (e - 3) 0 = lf := by
  obtain ⟨h4, -, -⟩ := findHeaderEnd_bounds h
  obtain ⟨⟨-, hlf, -, -⟩, -⟩ := findHeaderEnd_first h
  rwa [show e - 4 + 1 = e - 3 by omega] at hlf

/-! ## The message -/

/-- The start line leaves the fields and the body of the view as they are. -/
theorem parseStartLine_frame {line : Bytes} {message m : MessageView} (h : parseStartLine line message = .ok m) :
    m.headers = message.headers ∧ m.body = message.body ∧ m.contentLength = message.contentLength ∧
      m.messageLength = message.messageLength := by
  unfold parseStartLine at h
  split at h
  · unfold parseStatusLine at h
    dsimp only at h
    split at h
    · cases h
    · split at h
      · cases h
      · split at h
        · cases h
        · split at h
          · cases h
          · cases h
            exact ⟨rfl, rfl, rfl, rfl⟩
  · unfold parseRequestLine at h
    dsimp only at h
    split at h
    · cases h
    · split at h
      · cases h
      · split at h
        · cases h
        · split at h
          · cases h
          · cases h
            exact ⟨rfl, rfl, rfl, rfl⟩

def Span.bytes (input : Bytes) (s : Span) : Bytes :=
  match s.data with
  | none => []
  | some data => slice input data s.length

theorem bytes_fieldViews {input : Bytes} {fields : List Field} : ∀ {cursor : Nat} {more : Bytes},
    input.drop cursor = fieldLines fields ++ more →
    (fieldViews cursor fields).map (fun h => (h.name.bytes input, h.value.bytes input)) =
      fields.map fun f => (f.name, f.trimmed) := by
  induction fields with
  | nil =>
    intro cursor more _
    rfl
  | cons f fields ih =>
    intro cursor more h
    rw [fieldLines_cons] at h
    have hrest : input.drop (cursor + f.line.length + 2) = fieldLines fields ++ more := by
      have hlen : (f.line ++ crlf).length = f.line.length + 2 := List.length_append
      rw [show cursor + f.line.length + 2 = cursor + (f.line ++ crlf).length by omega, ← List.drop_drop, h,
        List.append_assoc, List.drop_left]
    have hname : slice input cursor f.name.length = f.name := by
      rw [slice, h, Field.line]
      simp
    have hvalue : slice input (cursor + f.name.length + 1 + (f.value.takeWhile isOws).length) f.trimmed.length =
        f.trimmed := by
      obtain ⟨blanks, hblanks⟩ : f.trimmed <+: f.value.dropWhile isOws := List.rdropWhile_prefix _ _
      have hsplit : f.value = f.value.takeWhile isOws ++ (f.trimmed ++ blanks) := by
        rw [hblanks, List.takeWhile_append_dropWhile]
      have hfront : f.line ++ crlf ++ fieldLines fields ++ more =
          (f.name ++ [colonByte] ++ f.value.takeWhile isOws) ++
            (f.trimmed ++ (blanks ++ crlf ++ fieldLines fields ++ more)) := by
        rw [Field.line]
        nth_rewrite 1 [hsplit]
        simp
      have hlen : (f.name ++ [colonByte] ++ f.value.takeWhile isOws).length =
          f.name.length + 1 + (f.value.takeWhile isOws).length := by
        rw [List.length_append, List.length_append]
        rfl
      rw [slice, Nat.add_assoc, Nat.add_assoc, ← List.drop_drop, h, hfront, ← Nat.add_assoc, ← hlen,
        List.drop_left, List.take_left]
    rw [fieldViews, List.map_cons, List.map_cons, ih hrest]
    simp only [fieldView, Span.at, Span.bytes, hname, hvalue]

section Message
variable {input startLine body rest : Bytes} {fields : List Field}

theorem parseMessage_of_message (h : IsMessage input startLine fields body rest) {message : MessageView}
    (hstart : parseStartLine startLine .zero = .ok message) :
    parseMessage input = ⟨.ok, { message with
      headers := fieldViews (startLine.length + 2) fields
      contentLength := body.length
      body := .at (headerBlock startLine fields).length body.length
      messageLength := (headerBlock startLine fields).length + body.length }⟩ := by
  have hend : findHeaderEnd input = some (headerBlock startLine fields).length := by
    rw [h.input_eq]
    exact findHeaderEnd_block _ h.clean h.framing.wellFormed h.block
  obtain ⟨-, hle, -⟩ := findHeaderEnd_bounds hend
  have hblock : slice input 0 (headerBlock startLine fields).length = headerBlock startLine fields := by
    rw [slice, List.drop_zero, h.input_eq, List.take_left]
  have hfind : findCrlf input 0 (headerBlock startLine fields).length = .found startLine.length := by
    rw [findCrlf, Nat.sub_zero, hblock, headerBlock, findCrlfFrom_line h.clean, Nat.zero_add]
  have hline : input.take startLine.length = startLine := by
    rw [h.input_eq, headerBlock, List.append_assoc, List.append_assoc, List.take_left]
  have hlines : slice input (startLine.length + 2)
      ((headerBlock startLine fields).length - (startLine.length + 2)) = fieldLines fields ++ crlf := by
    have hright := slice_right (hblock.trans (headerBlock.eq_1 startLine fields))
    rw [List.length_append, Nat.zero_add] at hright
    exact hright
  obtain ⟨hheaders, -, -, -⟩ := parseStartLine_frame hstart
  have hlength : 0 = body.length ∨ ∃ f ∈ fields, Named f.name "content-length" := by
    by_cases hnone : ∃ f ∈ fields, Named f.name "content-length"
    · exact .inr hnone
    · refine .inl ?_
      rw [h.bodiless fun f hf hcl => hnone ⟨f, hf, hcl⟩]
      rfl
  obtain ⟨st, hloop, hcursor, hn, hmsg⟩ := @headerLoop_fields input _ hle body.length fields
    ⟨message, startLine.length + 2, false, 0⟩ h.framing hlines
    (by simpa [hheaders, MessageView.zero] using h.count) (fun hset => by cases hset) hlength
  have hhead : parseHead input (headerBlock startLine fields).length = .ok st := by
    have hbody := h.framing.bound
    have hmax : maxBodyBytes = 8192 := rfl
    have hheader : (headerBlock startLine fields).length ≤ 4096 := h.block
    have hsize : sizeMax = 18446744073709551615 := rfl
    have hne : startLine.length ≠ 0 := by simpa using h.nonempty
    unfold parseHead
    simp only [hfind, hline, hstart, hloop]
    rw [if_neg hne, if_neg (not_not.mpr hcursor), if_neg (by omega)]
  have htotal : (headerBlock startLine fields).length + body.length ≤ input.length := by
    rw [h.input_eq, List.length_append, List.length_append]
    omega
  rw [parseMessage_some hend, hhead]
  dsimp only
  rw [if_neg (by omega), hn, hmsg, hheaders]
  rfl

theorem isMessage_of_ok (h : (parseMessage input).status = .ok) :
    ∃ startLine fields body rest, IsMessage input startLine fields body rest := by
  obtain ⟨e, hend⟩ := findHeaderEnd_of_ok h
  obtain ⟨h4, hle, h4096⟩ := findHeaderEnd_bounds hend
  have hlf := findHeaderEnd_lf hend
  rw [parseMessage_some hend] at h
  split at h
  · next hhead =>
    dsimp only at h
    have := parseHead_error hhead
    rw [h] at this
    rcases this with this | this <;> cases this
  · next st hhead =>
    dsimp only at h
    split at h
    · cases h
    · next hbody =>
      obtain ⟨lineEnd, message, hfind, hne, hstart, hloop, hcursor⟩ := parseHead_ok hhead
      have hlate := lineEnd_le hfind (Nat.pos_of_ne_zero hne) hlf
      obtain ⟨line, after, hl, hlen, hclean⟩ := findCrlfFrom_found hfind
      obtain ⟨hheaders, -, -, -⟩ := parseStartLine_frame hstart
      obtain ⟨fields, hblock, hframing, hcount, -, hnone⟩ := fields_of_headerLoop hle hlf hloop hcursor
        (by dsimp only; omega) (by rw [hheaders]; exact Nat.zero_le _) (Nat.zero_le _)
      have hl' : slice input 0 e = (line ++ crlf) ++ after := by
        rw [← Nat.sub_zero e, hl]
        simp [crlf]
      have hafter : after = fieldLines fields ++ crlf := by
        rw [← hblock, ← slice_right hl']
        dsimp only
        rw [hlen, List.length_append, Nat.zero_add, Nat.zero_add]
        rfl
      have htake : input.take e = headerBlock line fields := by
        rw [headerBlock, ← hafter, ← hl', slice, List.drop_zero]
      have hlenBlock : (headerBlock line fields).length = e := by
        rw [← htake, List.length_take, Nat.min_eq_left hle]
      have hlenBody : (slice input e st.contentLength).length = st.contentLength := length_slice (by omega)
      have hline : input.take lineEnd = line := by
        have hleft := slice_left hl
        rwa [slice, List.drop_zero, ← Nat.zero_add line.length, ← hlen] at hleft
      refine ⟨line, fields, slice input e st.contentLength, input.drop (e + st.contentLength),
        { input_eq := ?_
          block := by rw [hlenBlock]; exact h4096
          nonempty := ?_
          clean := hclean
          start := ⟨message, by rw [← hline]; exact hstart⟩
          count := by simpa [hheaders, MessageView.zero] using hcount
          framing := by rw [hlenBody]; exact hframing
          bodiless := fun hno => List.eq_nil_of_length_eq_zero (by rw [hlenBody, hnone hno]) }⟩
      · rw [slice_append_drop, ← htake, List.take_append_drop]
      · rintro rfl
        exact hne hlen

/-- **The grammar is exact.** The parser accepts an input if and only if it is a message of the grammar; the
view then holds exactly the fields of the message in order, its body and its lengths, with what the start line
says; and on every other outcome the whole view is zero. -/
theorem parseMessage_grammar (input : Bytes) :
    ((parseMessage input).status = .ok ↔
      ∃ startLine fields body rest, IsMessage input startLine fields body rest) ∧
    (∀ startLine fields body rest, IsMessage input startLine fields body rest →
      let view := (parseMessage input).message
      view.headers.map (fun h => (h.name.bytes input, h.value.bytes input)) =
          fields.map (fun f => (f.name, f.trimmed)) ∧
        view.body = .at (headerBlock startLine fields).length body.length ∧
        view.body.bytes input = body ∧
        view.contentLength = body.length ∧
        view.messageLength = (headerBlock startLine fields).length + body.length ∧
        parseStartLine startLine .zero =
          .ok { view with headers := [], body := .zero, contentLength := 0, messageLength := 0 }) ∧
    ((parseMessage input).status ≠ .ok → (parseMessage input).message = .zero) := by
  refine ⟨⟨isMessage_of_ok, ?_⟩, ?_, ?_⟩
  · rintro ⟨startLine, fields, body, rest, h⟩
    obtain ⟨message, hstart⟩ := h.start
    rw [parseMessage_of_message h hstart]
  · intro startLine fields body rest h
    obtain ⟨message, hstart⟩ := h.start
    obtain ⟨hheaders, hbody, hlength, htotal⟩ := parseStartLine_frame hstart
    rw [parseMessage_of_message h hstart]
    refine ⟨?_, rfl, ?_, rfl, rfl, ?_⟩
    · refine @bytes_fieldViews input fields _ (crlf ++ (body ++ rest)) ?_
      have hlen : (startLine ++ crlf).length = startLine.length + 2 := List.length_append
      rw [h.input_eq, headerBlock, ← hlen, List.append_assoc (startLine ++ crlf), List.drop_left, List.append_assoc]
    · show slice input (headerBlock startLine fields).length body.length = body
      rw [slice, h.input_eq, List.drop_left, List.take_left]
    · rw [hstart]
      cases message
      cases hheaders
      cases hbody
      cases hlength
      cases htotal
      rfl
  · intro hne
    cases hend : findHeaderEnd input with
    | none =>
      unfold parseMessage
      rw [hend]
      split
      · rfl
      · dsimp only
        split
        · rfl
        · split <;> rfl
    | some e =>
      rw [parseMessage_some hend] at hne ⊢
      cases hhead : parseHead input e with
      | error status => rfl
      | ok st =>
        rw [hhead] at hne
        dsimp only at hne ⊢
        split at hne
        · next hshort => rw [if_pos hshort]
        · exact absurd rfl hne

/-- A response with the same length twice and a byte of the next message behind its body. -/
def repeatedResponse : Bytes :=
  ascii "HTTP/1.1 200 OK\r\nContent-Length: 2\r\ncontent-length:\t02 \r\n\r\nhiH".toList

theorem parseMessage_grammar_response :
    let view := (parseMessage repeatedResponse).message
    view.statusCode = 200 ∧ ∃ startLine fields body rest, IsMessage repeatedResponse startLine fields body rest ∧
      view.headers.map (fun h => (h.name.bytes repeatedResponse, h.value.bytes repeatedResponse)) =
        fields.map (fun f => (f.name, f.trimmed)) ∧
      view.body.bytes repeatedResponse = body ∧ view.contentLength = body.length ∧
      view.messageLength = (headerBlock startLine fields).length + body.length := by
  intro view
  obtain ⟨haccepts, hviews, -⟩ := parseMessage_grammar repeatedResponse
  obtain ⟨startLine, fields, body, rest, hmessage⟩ := haccepts.mp (by decide +kernel)
  obtain ⟨hheaders, -, hbody, hcontent, hlength, -⟩ := hviews startLine fields body rest hmessage
  exact ⟨by decide +kernel, startLine, fields, body, rest, hmessage, hheaders, hbody, hcontent, hlength⟩

end Message

end TcpipCourse.L10
