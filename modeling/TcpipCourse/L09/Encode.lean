import TcpipCourse.L09.Exact

/-!
# Lesson 09: the encoder and its inverse

* `textLabels`, `wireName` : the labels of a text, and a name on the wire;
* `encodedLength_eq`, `writeLabels_eq` : what the two passes compute, and `encodeName_eq` the whole function;
* `expands_wireName` : a name on the wire expands to its labels wherever it lies in a message;
* `decodeName_wireName` : what the decoder makes of it;
* `encode_decode_inverse` : the main result.
-/

namespace TcpipCourse.L09
open Lib

/-! ## Texts and wire names -/

def withoutDot (name : Bytes) : Bytes := if name.getLast? = some dot then name.dropLast else name

/-- The labels of a text: none for the root, else what lies between its dots. -/
def textLabels (text : Bytes) : List Bytes := if text = [] then [] else text.splitOn dot

/-- A label that text can carry: one to 63 bytes and no NUL. -/
def ValidLabel (label : Bytes) : Prop := 1 ≤ label.length ∧ label.length ≤ 63 ∧ 0 ∉ label

instance (label : Bytes) : Decidable (ValidLabel label) :=
  inferInstanceAs (Decidable (_ ∧ _ ∧ _))

def wireLabel (label : Bytes) : Bytes := UInt8.ofNat label.length :: label

def wireName (labels : List Bytes) : Bytes := labels.flatMap wireLabel ++ [0]

theorem wireName_cons (label : Bytes) (labels : List Bytes) :
    wireName (label :: labels) = wireLabel label ++ wireName labels := by
  unfold wireName
  rw [List.flatMap_cons, List.append_assoc]

theorem length_wireName (labels : List Bytes) : (wireName labels).length = wireLength labels := by
  induction labels with
  | nil => rfl
  | cons label labels ih =>
    rw [wireName_cons, List.length_append, ih, wireLength_cons]
    rfl

theorem take_inputEnd (name : Bytes) : name.take (inputEnd name) = withoutDot name := by
  unfold inputEnd withoutDot
  rcases List.eq_nil_or_concat name with rfl | ⟨front, last, rfl⟩
  · rfl
  · rw [List.concat_eq_append, List.getLast?_append, List.dropLast_concat]
    have hlast : (front ++ [last]).getD ((front ++ [last]).length - 1) 0 = last := by
      simp [List.getD_eq_getElem?_getD]
    by_cases hdot : last = dot
    · cases front with
      | nil => simp [hdot]
      | cons b front =>
        rw [if_neg (by simp), if_pos ⟨by simp, by rw [hlast, hdot]⟩]
        simp [hdot]
    · have hone : ¬ ((front ++ [last]).length = 1 ∧ (front ++ [last]).getD 0 0 = dot) := by
        rintro ⟨hlen, hd⟩
        rw [hlen] at hlast
        exact hdot (hlast.symm.trans hd)
      rw [if_neg hone, if_neg (by rw [hlast]; exact fun h => hdot h.2), List.take_length]
      simp [hdot]

theorem inputEnd_le (name : Bytes) : inputEnd name ≤ name.length := by
  unfold inputEnd
  split
  · omega
  · split <;> omega

theorem inputEnd_eq (name : Bytes) : inputEnd name = (withoutDot name).length := by
  rw [← take_inputEnd, List.length_take]
  have := inputEnd_le name
  omega

/-- The labels of `pre ++ rest` when `pre` is the current label so far. -/
def labelsFrom : (pre rest : Bytes) → List Bytes
  | pre, [] => [pre]
  | pre, c :: rest => if c = dot then pre :: labelsFrom [] rest else labelsFrom (pre ++ [c]) rest

theorem labelsFrom_eq (pre rest : Bytes) : labelsFrom pre rest = (rest.splitOn dot).modifyHead (pre ++ ·) := by
  induction rest generalizing pre with
  | nil => simp [labelsFrom]
  | cons c rest ih =>
    rw [labelsFrom, List.splitOn_cons_eq_if_modifyHead]
    by_cases hc : c = dot
    · rw [if_pos hc, if_pos (beq_iff_eq.mpr hc), ih]
      cases rest.splitOn dot <;> simp
    · rw [if_neg hc, if_neg (by simpa using hc), ih, List.modifyHead_modifyHead]
      congr 1
      funext l
      simp

theorem labelsFrom_nil (text : Bytes) : labelsFrom [] text = text.splitOn dot := by
  rw [labelsFrom_eq]
  cases text.splitOn dot <;> rfl

theorem mem_labelsFrom {b : UInt8} {pre : Bytes} (rest : Bytes) (h : b ∈ pre) :
    ∃ label ∈ labelsFrom pre rest, b ∈ label := by
  induction rest generalizing pre with
  | nil => exact ⟨pre, by simp [labelsFrom], h⟩
  | cons c rest ih =>
    rw [labelsFrom]
    split
    · exact ⟨pre, by simp, h⟩
    · exact ih (List.mem_append_left _ h)

/-! ## The first pass -/

theorem sizeLabel_eq (labelLen encodedLen : Nat) :
    sizeLabel labelLen encodedLen =
      if 1 ≤ labelLen ∧ labelLen ≤ 63 ∧ encodedLen + (labelLen + 1) ≤ 255 then
        .ok (encodedLen + (labelLen + 1))
      else .error .malformed := by
  unfold sizeLabel maxLabel maxWireName
  by_cases h1 : labelLen = 0 ∨ labelLen > 63
  · rw [if_pos h1, if_neg (by omega)]
  · rw [if_neg h1]
    by_cases h2 : encodedLen > 255 - (labelLen + 1)
    · rw [if_pos h2, if_neg (by omega)]
    · rw [if_neg h2, if_pos (by omega)]

/-- The loop of the first pass and the check of the last label behind it. `k` is the wire length of the
labels before `pre`. -/
theorem sizeLabels_eq (rest : Bytes) : ∀ (pre : Bytes) (labelStart k : Nat), 0 ∉ pre →
    (match sizeLabels rest (labelStart + pre.length) labelStart (k + 1) with
      | .error status => (.error status : Except Status Nat)
      | .ok (last, encodedLen) => sizeLabel (labelStart + pre.length + rest.length - last) encodedLen) =
    if (∀ label ∈ labelsFrom pre rest, ValidLabel label) ∧ k + wireLength (labelsFrom pre rest) ≤ 255 then
      .ok (k + wireLength (labelsFrom pre rest))
    else .error .malformed := by
  induction rest with
  | nil =>
    intro pre labelStart k h0
    have hone : wireLength [pre] = pre.length + 1 + 1 := rfl
    simp only [sizeLabels, labelsFrom, sizeLabel_eq, List.length_nil, Nat.add_zero, Nat.add_sub_cancel_left,
      List.mem_singleton, forall_eq, ValidLabel, h0, not_false_eq_true, and_true, hone, and_assoc]
    rw [show k + 1 + (pre.length + 1) = k + (pre.length + 1 + 1) by omega]
  | cons c rest ih =>
    intro pre labelStart k h0
    rw [sizeLabels, labelsFrom]
    by_cases hc0 : c = 0
    · obtain ⟨label, hmem, hnul⟩ := mem_labelsFrom rest (show (0 : UInt8) ∈ pre ++ [c] by simp [hc0])
      have hinvalid : ¬ ∀ label ∈ labelsFrom (pre ++ [c]) rest, ValidLabel label :=
        fun hall => (hall label hmem).2.2 hnul
      have hdot : ¬ c = dot := by
        rw [hc0]
        decide
      rw [if_pos hc0, if_neg hdot, if_neg (fun h => hinvalid h.1)]
    · rw [if_neg hc0]
      by_cases hc : c = dot
      · rw [if_pos hc, if_pos hc, Nat.add_sub_cancel_left, sizeLabel_eq, wireLength_cons]
        have hrest := ih [] (labelStart + pre.length + 1) (k + (pre.length + 1)) (by simp)
        rw [List.length_nil, Nat.add_zero] at hrest
        by_cases hok : 1 ≤ pre.length ∧ pre.length ≤ 63 ∧ k + 1 + (pre.length + 1) ≤ 255
        · rw [if_pos hok, show k + 1 + (pre.length + 1) = k + (pre.length + 1) + 1 by omega, List.length_cons,
            show labelStart + pre.length + (rest.length + 1) = labelStart + pre.length + 1 + rest.length by omega]
          refine hrest.trans ?_
          have hpre : ValidLabel pre := ⟨hok.1, hok.2.1, h0⟩
          simp only [List.mem_cons, forall_eq_or_imp, hpre, true_and, Nat.add_assoc]
        · rw [if_neg hok]
          have hpos := wireLength_pos (labelsFrom [] rest)
          refine (if_neg fun h => hok ⟨?_, ?_, by omega⟩).symm
          · exact (h.1 pre (by simp)).1
          · exact (h.1 pre (by simp)).2.1
      · rw [if_neg hc, if_neg hc]
        have hrest := ih (pre ++ [c]) labelStart k (by simp [h0, Ne.symm hc0])
        rw [List.length_append, List.length_singleton] at hrest
        rw [List.length_cons, show labelStart + pre.length + (rest.length + 1) =
          labelStart + (pre.length + 1) + rest.length by omega]
        exact hrest

/-- The first pass accepts exactly the valid texts, with their length on the wire. -/
theorem encodedLength_eq (name : Bytes) :
    encodedLength name =
      if (∀ label ∈ textLabels (withoutDot name), ValidLabel label) ∧
          wireLength (textLabels (withoutDot name)) ≤ 255 then
        .ok (wireLength (textLabels (withoutDot name)))
      else .error .malformed := by
  have hpass := sizeLabels_eq (withoutDot name) [] 0 0 (by simp)
  unfold encodedLength
  rw [take_inputEnd, inputEnd_eq]
  by_cases hroot : withoutDot name = []
  · rw [hroot]
    decide
  · have hne : (withoutDot name).length ≠ 0 := fun h => hroot (List.length_eq_zero_iff.mp h)
    simp only [hne, ne_eq, not_false_eq_true, if_true]
    simp only [List.length_nil, Nat.zero_add, labelsFrom_nil] at hpass
    rw [show textLabels (withoutDot name) = (withoutDot name).splitOn dot from if_neg hroot]
    exact hpass

/-! ## The second pass -/

def Writer.put (w : Writer) (bytes : Bytes) : Writer :=
  ⟨overwrite w.out w.outputIndex bytes, w.outputIndex + bytes.length⟩

theorem Writer.put_put (w : Writer) (a b : Bytes) : (w.put a).put b = w.put (a ++ b) := by
  unfold Writer.put
  dsimp only
  rw [overwrite_overwrite, List.length_append, Nat.add_assoc]

theorem writeLabel_eq {front pre rest : Bytes} (hpre : pre ≠ []) (w : Writer) :
    writeLabel (front ++ pre ++ rest) front.length pre.length w = w.put (wireLabel pre) := by
  have hlen : pre.length ≠ 0 := fun h => hpre (List.length_eq_zero_iff.mp h)
  have hslice : slice (front ++ pre ++ rest) front.length pre.length = pre := by
    unfold slice
    rw [List.append_assoc, List.drop_left, List.take_left]
  have hput := overwrite_overwrite w.out w.outputIndex [UInt8.ofNat pre.length] pre
  rw [List.length_singleton] at hput
  unfold writeLabel Writer.put wireLabel
  rw [if_pos hlen, hslice, hput, List.length_cons, Nat.add_assoc, Nat.add_comm 1]
  rfl

theorem writeLabels_eq (tail rest : Bytes) : ∀ (front pre : Bytes) (w : Writer),
    (∀ label ∈ labelsFrom pre rest, label ≠ []) →
    writeLabels (front ++ pre ++ (rest ++ tail)) rest (front.length + pre.length) front.length w =
      w.put ((labelsFrom pre rest).flatMap wireLabel) := by
  induction rest with
  | nil =>
    intro front pre w hne
    rw [writeLabels, Nat.add_sub_cancel_left, writeLabel_eq (hne pre (by simp [labelsFrom]))]
    simp [labelsFrom]
  | cons c rest ih =>
    intro front pre w hne
    rw [writeLabels]
    rw [labelsFrom] at hne ⊢
    by_cases hc : c = dot
    · rw [if_pos hc] at hne ⊢
      have hrest := ih (front ++ pre ++ [c]) [] (w.put (wireLabel pre))
        fun label h => hne label (List.mem_cons_of_mem _ h)
      rw [if_pos hc, Nat.add_sub_cancel_left, writeLabel_eq (hne pre (by simp)), List.flatMap_cons, ← Writer.put_put,
        ← hrest]
      simp [Nat.add_assoc]
    · rw [if_neg hc] at hne ⊢
      have hrest := ih front (pre ++ [c]) w hne
      rw [if_neg hc, ← hrest]
      simp [Nat.add_assoc]

theorem labelsFrom_of_ne_nil {name : Bytes} (hroot : withoutDot name ≠ []) : inputEnd name ≠ 0 ∧
    labelsFrom [] (withoutDot name) = textLabels (withoutDot name) := by
  refine ⟨?_, ?_⟩
  · rw [inputEnd_eq]
    exact fun h => hroot (List.length_eq_zero_iff.mp h)
  · rw [labelsFrom_nil]
    exact (if_neg hroot).symm

theorem encodeName_eq (name out : Bytes) :
    encodeName name out =
      if (∀ label ∈ textLabels (withoutDot name), ValidLabel label) ∧
          wireLength (textLabels (withoutDot name)) ≤ 255 then
        if wireLength (textLabels (withoutDot name)) > out.length then ⟨.capacity, out, 0⟩
        else ⟨.ok, overwrite out 0 (wireName (textLabels (withoutDot name))),
          wireLength (textLabels (withoutDot name))⟩
      else ⟨.malformed, out, 0⟩ := by
  unfold encodeName
  rw [encodedLength_eq]
  by_cases hvalid : (∀ label ∈ textLabels (withoutDot name), ValidLabel label) ∧
      wireLength (textLabels (withoutDot name)) ≤ 255
  · rw [if_pos hvalid, if_pos hvalid]
    dsimp only
    split
    · rfl
    · by_cases hroot : withoutDot name = []
      · rw [if_pos (by rw [inputEnd_eq, hroot]; rfl), hroot]
        rfl
      · obtain ⟨hend, hlabels⟩ := labelsFrom_of_ne_nil hroot
        have hne : ∀ label ∈ labelsFrom [] (withoutDot name), label ≠ [] := by
          rw [hlabels]
          exact fun label hmem => List.length_pos_iff.mp (hvalid.1 label hmem).1
        have hname : name = withoutDot name ++ name.drop (inputEnd name) := by
          rw [← take_inputEnd, List.take_append_drop]
        have hpass := writeLabels_eq (name.drop (inputEnd name)) (withoutDot name) [] [] ⟨out, 0⟩ hne
        rw [List.append_nil, List.nil_append, ← hname, hlabels] at hpass
        have hlast := Writer.put_put ⟨out, 0⟩ ((textLabels (withoutDot name)).flatMap wireLabel) [0]
        have hlen := length_wireName (textLabels (withoutDot name))
        have hw : (Writer.put ⟨out, 0⟩ (wireName (textLabels (withoutDot name)))) =
            ⟨overwrite out 0 (wireName (textLabels (withoutDot name))),
              wireLength (textLabels (withoutDot name))⟩ := by
          unfold Writer.put
          rw [Nat.zero_add, hlen]
        rw [if_neg hend, take_inputEnd]
        refine Eq.trans ?_ (congrArg (fun w : Writer => EncodeResult.mk .ok w.out w.outputIndex) (hlast.trans hw))
        rw [← hpass]
        rfl
  · rw [if_neg hvalid, if_neg hvalid]

theorem encodeName_status (name out : Bytes) :
    (encodeName name out).status = .ok ↔
      (∀ label ∈ textLabels (withoutDot name), ValidLabel label) ∧
        wireLength (textLabels (withoutDot name)) ≤ 255 ∧
        wireLength (textLabels (withoutDot name)) ≤ out.length := by
  rw [encodeName_eq]
  by_cases hvalid : (∀ label ∈ textLabels (withoutDot name), ValidLabel label) ∧
      wireLength (textLabels (withoutDot name)) ≤ 255
  · rw [if_pos hvalid]
    by_cases hcap : wireLength (textLabels (withoutDot name)) > out.length
    · rw [if_pos hcap]
      exact ⟨fun h => Status.noConfusion h, fun h => absurd h.2.2 (by omega)⟩
    · rw [if_neg hcap]
      exact ⟨fun _ => ⟨hvalid.1, hvalid.2, by omega⟩, fun _ => rfl⟩
  · rw [if_neg hvalid]
    exact ⟨fun h => Status.noConfusion h, fun h => absurd ⟨h.1, h.2.1⟩ hvalid⟩

theorem encodeName_ok {name out : Bytes} (hvalid : ∀ label ∈ textLabels (withoutDot name), ValidLabel label)
    (hwire : wireLength (textLabels (withoutDot name)) ≤ 255)
    (hcap : wireLength (textLabels (withoutDot name)) ≤ out.length) :
    encodeName name out = ⟨.ok, overwrite out 0 (wireName (textLabels (withoutDot name))),
      wireLength (textLabels (withoutDot name))⟩ := by
  rw [encodeName_eq, if_pos ⟨hvalid, hwire⟩, if_neg (by omega)]

/-! ## Names on the wire in a message -/

/-- A name on the wire expands to its labels, without pointers, wherever it lies. -/
theorem expands_wireName (back : Bytes) (labels : List Bytes) : ∀ front : Bytes,
    (∀ label ∈ labels, 1 ≤ label.length ∧ label.length ≤ 63) →
    Expands (front ++ wireName labels ++ back) front.length labels 0 (front.length + wireLength labels) := by
  induction labels with
  | nil =>
    intro front _
    apply Expands.root
    simp [wireName]
  | cons label labels ih =>
    intro front h
    obtain ⟨h1, h63⟩ := h label (by simp)
    have hrest := ih (front ++ wireLabel label) fun l hl => h l (List.mem_cons_of_mem _ hl)
    have hmessage : front ++ wireLabel label ++ wireName labels ++ back =
        front ++ wireName (label :: labels) ++ back := by
      rw [wireName_cons]
      simp
    have hbyte : (UInt8.ofNat label.length).toNat = label.length := by
      rw [UInt8.toNat_ofNat']
      omega
    have hoff : (front ++ wireLabel label).length = front.length + 1 + label.length := by
      rw [List.length_append, wireLabel, List.length_cons]
      omega
    have hslice : slice (front ++ wireName (label :: labels) ++ back) (front.length + 1) label.length = label := by
      rw [← hmessage]
      unfold slice wireLabel
      rw [show front ++ UInt8.ofNat label.length :: label ++ wireName labels ++ back =
        (front ++ [UInt8.ofNat label.length]) ++ (label ++ (wireName labels ++ back)) by simp,
        show front.length + 1 = (front ++ [UInt8.ofNat label.length]).length by simp, List.drop_left, List.take_left]
    rw [hmessage, hoff] at hrest
    have hnext : front.length + 1 + label.length + wireLength labels =
        front.length + wireLength (label :: labels) := by
      rw [wireLength_cons]
      omega
    rw [hnext] at hrest
    have hlabel := @Expands.label (front ++ wireName (label :: labels) ++ back) front.length 0
      (front.length + wireLength (label :: labels)) (UInt8.ofNat label.length) labels
    rw [hbyte, hslice] at hlabel
    refine hlabel ?_ ?_ (by omega) ?_ hrest
    · simp [wireName_cons, wireLabel]
    · intro h0
      have := congrArg UInt8.toNat h0
      rw [hbyte] at this
      exact absurd this (by rw [show UInt8.toNat 0 = 0 from rfl]; omega)
    · have := hrest.lt_length
      omega

theorem decodeName_wireName {labels : List Bytes} (h : ∀ label ∈ labels, 1 ≤ label.length ∧ label.length ≤ 63)
    (hwire : wireLength labels ≤ 255) (front back buf : Bytes) :
    decodeName (front ++ wireName labels ++ back) front.length buf =
      if (textName labels).length < buf.length then
        ⟨.ok, overwrite buf 0 (textName labels ++ [0]), front.length + wireLength labels, (textName labels).length⟩
      else ⟨.capacity, buf, 0, 0⟩ := by
  have he := expands_wireName back labels front h
  have hin := he.lt_length
  unfold decodeName
  rw [if_neg (by omega), decodeNameInternal_complete he (by omega) hwire]
  dsimp only
  rw [List.length_append, List.length_singleton, Nat.add_sub_cancel]
  by_cases hcap : (textName labels).length < buf.length
  · rw [if_neg (by omega), if_pos hcap]
  · rw [if_pos (by omega), if_neg hcap]

theorem textName_textLabels (text : Bytes) : textName (textLabels text) = text := by
  unfold textName textLabels
  split
  · next h => rw [h]; rfl
  · exact List.intercalate_splitOn dot

theorem textName_ne_nil {labels : List Bytes} (hne : labels ≠ []) (h : ∀ label ∈ labels, 1 ≤ label.length) :
    textName labels ≠ [] := by
  intro hnil
  cases labels with
  | nil => exact hne rfl
  | cons label labels =>
    have hpos := h label (by simp)
    cases labels with
    | nil =>
      have hone : textName [label] = label := by simp [textName, List.intercalate]
      rw [hone] at hnil
      rw [hnil] at hpos
      exact absurd hpos (by simp)
    | cons second labels =>
      rw [textName_cons_cons] at hnil
      simp at hnil

theorem getLast?_textName {labels : List Bytes} (h : ∀ label ∈ labels, 1 ≤ label.length ∧ dot ∉ label) :
    (textName labels).getLast? ≠ some dot := by
  induction labels with
  | nil => simp [textName, List.intercalate]
  | cons label labels ih =>
    cases labels with
    | nil =>
      have hone : textName [label] = label := by simp [textName, List.intercalate]
      rw [hone]
      exact fun hlast => (h label (by simp)).2 (List.mem_of_getLast? hlast)
    | cons second labels =>
      have hrest : ∀ l ∈ second :: labels, 1 ≤ l.length ∧ dot ∉ l := fun l hl => h l (List.mem_cons_of_mem _ hl)
      have hne : textName (second :: labels) ≠ [] := textName_ne_nil (by simp) fun l hl => (hrest l hl).1
      rw [textName_cons_cons, List.getLast?_append_of_ne_nil _ (by simp), List.getLast?_cons_of_ne_nil hne]
      exact ih hrest

theorem textLabels_textName {labels : List Bytes} (h : ∀ label ∈ labels, 1 ≤ label.length ∧ dot ∉ label) :
    textLabels (textName labels) = labels := by
  by_cases hnil : labels = []
  · rw [hnil]
    rfl
  · unfold textLabels
    rw [if_neg (textName_ne_nil hnil fun l hl => (h l hl).1)]
    exact List.splitOn_intercalate dot (fun l hl => (h l hl).2) hnil

/-! ## The round trips -/

/-- **Main result.** (a) Decoding what the encoder wrote, anywhere in a message, gives the name back without
its trailing dot. (b) Encoding what the decoder made of an uncompressed wire name gives the same bytes.
(c) The encoder accepts exactly the texts whose labels are valid and fit the wire limit and the buffer. -/
theorem encode_decode_inverse :
    (∀ name out front back buf, (encodeName name out).status = .ok →
      let wire := (encodeName name out).out.take (encodeName name out).written
      decodeName (front ++ wire ++ back) front.length buf =
        if (withoutDot name).length < buf.length then
          ⟨.ok, overwrite buf 0 (withoutDot name ++ [0]), front.length + wire.length, (withoutDot name).length⟩
        else ⟨.capacity, buf, 0, 0⟩) ∧
    (∀ labels front back buf out,
      (∀ label ∈ labels, 1 ≤ label.length ∧ label.length ≤ 63 ∧ dot ∉ label ∧ 0 ∉ label) →
      wireLength labels ≤ 255 → (textName labels).length < buf.length → wireLength labels ≤ out.length →
      let decoded := decodeName (front ++ wireName labels ++ back) front.length buf
      let encoded := encodeName (decoded.out.take decoded.written) out
      decoded.status = .ok ∧ encoded.status = .ok ∧ encoded.out.take encoded.written = wireName labels) ∧
    (∀ name out, (encodeName name out).status = .ok ↔
      (∀ label ∈ textLabels (withoutDot name), ValidLabel label) ∧
        wireLength (textLabels (withoutDot name)) ≤ 255 ∧
        wireLength (textLabels (withoutDot name)) ≤ out.length) := by
  refine ⟨?_, ?_, fun name out => encodeName_status name out⟩
  · intro name out front back buf hok
    obtain ⟨hvalid, hwire, hcap⟩ := (encodeName_status name out).mp hok
    have hlen := length_wireName (textLabels (withoutDot name))
    rw [encodeName_ok hvalid hwire hcap]
    dsimp only
    rw [← hlen, take_overwrite_zero (by omega),
      decodeName_wireName (fun l hl => ⟨(hvalid l hl).1, (hvalid l hl).2.1⟩) hwire, textName_textLabels, hlen]
  · intro labels front back buf out h hwire hbuf hout
    have hdecode := decodeName_wireName (fun l hl => ⟨(h l hl).1, (h l hl).2.1⟩) hwire front back buf
    have htext : (overwrite buf 0 (textName labels ++ [0])).take (textName labels).length = textName labels := by
      rw [overwrite_zero_append _ _ (by simp; omega), List.append_assoc, List.take_left]
    have hlabels : textLabels (withoutDot (textName labels)) = labels := by
      unfold withoutDot
      rw [if_neg (getLast?_textName fun l hl => ⟨(h l hl).1, (h l hl).2.2.1⟩)]
      exact textLabels_textName fun l hl => ⟨(h l hl).1, (h l hl).2.2.1⟩
    have hvalid : ∀ label ∈ textLabels (withoutDot (textName labels)), ValidLabel label := by
      rw [hlabels]
      exact fun l hl => ⟨(h l hl).1, (h l hl).2.1, (h l hl).2.2.2⟩
    have hencode := encodeName_ok hvalid (by rwa [hlabels]) (by rwa [hlabels] : _ ≤ out.length)
    have hlen := length_wireName labels
    rw [hdecode, if_pos hbuf]
    dsimp only
    rw [htext, hencode, hlabels]
    refine ⟨rfl, rfl, ?_⟩
    dsimp only
    rw [← hlen, take_overwrite_zero (by omega)]

theorem encode_decode_inverse_dotted :
    decodeName [9, 1, 97, 1, 98, 0, 7] 1 [5, 5, 5, 5, 5] = ⟨.ok, [97, 46, 98, 0, 5], 6, 3⟩ :=
  encode_decode_inverse.1 [97, 46, 98, 46] [0, 0, 0, 0, 0] [9] [7] [5, 5, 5, 5, 5] (by decide)

end TcpipCourse.L09
