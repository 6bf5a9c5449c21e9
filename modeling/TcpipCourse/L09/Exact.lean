import TcpipCourse.L09.Decode

/-!
# Lesson 09: the decoder is exact

* `foldl_appendText`, `length_textName` : the text that the loop builds, and its length against the wire
  length of the labels;
* `decodeStep_ne_fail` : no check fails on a name that ends and respects the limits;
* `endless_of_visited`, `wireLength_gt_of_appendLabel_error` : what the bitmap and the text checks reject;
* `decodeNameInternal_exact` : the main result.
-/

namespace TcpipCourse.L09
open Lib Relation

theorem intercalate_append_cons (x y : Bytes) (labels : List Bytes) :
    [dot].intercalate ((x ++ y) :: labels) = x ++ [dot].intercalate (y :: labels) := by
  cases labels with
  | nil => simp [List.intercalate]
  | cons z labels => simp [List.intercalate, List.intersperse]

theorem foldl_appendText_cons {d : Bytes} (hd : d ≠ []) (labels : List Bytes) :
    labels.foldl appendText d = [dot].intercalate (d :: labels) := by
  induction labels generalizing d with
  | nil => simp [List.intercalate]
  | cons label labels ih =>
    have happ : appendText d label = (d ++ [dot]) ++ label := by
      unfold appendText
      rw [if_neg hd, List.append_assoc]
      rfl
    rw [List.foldl_cons, happ, ih (by simp), intercalate_append_cons]
    simp [List.intercalate, List.intersperse]

theorem foldl_appendText {labels : List Bytes} (h : ∀ label ∈ labels, 1 ≤ label.length) :
    labels.foldl appendText [] = textName labels := by
  cases labels with
  | nil => rfl
  | cons label labels =>
    have hne : label ≠ [] := List.length_pos_iff.mp (h label (by simp))
    rw [List.foldl_cons, show appendText [] label = label from if_pos rfl]
    exact foldl_appendText_cons hne labels

theorem wireLength_pos (labels : List Bytes) : 1 ≤ wireLength labels := Nat.le_add_left _ _

theorem textName_cons_cons (label second : Bytes) (labels : List Bytes) :
    textName (label :: second :: labels) = label ++ dot :: textName (second :: labels) := by
  simp [textName, List.intercalate, List.intersperse]

/-- The text of a name other than the root is two bytes shorter than the name on the wire. -/
theorem length_textName {labels : List Bytes} (h : labels ≠ []) :
    (textName labels).length + 2 = wireLength labels := by
  induction labels with
  | nil => exact absurd rfl h
  | cons label labels ih =>
    cases labels with
    | nil => simp [textName, wireLength, List.intercalate]
    | cons second labels =>
      rw [textName_cons_cons, wireLength_cons, ← ih (by simp), List.length_append, List.length_cons]
      omega

/-! ## What each check rejects -/

/-- A visited target is on the path to the cursor, so the pointer to it closes a cycle. -/
theorem endless_of_visited {message : Bytes} {offset : Nat} {st : DecodeState} {high low : UInt8}
    (hv : Visits message offset st) (hhigh : message[st.cursor]? = some high) (h192 : 192 ≤ high.toNat)
    (hlow : message[st.cursor + 1]? = some low)
    (hvis : visitedGet st.visited (pointerTarget high low) = true) :
    Endless (Follows message) st.cursor ∧ Endless (Follows message) offset := by
  have hstep := Follows.pointer hhigh h192 hlow
  have hback := hv.visited _ hvis
  rw [pointerTarget_val h192] at hback
  have hcycle : TransGen (Follows message) st.cursor st.cursor := TransGen.head' hstep hback
  exact ⟨endless_of_cycle .refl hcycle, endless_of_cycle hv.reaches hcycle⟩

/-- A name whose next label overflows the text is longer than the wire limit allows. -/
theorem wireLength_gt_of_appendLabel_error {message : Bytes} {offset : Nat} {st : DecodeState}
    {length : UInt8} {status : Status} (hreach : Reachable message offset st)
    (hlen : message[st.cursor]? = some length) (h0 : length ≠ 0) (h64 : length.toNat < 64)
    (hfit : st.cursor + 1 + length.toNat ≤ message.length)
    (herr : appendLabel st.decoded (slice message (st.cursor + 1) length.toNat) = .error status)
    {labels : List Bytes} {hops next : Nat} (he : Expands message offset labels hops next) :
    255 < wireLength labels := by
  obtain ⟨hlab, hne⟩ := slice_label_length h0 hfit
  have hinit : Remaining message (decodeInit offset) (labels.foldl appendText []) (0 + hops)
      (0 + wireLength labels) next := ⟨labels, hops, next, he, rfl, rfl, rfl, rfl⟩
  obtain ⟨_, _, _, hrest, -, -, hwire, -⟩ := (remaining_iff hreach _ _ _ _).mp hinit
  obtain ⟨rest, rfl, -⟩ := (expands_label_iff hlen h0 h64 hfit).mp hrest
  have hlong : maxTextName < (appendText st.decoded (slice message (st.cursor + 1) length.toNat)).length := by
    rw [appendLabel_eq hne] at herr
    split at herr
    · cases herr
    · omega
  rw [length_appendText, hlab] at hlong
  rw [wireLength_cons, hlab] at hwire
  have hpos := wireLength_pos rest
  unfold maxTextName at hlong
  rcases (visits_of_reachable hreach).text with ⟨hd, hexp⟩ | ⟨hd, hexp⟩
  · rw [if_pos hd] at hlong
    omega
  · rw [if_neg hd] at hlong
    omega

/-- **Step lemma.** No check fails while the name ends within the limits. -/
theorem decodeStep_ne_fail {message : Bytes} {offset : Nat} {st : DecodeState} {text : Bytes}
    {hops wire next : Nat} (hv : Visits message offset st) (hrem : Remaining message st text hops wire next)
    (hhops : hops ≤ 128) (hwire : wire ≤ 255) (status : Status) : decodeStep message st ≠ .fail status := by
  obtain ⟨labels, hops', next', he, -, rfl, rfl, -⟩ := hrem
  have hending := he.not_endless
  generalize hoff : st.cursor = off at he
  cases he with
  | root h =>
    subst hoff
    have hfits : ¬ st.expandedWireLen + 1 > maxWireName := by
      unfold maxWireName
      simp only [wireLength, List.map_nil, List.sum_nil] at hwire
      omega
    rw [decodeStep_root h, if_neg hfits]
    exact fun h => Turn.noConfusion h
  | @label _ _ _ length rest h h0 h64 hfit _ =>
    subst hoff
    obtain ⟨hlab, hne⟩ := slice_label_length h0 hfit
    rw [wireLength_cons, hlab] at hwire
    have hpos := wireLength_pos rest
    have htext : (appendText st.decoded (slice message (st.cursor + 1) length.toNat)).length ≤ maxTextName := by
      rw [length_appendText, hlab]
      unfold maxTextName
      rcases hv.text with ⟨hd, hexp⟩ | ⟨hd, hexp⟩
      · rw [if_pos hd]; omega
      · rw [if_neg hd]; omega
    rw [decodeStep_label h h0 h64]
    unfold copyLabel maxWireName
    dsimp only
    rw [if_neg (by omega), if_neg (by omega), appendLabel_eq hne, if_pos htext]
    exact fun h => Turn.noConfusion h
  | @pointer _ hops'' _ high low _ hhigh h192 hlow rest =>
    subst hoff
    have hin := (getD_of_getElem? hlow).1
    have hlowD := (getD_of_getElem? hlow).2
    have htarget := rest.lt_length
    rw [← pointerTarget_val h192] at htarget
    have hvis : ¬ visitedGet st.visited (pointerTarget high low) = true := by
      intro hvis
      exact hending (endless_of_visited hv hhigh h192 hlow hvis).1
    rw [decodeStep_pointer hhigh h192]
    unfold followPointer maxPointerHops
    dsimp only
    rw [hlowD, if_neg (by omega), if_neg (by omega), if_neg hvis, if_neg (by omega)]
    exact fun h => Turn.noConfusion h

/-! ## The whole loop -/

theorem followPointer_ne_done {message : Bytes} {st : DecodeState} {length : UInt8} {name : DecodedName} :
    followPointer message st length ≠ .done name := by
  unfold followPointer
  intro h
  split at h
  · cases h
  · dsimp only at h
    split at h
    · cases h
    · split at h
      · cases h
      · split at h <;> cases h

theorem copyLabel_ne_done {message : Bytes} {st : DecodeState} {length : UInt8} {name : DecodedName} :
    copyLabel message st length ≠ .done name := by
  unfold copyLabel
  intro h
  dsimp only at h
  split at h
  · cases h
  · split at h
    · cases h
    · split at h <;> cases h

/-- A turn returns `OK` at a root byte only. -/
theorem decodeStep_done {message : Bytes} {st : DecodeState} {name : DecodedName}
    (h : decodeStep message st = .done name) :
    message[st.cursor]? = some 0 ∧ st.expandedWireLen + 1 ≤ maxWireName ∧
      name = ⟨st.decoded ++ [0], st.nextOffset.getD (st.cursor + 1)⟩ := by
  have hin : st.cursor < message.length := by
    by_contra hout
    unfold decodeStep at h
    rw [if_pos (by omega)] at h
    cases h
  have hroot : message[st.cursor]? = some 0 := by
    rw [getElem?_of_lt hin]
    unfold decodeStep at h
    rw [if_neg (by omega)] at h
    dsimp only at h
    split at h
    · exact absurd h followPointer_ne_done
    · split at h
      · cases h
      · split at h
        · next h0 => rw [h0]
        · exact absurd h copyLabel_ne_done
  rw [decodeStep_root hroot] at h
  split at h
  · cases h
  · cases h
    exact ⟨hroot, by omega, rfl⟩

theorem followPointer_fail {message : Bytes} {st : DecodeState} {length : UInt8} {status : Status}
    (h : followPointer message st length = .fail status) : status = .truncated ∨ status = .malformed := by
  unfold followPointer at h
  split at h
  · cases h
    exact .inl rfl
  · dsimp only at h
    split at h
    · cases h
      exact .inr rfl
    · split at h
      · cases h
        exact .inr rfl
      · split at h
        · cases h
          exact .inr rfl
        · cases h

theorem appendLabel_error {decoded label : Bytes} {status : Status} (h : appendLabel decoded label = .error status) :
    status = .malformed := by
  unfold appendLabel at h
  split at h
  · cases h
    rfl
  · dsimp only at h
    generalize (if decoded.length ≠ 0 then decoded ++ [dot] else decoded) = text at h
    split at h
    · cases h
      rfl
    · cases h

theorem copyLabel_fail {message : Bytes} {st : DecodeState} {length : UInt8} {status : Status}
    (h : copyLabel message st length = .fail status) : status = .truncated ∨ status = .malformed := by
  unfold copyLabel at h
  dsimp only at h
  split at h
  · cases h
    exact .inl rfl
  · split at h
    · cases h
      exact .inr rfl
    · split at h
      · next herr =>
        cases h
        exact .inr (appendLabel_error herr)
      · cases h

/-- A turn fails in two ways. -/
theorem decodeStep_fail {message : Bytes} {st : DecodeState} {status : Status}
    (h : decodeStep message st = .fail status) : status = .truncated ∨ status = .malformed := by
  unfold decodeStep at h
  split at h
  · cases h
    exact .inl rfl
  · dsimp only at h
    split at h
    · exact followPointer_fail h
    · split at h
      · cases h
        exact .inr rfl
      · split at h
        · split at h
          · cases h
            exact .inr rfl
          · cases h
        · exact copyLabel_fail h

theorem decodeNameInternal_error {message : Bytes} {offset : Nat} {status : Status}
    (h : decodeNameInternal message offset = .error status) : status = .truncated ∨ status = .malformed := by
  obtain ⟨last, -, ⟨status', hfail, herr⟩ | ⟨name, -, hok⟩⟩ := decodeLoop_stops message (decodeInit offset)
  · obtain rfl := Except.error.inj (herr.symm.trans h)
    exact decodeStep_fail hfail
  · cases hok.symm.trans h

/-- What is left to expand on entry is the expansion of the offset. -/
theorem remaining_init_iff {message : Bytes} {offset : Nat} {text : Bytes} {hops wire next : Nat} :
    Remaining message (decodeInit offset) text hops wire next ↔
      ∃ labels, Expands message offset labels hops next ∧ text = textName labels ∧ wire = wireLength labels := by
  constructor
  · rintro ⟨labels, hops', next', he, rfl, rfl, rfl, rfl⟩
    refine ⟨labels, ?_, foldl_appendText fun l hl => (he.label_length l hl).1, Nat.zero_add _⟩
    rwa [show (decodeInit offset).pointerHops + hops' = hops' from Nat.zero_add _]
  · rintro ⟨labels, he, rfl, rfl⟩
    exact ⟨labels, hops, next, he, (foldl_appendText fun l hl => (he.label_length l hl).1).symm,
      (Nat.zero_add _).symm, (Nat.zero_add _).symm, rfl⟩

theorem decodeNameInternal_sound {message : Bytes} {offset : Nat} {name : DecodedName}
    (h : decodeNameInternal message offset = .ok name) :
    ∃ labels hops, Expands message offset labels hops name.nextOffset ∧ hops ≤ 128 ∧
      wireLength labels ≤ 255 ∧ name.decoded = textName labels ++ [0] := by
  obtain ⟨last, hreach, ⟨status, -, herr⟩ | ⟨name', hdone, hok⟩⟩ := decodeLoop_stops message (decodeInit offset)
  · cases herr.symm.trans h
  · obtain rfl := Except.ok.inj (hok.symm.trans h)
    obtain ⟨hroot, hwire, rfl⟩ := decodeStep_done hdone
    have hhops := (visits_of_reachable hreach).hops
    have hrem : Remaining message last last.decoded last.pointerHops (last.expandedWireLen + 1)
        (last.nextOffset.getD (last.cursor + 1)) := ⟨[], 0, _, .root hroot, rfl, rfl, rfl, rfl⟩
    obtain ⟨labels, he, htext, hlen⟩ := remaining_init_iff.mp ((remaining_iff hreach _ _ _ _).mpr hrem)
    exact ⟨labels, last.pointerHops, he, hhops, hlen ▸ hwire, congrArg (· ++ [0]) htext⟩

theorem decodeNameInternal_complete {message : Bytes} {offset hops next : Nat} {labels : List Bytes}
    (he : Expands message offset labels hops next) (hhops : hops ≤ 128) (hwire : wireLength labels ≤ 255) :
    decodeNameInternal message offset = .ok ⟨textName labels ++ [0], next⟩ := by
  have hinit : Remaining message (decodeInit offset) (textName labels) hops (wireLength labels) next :=
    remaining_init_iff.mpr ⟨labels, he, rfl, rfl⟩
  obtain ⟨last, hreach, ⟨status, hfail, -⟩ | ⟨name, hdone, hok⟩⟩ := decodeLoop_stops message (decodeInit offset)
  · have hrem := (remaining_iff hreach _ _ _ _).mp hinit
    exact absurd hfail (decodeStep_ne_fail (visits_of_reachable hreach) hrem hhops hwire status)
  · obtain ⟨hroot, -, rfl⟩ := decodeStep_done hdone
    obtain ⟨rest, hops', next', hrest, htext, -, -, hnext⟩ := (remaining_iff hreach _ _ _ _).mp hinit
    obtain ⟨rfl, -, rfl⟩ := (expands_root_iff hroot).mp hrest
    rw [htext, hnext]
    exact hok

theorem length_textName_le {labels : List Bytes} (h : wireLength labels ≤ 255) : (textName labels).length ≤ 253 := by
  by_cases hnil : labels = []
  · subst hnil
    exact Nat.zero_le _
  · have := length_textName hnil
    omega

/-- **Main result.** The decoder stops on every message and offset. It returns `OK` exactly on the names that
reach a root byte within the limits, with their text and their next offset; the bitmap rejects only names
that go on forever, and the text checks only names beyond the wire limit. -/
theorem decodeNameInternal_exact (message : Bytes) (offset : Nat) :
    (∃ last, Reachable message offset last ∧
      ((∃ status, decodeStep message last = .fail status ∧ decodeNameInternal message offset = .error status) ∨
        ∃ name, decodeStep message last = .done name ∧ decodeNameInternal message offset = .ok name)) ∧
    (∀ name, decodeNameInternal message offset = .ok name ↔
      ∃ labels hops, Expands message offset labels hops name.nextOffset ∧ hops ≤ 128 ∧
        wireLength labels ≤ 255 ∧ name.decoded = textName labels ++ [0]) ∧
    (∀ name, decodeNameInternal message offset = .ok name → name.decoded.length - 1 ≤ 253) ∧
    (∀ st high low, Reachable message offset st → message[st.cursor]? = some high → 192 ≤ high.toNat →
      message[st.cursor + 1]? = some low → visitedGet st.visited (pointerTarget high low) = true →
      Endless (Follows message) offset) ∧
    (∀ st length status, Reachable message offset st → message[st.cursor]? = some length → length ≠ 0 →
      length.toNat < 64 → st.cursor + 1 + length.toNat ≤ message.length →
      appendLabel st.decoded (slice message (st.cursor + 1) length.toNat) = .error status →
      ∀ labels hops next, Expands message offset labels hops next → 255 < wireLength labels) := by
  refine ⟨decodeLoop_stops message (decodeInit offset), ?_, ?_, ?_, ?_⟩
  · intro name
    constructor
    · exact decodeNameInternal_sound
    · rintro ⟨labels, hops, he, hhops, hwire, hdec⟩
      rw [decodeNameInternal_complete he hhops hwire, ← hdec]
  · intro name h
    obtain ⟨labels, _, -, -, hwire, hdec⟩ := decodeNameInternal_sound h
    rw [hdec, List.length_append]
    exact length_textName_le hwire
  · intro st high low hreach hhigh h192 hlow hvis
    exact (endless_of_visited (visits_of_reachable hreach) hhigh h192 hlow hvis).2
  · intro st length status hreach hlen h0 h64 hfit herr labels hops next he
    exact wireLength_gt_of_appendLabel_error hreach hlen h0 h64 hfit herr he

/-- `www` and a pointer to `com`, which follows. -/
theorem decodeNameInternal_exact_pointer :
    decodeNameInternal [3, 119, 119, 119, 192, 6, 3, 99, 111, 109, 0] 0 =
        .ok ⟨[119, 119, 119, 46, 99, 111, 109, 0], 6⟩ ∧
      Endless (Follows [192, 0]) 0 := by
  constructor
  · apply ((decodeNameInternal_exact _ _).2.1 _).mpr
    refine ⟨[[119, 119, 119], [99, 111, 109]], 1, ?_, by decide, by decide, by decide⟩
    apply @Expands.label _ 0 1 6 3 _ rfl (by decide) (by decide) (by decide)
    apply @Expands.pointer _ 4 0 11 192 6 _ rfl (by decide) rfl
    apply @Expands.label _ 6 0 11 3 _ rfl (by decide) (by decide) (by decide)
    exact .root rfl
  · have hreach : Reachable [192, 0] 0 { decodeInit 0 with
        nextOffset := some 2, visited := visitedSet (Vector.replicate visitedBytes 0) (pointerTarget 192 0),
        pointerHops := 1 } :=
      .single rfl
    exact (decodeNameInternal_exact _ _).2.2.2.1 _ 192 0 hreach rfl (by decide) rfl (by decide +kernel)

end TcpipCourse.L09
