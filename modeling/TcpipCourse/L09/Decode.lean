import TcpipCourse.Lib.Path
import TcpipCourse.L09.Name

/-!
# Lesson 09: what the decoder accepts

* `Follows`, `Expands` : one label or pointer of a name, and a whole name down to its root byte;
* `Reachable` : the states of the loop of `decodeNameInternal`;
* `Remaining` : what is left to expand in a state; every turn keeps it (`remaining_again`);
* `Visits` : the bitmap holds positions that the cursor was at, so that meeting one again closes a cycle.
-/

namespace TcpipCourse.L09
open Lib Relation

/-! ## Names in a message -/

/-- One label or one compression pointer, from its first byte to where it leads. -/
inductive Follows (message : Bytes) : Nat → Nat → Prop
  | label {off : Nat} {length : UInt8} (h : message[off]? = some length) (h0 : length ≠ 0)
      (h64 : length.toNat < 64) (hfit : off + 1 + length.toNat ≤ message.length) :
      Follows message off (off + 1 + length.toNat)
  | pointer {off : Nat} {high low : UInt8} (hhigh : message[off]? = some high) (h192 : 192 ≤ high.toNat)
      (hlow : message[off + 1]? = some low) : Follows message off ((high.toNat - 192) * 256 + low.toNat)

/-- Following labels and pointers from `off` reaches a root byte: the labels on the way, how many pointers
were followed, and the position after the first of them or else after the root byte. -/
inductive Expands (message : Bytes) : Nat → List Bytes → Nat → Nat → Prop
  | root {off : Nat} (h : message[off]? = some 0) : Expands message off [] 0 (off + 1)
  | label {off hops next : Nat} {length : UInt8} {labels : List Bytes} (h : message[off]? = some length)
      (h0 : length ≠ 0) (h64 : length.toNat < 64) (hfit : off + 1 + length.toNat ≤ message.length)
      (rest : Expands message (off + 1 + length.toNat) labels hops next) :
      Expands message off (slice message (off + 1) length.toNat :: labels) hops next
  | pointer {off hops next : Nat} {high low : UInt8} {labels : List Bytes} (hhigh : message[off]? = some high)
      (h192 : 192 ≤ high.toNat) (hlow : message[off + 1]? = some low)
      (rest : Expands message ((high.toNat - 192) * 256 + low.toNat) labels hops next) :
      Expands message off labels (hops + 1) (off + 2)

/-- The length on the wire: a length byte for each label, and the root byte. -/
def wireLength (labels : List Bytes) : Nat := (labels.map fun label => label.length + 1).sum + 1

/-- The text of a name: its labels joined by dots. -/
def textName (labels : List Bytes) : Bytes := [dot].intercalate labels

theorem Expands.lt_length {message : Bytes} {off hops next : Nat} {labels : List Bytes}
    (h : Expands message off labels hops next) : off < message.length := by
  have hin : ∀ {b : UInt8}, message[off]? = some b → off < message.length := by
    intro b hb
    obtain ⟨hlt, -⟩ := List.getElem?_eq_some_iff.mp hb
    exact hlt
  cases h with
  | root h => exact hin h
  | label h => exact hin h
  | pointer h => exact hin h

theorem Expands.label_length {message : Bytes} {off hops next : Nat} {labels : List Bytes}
    (h : Expands message off labels hops next) : ∀ label ∈ labels, 1 ≤ label.length ∧ label.length ≤ 63 := by
  induction h with
  | root => simp
  | pointer _ _ _ _ ih => exact ih
  | @label off hops next length labels h h0 h64 hfit _ ih =>
    intro label hmem
    rcases List.mem_cons.mp hmem with rfl | hmem
    · have hne : length.toNat ≠ 0 := fun h => h0 (UInt8.toNat_inj.mp h)
      rw [length_slice hfit]
      omega
    · exact ih label hmem

theorem Follows.unique {message : Bytes} {off a b : Nat} (ha : Follows message off a)
    (hb : Follows message off b) : a = b := by
  cases ha with
  | label h _ h64 _ =>
    cases hb with
    | label h' _ _ _ =>
      obtain rfl := Option.some.inj (h.symm.trans h')
      rfl
    | pointer h' h192 _ =>
      obtain rfl := Option.some.inj (h.symm.trans h')
      omega
  | pointer h h192 hlow =>
    cases hb with
    | label h' _ h64 _ =>
      obtain rfl := Option.some.inj (h.symm.trans h')
      omega
    | pointer h' _ hlow' =>
      obtain rfl := Option.some.inj (h.symm.trans h')
      obtain rfl := Option.some.inj (hlow.symm.trans hlow')
      rfl

/-- An expansion ends, so no path of labels and pointers goes on forever from where it starts. -/
theorem Expands.not_endless {message : Bytes} {off hops next : Nat} {labels : List Bytes}
    (h : Expands message off labels hops next) : ¬ Endless (Follows message) off := by
  rw [endless_iff_not_acc, not_not]
  induction h with
  | root h =>
    refine Acc.intro _ fun b hb => ?_
    cases hb with
    | label h' h0 _ _ => exact absurd (Option.some.inj (h'.symm.trans h)) h0
    | pointer h' h192 _ =>
      obtain rfl := Option.some.inj (h'.symm.trans h)
      cases h192
  | label h h0 h64 hfit _ ih => exact Acc.intro _ fun b hb => Follows.unique (.label h h0 h64 hfit) hb ▸ ih
  | pointer hhigh h192 hlow _ ih => exact Acc.intro _ fun b hb => Follows.unique (.pointer hhigh h192 hlow) hb ▸ ih

theorem expands_root_iff {message : Bytes} {off hops next : Nat} {labels : List Bytes}
    (h : message[off]? = some 0) :
    Expands message off labels hops next ↔ labels = [] ∧ hops = 0 ∧ next = off + 1 := by
  constructor
  · intro he
    cases he with
    | root => exact ⟨rfl, rfl, rfl⟩
    | label h' h0 => exact absurd (Option.some.inj (h'.symm.trans h)) h0
    | pointer h' h192 =>
      obtain rfl := Option.some.inj (h'.symm.trans h)
      cases h192
  · rintro ⟨rfl, rfl, rfl⟩
    exact .root h

theorem expands_label_iff {message : Bytes} {off hops next : Nat} {length : UInt8} {labels : List Bytes}
    (h : message[off]? = some length) (h0 : length ≠ 0) (h64 : length.toNat < 64)
    (hfit : off + 1 + length.toNat ≤ message.length) :
    Expands message off labels hops next ↔
      ∃ rest, labels = slice message (off + 1) length.toNat :: rest ∧
        Expands message (off + 1 + length.toNat) rest hops next := by
  constructor
  · intro he
    cases he with
    | root h' => exact absurd (Option.some.inj (h.symm.trans h')) h0
    | label h' _ _ _ rest =>
      obtain rfl := Option.some.inj (h'.symm.trans h)
      exact ⟨_, rfl, rest⟩
    | pointer h' h192 =>
      obtain rfl := Option.some.inj (h'.symm.trans h)
      omega
  · rintro ⟨rest, rfl, he⟩
    exact .label h h0 h64 hfit he

theorem expands_pointer_iff {message : Bytes} {off hops next : Nat} {high low : UInt8} {labels : List Bytes}
    (hhigh : message[off]? = some high) (h192 : 192 ≤ high.toNat) (hlow : message[off + 1]? = some low) :
    Expands message off labels hops next ↔
      ∃ hops' next', hops = hops' + 1 ∧ next = off + 2 ∧
        Expands message ((high.toNat - 192) * 256 + low.toNat) labels hops' next' := by
  constructor
  · intro he
    cases he with
    | root h' =>
      obtain rfl := Option.some.inj (h'.symm.trans hhigh)
      cases h192
    | label h' _ h64 =>
      obtain rfl := Option.some.inj (h'.symm.trans hhigh)
      omega
    | pointer h' _ hlow' rest =>
      obtain rfl := Option.some.inj (h'.symm.trans hhigh)
      obtain rfl := Option.some.inj (hlow'.symm.trans hlow)
      exact ⟨_, _, rfl, rfl, rest⟩
  · rintro ⟨hops', next', rfl, rfl, he⟩
    exact .pointer hhigh h192 hlow he

/-! ## One turn -/

theorem getD_of_getElem? {message : Bytes} {i : Nat} {b : UInt8} (h : message[i]? = some b) :
    i < message.length ∧ message.getD i 0 = b := by
  obtain ⟨hlt, hb⟩ := List.getElem?_eq_some_iff.mp h
  exact ⟨hlt, by rw [List.getD_eq_getElem _ _ hlt, hb]⟩

theorem getElem?_of_lt {message : Bytes} {i : Nat} (h : i < message.length) :
    message[i]? = some (message.getD i 0) := by
  rw [List.getElem?_eq_getElem h, List.getD_eq_getElem]

theorem decodeStep_root {message : Bytes} {st : DecodeState} (h : message[st.cursor]? = some 0) :
    decodeStep message st =
      if st.expandedWireLen + 1 > maxWireName then .fail .malformed
      else .done ⟨st.decoded ++ [0], st.nextOffset.getD (st.cursor + 1)⟩ := by
  obtain ⟨hin, h0⟩ := getD_of_getElem? h
  unfold decodeStep
  rw [if_neg (by omega), h0]
  rfl

theorem decodeStep_label {message : Bytes} {st : DecodeState} {length : UInt8}
    (h : message[st.cursor]? = some length) (h0 : length ≠ 0) (h64 : length.toNat < 64) :
    decodeStep message st = copyLabel message st length := by
  obtain ⟨hin, hb⟩ := getD_of_getElem? h
  have htop := (topBits_iff length).1.mpr h64
  unfold decodeStep
  rw [if_neg (by omega), hb]
  simp only [htop, h0, ne_eq, not_true_eq_false, if_false]
  rfl

theorem decodeStep_pointer {message : Bytes} {st : DecodeState} {length : UInt8}
    (h : message[st.cursor]? = some length) (h192 : 192 ≤ length.toNat) :
    decodeStep message st = followPointer message st length := by
  obtain ⟨hin, hb⟩ := getD_of_getElem? h
  unfold decodeStep
  rw [if_neg (by omega), hb]
  simp only [(topBits_iff length).2.mpr h192, if_true]

theorem pointerTarget_val {high low : UInt8} (h192 : 192 ≤ high.toNat) :
    (pointerTarget high low).val = (high.toNat - 192) * 256 + low.toNat := by
  have hmod : (high &&& 0x3f).toNat = high.toNat % 64 := by
    rw [UInt8.toNat_and, show UInt8.toNat 0x3f = 2 ^ 6 - 1 from rfl, Nat.and_two_pow_sub_one_eq_mod]
  have hlt := high.toNat_lt
  unfold pointerTarget
  dsimp only
  rw [toNat_be16, hmod]
  omega

def appendText (decoded label : Bytes) : Bytes := if decoded = [] then label else decoded ++ dot :: label

theorem length_appendText (decoded label : Bytes) :
    (appendText decoded label).length =
      if decoded = [] then label.length else decoded.length + 1 + label.length := by
  unfold appendText
  split
  · rfl
  · rw [List.length_append, List.length_cons]; omega

/-- The text checks pass exactly when the text stays within its limit. -/
theorem appendLabel_eq {decoded label : Bytes} (hlabel : label ≠ []) :
    appendLabel decoded label =
      if (appendText decoded label).length ≤ maxTextName then .ok (appendText decoded label)
      else .error .malformed := by
  have hpos := List.length_pos_iff.mpr hlabel
  rw [length_appendText]
  unfold appendLabel appendText maxTextName
  by_cases hd : decoded = []
  · subst hd
    simp only [List.length_nil, ne_eq, not_true_eq_false, false_and, if_false, if_true, List.nil_append,
      Nat.sub_zero]
    by_cases hl : label.length ≤ 253
    · rw [if_neg (by omega), if_pos hl]
    · rw [if_pos (by omega), if_neg hl]
  · have hdpos := List.length_pos_iff.mpr hd
    have hne : decoded.length ≠ 0 := by omega
    simp only [hd, hne, ne_eq, not_false_eq_true, true_and, if_false, if_true, List.length_append,
      List.length_cons, List.length_nil, List.append_assoc, List.cons_append, List.nil_append]
    by_cases hl : decoded.length + 1 + label.length ≤ 253
    · rw [if_neg (by omega), if_neg (by omega), if_pos hl]
    · rw [if_neg hl]
      split
      · rfl
      · rw [if_pos (by omega)]

theorem appendLabel_ok {decoded label text : Bytes} (hlabel : label ≠ [])
    (h : appendLabel decoded label = .ok text) : text = appendText decoded label := by
  rw [appendLabel_eq hlabel] at h
  split at h
  · exact (Except.ok.inj h).symm
  · cases h

/-! ## Runs of the loop -/

/-- The states of the loop of `decodeNameInternal message offset`. -/
def Reachable (message : Bytes) (offset : Nat) : DecodeState → Prop :=
  ReflTransGen (fun a b => decodeStep message a = .again b) (decodeInit offset)

/-- The loop stops, and what its last turn returns is what the function returns. -/
theorem decodeLoop_stops (message : Bytes) (st : DecodeState) :
    ∃ last, ReflTransGen (fun a b => decodeStep message a = .again b) st last ∧
      ((∃ status, decodeStep message last = .fail status ∧ decodeLoop message st = .error status) ∨
        ∃ name, decodeStep message last = .done name ∧ decodeLoop message st = .ok name) := by
  induction st using decodeLoop.induct message with
  | case1 st status h =>
    refine ⟨st, .refl, .inl ⟨status, h, ?_⟩⟩
    rw [decodeLoop, h]
  | case2 st name h =>
    refine ⟨st, .refl, .inr ⟨name, h, ?_⟩⟩
    rw [decodeLoop, h]
  | case3 st st' h ih =>
    have hloop : decodeLoop message st = decodeLoop message st' := by rw [decodeLoop, h]
    obtain ⟨last, hreach, hlast⟩ := ih
    refine ⟨last, .head h hreach, ?_⟩
    rw [hloop]
    exact hlast

/-- What is left to expand in a state, as the text, the pointers, the wire length and the next offset that
the whole name will have. -/
def Remaining (message : Bytes) (st : DecodeState) (text : Bytes) (hops wire next : Nat) : Prop :=
  ∃ labels hops' next', Expands message st.cursor labels hops' next' ∧
    text = labels.foldl appendText st.decoded ∧ hops = st.pointerHops + hops' ∧
    wire = st.expandedWireLen + wireLength labels ∧ next = st.nextOffset.getD next'

theorem wireLength_cons (label : Bytes) (labels : List Bytes) :
    wireLength (label :: labels) = (label.length + 1) + wireLength labels := by
  unfold wireLength
  rw [List.map_cons, List.sum_cons]
  omega

theorem slice_label_length {message : Bytes} {st : DecodeState} {length : UInt8} (h0 : length ≠ 0)
    (hfit : st.cursor + 1 + length.toNat ≤ message.length) :
    (slice message (st.cursor + 1) length.toNat).length = length.toNat ∧
      slice message (st.cursor + 1) length.toNat ≠ [] := by
  have hlab : (slice message (st.cursor + 1) length.toNat).length = length.toNat := length_slice hfit
  refine ⟨hlab, fun hnil => h0 (UInt8.toNat_inj.mp ?_)⟩
  rw [hnil] at hlab
  exact hlab.symm

/-- **Step lemma.** A turn that goes on leaves the name that is being expanded as it is. -/
theorem remaining_again {message : Bytes} {st st' : DecodeState} (h : decodeStep message st = .again st')
    (text : Bytes) (hops wire next : Nat) :
    Remaining message st text hops wire next ↔ Remaining message st' text hops wire next := by
  obtain ⟨length, hlen, ⟨h192, hp⟩ | ⟨h0, h64, hl⟩⟩ := decodeStep_again h
  · obtain ⟨hlow, -, -, -, rfl⟩ := followPointer_again hp
    unfold Remaining
    simp only [expands_pointer_iff hlen h192 (getElem?_of_lt hlow), pointerTarget_val h192, Option.getD_some]
    constructor
    · rintro ⟨labels, _, _, ⟨hops', next', rfl, rfl, he⟩, rfl, rfl, rfl, rfl⟩
      exact ⟨labels, hops', next', he, rfl, by omega, rfl, rfl⟩
    · rintro ⟨labels, hops', next', he, rfl, rfl, rfl, rfl⟩
      exact ⟨labels, hops' + 1, st.cursor + 2, ⟨hops', next', rfl, rfl, he⟩, rfl, by omega, rfl, rfl⟩
  · obtain ⟨hfit, -, decoded, happ, rfl⟩ := copyLabel_again hl
    have hin := (getD_of_getElem? hlen).1
    have hfit' : st.cursor + 1 + length.toNat ≤ message.length := by omega
    obtain ⟨hlab, hne⟩ := slice_label_length h0 hfit'
    have hdec := appendLabel_ok hne happ
    unfold Remaining
    simp only [expands_label_iff hlen h0 h64 hfit', hdec]
    constructor
    · rintro ⟨_, hops', next', ⟨labels, rfl, he⟩, rfl, rfl, rfl, rfl⟩
      refine ⟨labels, hops', next', he, rfl, rfl, ?_, rfl⟩
      rw [wireLength_cons, hlab]
      omega
    · rintro ⟨labels, hops', next', he, rfl, rfl, rfl, rfl⟩
      refine ⟨_, hops', next', ⟨labels, rfl, he⟩, rfl, rfl, ?_, rfl⟩
      rw [wireLength_cons, hlab]
      omega

/-- The name that is being expanded is the one the loop started with. -/
theorem remaining_iff {message : Bytes} {offset : Nat} {st : DecodeState} (h : Reachable message offset st)
    (text : Bytes) (hops wire next : Nat) :
    Remaining message (decodeInit offset) text hops wire next ↔ Remaining message st text hops wire next := by
  induction h with
  | refl => rfl
  | tail _ hstep ih => rw [ih, remaining_again hstep]

/-! ## The bitmap -/

theorem mask_and_mask (j k : Fin 8) :
    (1 <<< UInt8.ofNat k.val : UInt8) &&& (1 <<< UInt8.ofNat j.val) =
      if j = k then 1 <<< UInt8.ofNat j.val else 0 := by
  revert j k
  decide +kernel

theorem mask_ne_zero (j : Fin 8) : (1 <<< UInt8.ofNat j.val : UInt8) ≠ 0 := by
  revert j
  decide

theorem bit_or_and (b : UInt8) (j k : Fin 8) :
    (b ||| (1 <<< UInt8.ofNat k.val)) &&& (1 <<< UInt8.ofNat j.val) ≠ 0 ↔
      j = k ∨ b &&& (1 <<< UInt8.ofNat j.val) ≠ 0 := by
  have hdistrib : ∀ x y z : UInt8, (x ||| y) &&& z = (x &&& z) ||| (y &&& z) := by
    intro x y z
    apply UInt8.toBitVec_inj.mp
    exact BitVec.and_or_distrib_right
  rw [hdistrib, mask_and_mask]
  by_cases hjk : j = k
  · simp [hjk, mask_ne_zero]
  · simp [hjk]

theorem visitedGet_visitedSet (visited : Visited) (s t : Fin pointerSpace) :
    visitedGet (visitedSet visited s) t = true ↔ t = s ∨ visitedGet visited t = true := by
  have hget : ∀ (v : Visited) (i : Fin visitedBytes), v.get i = v[i.val] := fun _ _ => rfl
  unfold visitedGet visitedSet
  simp only [bne_iff_ne, hget, Vector.getElem_set]
  by_cases hbyte : s.val / 8 = t.val / 8
  · have hbit := bit_or_and (visited.get ⟨t.val / 8, byteIndex_lt t⟩) ⟨t.val % 8, by omega⟩ ⟨s.val % 8, by omega⟩
    simp only [hget, Fin.mk.injEq] at hbit
    have hst : t = s ↔ t.val % 8 = s.val % 8 := by
      rw [Fin.ext_iff]
      omega
    simp only [hbyte, if_true, hst]
    exact hbit
  · have hst : t ≠ s := by
      rintro rfl
      exact hbyte rfl
    simp only [hbyte, if_false, hst, false_or]

theorem visitedGet_replicate (t : Fin pointerSpace) :
    visitedGet (Vector.replicate visitedBytes 0) t = false := by
  have hget : ∀ (v : Visited) (i : Fin visitedBytes), v.get i = v[i.val] := fun _ _ => rfl
  unfold visitedGet
  rw [hget, Vector.getElem_replicate, UInt8.zero_and]
  rfl

/-- What every state of the loop satisfies: the cursor and the visited targets lie on one path from the
offset, each limit holds so far, and the text is one byte shorter than the labels on the wire. -/
structure Visits (message : Bytes) (offset : Nat) (st : DecodeState) : Prop where
  reaches : ReflTransGen (Follows message) offset st.cursor
  visited : ∀ t, visitedGet st.visited t = true → ReflTransGen (Follows message) t.val st.cursor
  hops : st.pointerHops ≤ maxPointerHops
  wire : st.expandedWireLen ≤ maxWireName
  text : st.decoded = [] ∧ st.expandedWireLen = 0 ∨
    st.decoded ≠ [] ∧ st.decoded.length + 1 = st.expandedWireLen

theorem visits_init (message : Bytes) (offset : Nat) : Visits message offset (decodeInit offset) where
  reaches := .refl
  visited := fun t h => by
    have hno := visitedGet_replicate t
    rw [decodeInit] at h
    rw [hno] at h
    cases h
  hops := Nat.zero_le _
  wire := Nat.zero_le _
  text := .inl ⟨rfl, rfl⟩

theorem Visits.again {message : Bytes} {offset : Nat} {st st' : DecodeState} (hv : Visits message offset st)
    (h : decodeStep message st = .again st') : Visits message offset st' := by
  obtain ⟨length, hlen, ⟨h192, hp⟩ | ⟨h0, h64, hl⟩⟩ := decodeStep_again h
  · obtain ⟨hlow, -, -, hhops, rfl⟩ := followPointer_again hp
    have hstep := Follows.pointer hlen h192 (getElem?_of_lt hlow)
    rw [← pointerTarget_val h192] at hstep
    exact
      { reaches := hv.reaches.tail hstep
        visited := by
          intro t ht
          rcases (visitedGet_visitedSet _ _ _).mp ht with rfl | ht
          · exact .refl
          · exact (hv.visited t ht).tail hstep
        hops := hhops
        wire := hv.wire
        text := hv.text }
  · obtain ⟨hfit, hwire, decoded, happ, rfl⟩ := copyLabel_again hl
    have hin := (getD_of_getElem? hlen).1
    have hfit' : st.cursor + 1 + length.toNat ≤ message.length := by omega
    obtain ⟨hlab, hne⟩ := slice_label_length h0 hfit'
    have hstep := Follows.label hlen h0 h64 hfit'
    have hdec := appendLabel_ok hne happ
    have hdlen := length_appendText st.decoded (slice message (st.cursor + 1) length.toNat)
    rw [← hdec, hlab] at hdlen
    have hpos : length.toNat ≠ 0 := by
      rw [← hlab]
      exact fun h => hne (List.length_eq_zero_iff.mp h)
    have hdne : decoded ≠ [] := by
      intro hnil
      rw [hnil, List.length_nil] at hdlen
      split at hdlen <;> omega
    exact
      { reaches := hv.reaches.tail hstep
        visited := fun t ht => (hv.visited t ht).tail hstep
        hops := hv.hops
        wire := by
          unfold maxWireName at hwire ⊢
          dsimp only
          omega
        text := by
          refine .inr ⟨hdne, ?_⟩
          dsimp only
          rcases hv.text with ⟨hd, he⟩ | ⟨hd, he⟩
          · rw [if_pos hd] at hdlen
            omega
          · rw [if_neg hd] at hdlen
            omega }

/-- **Run lemma.** -/
theorem visits_of_reachable {message : Bytes} {offset : Nat} {st : DecodeState}
    (h : Reachable message offset st) : Visits message offset st := by
  induction h with
  | refl => exact visits_init message offset
  | tail _ hstep ih => exact ih.again hstep

end TcpipCourse.L09
