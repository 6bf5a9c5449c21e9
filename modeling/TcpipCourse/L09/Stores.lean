import TcpipCourse.Lib.Logged
import TcpipCourse.L09.Encode

/-!
# Lesson 09: what the encoder stores

The first pass of the encoder counts, and the second one stores without looking at the capacity again. Here it is
once more, with a log of its stores.

* `Store`, `Store.positions` : one store, and the positions of the buffer that it covers;
* `…Logged` : the functions of the second pass with their log; `…Logged_value` : what they return;
* `labelStores` : the stores of labels one behind the other, which are those of the pass (`writeLabelsLogged_log`);
* `encodeName_passes_agree` : the main result.
-/

namespace TcpipCourse.L09
open Lib Logged

/-! ## The stores -/

inductive Store where
  /-- `out[output_index] = (uint8_t)label_len` -/
  | length (offset : Nat) (value : UInt8)
  /-- `memcpy(out + output_index, name + label_start, label_len)` -/
  | label (offset size : Nat)
  /-- `out[output_index] = 0U` -/
  | root (offset : Nat)
  deriving DecidableEq, Repr

def Store.positions : Store → List Nat
  | length offset _ => [offset]
  | label offset size => List.range' offset size
  | root offset => [offset]

/-- A length byte is the length of a label. -/
def Store.LengthOk : Store → Prop
  | length _ value => 1 ≤ value.toNat ∧ value.toNat ≤ 63
  | label _ _ | root _ => True

def storeLength (out : Bytes) (offset : Nat) (value : UInt8) : Logged Store Bytes :=
  ⟨[.length offset value], overwrite out offset [value]⟩

/-- `bytes` are the `size` bytes of the label. -/
def storeLabel (out : Bytes) (offset size : Nat) (bytes : Bytes) : Logged Store Bytes :=
  ⟨[.label offset size], overwrite out offset bytes⟩

def storeRoot (out : Bytes) (offset : Nat) : Logged Store Bytes := ⟨[.root offset], overwrite out offset [0]⟩

/-! ## The functions with their log -/

def writeLabelLogged (name : Bytes) (labelStart labelLen : Nat) (w : Writer) : Logged Store Writer := do
  if labelLen ≠ 0 then
    let out ← storeLength w.out w.outputIndex (UInt8.ofNat labelLen)
    let out ← storeLabel out (w.outputIndex + 1) labelLen (slice name labelStart labelLen)
    return { out := out, outputIndex := w.outputIndex + 1 + labelLen }
  else return w

def writeLabelsLogged (name : Bytes) : (rest : Bytes) → (inputIndex labelStart : Nat) → Writer → Logged Store Writer
  | [], inputIndex, labelStart, w => writeLabelLogged name labelStart (inputIndex - labelStart) w
  | c :: rest, inputIndex, labelStart, w =>
    if c = dot then do
      let w ← writeLabelLogged name labelStart (inputIndex - labelStart) w
      writeLabelsLogged name rest (inputIndex + 1) (inputIndex + 1) w
    else writeLabelsLogged name rest (inputIndex + 1) labelStart w

def encodeNameLogged (name out : Bytes) : Logged Store EncodeResult := do
  match encodedLength name with
  | .error status => return ⟨status, out, 0⟩
  | .ok encodedLen =>
    if encodedLen > out.length then return ⟨.capacity, out, 0⟩
    else if inputEnd name = 0 then
      let out ← storeRoot out 0
      return ⟨.ok, out, 1⟩
    else
      let w ← writeLabelsLogged name (name.take (inputEnd name)) 0 0 ⟨out, 0⟩
      let out ← storeRoot w.out w.outputIndex
      return ⟨.ok, out, w.outputIndex + 1⟩

/-! ## What they return -/

theorem writeLabelLogged_value (name : Bytes) (labelStart labelLen : Nat) (w : Writer) :
    (writeLabelLogged name labelStart labelLen w).value = writeLabel name labelStart labelLen w := by
  simp only [writeLabelLogged, value_ite, value_bind, value_pure]
  rfl

theorem writeLabelsLogged_value (name rest : Bytes) : ∀ (inputIndex labelStart : Nat) (w : Writer),
    (writeLabelsLogged name rest inputIndex labelStart w).value = writeLabels name rest inputIndex labelStart w := by
  induction rest with
  | nil => exact fun _ _ w => writeLabelLogged_value name _ _ w
  | cons c rest ih =>
    intro inputIndex labelStart w
    rw [writeLabelsLogged, writeLabels, value_ite, value_bind, writeLabelLogged_value, ih, ih]

theorem encodeNameLogged_value (name out : Bytes) : (encodeNameLogged name out).value = encodeName name out := by
  unfold encodeNameLogged encodeName
  cases encodedLength name with
  | error status => rfl
  | ok encodedLen =>
    simp only [value_ite, value_bind, value_pure, writeLabelsLogged_value]
    rfl

/-! ## What is logged -/

/-- The stores of the labels from `offset` on. -/
def labelStores : (offset : Nat) → (labels : List Bytes) → List Store
  | _, [] => []
  | offset, label :: labels =>
    .length offset (UInt8.ofNat label.length) :: .label (offset + 1) label.length ::
      labelStores (offset + 1 + label.length) labels

theorem labelStores_positions (labels : List Bytes) : ∀ offset,
    (labelStores offset labels).flatMap Store.positions =
      List.range' offset (labels.map fun label => label.length + 1).sum := by
  induction labels with
  | nil => exact fun _ => rfl
  | cons label labels ih =>
    intro offset
    rw [labelStores, List.flatMap_cons, List.flatMap_cons, ih, List.map_cons, List.sum_cons, Store.positions,
      Store.positions, ← List.append_assoc, ← List.range'_append_1, Nat.add_assoc]
    congr 1
    rw [Nat.add_comm 1]

theorem labelStores_lengthOk {labels : List Bytes} (h : ∀ label ∈ labels, 1 ≤ label.length ∧ label.length ≤ 63) :
    ∀ offset, ∀ store ∈ labelStores offset labels, store.LengthOk := by
  induction labels with
  | nil => simp [labelStores]
  | cons label labels ih =>
    intro offset store hmem
    obtain ⟨hlabel, hlabels⟩ := List.forall_mem_cons.mp h
    rw [labelStores] at hmem
    rcases List.mem_cons.mp hmem with rfl | hmem
    · show 1 ≤ (UInt8.ofNat label.length).toNat ∧ (UInt8.ofNat label.length).toNat ≤ 63
      rw [UInt8.toNat_ofNat_of_lt' (show label.length < 256 by omega)]
      exact hlabel
    · rcases List.mem_cons.mp hmem with rfl | hmem
      · trivial
      · exact ih hlabels _ store hmem

theorem writeLabelLogged_log {name : Bytes} {labelStart labelLen : Nat} (hne : labelLen ≠ 0) (w : Writer) :
    (writeLabelLogged name labelStart labelLen w).log =
        [.length w.outputIndex (UInt8.ofNat labelLen), .label (w.outputIndex + 1) labelLen] ∧
      (writeLabelLogged name labelStart labelLen w).value.outputIndex = w.outputIndex + 1 + labelLen := by
  unfold writeLabelLogged
  rw [if_pos hne]
  exact ⟨rfl, rfl⟩

/-- The second pass stores the labels that the first one has counted, as long as none of them is empty. -/
theorem writeLabelsLogged_log (name rest : Bytes) : ∀ (pre : Bytes) (labelStart : Nat) (w : Writer),
    (∀ label ∈ labelsFrom pre rest, label ≠ []) →
    (writeLabelsLogged name rest (labelStart + pre.length) labelStart w).log =
        labelStores w.outputIndex (labelsFrom pre rest) ∧
      (writeLabelsLogged name rest (labelStart + pre.length) labelStart w).value.outputIndex =
        w.outputIndex + ((labelsFrom pre rest).map fun label => label.length + 1).sum := by
  induction rest with
  | nil =>
    intro pre labelStart w hne
    have hpre : pre.length ≠ 0 := fun h => hne pre (by simp [labelsFrom]) (List.length_eq_zero_iff.mp h)
    obtain ⟨hlog, hindex⟩ := @writeLabelLogged_log name labelStart pre.length hpre w
    rw [writeLabelsLogged, Nat.add_sub_cancel_left, hlog, hindex, Nat.add_assoc, Nat.add_comm 1]
    exact ⟨rfl, rfl⟩
  | cons c rest ih =>
    intro pre labelStart w hne
    rw [writeLabelsLogged]
    rw [labelsFrom] at hne ⊢
    by_cases hc : c = dot
    · rw [if_pos hc] at hne ⊢
      have hpre : pre.length ≠ 0 := fun h => hne pre (by simp) (List.length_eq_zero_iff.mp h)
      obtain ⟨hlog, hindex⟩ := @writeLabelLogged_log name labelStart pre.length hpre w
      have hrest := ih [] (labelStart + pre.length + 1) (writeLabelLogged name labelStart pre.length w).value
        fun label h => hne label (List.mem_cons_of_mem _ h)
      rw [List.length_nil, Nat.add_zero, hindex] at hrest
      rw [if_pos hc, log_bind, value_bind, Nat.add_sub_cancel_left, hlog, hrest.1, hrest.2, List.map_cons,
        List.sum_cons]
      exact ⟨rfl, by omega⟩
    · rw [if_neg hc] at hne ⊢
      have hrest := ih (pre ++ [c]) labelStart w hne
      rw [List.length_append, List.length_singleton, ← Nat.add_assoc] at hrest
      rw [if_neg hc]
      exact hrest

theorem encodeNameLogged_log {name out : Bytes} (hvalid : ∀ label ∈ textLabels (withoutDot name), ValidLabel label)
    (hwire : wireLength (textLabels (withoutDot name)) ≤ 255)
    (hcap : wireLength (textLabels (withoutDot name)) ≤ out.length) :
    (encodeNameLogged name out).log = labelStores 0 (textLabels (withoutDot name)) ++
      [.root ((textLabels (withoutDot name)).map fun label => label.length + 1).sum] := by
  unfold encodeNameLogged
  rw [encodedLength_eq, if_pos ⟨hvalid, hwire⟩]
  dsimp only
  rw [if_neg (by omega)]
  by_cases hroot : withoutDot name = []
  · rw [if_pos (by rw [inputEnd_eq, hroot]; rfl), hroot]
    rfl
  · obtain ⟨hend, hlabels⟩ := labelsFrom_of_ne_nil hroot
    have hne : ∀ label ∈ labelsFrom [] (withoutDot name), label ≠ [] := by
      rw [hlabels]
      exact fun label hmem => List.length_pos_iff.mp (hvalid label hmem).1
    obtain ⟨hlog, hindex⟩ := writeLabelsLogged_log name (withoutDot name) [] 0 ⟨out, 0⟩ hne
    rw [List.length_nil, Nat.add_zero, hlabels] at hlog hindex
    rw [Nat.zero_add] at hindex
    rw [if_neg hend, take_inputEnd, log_bind, hlog, ← hindex]
    rfl

/-- The two passes agree. The stores of an accepted name cover the counted positions, each of them once and in order,
and nothing else; a name that is not accepted stores nothing. -/
theorem encodeName_passes_agree (name out : Bytes) :
    (encodeNameLogged name out).value = encodeName name out ∧
    (∀ encodedLen, encodedLength name = .ok encodedLen → encodedLen ≤ out.length →
      (encodeNameLogged name out).log.flatMap Store.positions = List.range encodedLen ∧
      (∀ store ∈ (encodeNameLogged name out).log, store.LengthOk) ∧
      (encodeName name out).status = .ok ∧ (encodeName name out).written = encodedLen ∧ encodedLen ≤ 255 ∧
      (encodeName name out).out.length = out.length ∧
      (encodeName name out).out.drop encodedLen = out.drop encodedLen) ∧
    ((∀ encodedLen, encodedLength name = .ok encodedLen → out.length < encodedLen) →
      (encodeNameLogged name out).log = [] ∧ (encodeName name out).status ≠ .ok ∧
      (encodeName name out).written = 0 ∧ (encodeName name out).out = out) := by
  refine ⟨encodeNameLogged_value name out, fun encodedLen hsize hcap => ?_, fun hno => ?_⟩
  · rw [encodedLength_eq] at hsize
    by_cases hvalid : (∀ label ∈ textLabels (withoutDot name), ValidLabel label) ∧
        wireLength (textLabels (withoutDot name)) ≤ 255
    · rw [if_pos hvalid] at hsize
      obtain rfl := Except.ok.inj hsize
      have hlog := encodeNameLogged_log hvalid.1 hvalid.2 hcap
      have hlabels : ∀ label ∈ textLabels (withoutDot name), 1 ≤ label.length ∧ label.length ≤ 63 :=
        fun label hmem => ⟨(hvalid.1 label hmem).1, (hvalid.1 label hmem).2.1⟩
      have hwire := length_wireName (textLabels (withoutDot name))
      rw [hlog, encodeName_ok hvalid.1 hvalid.2 hcap]
      refine ⟨?_, ?_, rfl, rfl, hvalid.2, length_overwrite _ _ _, ?_⟩
      · rw [List.flatMap_append, labelStores_positions, List.range_eq_range', wireLength, ← List.range'_append_1,
          Nat.zero_add]
        rfl
      · intro store hmem
        rcases List.mem_append.mp hmem with hmem | hmem
        · exact labelStores_lengthOk hlabels 0 store hmem
        · rw [List.mem_singleton.mp hmem]
          trivial
      · dsimp only
        rw [overwrite_zero_append _ _ (by omega), hwire, List.drop_left' hwire]
    · rw [if_neg hvalid] at hsize
      cases hsize
  · unfold encodeNameLogged encodeName
    cases hsize : encodedLength name with
    | error status =>
      rw [encodedLength_eq] at hsize
      split at hsize
      · cases hsize
      · obtain rfl := Except.error.inj hsize
        exact ⟨rfl, fun h => Status.noConfusion h, rfl, rfl⟩
    | ok encodedLen =>
      have hlt := hno encodedLen hsize
      dsimp only
      rw [if_pos hlt, if_pos hlt]
      exact ⟨rfl, fun h => Status.noConfusion h, rfl, rfl⟩

theorem encodeName_passes_agree_dotted :
    (encodeNameLogged [97, 98, 46, 99, 46] (List.replicate 8 9)).log =
        [.length 0 2, .label 1 2, .length 3 1, .label 4 1, .root 5] ∧
      ((encodeNameLogged [97, 98, 46, 99, 46] (List.replicate 8 9)).log.flatMap Store.positions = List.range 6 ∧
        (encodeName [97, 98, 46, 99, 46] (List.replicate 8 9)).status = .ok ∧
        (encodeName [97, 98, 46, 99, 46] (List.replicate 8 9)).written = 6 ∧
        (encodeName [97, 98, 46, 99, 46] (List.replicate 8 9)).out.drop 6 = [9, 9]) ∧
      (encodeNameLogged [97, 98, 46, 99, 46] (List.replicate 5 9)).log = [] ∧
      (encodeName [97, 98, 46, 99, 46] (List.replicate 5 9)).out = List.replicate 5 9 := by
  have hsize : encodedLength [97, 98, 46, 99, 46] = .ok 6 := by decide +kernel
  obtain ⟨-, hstores, -⟩ := encodeName_passes_agree [97, 98, 46, 99, 46] (List.replicate 8 9)
  obtain ⟨-, -, hrefuses⟩ := encodeName_passes_agree [97, 98, 46, 99, 46] (List.replicate 5 9)
  obtain ⟨hcovers, -, hok, hwritten, -, -, hrest⟩ := hstores 6 hsize (by decide)
  obtain ⟨hnone, -, -, hout⟩ := hrefuses fun encodedLen hencoded => by
    obtain rfl := Except.ok.inj (hsize.symm.trans hencoded)
    decide
  exact ⟨by decide +kernel, ⟨hcovers, hok, hwritten, hrest⟩, hnone, hout⟩

end TcpipCourse.L09
