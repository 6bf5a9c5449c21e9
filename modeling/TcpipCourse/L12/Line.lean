import TcpipCourse.Lib.Delimited
import TcpipCourse.L12.Format

/-!
# Lesson 12: the line says everything

* `layersText` : the names of the layers as the line has them; `layersText_inj` : they determine the layers;
* `summaryText_inj` : the line determines the report;
* `formatReport_ok` : what a call that succeeds has stored;
* `formatReport_injective` : the main result.
-/

namespace TcpipCourse.L12
open Lib

/-! ## The layers -/

/-- The names, with a mark in front of each but the first. -/
def layersText : List Layer → Bytes
  | [] => []
  | layer :: rest => joined (L10.ascii (layerName layer).toList)
      (rest.map fun layer => (L10.ascii ['>'], L10.ascii (layerName layer).toList))

theorem appendText_eq {buffer text : Bytes} {cap : Nat} {s : String} (h : appendText buffer cap s = some text) :
    text = buffer ++ L10.ascii s.toList := by
  unfold appendText at h
  split at h
  · cases h
  · exact (Option.some.inj h).symm

theorem appendLayers_marked {layers : List Layer} : ∀ {index : Nat} {buffer text : Bytes}, index ≠ 0 →
    appendLayers index layers buffer = some text →
    text = joined buffer (layers.map fun layer => (L10.ascii ['>'], L10.ascii (layerName layer).toList)) := by
  induction layers with
  | nil =>
    intro index buffer text _ h
    rw [List.map_nil, joined, List.flatMap_nil, List.append_nil]
    exact (Option.some.inj h).symm
  | cons layer rest ih =>
    intro index buffer text hindex h
    rw [appendLayers, if_pos hindex] at h
    obtain ⟨marked, hmarked, h⟩ := Option.bind_eq_some_iff.mp h
    obtain ⟨named, hnamed, h⟩ := Option.bind_eq_some_iff.mp h
    rw [ih (Nat.succ_ne_zero index) h, appendText_eq hnamed, appendText_eq hmarked, List.map_cons, joined_cons, joined,
      joined, List.append_assoc, List.append_assoc]
    rfl

theorem appendLayers_eq {layers : List Layer} {text : Bytes} (h : appendLayers 0 layers [] = some text) :
    text = layersText layers := by
  cases layers with
  | nil => exact (Option.some.inj h).symm
  | cons layer rest =>
    rw [appendLayers, if_neg (by decide), Option.bind_some] at h
    obtain ⟨named, hnamed, h⟩ := Option.bind_eq_some_iff.mp h
    rw [appendLayers_marked (by decide) h, appendText_eq hnamed]
    rfl

theorem layerName_inj {layer layer' : Layer}
    (h : L10.ascii (layerName layer).toList = L10.ascii (layerName layer').toList) : layer = layer' := by
  cases layer <;> cases layer' <;> first | rfl | exact absurd h (by decide)

theorem layerName_unmarked (layer : Layer) : ∀ b ∈ L10.ascii (layerName layer).toList, ¬ b = 62 := by
  cases layer <;> decide +kernel

theorem count_mark (layer : Layer) (rest : List Layer) : (layersText (layer :: rest)).count 62 = rest.length := by
  have hname : ∀ layer : Layer, (L10.ascii (layerName layer).toList).count 62 = 0 :=
    fun layer => List.count_eq_zero.mpr fun hmem => layerName_unmarked layer 62 hmem rfl
  unfold layersText joined
  rw [List.count_append, hname, Nat.zero_add]
  induction rest with
  | nil => rfl
  | cons next rest ih =>
    rw [List.map_cons, List.flatMap_cons, List.count_append, List.count_append, hname, ih, List.length_cons]
    show 1 + 0 + rest.length = _
    omega

theorem layersText_inj {layers layers' : List Layer} (h : layersText layers = layersText layers') :
    layers = layers' := by
  have hsome : ∀ layer rest, layersText (layer :: rest) ≠ [] := by
    intro layer rest hnil
    have hname := (List.append_eq_nil_iff.mp hnil).1
    cases layer <;> exact absurd hname (by decide)
  cases layers with
  | nil =>
    cases layers' with
    | nil => rfl
    | cons layer' rest' => exact absurd h.symm (hsome layer' rest')
  | cons layer rest =>
    cases layers' with
    | nil => exact absurd h (hsome layer rest)
    | cons layer' rest' =>
      have hlen : rest.length = rest'.length := by rw [← count_mark layer, ← count_mark layer', h]
      have hvalues : ∀ (rest : List Layer) f,
          f ∈ rest.map (fun layer => (L10.ascii ['>'], L10.ascii (layerName layer).toList)) → ∀ b ∈ f.2, ¬ b = 62 := by
        intro rest f hf
        obtain ⟨layer, -, rfl⟩ := List.mem_map.mp hf
        exact layerName_unmarked layer
      have hmarks : ∀ rest : List Layer,
          (rest.map fun layer => (L10.ascii ['>'], L10.ascii (layerName layer).toList)).map Prod.fst =
            List.replicate rest.length (L10.ascii ['>']) := by
        intro rest
        rw [List.map_map]
        exact List.map_const' ..
      obtain ⟨hfirst, hrest⟩ := @joined_inj _ (fun b => b = (62 : UInt8)) _ _ _ _ (by rw [hmarks, hmarks, hlen])
        (fun name hname => by
          rw [hmarks] at hname
          rw [List.eq_of_mem_replicate hname]
          exact ⟨62, rfl, rfl⟩)
        (layerName_unmarked layer) (layerName_unmarked layer') (hvalues rest) (hvalues rest') h
      have hinj : Function.Injective fun layer : Layer => (L10.ascii ['>'], L10.ascii (layerName layer).toList) :=
        fun a b hab => layerName_inj (Prod.mk.inj hab).2
      rw [layerName_inj hfirst, hinj.list_map hrest]

/-! ## The numbers -/

/-- Neither a digit nor a letter is a character that a name starts with. -/
theorem digit_not_lt : ∀ d < 16, ¬ UInt8.ofNat (Nat.digitChar d).toNat < 48 := by decide

theorem layersText_not_lt (layers : List Layer) : ∀ b ∈ layersText layers, ¬ b < 48 := by
  have hname : ∀ layer : Layer, ∀ b ∈ L10.ascii (layerName layer).toList, ¬ b < 48 := by
    intro layer
    cases layer <;> decide +kernel
  cases layers with
  | nil => exact fun b hb => absurd hb List.not_mem_nil
  | cons layer rest =>
    intro b hb
    rcases List.mem_append.mp hb with hfirst | hrest
    · exact hname layer b hfirst
    · obtain ⟨f, hf, hbf⟩ := List.mem_flatMap.mp hrest
      obtain ⟨next, -, rfl⟩ := List.mem_map.mp hf
      rcases List.mem_append.mp hbf with hmark | hnext
      · rw [List.mem_singleton.mp hmark]
        decide
      · exact hname next b hnext

theorem toNat_octet (address : UInt32) {shift : UInt32} (h : shift.toNat < 32) :
    octet address shift = address.toNat / 2 ^ shift.toNat % 256 := by
  unfold octet
  rw [UInt32.toNat_and, UInt32.toNat_shiftRight, Nat.mod_eq_of_lt h, Nat.shiftRight_eq_div_pow]
  exact Nat.and_two_pow_sub_one_eq_mod _ 8

theorem octets_inj {a b : UInt32} (h24 : octet a 24 = octet b 24) (h16 : octet a 16 = octet b 16)
    (h8 : octet a 8 = octet b 8) (h0 : octet a 0 = octet b 0) : a = b := by
  have ha := a.toNat_lt
  have hb := b.toNat_lt
  rw [toNat_octet a (by decide), toNat_octet b (by decide)] at h24 h16 h8 h0
  apply UInt32.toNat_inj.mp
  have e24 : UInt32.toNat 24 = 24 := rfl
  have e16 : UInt32.toNat 16 = 16 := rfl
  have e8 : UInt32.toNat 8 = 8 := rfl
  have e0 : UInt32.toNat 0 = 0 := rfl
  rw [e24] at h24
  rw [e16] at h16
  rw [e8] at h8
  rw [e0] at h0
  omega

/-! ## The line -/

/-- The line behind the names of the layers. -/
def summaryFields (report : Report) : List (Bytes × Bytes) :=
  fieldsOf (fun c => UInt8.ofNat c.toNat) ((summaryPieces [] report).drop 2)

theorem summaryText_eq (layers : Bytes) (report : Report) :
    summaryText layers report = L10.ascii "layers=".toList ++ joined layers (summaryFields report) := by
  have hlen : ((summaryPieces [] report).drop 2).length = 48 := rfl
  have hjoined := render_eq_joined (fun c => UInt8.ofNat c.toNat) (.text layers) (by rw [hlen])
  exact congrArg (L10.ascii "layers=".toList ++ ·) hjoined

theorem summaryFields_names (report : Report) :
    (summaryFields report).map Prod.fst = (summaryFields Report.zero).map Prod.fst := rfl

theorem summaryFields_stop (report : Report) :
    ∀ name ∈ (summaryFields report).map Prod.fst, ∃ b, name.head? = some b ∧ b < 48 := by
  have hall : ∀ name ∈ (summaryFields Report.zero).map Prod.fst, name.head?.any (· < 48) = true := by decide
  rw [summaryFields_names]
  intro name hname
  obtain ⟨b, hb, hlt⟩ := (Option.any_eq_true _ _).mp (hall name hname)
  exact ⟨b, hb, of_decide_eq_true hlt⟩

theorem summaryFields_not_lt (report : Report) : ∀ f ∈ summaryFields report, ∀ b ∈ f.2, ¬ b < 48 := by
  have hunsigned : ∀ bits n,
      (∀ b ∈ (Piece.unsigned bits n).render (fun c => UInt8.ofNat c.toNat), ¬ b < 48) = True := by
    intro bits n
    refine eq_true fun b hb => ?_
    obtain ⟨d, hd, rfl⟩ := mem_render_number hb (.inl ⟨bits, n, rfl⟩)
    exact digit_not_lt d hd
  have hhex : ∀ width n, (∀ b ∈ (Piece.hex width n).render (fun c => UInt8.ofNat c.toNat), ¬ b < 48) = True := by
    intro width n
    refine eq_true fun b hb => ?_
    obtain ⟨d, hd, rfl⟩ := mem_render_number hb (.inr ⟨width, n, rfl⟩)
    exact digit_not_lt d hd
  unfold summaryFields summaryPieces
  simp only [List.drop_succ_cons, List.drop_zero, fieldsOf, List.forall_mem_cons, hunsigned, hhex, List.not_mem_nil,
    false_imp_iff, implies_true, and_self]

theorem summaryText_inj {report report' : Report}
    (h : summaryText (layersText report.layers) report = summaryText (layersText report'.layers) report') :
    report = report' := by
  rw [summaryText_eq, summaryText_eq] at h
  obtain ⟨hlayers, hfields⟩ := @joined_inj _ (fun b => b < (48 : UInt8)) _ _ _ _
    ((summaryFields_names report).trans (summaryFields_names report').symm) (summaryFields_stop report)
    (layersText_not_lt _) (layersText_not_lt _) (summaryFields_not_lt report) (summaryFields_not_lt report')
    (List.append_cancel_left h)
  have hunsigned : ∀ bits n m, ((Piece.unsigned bits n).render (fun c => UInt8.ofNat c.toNat) =
      (Piece.unsigned bits m).render (fun c => UInt8.ofNat c.toNat)) = (n = m) :=
    fun bits n m => propext ⟨unsigned_inj hexDigitValue_digit, fun hnm => by rw [hnm]⟩
  have hhex : ∀ width n m, ((Piece.hex width n).render (fun c => UInt8.ofNat c.toNat) =
      (Piece.hex width m).render (fun c => UInt8.ofNat c.toNat)) = (n = m) :=
    fun width n m => propext ⟨hex_inj hexDigitValue_digit, fun hnm => by rw [hnm]⟩
  unfold summaryFields summaryPieces at hfields
  simp only [List.drop_succ_cons, List.drop_zero, fieldsOf, List.cons.injEq, Prod.mk.injEq, hunsigned, hhex, true_and,
    and_true, UInt32.toNat_inj, UInt16.toNat_inj, UInt8.toNat_inj] at hfields
  obtain ⟨hdiagnostics, hframe, hparsed, hpayload, hetherType, harp, hprotocol, hs24, hs16, hs8, hs0, hd24, hd16, hd8,
    hd0, hsourcePort, hdestinationPort, hicmp, hdnsId, hdnsQuestions, htcp, hhttp, hvalid, hchecked⟩ := hfields
  have hsource := octets_inj hs24 hs16 hs8 hs0
  have hdestination := octets_inj hd24 hd16 hd8 hd0
  cases report
  cases report'
  dsimp only at *
  rw [layersText_inj hlayers, hdiagnostics, hframe, hparsed, hpayload, hetherType, harp, hprotocol, hsource,
    hdestination, hsourcePort, hdestinationPort, hicmp, hdnsId, hdnsQuestions, htcp, hhttp, hvalid, hchecked]

/-! ## The call -/

/-- The text that a call has stored, without the NUL. -/
def FormatResult.line (result : FormatResult) : Option Bytes := result.out.map (·.take result.written)

theorem formatReport_ok {report : Report} {dst : Bytes} {cap : Nat} (hcap : cap ≤ dst.length)
    (h : (formatReport report (some dst) cap).status = .ok) :
    (formatReport report (some dst) cap).line = some (summaryText (layersText report.layers) report) := by
  have hcall := h
  unfold formatReport at hcall
  split at hcall
  · cases hcall
  · next hvalid =>
    rw [not_or, Nat.not_lt] at hvalid
    split at hcall
    · cases hcall
    · next layers hlayers =>
      dsimp only at hcall
      split at hcall
      · cases hcall
      · next hshort =>
        have hshort : (summaryText layers report).length < 512 := Nat.lt_of_not_le hshort
        have hresult := @formatReport_of report layers hvalid.2 hlayers hshort (some dst) cap
          (fun hnone => nomatch hnone) (fun d hd => Option.mem_some.mp hd ▸ hcap)
        rw [hresult] at h ⊢
        have hfits : (summaryText layers report).length < cap := by
          by_contra hlarge
          rw [if_neg hlarge] at h
          cases h
        have hstored : stored (summaryText layers report) dst cap =
            summaryText layers report ++ 0 :: dst.drop ((summaryText layers report).length + 1) := by
          have hpos : cap ≠ 0 := by omega
          unfold stored
          rw [if_neg hpos, Nat.min_eq_left (by omega), List.take_length]
        show some ((stored (summaryText layers report) dst cap).take (summaryText layers report).length) = _
        rw [hstored, List.take_left, appendLayers_eq hlayers]

/-- **Main result.** Two calls that succeed and store the same line were given the same report: the layers, every number
and every flag can be read off the line. -/
theorem formatReport_injective {report report' : Report} {dst dst' : Bytes} {cap cap' : Nat} (hcap : cap ≤ dst.length)
    (hcap' : cap' ≤ dst'.length) (hok : (formatReport report (some dst) cap).status = .ok)
    (hok' : (formatReport report' (some dst') cap').status = .ok)
    (h : (formatReport report (some dst) cap).line = (formatReport report' (some dst') cap').line) :
    report = report' := by
  rw [formatReport_ok hcap hok, formatReport_ok hcap' hok'] at h
  exact summaryText_inj (Option.some.inj h)

/-- Two ports, in buffers of two sizes. -/
theorem formatReport_injective_ports :
    let report := { Report.zero with sourcePort := 180, destinationPort := 1 }
    let report' := { Report.zero with sourcePort := 18, destinationPort := 1 }
    (formatReport report (some (List.replicate 300 0)) 300).line ≠
      (formatReport report' (some (List.replicate 301 0)) 301).line := by
  intro report report' h
  have hsame := formatReport_injective List.length_replicate.ge List.length_replicate.ge (by decide +kernel)
    (by decide +kernel) h
  exact absurd hsame (by decide)

end TcpipCourse.L12
