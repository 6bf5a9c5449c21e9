import Mathlib.Data.List.Forall2
import TcpipCourse.L10.Build

/-!
# Lesson 01: dotted addresses

* `parsePart`, `parseParts`, `parseIpv4` : the parser, from the text that is left at `position` on;
* `Part` : one to three digits with a value of at most 255; `Dotted` : four of them, between single dots;
* `parsePart_sound`, `parsePart_complete` : one part, and `parseParts_sound`, `parseParts_complete` : all of them;
* `parseIpv4_exact` : the main result.
-/

namespace TcpipCourse.L01
open Lib
open L10 (isDigit digitValue decimal decimal_cons Denotes decimalText decimalText_denotes)

def dot : UInt8 := 46

/-! ## The parser -/

/-- The digits of one part, and what is left behind them. -/
def parsePart : (rest : Bytes) → (value digits : Nat) → Except Status (Nat × Bytes)
  | [], value, digits => if digits = 0 then .error .malformed else .ok (value, [])
  | c :: rest, value, digits =>
    if isDigit c then
      if digits = 3 then .error .malformed
      else
        let value := value * 10 + digitValue c
        if value > 255 then .error .malformed else parsePart rest value (digits + 1)
    else if digits = 0 then .error .malformed
    else .ok (value, c :: rest)

/-- The last `left` parts; `parsed` holds the parts before them. -/
def parseParts : (left : Nat) → (rest parsed : Bytes) → Except Status (Bytes × Bytes)
  | 0, rest, parsed => .ok (parsed, rest)
  | left + 1, rest, parsed =>
    match parsePart rest 0 0 with
    | .error status => .error status
    | .ok (value, rest) =>
      let parsed := parsed ++ [UInt8.ofNat value]
      if left > 0 then
        match rest with
        | [] => .error .malformed
        | c :: rest => if c ≠ dot then .error .malformed else parseParts left rest parsed
      else .ok (parsed, rest)

structure ParseIpv4Result where
  status : Status
  outAddress : Bytes
  deriving DecidableEq, Repr

/-- `out_address_capacity` is the length of the buffer. -/
def parseIpv4 (text outAddress : Bytes) : ParseIpv4Result :=
  let cleared := overwrite outAddress 0 (List.replicate (min outAddress.length 4) 0)
  if outAddress.length < 4 then ⟨.capacity, cleared⟩
  else if text.length = 0 then ⟨.malformed, cleared⟩
  else
    match parseParts 4 text [] with
    | .error status => ⟨status, cleared⟩
    | .ok (parsed, rest) => if rest ≠ [] then ⟨.malformed, cleared⟩ else ⟨.ok, overwrite cleared 0 parsed⟩

/-! ## The grammar -/

/-- One to three digits with this value. -/
structure Part (text : Bytes) (value : UInt8) : Prop where
  length : text.length ≤ 3
  denotes : Denotes text value.toNat

def joined (parts : List Bytes) : Bytes := [dot].intercalate parts

theorem joined_cons_cons (part next : Bytes) (parts : List Bytes) :
    joined (part :: next :: parts) = part ++ dot :: joined (next :: parts) := by
  simp [joined, List.intercalate]

theorem joined_singleton (part : Bytes) : joined [part] = part := by
  simp [joined, List.intercalate]

/-- The text consists of four parts with the values of the address, and of nothing else. -/
def Dotted (text : Bytes) (address : Ipv4Address) : Prop :=
  ∃ parts, List.Forall₂ Part parts address.toList ∧ text = joined parts

def Stops (rest : Bytes) : Prop := ∀ c ∈ rest.head?, isDigit c = false

/-! ## One part -/

theorem parsePart_error {rest : Bytes} : ∀ {value digits : Nat} {status : Status},
    parsePart rest value digits = .error status → status = .malformed := by
  induction rest with
  | nil =>
    intro value digits status h
    rw [parsePart] at h
    split at h
    · exact (Except.error.inj h).symm
    · cases h
  | cons c rest ih =>
    intro value digits status h
    rw [parsePart] at h
    split at h
    · split at h
      · exact (Except.error.inj h).symm
      · dsimp only at h
        split at h
        · exact (Except.error.inj h).symm
        · exact ih h
    · split at h
      · exact (Except.error.inj h).symm
      · cases h

theorem parsePart_sound {text : Bytes} : ∀ {value digits n : Nat} {rest : Bytes},
    parsePart text value digits = .ok (n, rest) → digits ≤ 3 → value ≤ 255 →
    ∃ front, text = front ++ rest ∧ (∀ b ∈ front, isDigit b = true) ∧ 1 ≤ digits + front.length ∧
      digits + front.length ≤ 3 ∧ n = value * 10 ^ front.length + decimal front ∧ n ≤ 255 ∧ Stops rest := by
  induction text with
  | nil =>
    intro value digits n rest h hdigits hvalue
    rw [parsePart] at h
    split at h
    · cases h
    · obtain ⟨rfl, rfl⟩ := Prod.mk.inj (Except.ok.inj h)
      refine ⟨[], rfl, by simp, ?_, hdigits, by simp [decimal], hvalue, by simp [Stops]⟩
      rw [List.length_nil]
      omega
  | cons c text ih =>
    intro value digits n rest h hdigits hvalue
    rw [parsePart] at h
    split at h
    · next hc =>
      split at h
      · cases h
      · dsimp only at h
        split at h
        · cases h
        · obtain ⟨front, rfl, hfront, -, hlen, hn, hn', hstop⟩ := ih h (by omega) (by omega)
          refine ⟨c :: front, rfl, List.forall_mem_cons.mpr ⟨hc, hfront⟩, ?_, ?_, ?_, hn', hstop⟩
          · rw [List.length_cons]
            omega
          · rw [List.length_cons]
            omega
          · rw [hn, decimal_cons, List.length_cons]
            ring
    · next hc =>
      split at h
      · cases h
      · obtain ⟨rfl, rfl⟩ := Prod.mk.inj (Except.ok.inj h)
        refine ⟨[], rfl, by simp, ?_, hdigits, by simp [decimal], hvalue, ?_⟩
        · rw [List.length_nil]
          omega
        · intro b hb
          rw [List.head?_cons, Option.mem_some] at hb
          rw [← hb]
          simpa using hc

/-- Digits in front of anything that is no digit are read, as long as there are few and their value is small. -/
theorem parsePart_complete {front rest : Bytes} (hstop : Stops rest) : ∀ {value digits : Nat},
    (∀ b ∈ front, isDigit b = true) → 1 ≤ digits + front.length → digits + front.length ≤ 3 →
    value * 10 ^ front.length + decimal front ≤ 255 →
    parsePart (front ++ rest) value digits = .ok (value * 10 ^ front.length + decimal front, rest) := by
  induction front with
  | nil =>
    intro value digits _ hpos _ _
    rw [List.length_nil] at hpos
    have hvalue : value * 10 ^ ([] : Bytes).length + decimal [] = value := by simp [decimal]
    rw [hvalue, List.nil_append]
    cases rest with
    | nil => rw [parsePart, if_neg (by omega)]
    | cons c rest =>
      have hc : isDigit c = false := hstop c rfl
      rw [parsePart, hc, if_neg (by decide), if_neg (by omega)]
  | cons c front ih =>
    intro value digits hdigits _ hlen hle
    obtain ⟨hc, hfront⟩ := List.forall_mem_cons.mp hdigits
    have hsum : value * 10 ^ (c :: front).length + decimal (c :: front) =
        (value * 10 + digitValue c) * 10 ^ front.length + decimal front := by
      rw [decimal_cons, List.length_cons]
      ring
    rw [hsum] at hle ⊢
    rw [List.length_cons] at hlen
    have hstep : value * 10 + digitValue c ≤ 255 := by
      have := Nat.le_mul_of_pos_right (value * 10 + digitValue c) (Nat.pow_pos (n := front.length) (by omega : 0 < 10))
      omega
    rw [List.cons_append, parsePart, hc, if_pos rfl, if_neg (by omega)]
    dsimp only
    rw [if_neg (by omega)]
    exact ih hfront (by omega) (by omega) hle

theorem parsePart_part {text rest : Bytes} {n : Nat} (h : parsePart text 0 0 = .ok (n, rest)) :
    ∃ front, text = front ++ rest ∧ Part front (UInt8.ofNat n) ∧ Stops rest := by
  obtain ⟨front, rfl, hfront, hpos, hlen, hn, hle, hstop⟩ := parsePart_sound h (by omega) (by omega)
  rw [Nat.zero_mul, Nat.zero_add] at hn
  rw [Nat.zero_add] at hpos hlen
  refine ⟨front, rfl, ⟨hlen, List.length_pos_iff.mp hpos, hfront, ?_⟩, hstop⟩
  rw [← hn, UInt8.toNat_ofNat_of_lt' (Nat.lt_succ_of_le hle)]

theorem Part.parses {front : Bytes} {value : UInt8} (h : Part front value) {rest : Bytes} (hstop : Stops rest) :
    parsePart (front ++ rest) 0 0 = .ok (value.toNat, rest) := by
  have hnumber := h.denotes.number
  have hlt := value.toNat_lt
  have hpos := List.length_pos_iff.mpr h.denotes.nonempty
  have hlen := h.length
  have hparse := @parsePart_complete front rest hstop 0 0 h.denotes.digits (by omega) (by omega)
    (by rw [Nat.zero_mul, Nat.zero_add, hnumber]; omega)
  rwa [Nat.zero_mul, Nat.zero_add, hnumber] at hparse

/-! ## All parts -/

theorem parseParts_error {left : Nat} : ∀ {rest parsed : Bytes} {status : Status},
    parseParts left rest parsed = .error status → status = .malformed := by
  induction left with
  | zero => exact fun h => nomatch h
  | succ left ih =>
    intro rest parsed status h
    rw [parseParts] at h
    cases hpart : parsePart rest 0 0 with
    | error status' =>
      rw [hpart] at h
      obtain rfl := Except.error.inj h
      exact parsePart_error hpart
    | ok result =>
      rw [hpart] at h
      dsimp only at h
      split at h
      · split at h
        · exact (Except.error.inj h).symm
        · split at h
          · exact (Except.error.inj h).symm
          · exact ih h
      · cases h

theorem parseParts_sound {left : Nat} : ∀ {text parsed result rest : Bytes},
    parseParts (left + 1) text parsed = .ok (result, rest) →
    ∃ parts values, values.length = left + 1 ∧ List.Forall₂ Part parts values ∧ result = parsed ++ values ∧
      text = joined parts ++ rest := by
  induction left with
  | zero =>
    intro text parsed result rest h
    rw [parseParts] at h
    cases hpart : parsePart text 0 0 with
    | error status =>
      rw [hpart] at h
      cases h
    | ok read =>
      rw [hpart] at h
      obtain ⟨rfl, rfl⟩ := Prod.mk.inj (Except.ok.inj h)
      obtain ⟨front, htext, hfront, -⟩ := parsePart_part hpart
      exact ⟨[front], [UInt8.ofNat read.1], rfl, .cons hfront .nil, rfl, by rw [joined_singleton]; exact htext⟩
  | succ left ih =>
    intro text parsed result rest h
    rw [parseParts] at h
    cases hpart : parsePart text 0 0 with
    | error status =>
      rw [hpart] at h
      cases h
    | ok read =>
      rw [hpart] at h
      dsimp only at h
      rw [if_pos (Nat.succ_pos left)] at h
      obtain ⟨value, after⟩ := read
      obtain ⟨front, htext, hfront, -⟩ := parsePart_part hpart
      cases after with
      | nil => cases h
      | cons c after =>
        dsimp only at h
        split at h
        · cases h
        · next hdot =>
          obtain ⟨parts, values, hlen, hparts, hresult, hafter⟩ := ih h
          rw [List.append_assoc] at hresult
          refine ⟨front :: parts, UInt8.ofNat value :: values, by rw [List.length_cons, hlen],
            .cons hfront hparts, hresult, ?_⟩
          cases hparts with
          | nil => cases hlen
          | cons hnext htail =>
            rw [joined_cons_cons, htext, hafter, not_not.mp hdot, List.append_assoc]
            rfl

theorem parseParts_complete {parts : List Bytes} {values : List UInt8} (h : List.Forall₂ Part parts values)
    {rest : Bytes} (hstop : Stops rest) : ∀ {parsed : Bytes}, parts ≠ [] →
    parseParts parts.length (joined parts ++ rest) parsed = .ok (parsed ++ values, rest) := by
  induction h with
  | nil => exact fun hne => absurd rfl hne
  | @cons part value parts values hpart hparts ih =>
    intro parsed _
    have hvalue : UInt8.ofNat value.toNat = value := UInt8.ofNat_toNat
    rw [List.length_cons, parseParts]
    cases hparts with
    | nil =>
      rw [joined_singleton, hpart.parses hstop]
      dsimp only
      rw [hvalue]
      rfl
    | cons hnext htail =>
      have hdot : ∀ more : Bytes, Stops (dot :: more) := by
        intro more c hc
        rw [List.head?_cons, Option.mem_some] at hc
        rw [← hc]
        decide
      rw [joined_cons_cons, List.append_assoc, List.cons_append, hpart.parses (hdot _)]
      dsimp only
      rw [List.length_cons, if_pos (Nat.succ_pos _)]
      rw [if_neg (not_not.mpr rfl), hvalue]
      have htail' := @ih (parsed ++ [value]) (List.cons_ne_nil _ _)
      rwa [List.length_cons, List.append_assoc] at htail'

/-! ## The whole text -/

/-- `192.0.2.1` -/
def canonicalText (address : Ipv4Address) : Bytes := joined (address.toList.map fun value => decimalText value.toNat)

theorem part_decimalText (value : UInt8) : Part (decimalText value.toNat) value where
  length := by
    have hlt := value.toNat_lt
    rw [decimalText, L10.ascii, List.length_map]
    exact (Nat.length_toDigits_le_iff (by decide) (by decide)).mpr (by omega)
  denotes := decimalText_denotes _

theorem dotted_canonicalText (address : Ipv4Address) : Dotted (canonicalText address) address := by
  refine ⟨_, ?_, rfl⟩
  rw [List.forall₂_map_left_iff]
  exact List.forall₂_same.mpr fun value _ => part_decimalText value

theorem parseParts_iff {text : Bytes} {address : Ipv4Address} :
    parseParts 4 text [] = .ok (address.toList, []) ↔ Dotted text address := by
  constructor
  · intro h
    obtain ⟨parts, values, -, hparts, hresult, htext⟩ := parseParts_sound h
    rw [List.nil_append] at hresult
    rw [List.append_nil] at htext
    exact ⟨parts, hresult ▸ hparts, htext⟩
  · rintro ⟨parts, hparts, rfl⟩
    have hlen : parts.length = 4 := by rw [hparts.length_eq, Vector.length_toList]
    have h := @parseParts_complete parts _ hparts [] (by simp [Stops]) [] (by rintro rfl; cases hlen)
    rwa [List.append_nil, hlen] at h

theorem cleared_eq {outAddress : Bytes} (hcap : 4 ≤ outAddress.length) :
    overwrite outAddress 0 (List.replicate (min outAddress.length 4) 0) = [0, 0, 0, 0] ++ outAddress.drop 4 := by
  rw [Nat.min_eq_right hcap]
  exact overwrite_zero_append outAddress _ (by rwa [List.length_replicate])

theorem parseIpv4_of_dotted {text outAddress : Bytes} {address : Ipv4Address} (hcap : 4 ≤ outAddress.length)
    (h : Dotted text address) : parseIpv4 text outAddress = ⟨.ok, address.toList ++ outAddress.drop 4⟩ := by
  have hparse := parseParts_iff.mpr h
  have hne : text.length ≠ 0 := by
    intro hnil
    rw [List.length_eq_zero_iff.mp hnil] at hparse
    cases hparse
  have hlen : address.toList.length = 4 := Vector.length_toList
  unfold parseIpv4
  dsimp only
  rw [if_neg (by omega), if_neg hne, hparse]
  dsimp only
  rw [if_neg (not_not.mpr rfl), cleared_eq hcap,
    overwrite_zero_append _ _ (by rw [hlen, List.length_append]; exact Nat.le_add_right _ _), hlen]
  rfl

theorem parseIpv4_of_not {text outAddress : Bytes} (hcap : 4 ≤ outAddress.length)
    (h : ¬∃ address, Dotted text address) :
    parseIpv4 text outAddress = ⟨.malformed, [0, 0, 0, 0] ++ outAddress.drop 4⟩ := by
  unfold parseIpv4
  dsimp only
  rw [if_neg (by omega), cleared_eq hcap]
  by_cases hnil : text.length = 0
  · rw [if_pos hnil]
  rw [if_neg hnil]
  cases hparse : parseParts 4 text [] with
  | error status =>
    obtain rfl := parseParts_error hparse
    rfl
  | ok result =>
    obtain ⟨parsed, rest⟩ := result
    dsimp only
    by_cases hrest : rest = []
    · subst hrest
      obtain ⟨parts, values, hlen, hparts, hresult, htext⟩ := parseParts_sound hparse
      rw [List.append_nil] at htext
      exact absurd ⟨⟨values.toArray, hlen⟩, parts, hparts, htext⟩ h
    · rw [if_pos hrest]

/-- The parser accepts exactly the dotted texts, the canonical text of every address among them. -/
theorem parseIpv4_exact (text : Bytes) {outAddress : Bytes} (hcap : 4 ≤ outAddress.length) :
    ((parseIpv4 text outAddress).status = .ok ↔ ∃ address, Dotted text address) ∧
    (∀ address, Dotted text address →
      parseIpv4 text outAddress = ⟨.ok, address.toList ++ outAddress.drop 4⟩) ∧
    ((¬∃ address, Dotted text address) →
      parseIpv4 text outAddress = ⟨.malformed, [0, 0, 0, 0] ++ outAddress.drop 4⟩) ∧
    ∀ address, parseIpv4 (canonicalText address) outAddress = ⟨.ok, address.toList ++ outAddress.drop 4⟩ := by
  refine ⟨⟨fun hok => ?_, fun ⟨address, h⟩ => ?_⟩, fun address h => parseIpv4_of_dotted hcap h,
    parseIpv4_of_not hcap, fun address => parseIpv4_of_dotted hcap (dotted_canonicalText address)⟩
  · by_contra hnone
    rw [parseIpv4_of_not hcap hnone] at hok
    cases hok
  · rw [parseIpv4_of_dotted hcap h]

theorem parseIpv4_exact_zeros :
    parseIpv4 (L10.ascii "007.0.02.1".toList) [9, 9, 9, 9, 9] = ⟨.ok, [7, 0, 2, 1, 9]⟩ ∧
    parseIpv4 (L10.ascii "1.2.3.4.5".toList) [9, 9, 9, 9, 9] = ⟨.malformed, [0, 0, 0, 0, 9]⟩ := by
  have hfive : (parseIpv4 (L10.ascii "1.2.3.4.5".toList) [9, 9, 9, 9, 9]).status ≠ .ok := by decide
  obtain ⟨-, hdotted, -⟩ := @parseIpv4_exact (L10.ascii "007.0.02.1".toList) [9, 9, 9, 9, 9] (by decide)
  obtain ⟨hiff, -, hnot, -⟩ := @parseIpv4_exact (L10.ascii "1.2.3.4.5".toList) [9, 9, 9, 9, 9] (by decide)
  refine ⟨hdotted #v[7, 0, 2, 1] ⟨[L10.ascii "007".toList, L10.ascii "0".toList, L10.ascii "02".toList,
    L10.ascii "1".toList], ?_, rfl⟩, hnot fun h => hfive (hiff.mpr h)⟩
  exact .cons ⟨by decide, by decide, List.all_eq_true.mp (by decide), rfl⟩
    (.cons ⟨by decide, by decide, List.all_eq_true.mp (by decide), rfl⟩
    (.cons ⟨by decide, by decide, List.all_eq_true.mp (by decide), rfl⟩
    (.cons ⟨by decide, by decide, List.all_eq_true.mp (by decide), rfl⟩ .nil)))

end TcpipCourse.L01
