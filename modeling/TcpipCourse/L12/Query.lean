import TcpipCourse.L09.Exact
import TcpipCourse.L12.Compose

/-!
# One query and its readers

Lesson 09 builds a query, and four functions read it: the header and the name are decoded, lesson 12 walks its
sections, and `tcpip_l09_first_a`, which wants an answer, refuses it.

* `buildQuery_eq` : what is built, or why nothing is;
* `parseMessage_queryBytes`, `decodeName_queryBytes`, `firstA_queryBytes` : the readers of lesson 09;
* `buildQuery_round_trip` : the main result.
-/

namespace TcpipCourse.L12
open Lib

/-! ## What is built -/

section Build
open L09
variable (id : UInt16) (name : Bytes) (qtype : UInt16) (out : Bytes)

theorem buildQuery_eq : buildQuery id name qtype out =
    if qtype = 0 then ⟨.invalidArgument, out, 0⟩
    else if (encodeName name (List.replicate maxWireName 0)).status ≠ .ok then
      ⟨(encodeName name (List.replicate maxWireName 0)).status, out, 0⟩
    else if dnsHeaderSize + wireLength (textLabels (withoutDot name)) + 4 > out.length then ⟨.capacity, out, 0⟩
    else ⟨.ok, overwrite out 0 (queryBytes id (wireName (textLabels (withoutDot name))) qtype),
      dnsHeaderSize + wireLength (textLabels (withoutDot name)) + 4⟩ := by
  by_cases hqtype : qtype = 0
  · rw [if_pos hqtype, buildQuery, if_pos hqtype]
  rw [if_neg hqtype]
  by_cases hok : (encodeName name (List.replicate maxWireName 0)).status = .ok
  · rw [if_neg (not_not.mpr hok)]
    obtain ⟨hvalid, hwire, -⟩ := (encodeName_status name _).mp hok
    by_cases hcap : dnsHeaderSize + wireLength (textLabels (withoutDot name)) + 4 > out.length
    · have hencoded := @encodeName_ok name (List.replicate maxWireName 0) hvalid hwire (by rwa [List.length_replicate])
      rw [if_pos hcap, buildQuery, if_neg hqtype, hencoded]
      dsimp only
      rw [if_neg (not_not.mpr rfl), if_pos hcap]
    · rw [if_neg hcap]
      exact buildQuery_ok id hqtype hvalid hwire (by omega)
  · rw [if_pos hok, buildQuery, if_neg hqtype]
    dsimp only
    rw [if_pos hok]

theorem encodeName_written (h : (encodeName name (List.replicate maxWireName 0)).status = .ok) :
    (encodeName name (List.replicate maxWireName 0)).written = wireLength (textLabels (withoutDot name)) := by
  obtain ⟨hvalid, hwire, hcap⟩ := (encodeName_status name _).mp h
  rw [encodeName_ok hvalid hwire hcap]

end Build

/-! ## The readers of lesson 09 -/

section Readers
variable (id : UInt16) (encodedName : Bytes) (qtype : UInt16)

theorem parseMessage_queryBytes : L09.parseMessage (L09.queryBytes id encodedName qtype) =
    .ok ⟨id, 0x0100, 1, 0, 0, 0, 0⟩ := by
  have hid : L09.readU16 (L09.queryBytes id encodedName qtype) 0 = id := be16_be16Bytes id
  have hflags : L09.readU16 (L09.queryBytes id encodedName qtype) 2 = 0x0100 := be16_be16Bytes 0x0100
  have hone : L09.readU16 (L09.queryBytes id encodedName qtype) 4 = 1 := be16_be16Bytes 1
  have hzero : L09.readU16 (L09.queryBytes id encodedName qtype) 6 = be16 0 0 ∧
      L09.readU16 (L09.queryBytes id encodedName qtype) 8 = be16 0 0 ∧
      L09.readU16 (L09.queryBytes id encodedName qtype) 10 = be16 0 0 := ⟨rfl, rfl, rfl⟩
  unfold L09.parseMessage
  rw [if_neg (by rw [L09.length_queryBytes]; omega), hid, hflags, hone, hzero.1, hzero.2.1, hzero.2.2]
  rfl

/-- The response bit is clear. -/
theorem firstA_queryBytes : L09.firstA (L09.queryBytes id encodedName qtype) = .error .malformed := by
  unfold L09.firstA
  rw [parseMessage_queryBytes]
  dsimp only
  rw [if_pos (Or.inl (by decide))]

theorem decodeName_queryBytes {labels : List Bytes} (h : ∀ label ∈ labels, 1 ≤ label.length ∧ label.length ≤ 63)
    (hwire : L09.wireLength labels ≤ 255) (buf : Bytes) :
    L09.decodeName (L09.queryBytes id (L09.wireName labels) qtype) L09.dnsHeaderSize buf =
      if (L09.textName labels).length < buf.length then
        ⟨.ok, overwrite buf 0 (L09.textName labels ++ [0]), L09.dnsHeaderSize + L09.wireLength labels,
          (L09.textName labels).length⟩
      else ⟨.capacity, buf, 0, 0⟩ :=
  L09.decodeName_wireName h hwire (be16Bytes id ++ be16Bytes 0x0100 ++ be16Bytes 1 ++ List.replicate 6 0)
    (be16Bytes qtype ++ be16Bytes 1) buf

end Readers

/-! ## All of them -/

/-- A query is built exactly for the names that the encoder accepts, in a buffer with room for it; else the buffer
stays as it is. What is built is the query that each of its readers sees. -/
theorem buildQuery_round_trip (id : UInt16) (name : Bytes) (qtype : UInt16) (out : Bytes) :
    let encoded := L09.encodeName name (List.replicate L09.maxWireName 0)
    let built := L09.buildQuery id name qtype out
    let query := built.out.take built.written
    (built.status = .ok ↔ qtype ≠ 0 ∧ encoded.status = .ok ∧ 16 + encoded.written ≤ out.length) ∧
    (built.status = .ok →
      built.written = 16 + encoded.written ∧ built.out = query ++ out.drop built.written ∧
      L09.parseMessage query = .ok ⟨id, 0x0100, 1, 0, 0, 0, 0⟩ ∧
      (L09.withoutDot name).length ≤ 253 ∧
      (∀ buf, L09.decodeName query 12 buf =
        if (L09.withoutDot name).length < buf.length then
          ⟨.ok, overwrite buf 0 (L09.withoutDot name ++ [0]), built.written - 4, (L09.withoutDot name).length⟩
        else ⟨.capacity, buf, 0, 0⟩) ∧
      query.drop (built.written - 4) = be16Bytes qtype ++ be16Bytes 1 ∧
      (∀ frameOffset report, parseDns query query.length frameOffset report =
        completed ((addLayer report .dns).withDnsHeader query) (frameOffset + query.length)) ∧
      L09.firstA query = .error .malformed) ∧
    (built.status ≠ .ok → built.written = 0 ∧ built.out = out) := by
  intro encoded built query
  have hbuilt : built = _ := buildQuery_eq id name qtype out
  by_cases hqtype : qtype = 0
  · rw [if_pos hqtype] at hbuilt
    rw [hbuilt]
    exact ⟨⟨fun h => Status.noConfusion h, fun h => absurd hqtype h.1⟩, fun h => Status.noConfusion h,
      fun _ => ⟨rfl, rfl⟩⟩
  rw [if_neg hqtype] at hbuilt
  by_cases hok : (L09.encodeName name (List.replicate L09.maxWireName 0)).status = .ok
  · rw [if_neg (not_not.mpr hok)] at hbuilt
    have hwritten : encoded.written = _ := encodeName_written name hok
    by_cases hcap : L09.dnsHeaderSize + L09.wireLength (L09.textLabels (L09.withoutDot name)) + 4 > out.length
    · rw [if_pos hcap] at hbuilt
      unfold L09.dnsHeaderSize at hcap
      rw [hbuilt]
      exact ⟨⟨fun h => Status.noConfusion h, fun h => absurd h.2.2 (by omega)⟩, fun h => Status.noConfusion h,
        fun _ => ⟨rfl, rfl⟩⟩
    · rw [if_neg hcap] at hbuilt
      obtain ⟨hvalid, hwire, -⟩ := (L09.encodeName_status name _).mp hok
      have hlabels : ∀ label ∈ L09.textLabels (L09.withoutDot name), 1 ≤ label.length ∧ label.length ≤ 63 :=
        fun label hmem => ⟨(hvalid label hmem).1, (hvalid label hmem).2.1⟩
      have htext := L09.length_textName_le hwire
      have hdecode := decodeName_queryBytes id qtype hlabels hwire
      rw [L09.textName_textLabels] at htext hdecode
      have hlen := length_query id (L09.textLabels (L09.withoutDot name)) qtype
      unfold L09.dnsHeaderSize at hcap hbuilt hdecode
      have hquery : query = L09.queryBytes id (L09.wireName (L09.textLabels (L09.withoutDot name))) qtype := by
        show built.out.take built.written = _
        rw [hbuilt]
        dsimp only
        rw [← hlen]
        exact take_overwrite_zero (by omega)
      have hstatus : built.status = .ok := by rw [hbuilt]
      have hend : built.written = 12 + L09.wireLength (L09.textLabels (L09.withoutDot name)) + 4 := by rw [hbuilt]
      have hout : built.out = query ++ out.drop built.written := by
        rw [hquery, hend, hbuilt, ← hlen]
        exact overwrite_zero_append out _ (by omega)
      have htail : query.drop (built.written - 4) = be16Bytes qtype ++ be16Bytes 1 := by
        rw [hquery, hend, L09.queryBytes]
        apply List.drop_left'
        simp [L09.length_wireName]
        omega
      refine ⟨⟨fun _ => ⟨hqtype, hok, by omega⟩, fun _ => hstatus⟩,
        fun _ => ⟨by omega, hout, ?_, htext, ?_, htail, ?_, ?_⟩, fun hno => absurd hstatus hno⟩
      · rw [hquery]
        exact parseMessage_queryBytes _ _ _
      · intro buf
        rw [hquery, hdecode buf, hend, Nat.add_sub_cancel]
      · rw [hquery]
        exact parseDns_queryBytes id hlabels hwire qtype
      · rw [hquery]
        exact firstA_queryBytes _ _ _
  · rw [if_pos hok] at hbuilt
    rw [hbuilt]
    exact ⟨⟨fun h => absurd h hok, fun h => absurd h.2.1 hok⟩, fun h => absurd h hok, fun _ => ⟨rfl, rfl⟩⟩

theorem buildQuery_round_trip_dotted :
    let built := L09.buildQuery 0x1234 [97, 98, 46, 99, 46] 28 (List.replicate 30 9)
    let query := built.out.take 22
    let refused := L09.buildQuery 0x1234 [97, 98, 46, 99, 46] 28 (List.replicate 21 9)
    (built.status = .ok ∧ built.written = 22 ∧ built.out = query ++ List.replicate 8 9 ∧
        L09.parseMessage query = .ok ⟨0x1234, 0x0100, 1, 0, 0, 0, 0⟩ ∧
        L09.decodeName query 12 (List.replicate 5 9) = ⟨.ok, [97, 98, 46, 99, 0], 18, 4⟩ ∧
        query.drop 18 = [0, 28, 0, 1] ∧ L09.firstA query = .error .malformed) ∧
      refused.status ≠ .ok ∧ refused.written = 0 ∧ refused.out = List.replicate 21 9 := by
  intro built query refused
  have hok : built.status = .ok := by decide +kernel
  have hshort : refused.status ≠ .ok := by decide +kernel
  have hwritten : built.written = 22 := by decide +kernel
  obtain ⟨-, hbuilt, -⟩ := buildQuery_round_trip 0x1234 [97, 98, 46, 99, 46] 28 (List.replicate 30 9)
  obtain ⟨-, -, hrefused⟩ := buildQuery_round_trip 0x1234 [97, 98, 46, 99, 46] 28 (List.replicate 21 9)
  obtain ⟨-, hout, hheader, -, hdecode, hfields, -, hfirst⟩ := hbuilt hok
  rw [show (L09.buildQuery 0x1234 [97, 98, 46, 99, 46] 28 (List.replicate 30 9)).written = 22 from hwritten]
    at hout hheader hdecode hfields hfirst
  exact ⟨⟨hok, hwritten, hout, hheader, hdecode (List.replicate 5 9), hfields, hfirst⟩, hshort, hrefused hshort⟩

end TcpipCourse.L12
