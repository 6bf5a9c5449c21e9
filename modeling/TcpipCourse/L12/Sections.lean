import TcpipCourse.L09.Sections
import TcpipCourse.L12.Names
import TcpipCourse.L12.Window

/-!
# Lesson 12: what the diagnoser calls complete, lesson 09 can walk

* `walkSection_reads` : a section that the diagnoser walks is a sequence of the reference parser's items;
* `parseDns_ok` : after `tcpip_l12_parse_dns` succeeds, all questions and all answers are complete;
* `parseDns_firstA` : so `tcpip_l09_first_a` neither runs out of bytes nor rejects a name.
-/

namespace TcpipCourse.L12
open Lib L09

section Complete
variable {dns : Bytes} {frameOffset : Nat}

/-- A name that the diagnoser passes is one that lesson 09 decodes, with the same end. -/
theorem nameAt_of_walkDnsName {offset next : Nat} (h : walkDnsName dns dns.length offset frameOffset = .ok next) :
    NameAt dns offset next ∧ next ≤ dns.length := by
  have hwithin := @walkDnsName_within dns dns.length frameOffset offset
  rw [h] at hwithin
  obtain ⟨name, hname, rfl⟩ := (walkLoop_agrees (visits_init dns offset) next).mp h
  exact ⟨nameAt_of_internal hname, hwithin⟩

/-- **Run lemma.** A section that is walked is a sequence of items, one for each entry. -/
theorem walkSection_reads {α : Type} {item : Nat → α → Nat → Prop} {entry : Nat → Except Stop Nat}
    (hitem : ∀ cursor fields next, NameAt dns cursor fields → fields ≤ dns.length → entry fields = .ok next →
      ∃ a, item cursor a next) (count : Nat) :
    ∀ {cursor next : Nat}, walkSection dns dns.length frameOffset entry count cursor = .ok next →
      ∃ items, items.length = count ∧ Reads item cursor items next := by
  induction count with
  | zero =>
    intro cursor next h
    cases h
    exact ⟨[], rfl, .nil cursor⟩
  | succ count ih =>
    intro cursor next h
    rw [walkSection] at h
    cases hname : walkDnsName dns dns.length cursor frameOffset with
    | error stop =>
      rw [hname] at h
      cases h
    | ok fields =>
      obtain ⟨hat, hin⟩ := nameAt_of_walkDnsName hname
      rw [hname] at h
      dsimp only at h
      cases hentry : entry fields with
      | error stop =>
        rw [hentry] at h
        cases h
      | ok behind =>
        rw [hentry] at h
        obtain ⟨a, ha⟩ := hitem cursor fields behind hat hin hentry
        obtain ⟨items, hlen, hreads⟩ := ih h
        exact ⟨a :: items, by rw [List.length_cons, hlen], .cons ha hreads⟩

theorem questionAt_of_fields {cursor fields next : Nat} (hname : NameAt dns cursor fields) (hin : fields ≤ dns.length)
    (h : questionFields dns.length frameOffset fields = .ok next) :
    ∃ question, QuestionAt dns cursor question next := by
  unfold questionFields at h
  split at h
  · cases h
  · cases h
    exact ⟨_, fields, hname, by omega, rfl, rfl⟩

theorem recordAt_of_fields {cursor fields next : Nat} (hname : NameAt dns cursor fields) (hin : fields ≤ dns.length)
    (h : rrFields dns dns.length frameOffset fields = .ok next) : ∃ record, RecordAt dns cursor record next := by
  unfold rrFields at h
  split at h
  · cases h
  · dsimp only at h
    split at h
    · cases h
    · next hdata =>
      cases h
      refine ⟨_, fields, hname, by omega, rfl, rfl, ?_⟩
      have hsame : L12.readU16 dns (fields + 8) = L09.readU16 dns (fields + 8) := rfl
      rw [hsame] at hdata ⊢
      omega

/-- The walk of the whole message starts with the questions and the answers. -/
theorem walkSections_ok {behind : Nat} (h : walkSections dns dns.length frameOffset = .ok behind) :
    ∃ cursor next, walkQuestions dns dns.length frameOffset (L12.readU16 dns 4) dnsHeader = .ok cursor ∧
      walkDnsRrs dns dns.length frameOffset (L12.readU16 dns 6) cursor = .ok next := by
  have hbind : ∀ {walk : Except Stop Nat} {rest : Nat → Except Stop Nat}, (walk >>= rest) = .ok behind →
      ∃ cursor, walk = .ok cursor ∧ rest cursor = .ok behind := by
    intro walk rest hok
    cases walk with
    | error stop => cases hok
    | ok cursor => exact ⟨cursor, rfl, hok⟩
  unfold walkSections at h
  obtain ⟨cursor, hquestions, hrest⟩ := hbind h
  obtain ⟨next, hanswers, -⟩ := hbind hrest
  exact ⟨cursor, next, hquestions, hanswers⟩

/-- What a message that is structurally complete holds. -/
theorem parseDns_ok {report : Report} (h : (parseDns dns dns.length frameOffset report).1 = .ok) :
    dnsHeaderSize ≤ dns.length ∧ ∃ cursor records next, AnswersAt dns cursor ∧
      Reads (RecordAt dns) cursor records next ∧ records.length = (L09.readU16 dns 6).toNat := by
  unfold parseDns at h
  dsimp only at h
  split at h
  · cases h
  · next hheader =>
    refine ⟨Nat.le_of_not_lt hheader, ?_⟩
    cases hwalk : walkSections dns dns.length frameOffset with
    | error stop =>
      rw [hwalk] at h
      cases stop <;> cases h
    | ok behind =>
      obtain ⟨cursor, next, hquestions, hanswers⟩ := walkSections_ok hwalk
      obtain ⟨questions, hcount, hreads⟩ := walkSection_reads (fun _ _ _ => questionAt_of_fields) _ hquestions
      obtain ⟨records, hcount', hreads'⟩ := walkSection_reads (fun _ _ _ => recordAt_of_fields) _ hanswers
      exact ⟨cursor, records, next, ⟨questions, hcount, hreads⟩, hreads', hcount'⟩

end Complete

theorem firstA_or_none (records : List RecordFields) :
    (∀ r ∈ records, ¬ r.IsA) ∨
      ∃ before record after, records = before ++ record :: after ∧ (∀ r ∈ before, ¬ r.IsA) ∧ record.IsA := by
  induction records with
  | nil => exact .inl (by simp)
  | cons head records ih =>
    by_cases ha : head.IsA
    · exact .inr ⟨[], head, records, rfl, by simp, ha⟩
    · rcases ih with hno | ⟨before, record, after, rfl, hno, hrecord⟩
      · exact .inl (List.forall_mem_cons.mpr ⟨ha, hno⟩)
      · exact .inr ⟨head :: before, record, after, rfl, List.forall_mem_cons.mpr ⟨ha, hno⟩, hrecord⟩

/-- **The two section walks are compatible.** On a DNS payload for which `tcpip_l12_parse_dns` succeeds, wherever it
stands in a capture, `tcpip_l09_first_a` reports truncation only for the TC bit, and it reports a malformed standard
response only when the answers, all complete, hold no A record or a first one whose data length is not four. -/
theorem parseDns_firstA (d rest : Bytes) (frameOffset : Nat) (report : Report)
    (h : (parseDns (d ++ rest) d.length frameOffset report).1 = .ok) :
    ((firstAReply d).1 = .truncated → L09.readU16 d 2 &&& 0x0200 ≠ 0) ∧
      (StandardResponse d → (firstAReply d).1 = .malformed →
        ∃ cursor records next, AnswersAt d cursor ∧ Reads (RecordAt d) cursor records next ∧
          records.length = (L09.readU16 d 6).toNat ∧
          ((∀ r ∈ records, ¬ r.IsA) ∨
            ∃ before record after, records = before ++ record :: after ∧ (∀ r ∈ before, ¬ r.IsA) ∧ record.IsA ∧
              record.dataLen ≠ 4)) := by
  have hsame := congrArg Prod.fst (parseDns_congr (sameWindow_append d rest) frameOffset report.frameLength report)
  have hstatus : (parseDns (d ++ rest) d.length frameOffset report).1 = (parseDns d d.length frameOffset report).1 :=
    hsame
  rw [hstatus] at h
  obtain ⟨hheader, cursor, records, next, hanswers, hreads, hcount⟩ := parseDns_ok h
  rw [firstAReply_eq]
  -- the walk of a standard response meets only complete items
  have hwalk : StandardResponse d →
      ((∀ r ∈ records, ¬ r.IsA) ∧ firstA d = .error .malformed) ∨
        ∃ before record after, records = before ++ record :: after ∧ (∀ r ∈ before, ¬ r.IsA) ∧ record.IsA ∧
          firstA d = if record.dataLen ≠ 4 then .error .malformed
            else .ok ⟨slice d record.cursor 4, record.recordTtl⟩ := by
    intro hstandard
    rcases firstA_or_none records with hno | ⟨before, record, after, hsplit, hno, ha⟩
    · exact .inl ⟨hno, firstA_of_noAAt hstandard ⟨cursor, records, next, hanswers, hreads, hcount, hno⟩⟩
    · refine .inr ⟨before, record, after, hsplit, hno, ha, ?_⟩
      rw [hsplit, ← List.singleton_append, ← List.append_assoc, reads_append_iff] at hreads
      obtain ⟨behind, hfirst, -⟩ := hreads
      have hlt : before.length < (L09.readU16 d 6).toNat := by
        rw [← hcount, hsplit, List.length_append, List.length_cons]
        omega
      exact firstA_of_firstAAt hstandard ⟨cursor, before, behind, hanswers, hfirst, hlt, hno, ha⟩
  constructor
  · intro htruncated
    have hfirst : firstA d = .error .truncated := by
      cases hfirst : firstA d with
      | error status =>
        rw [hfirst] at htruncated
        exact congrArg Except.error htruncated
      | ok answer =>
        rw [hfirst] at htruncated
        cases htruncated
    rcases firstA_truncated hheader hfirst with htc | hstandard
    · exact htc
    · rcases hwalk hstandard with ⟨-, hmalformed⟩ | ⟨before, record, after, -, -, -, houtcome⟩
      · cases hfirst.symm.trans hmalformed
      · rw [hfirst] at houtcome
        split at houtcome <;> cases houtcome
  · intro hstandard hmalformed
    refine ⟨cursor, records, next, hanswers, hreads, hcount, ?_⟩
    rcases hwalk hstandard with ⟨hno, -⟩ | ⟨before, record, after, hsplit, hno, ha, houtcome⟩
    · exact .inl hno
    · refine .inr ⟨before, record, after, hsplit, hno, ha, fun hfour => ?_⟩
      rw [houtcome, if_neg (not_not.mpr hfour)] at hmalformed
      cases hmalformed

/-- A response about the name `a`: its answers name it through a pointer, and are an alias, whose data is such a
pointer too, and an A record of three bytes. The argument is the first byte of the flags. -/
def shortAnswer (flags : UInt8) : Bytes :=
  [0, 1, flags, 0, 0, 1, 0, 2, 0, 0, 0, 0, 1, 97, 0, 0, 1, 0, 1, 0xC0, 12, 0, 5, 0, 1, 0, 0, 0, 9, 0, 2, 0xC0, 12,
    0xC0, 12, 0, 1, 0, 1, 0, 0, 0, 9, 0, 3, 1, 2, 3]

/-- In front of another byte it is complete to lesson 12; to lesson 09 it is malformed for its A record, and with the
TC bit it is truncated. -/
theorem parseDns_firstA_short :
    ((parseDns (shortAnswer 0x80 ++ [7]) (shortAnswer 0x80).length 42 Report.zero).1 = .ok ∧
      StandardResponse (shortAnswer 0x80) ∧ (firstAReply (shortAnswer 0x80)).1 = .malformed ∧
      ∃ cursor records next, AnswersAt (shortAnswer 0x80) cursor ∧
        Reads (RecordAt (shortAnswer 0x80)) cursor records next ∧
        records.length = (L09.readU16 (shortAnswer 0x80) 6).toNat ∧
        ((∀ r ∈ records, ¬ r.IsA) ∨
          ∃ before record after, records = before ++ record :: after ∧ (∀ r ∈ before, ¬ r.IsA) ∧ record.IsA ∧
            record.dataLen ≠ 4)) ∧
    ((parseDns (shortAnswer 0x82 ++ [7]) (shortAnswer 0x82).length 42 Report.zero).1 = .ok ∧
      (firstAReply (shortAnswer 0x82)).1 = .truncated ∧ L09.readU16 (shortAnswer 0x82) 2 &&& 0x0200 ≠ 0) := by
  have hclean : (parseDns (shortAnswer 0x80 ++ [7]) (shortAnswer 0x80).length 42 Report.zero).1 = .ok := by
    decide +kernel
  have hcut : (parseDns (shortAnswer 0x82 ++ [7]) (shortAnswer 0x82).length 42 Report.zero).1 = .ok := by
    decide +kernel
  have hstandard : StandardResponse (shortAnswer 0x80) := by
    constructor <;> decide +kernel
  have hmalformed : (firstAReply (shortAnswer 0x80)).1 = .malformed := by decide +kernel
  have htruncated : (firstAReply (shortAnswer 0x82)).1 = .truncated := by decide +kernel
  exact ⟨⟨hclean, hstandard, hmalformed, (parseDns_firstA _ _ _ _ hclean).2 hstandard hmalformed⟩, hcut, htruncated,
    (parseDns_firstA _ _ _ _ hcut).1 htruncated⟩

end TcpipCourse.L12
