import TcpipCourse.L09.Name
import TcpipCourse.L12.Report

/-!
# Lesson 12: walking a DNS message

* `walkDnsName` : the walk of one name, which copies no text; one turn of its loop is `walkStep`;
* `walkSection` : a run of entries that each start with a name; `walkQuestions`, `walkDnsRrs` : the two kinds;
* `parseDns` : the DNS layer.

The message is the first `dnsLen` bytes of `dns`. A structural error is a `Stop`: which of `truncated` and
`malformed` the report gets, and the position that is reported with it.
-/

namespace TcpipCourse.L12
open Lib

/-- `return tcpip_l12_truncated(report, parsed)` or `return tcpip_l12_malformed(report, parsed)` -/
inductive Stop where
  | truncated (parsed : Nat)
  | malformed (parsed : Nat)
  deriving DecidableEq, Repr

def Stop.record (report : Report) : Stop → Status × Report
  | truncated parsed => L12.truncated report parsed
  | malformed parsed => L12.malformed report parsed

/-! ## One name -/

/-- The bitmap has as many bytes as the one of lesson 09. -/
abbrev DnsVisited := L09.Visited

def dnsVisitedGet (visited : DnsVisited) (offset : Fin L09.pointerSpace) : Bool := L09.visitedGet visited offset

def dnsVisitedSet (visited : DnsVisited) (offset : Fin L09.pointerSpace) : DnsVisited :=
  L09.visitedSet visited offset

/-- The locals of the loop; `nextOffset` is the stored `*next_offset` once `jumped` is set. -/
structure WalkState where
  cursor : Nat
  expandedWireLen : Nat
  pointerHops : Nat
  visited : DnsVisited
  nextOffset : Option Nat

inductive WalkTurn where
  | fail (stop : Stop)
  | done (nextOffset : Nat)
  | again (st : WalkState)

section Name
variable (dns : Bytes) (dnsLen frameOffset : Nat)

/-- The branch of a byte whose two top bits are set. -/
def walkPointer (st : WalkState) (length : UInt8) : WalkTurn :=
  if dnsLen - st.cursor < 2 then .fail (.truncated (frameOffset + dnsLen))
  else
    let target := L09.pointerTarget length (dns.getD (st.cursor + 1) 0)
    let nextOffset := st.nextOffset.getD (st.cursor + 2)
    if target.val ≥ dnsLen then .fail (.malformed (frameOffset + st.cursor + 2))
    else if dnsVisitedGet st.visited target then .fail (.malformed (frameOffset + st.cursor + 2))
    else
      let pointerHops := st.pointerHops + 1
      if pointerHops > dnsMaxPointerHops then .fail (.malformed (frameOffset + st.cursor + 2))
      else .again { st with cursor := target.val, nextOffset := some nextOffset,
                            visited := dnsVisitedSet st.visited target, pointerHops := pointerHops }

def walkLabel (st : WalkState) (length : UInt8) : WalkTurn :=
  let cursor := st.cursor + 1
  if length.toNat > dnsLen - cursor then .fail (.truncated (frameOffset + cursor))
  else if st.expandedWireLen > dnsMaxWireName - (length.toNat + 1) then .fail (.malformed (frameOffset + cursor))
  else .again { st with cursor := cursor + length.toNat,
                        expandedWireLen := st.expandedWireLen + (length.toNat + 1) }

def walkStep (st : WalkState) : WalkTurn :=
  if st.cursor ≥ dnsLen then .fail (.truncated (frameOffset + dnsLen))
  else
    let length := dns.getD st.cursor 0
    if length &&& 0xc0 = 0xc0 then walkPointer dns dnsLen frameOffset st length
    else if length &&& 0xc0 ≠ 0 ∨ length > 63 then .fail (.malformed (frameOffset + st.cursor + 1))
    else if length = 0 then
      if st.expandedWireLen + 1 > dnsMaxWireName then .fail (.malformed (frameOffset + (st.cursor + 1)))
      else .done (st.nextOffset.getD (st.cursor + 1))
    else walkLabel dnsLen frameOffset st length

end Name

/-- What is left of the hop and of the wire limit. -/
def WalkState.budget (st : WalkState) : Nat :=
  (dnsMaxPointerHops + 1 - st.pointerHops) + (dnsMaxWireName + 1 - st.expandedWireLen)

section Turn
variable {dns : Bytes} {dnsLen frameOffset : Nat} {st st' : WalkState} {length : UInt8}

/-- The pointer branch goes on only with a target inside the message, not met before, and a hop to spare. -/
theorem walkPointer_again (h : walkPointer dns dnsLen frameOffset st length = .again st') :
    let target := L09.pointerTarget length (dns.getD (st.cursor + 1) 0)
    st.cursor + 1 < dnsLen ∧ target.val < dnsLen ∧ dnsVisitedGet st.visited target = false ∧
      st.pointerHops < dnsMaxPointerHops ∧
      st' = { st with cursor := target.val, nextOffset := some (st.nextOffset.getD (st.cursor + 2)),
                      visited := dnsVisitedSet st.visited target, pointerHops := st.pointerHops + 1 } := by
  unfold walkPointer at h
  dsimp only at h ⊢
  split at h
  · cases h
  · split at h
    · cases h
    · split at h
      · cases h
      · next hvis =>
        split at h
        · cases h
        · cases h
          exact ⟨by omega, by omega, Bool.eq_false_iff.mpr hvis, by omega, rfl⟩

/-- The label branch goes on only with a label inside the message and the wire limit respected. -/
theorem walkLabel_again (h : walkLabel dnsLen frameOffset st length = .again st') :
    length.toNat ≤ dnsLen - (st.cursor + 1) ∧ st.expandedWireLen ≤ dnsMaxWireName - (length.toNat + 1) ∧
      st' = { st with cursor := st.cursor + 1 + length.toNat,
                      expandedWireLen := st.expandedWireLen + (length.toNat + 1) } := by
  unfold walkLabel at h
  dsimp only at h
  split at h
  · cases h
  · split at h
    · cases h
    · cases h
      exact ⟨by omega, by omega, rfl⟩

theorem walkStep_again (h : walkStep dns dnsLen frameOffset st = .again st') :
    st.cursor < dnsLen ∧
      (walkPointer dns dnsLen frameOffset st (dns.getD st.cursor 0) = .again st' ∨
        dns.getD st.cursor 0 ≤ 63 ∧ walkLabel dnsLen frameOffset st (dns.getD st.cursor 0) = .again st') := by
  unfold walkStep at h
  split at h
  · cases h
  · next hin =>
    refine ⟨by omega, ?_⟩
    dsimp only at h
    split at h
    · exact .inl h
    · split at h
      · cases h
      · next hlen =>
        split at h
        · split at h <;> cases h
        · exact .inr ⟨UInt8.not_lt.mp (not_or.mp hlen).2, h⟩

theorem walkStep_budget (h : walkStep dns dnsLen frameOffset st = .again st') : st'.budget < st.budget := by
  obtain ⟨-, hp | ⟨h63, hl⟩⟩ := walkStep_again h
  · obtain ⟨-, -, -, hhops, rfl⟩ := walkPointer_again hp
    unfold WalkState.budget dnsMaxPointerHops at *
    dsimp only
    omega
  · obtain ⟨-, hwire, rfl⟩ := walkLabel_again hl
    have : (dns.getD st.cursor 0).toNat ≤ 63 := UInt8.le_iff_toNat_le.mp h63
    unfold WalkState.budget dnsMaxWireName at *
    dsimp only
    omega

end Turn

def walkLoop (dns : Bytes) (dnsLen frameOffset : Nat) (st : WalkState) : Except Stop Nat :=
  match _h : walkStep dns dnsLen frameOffset st with
  | .fail stop => .error stop
  | .done nextOffset => .ok nextOffset
  | .again st' => walkLoop dns dnsLen frameOffset st'
termination_by st.budget
decreasing_by exact walkStep_budget (by assumption)

def walkInit (offset : Nat) : WalkState :=
  { cursor := offset, expandedWireLen := 0, pointerHops := 0,
    visited := Vector.replicate L09.visitedBytes 0, nextOffset := none }

/-- The offset behind the name, `*next_offset`. -/
def walkDnsName (dns : Bytes) (dnsLen offset frameOffset : Nat) : Except Stop Nat :=
  walkLoop dns dnsLen frameOffset (walkInit offset)

/-! ## The message -/

section Message
variable (dns : Bytes) (dnsLen frameOffset : Nat)

/-- `count` entries from `cursor` on: a name, and behind it what `entry` checks. -/
def walkSection (entry : Nat → Except Stop Nat) : (count cursor : Nat) → Except Stop Nat
  | 0, cursor => .ok cursor
  | count + 1, cursor =>
    match walkDnsName dns dnsLen cursor frameOffset with
    | .error stop => .error stop
    | .ok next =>
      match entry next with
      | .error stop => .error stop
      | .ok cursor => walkSection entry count cursor

/-- The type and the class of a question. -/
def questionFields (cursor : Nat) : Except Stop Nat :=
  if dnsLen - cursor < 4 then .error (.truncated (frameOffset + cursor)) else .ok (cursor + 4)

/-- The fixed fields and the data of a resource record. -/
def rrFields (cursor : Nat) : Except Stop Nat :=
  if dnsLen - cursor < 10 then .error (.truncated (frameOffset + cursor))
  else
    let rdlength := readU16 dns (cursor + 8)
    let cursor := cursor + 10
    if rdlength.toNat > dnsLen - cursor then .error (.truncated (frameOffset + cursor))
    else .ok (cursor + rdlength.toNat)

/-- The question loop of `tcpip_l12_parse_dns`. -/
def walkQuestions (count : UInt16) (cursor : Nat) : Except Stop Nat :=
  walkSection dns dnsLen frameOffset (questionFields dnsLen frameOffset) count.toNat cursor

def walkDnsRrs (count : UInt16) (cursor : Nat) : Except Stop Nat :=
  walkSection dns dnsLen frameOffset (rrFields dns dnsLen frameOffset) count.toNat cursor

/-- The four sections of a message. -/
def walkSections : Except Stop Nat := do
  let cursor ← walkQuestions dns dnsLen frameOffset (readU16 dns 4) dnsHeader
  let cursor ← walkDnsRrs dns dnsLen frameOffset (readU16 dns 6) cursor
  let cursor ← walkDnsRrs dns dnsLen frameOffset (readU16 dns 8) cursor
  walkDnsRrs dns dnsLen frameOffset (readU16 dns 10) cursor

def parseDns (report : Report) : Status × Report :=
  let report := addLayer report .dns
  if dnsLen < dnsHeader then truncated report (frameOffset + dnsLen)
  else
    let report := report.withDnsHeader dns
    match walkSections dns dnsLen frameOffset with
    | .error stop => stop.record report
    | .ok _ => completed report (frameOffset + dnsLen)

end Message

/-! ## Positions -/

def Stop.parsed : Stop → Nat
  | truncated parsed => parsed
  | malformed parsed => parsed

/-- A walk ends inside the message, and reports a position inside it when it stops. -/
def Within (dnsLen frameOffset : Nat) : Except Stop Nat → Prop
  | .ok next => next ≤ dnsLen
  | .error stop => stop.parsed ≤ frameOffset + dnsLen

section Positions
variable {dns : Bytes} {dnsLen frameOffset : Nat}

theorem walkPointer_fail {st : WalkState} {length : UInt8} {stop : Stop}
    (h : walkPointer dns dnsLen frameOffset st length = .fail stop) : stop.parsed ≤ frameOffset + dnsLen := by
  unfold walkPointer at h
  dsimp only at h
  split at h
  · cases h
    exact Nat.le_refl _
  · split at h
    · cases h
      show frameOffset + st.cursor + 2 ≤ _
      omega
    · split at h
      · cases h
        show frameOffset + st.cursor + 2 ≤ _
        omega
      · split at h
        · cases h
          show frameOffset + st.cursor + 2 ≤ _
          omega
        · cases h

theorem walkLabel_fail {st : WalkState} {length : UInt8} {stop : Stop} (hin : st.cursor < dnsLen)
    (h : walkLabel dnsLen frameOffset st length = .fail stop) : stop.parsed ≤ frameOffset + dnsLen := by
  have hnext : frameOffset + (st.cursor + 1) ≤ frameOffset + dnsLen := by omega
  unfold walkLabel at h
  dsimp only at h
  split at h
  · cases h
    exact hnext
  · split at h
    · cases h
      exact hnext
    · cases h

theorem walkPointer_ne_done {st : WalkState} {length : UInt8} {next : Nat} :
    walkPointer dns dnsLen frameOffset st length ≠ .done next := by
  unfold walkPointer
  intro h
  dsimp only at h
  split at h
  · cases h
  · split at h
    · cases h
    · split at h
      · cases h
      · split at h <;> cases h

theorem walkLabel_ne_done {st : WalkState} {length : UInt8} {next : Nat} :
    walkLabel dnsLen frameOffset st length ≠ .done next := by
  unfold walkLabel
  intro h
  dsimp only at h
  split at h
  · cases h
  · split at h <;> cases h

theorem walkStep_fail {st : WalkState} {stop : Stop} (h : walkStep dns dnsLen frameOffset st = .fail stop) :
    stop.parsed ≤ frameOffset + dnsLen := by
  unfold walkStep at h
  dsimp only at h
  split at h
  · cases h
    exact Nat.le_refl _
  · next hin =>
    split at h
    · exact walkPointer_fail h
    · split at h
      · cases h
        show frameOffset + st.cursor + 1 ≤ _
        omega
      · split at h
        · split at h
          · cases h
            show frameOffset + (st.cursor + 1) ≤ _
            omega
          · cases h
        · exact walkLabel_fail (by omega) h

theorem walkStep_done {st : WalkState} {next : Nat} (h : walkStep dns dnsLen frameOffset st = .done next) :
    st.cursor < dnsLen ∧ dns.getD st.cursor 0 = 0 ∧ st.expandedWireLen + 1 ≤ dnsMaxWireName ∧
      next = st.nextOffset.getD (st.cursor + 1) := by
  unfold walkStep at h
  dsimp only at h
  split at h
  · cases h
  · next hin =>
    split at h
    · exact absurd h walkPointer_ne_done
    · split at h
      · cases h
      · split at h
        · next hroot =>
          split at h
          · cases h
          · cases h
            exact ⟨by omega, hroot, by omega, rfl⟩
        · exact absurd h walkLabel_ne_done

theorem walkLoop_within (st : WalkState) (hst : ∀ next, st.nextOffset = some next → next ≤ dnsLen) :
    Within dnsLen frameOffset (walkLoop dns dnsLen frameOffset st) := by
  induction st using walkLoop.induct dns dnsLen frameOffset with
  | case1 st stop hstep =>
    rw [walkLoop, hstep]
    exact walkStep_fail hstep
  | case2 st next hstep =>
    obtain ⟨hin, -, -, rfl⟩ := walkStep_done hstep
    rw [walkLoop, hstep]
    show st.nextOffset.getD (st.cursor + 1) ≤ dnsLen
    cases hnext : st.nextOffset with
    | none => exact hin
    | some next => exact hst next hnext
  | case3 st st' hstep ih =>
    rw [walkLoop, hstep]
    apply ih
    obtain ⟨hin, hp | ⟨-, hl⟩⟩ := walkStep_again hstep
    · obtain ⟨htwo, -, -, -, rfl⟩ := walkPointer_again hp
      intro next hnext
      obtain rfl := Option.some.inj hnext
      cases hold : st.nextOffset with
      | none => exact htwo
      | some next => exact hst next hold
    · obtain ⟨-, -, rfl⟩ := walkLabel_again hl
      exact hst

theorem walkDnsName_within (offset : Nat) :
    Within dnsLen frameOffset (walkDnsName dns dnsLen offset frameOffset) := by
  apply walkLoop_within
  intro next hnext
  cases hnext

theorem questionFields_within {cursor : Nat} (h : cursor ≤ dnsLen) :
    Within dnsLen frameOffset (questionFields dnsLen frameOffset cursor) := by
  unfold questionFields
  split
  · show frameOffset + cursor ≤ _
    omega
  · show cursor + 4 ≤ dnsLen
    omega

theorem rrFields_within {cursor : Nat} (h : cursor ≤ dnsLen) :
    Within dnsLen frameOffset (rrFields dns dnsLen frameOffset cursor) := by
  unfold rrFields
  dsimp only
  split
  · show frameOffset + cursor ≤ _
    omega
  · split
    · show frameOffset + (cursor + 10) ≤ _
      omega
    · show cursor + 10 + _ ≤ dnsLen
      omega

theorem walkSection_within {entry : Nat → Except Stop Nat}
    (hentry : ∀ cursor ≤ dnsLen, Within dnsLen frameOffset (entry cursor)) (count : Nat) {cursor : Nat}
    (h : cursor ≤ dnsLen) : Within dnsLen frameOffset (walkSection dns dnsLen frameOffset entry count cursor) := by
  induction count generalizing cursor with
  | zero => exact h
  | succ count ih =>
    have hname := @walkDnsName_within dns dnsLen frameOffset cursor
    rw [walkSection]
    cases hwalk : walkDnsName dns dnsLen cursor frameOffset with
    | error stop =>
      rw [hwalk] at hname
      exact hname
    | ok next =>
      rw [hwalk] at hname
      have hfields := hentry next hname
      dsimp only
      cases hnext : entry next with
      | error stop =>
        rw [hnext] at hfields
        exact hfields
      | ok cursor =>
        rw [hnext] at hfields
        exact ih hfields

/-- One section behind another. -/
theorem Within.bind {walk : Except Stop Nat} {next : Nat → Except Stop Nat} (h : Within dnsLen frameOffset walk)
    (hnext : ∀ cursor ≤ dnsLen, Within dnsLen frameOffset (next cursor)) :
    Within dnsLen frameOffset (walk >>= next) := by
  cases walk with
  | error stop => exact h
  | ok cursor => exact hnext cursor h

theorem walkSections_within (h : dnsHeader ≤ dnsLen) :
    Within dnsLen frameOffset (walkSections dns dnsLen frameOffset) := by
  have hrrs : ∀ count : UInt16, ∀ cursor ≤ dnsLen,
      Within dnsLen frameOffset (walkDnsRrs dns dnsLen frameOffset count cursor) := fun count _ hcursor =>
    walkSection_within (fun _ => rrFields_within) count.toNat hcursor
  unfold walkSections
  refine Within.bind (walkSection_within (fun _ => questionFields_within) _ h) fun _ h1 => ?_
  refine Within.bind (hrrs _ _ h1) fun _ h2 => ?_
  exact Within.bind (hrrs _ _ h2) (hrrs _)

end Positions

end TcpipCourse.L12
