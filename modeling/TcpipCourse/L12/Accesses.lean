import TcpipCourse.L09.Accesses
import TcpipCourse.L12.Walk

/-!
# Lesson 12: what the DNS walk does with the message

The walk of the diagnoser with a log, as in lesson 09. It subtracts the cursor from the length without looking at it
again, so that everything rests on where a name ends.

* `Ahead` : what the loop over a name keeps; `walkDnsName_bounds` : where a name ends;
* `…Logged` : the functions with their log; `…Logged_value` : what they return;
* `walkSectionLogged_safe`, `walkDnsRrsLogged_count` : a section of any length, from any cursor;
* `dns_walks_progress` : the main result, for both lessons.
-/

namespace TcpipCourse.L12
open Lib Logged
open L09 (Access minus readByte readField16 value_minus plain_minus plain_readByte plain_readField16)

/-! ## Where a name ends -/

/-- Before the first pointer the cursor is at or behind the offset; then `*next_offset` is behind it. -/
def Ahead (dnsLen offset : Nat) (st : WalkState) : Prop :=
  match st.nextOffset with
  | none => offset ≤ st.cursor
  | some next => offset < next ∧ next ≤ dnsLen

section Bounds
variable {dns : Bytes} {dnsLen frameOffset offset : Nat} {st st' : WalkState}

theorem Ahead.nextOffset (h : Ahead dnsLen offset st) {next : Nat} (hnext : st.cursor < next) (hle : next ≤ dnsLen) :
    offset < st.nextOffset.getD next ∧ st.nextOffset.getD next ≤ dnsLen := by
  unfold Ahead at h
  cases hold : st.nextOffset with
  | none =>
    rw [hold] at h
    exact ⟨lt_of_le_of_lt h hnext, hle⟩
  | some old =>
    rw [hold] at h
    exact h

theorem Ahead.again (h : Ahead dnsLen offset st) (hstep : walkStep dns dnsLen frameOffset st = .again st') :
    Ahead dnsLen offset st' := by
  obtain ⟨hin, hp | ⟨-, hl⟩⟩ := walkStep_again hstep
  · obtain ⟨htwo, -, -, -, rfl⟩ := walkPointer_again hp
    exact h.nextOffset (show st.cursor < st.cursor + 2 by omega) htwo
  · obtain ⟨-, -, rfl⟩ := walkLabel_again hl
    unfold Ahead at h ⊢
    dsimp only
    cases hold : st.nextOffset with
    | none =>
      rw [hold] at h
      dsimp only at h ⊢
      omega
    | some old =>
      rw [hold] at h
      exact h

theorem walkLoop_bounds {next : Nat} : Ahead dnsLen offset st → walkLoop dns dnsLen frameOffset st = .ok next →
    offset < next ∧ next ≤ dnsLen := by
  induction st using walkLoop.induct dns dnsLen frameOffset with
  | case1 st stop hstep =>
    intro _ h
    rw [walkLoop, hstep] at h
    cases h
  | case2 st last hstep =>
    intro hst h
    obtain ⟨hin, -, -, hlast⟩ := walkStep_done hstep
    rw [walkLoop, hstep] at h
    obtain rfl := Except.ok.inj h
    rw [hlast]
    exact hst.nextOffset (Nat.lt_succ_self _) hin
  | case3 st st' hstep ih =>
    intro hst h
    rw [walkLoop, hstep] at h
    exact ih (hst.again hstep) h

/-- The next offset lies behind the offset and inside the message, however the name jumps. -/
theorem walkDnsName_bounds {next : Nat} (h : walkDnsName dns dnsLen offset frameOffset = .ok next) :
    offset < next ∧ next ≤ dnsLen :=
  @walkLoop_bounds dns dnsLen frameOffset offset (walkInit offset) next (Nat.le_refl offset) h

end Bounds

/-! ## The functions with their log -/

section Walk
variable (dns : Bytes) (dnsLen frameOffset : Nat)

def walkPointerLogged (st : WalkState) (length : UInt8) : Logged Access WalkTurn := do
  let room ← minus dnsLen st.cursor
  if room < 2 then return .fail (.truncated (frameOffset + dnsLen))
  else
    let low ← readByte dns (st.cursor + 1)
    let target := L09.pointerTarget length low
    let nextOffset := st.nextOffset.getD (st.cursor + 2)
    if target.val ≥ dnsLen then return .fail (.malformed (frameOffset + st.cursor + 2))
    else if dnsVisitedGet st.visited target then return .fail (.malformed (frameOffset + st.cursor + 2))
    else
      let pointerHops := st.pointerHops + 1
      if pointerHops > dnsMaxPointerHops then return .fail (.malformed (frameOffset + st.cursor + 2))
      else return .again { st with cursor := target.val, nextOffset := some nextOffset,
                                   visited := dnsVisitedSet st.visited target, pointerHops := pointerHops }

def walkLabelLogged (st : WalkState) (length : UInt8) : Logged Access WalkTurn := do
  let cursor := st.cursor + 1
  let room ← minus dnsLen cursor
  if length.toNat > room then return .fail (.truncated (frameOffset + cursor))
  else if st.expandedWireLen > dnsMaxWireName - (length.toNat + 1) then return .fail (.malformed (frameOffset + cursor))
  else return .again { st with cursor := cursor + length.toNat,
                               expandedWireLen := st.expandedWireLen + (length.toNat + 1) }

def walkStepLogged (st : WalkState) : Logged Access WalkTurn := do
  if st.cursor ≥ dnsLen then return .fail (.truncated (frameOffset + dnsLen))
  else
    let length ← readByte dns st.cursor
    if length &&& 0xc0 = 0xc0 then walkPointerLogged dns dnsLen frameOffset st length
    else if length &&& 0xc0 ≠ 0 ∨ length > 63 then return .fail (.malformed (frameOffset + st.cursor + 1))
    else if length = 0 then
      if st.expandedWireLen + 1 > dnsMaxWireName then return .fail (.malformed (frameOffset + (st.cursor + 1)))
      else return .done (st.nextOffset.getD (st.cursor + 1))
    else walkLabelLogged dnsLen frameOffset st length

end Walk

section Values
variable (dns : Bytes) (dnsLen frameOffset : Nat)

theorem walkPointerLogged_value (st : WalkState) (length : UInt8) :
    (walkPointerLogged dns dnsLen frameOffset st length).value = walkPointer dns dnsLen frameOffset st length := by
  simp only [walkPointerLogged, value_bind, value_ite, value_pure]
  rfl

theorem walkLabelLogged_value (st : WalkState) (length : UInt8) :
    (walkLabelLogged dnsLen frameOffset st length).value = walkLabel dnsLen frameOffset st length := by
  simp only [walkLabelLogged, value_bind, value_ite, value_pure]
  rfl

theorem walkStepLogged_value (st : WalkState) :
    (walkStepLogged dns dnsLen frameOffset st).value = walkStep dns dnsLen frameOffset st := by
  simp only [walkStepLogged, value_bind, value_ite, value_pure, walkPointerLogged_value, walkLabelLogged_value]
  rfl

end Values

section Sections
variable (dns : Bytes) (dnsLen frameOffset : Nat)

def walkLoopLogged (st : WalkState) : Logged Access (Except Stop Nat) :=
  let turn := walkStepLogged dns dnsLen frameOffset st
  match _h : turn.value with
  | .fail stop => ⟨turn.log, .error stop⟩
  | .done nextOffset => ⟨turn.log, .ok nextOffset⟩
  | .again st' => ⟨turn.log ++ (walkLoopLogged st').log, (walkLoopLogged st').value⟩
termination_by st.budget
decreasing_by all_goals exact walkStep_budget ((walkStepLogged_value dns dnsLen frameOffset st).symm.trans _h)

def walkDnsNameLogged (offset : Nat) : Logged Access (Except Stop Nat) :=
  walkLoopLogged dns dnsLen frameOffset (walkInit offset)

/-- `mark` is the event of a completed entry. -/
def walkSectionLogged (mark : Nat → Nat → Access) (entry : Nat → Logged Access (Except Stop Nat)) :
    (count cursor : Nat) → Logged Access (Except Stop Nat)
  | 0, cursor => pure (.ok cursor)
  | count + 1, cursor => do
    match ← walkDnsNameLogged dns dnsLen frameOffset cursor with
    | .error stop => return .error stop
    | .ok next =>
      match ← entry next with
      | .error stop => return .error stop
      | .ok behind =>
        tell (mark cursor behind)
        walkSectionLogged mark entry count behind

def questionFieldsLogged (cursor : Nat) : Logged Access (Except Stop Nat) := do
  let room ← minus dnsLen cursor
  if room < 4 then return .error (.truncated (frameOffset + cursor)) else return .ok (cursor + 4)

def rrFieldsLogged (cursor : Nat) : Logged Access (Except Stop Nat) := do
  let room ← minus dnsLen cursor
  if room < 10 then return .error (.truncated (frameOffset + cursor))
  else
    let rdlength ← readField16 dns (cursor + 8)
    let cursor := cursor + 10
    let room ← minus dnsLen cursor
    if rdlength.toNat > room then return .error (.truncated (frameOffset + cursor))
    else return .ok (cursor + rdlength.toNat)

def walkQuestionsLogged (count : UInt16) (cursor : Nat) : Logged Access (Except Stop Nat) :=
  walkSectionLogged dns dnsLen frameOffset .question (questionFieldsLogged dnsLen frameOffset) count.toNat cursor

def walkDnsRrsLogged (count : UInt16) (cursor : Nat) : Logged Access (Except Stop Nat) :=
  walkSectionLogged dns dnsLen frameOffset .record (rrFieldsLogged dns dnsLen frameOffset) count.toNat cursor

def behindSection (walk : Logged Access (Except Stop Nat)) (next : Nat → Logged Access (Except Stop Nat)) :
    Logged Access (Except Stop Nat) := do
  match ← walk with
  | .error stop => return .error stop
  | .ok cursor => next cursor

def walkSectionsLogged (questionCount answerCount authorityCount additionalCount : UInt16) :
    Logged Access (Except Stop Nat) :=
  behindSection (walkQuestionsLogged dns dnsLen frameOffset questionCount dnsHeader) fun cursor =>
    behindSection (walkDnsRrsLogged dns dnsLen frameOffset answerCount cursor) fun cursor =>
      behindSection (walkDnsRrsLogged dns dnsLen frameOffset authorityCount cursor) fun cursor =>
        walkDnsRrsLogged dns dnsLen frameOffset additionalCount cursor

def parseDnsLogged (report : Report) : Logged Access (Status × Report) := do
  let report := addLayer report .dns
  if dnsLen < dnsHeader then return truncated report (frameOffset + dnsLen)
  else
    let identifier ← readField16 dns 0
    let questionCount ← readField16 dns 4
    let report := { report with dnsIdentifier := identifier, dnsQuestionCount := questionCount }
    let answerCount ← readField16 dns 6
    let authorityCount ← readField16 dns 8
    let additionalCount ← readField16 dns 10
    match ← walkSectionsLogged dns dnsLen frameOffset questionCount answerCount authorityCount additionalCount with
    | .error stop => return stop.record report
    | .ok _ => return completed report (frameOffset + dnsLen)

end Sections

/-! ## What they return -/

section Values
variable (dns : Bytes) (dnsLen frameOffset : Nat)

theorem walkDnsNameLogged_value (offset : Nat) :
    (walkDnsNameLogged dns dnsLen frameOffset offset).value = walkDnsName dns dnsLen offset frameOffset := by
  unfold walkDnsNameLogged walkDnsName
  generalize walkInit offset = st
  induction st using walkLoopLogged.induct dns dnsLen frameOffset with
  | case1 st turn stop hturn => rw [walkLoopLogged, hturn, walkLoop, ← walkStepLogged_value, hturn]
  | case2 st turn next hturn => rw [walkLoopLogged, hturn, walkLoop, ← walkStepLogged_value, hturn]
  | case3 st turn st' hturn ih =>
    rw [walkLoopLogged, hturn, walkLoop, ← walkStepLogged_value, hturn]
    exact ih

theorem walkSectionLogged_value {mark : Nat → Nat → Access} {entry : Nat → Logged Access (Except Stop Nat)}
    {entry' : Nat → Except Stop Nat} (hentry : ∀ next, (entry next).value = entry' next) (count : Nat) : ∀ cursor,
    (walkSectionLogged dns dnsLen frameOffset mark entry count cursor).value =
      walkSection dns dnsLen frameOffset entry' count cursor := by
  induction count with
  | zero => exact fun _ => rfl
  | succ count ih =>
    intro cursor
    rw [walkSectionLogged, walkSection, value_bind, walkDnsNameLogged_value]
    cases walkDnsName dns dnsLen cursor frameOffset with
    | error stop => rfl
    | ok next =>
      dsimp only
      rw [value_bind, hentry]
      cases entry' next with
      | error stop => rfl
      | ok behind => exact ih behind

theorem walkQuestionsLogged_value (count : UInt16) (cursor : Nat) :
    (walkQuestionsLogged dns dnsLen frameOffset count cursor).value =
      walkQuestions dns dnsLen frameOffset count cursor := by
  refine walkSectionLogged_value dns dnsLen frameOffset (fun next => ?_) count.toNat cursor
  simp only [questionFieldsLogged, value_bind, value_ite, value_pure]
  rfl

theorem walkDnsRrsLogged_value (count : UInt16) (cursor : Nat) :
    (walkDnsRrsLogged dns dnsLen frameOffset count cursor).value = walkDnsRrs dns dnsLen frameOffset count cursor := by
  refine walkSectionLogged_value dns dnsLen frameOffset (fun next => ?_) count.toNat cursor
  simp only [rrFieldsLogged, value_bind, value_ite, value_pure]
  rfl

theorem behindSection_value (walk : Logged Access (Except Stop Nat))
    (next : Nat → Logged Access (Except Stop Nat)) :
    (behindSection walk next).value = walk.value >>= fun cursor => (next cursor).value := by
  rw [behindSection, value_bind]
  cases walk.value <;> rfl

theorem walkSectionsLogged_value :
    (walkSectionsLogged dns dnsLen frameOffset (readU16 dns 4) (readU16 dns 6) (readU16 dns 8) (readU16 dns 10)).value =
      walkSections dns dnsLen frameOffset := by
  simp only [walkSectionsLogged, behindSection_value, walkQuestionsLogged_value, walkDnsRrsLogged_value]
  rfl

theorem parseDnsLogged_value (report : Report) :
    (parseDnsLogged dns dnsLen frameOffset report).value = parseDns dns dnsLen frameOffset report := by
  have hwalk := walkSectionsLogged_value dns dnsLen frameOffset
  simp only [parseDnsLogged, value_bind, value_ite, value_pure]
  unfold parseDns
  rw [← hwalk]
  split
  · rfl
  · change Logged.value (match (walkSectionsLogged dns dnsLen frameOffset (readU16 dns 4) (readU16 dns 6)
      (readU16 dns 8) (readU16 dns 10)).value with
      | .error stop => pure (stop.record ((addLayer report .dns).withDnsHeader dns))
      | .ok _ => pure (completed ((addLayer report .dns).withDnsHeader dns) (frameOffset + dnsLen))) = _
    cases (walkSectionsLogged dns dnsLen frameOffset (readU16 dns 4) (readU16 dns 6) (readU16 dns 8)
      (readU16 dns 10)).value <;> rfl

end Values

/-! ## What is logged -/

section Safety
variable (dns : Bytes) (dnsLen frameOffset : Nat)

theorem walkPointerLogged_plain {st : WalkState} (length : UInt8) (hin : st.cursor < dnsLen) :
    All (Access.Plain dnsLen) (walkPointerLogged dns dnsLen frameOffset st length) := by
  unfold walkPointerLogged
  refine (plain_minus hin.le).bind (.ite (fun _ => all_pure _) fun hroom => ?_)
  rw [value_minus] at hroom
  refine (plain_readByte (by omega)).bind (.ite (fun _ => all_pure _) fun _ => .ite (fun _ => all_pure _) fun _ => ?_)
  exact .ite (fun _ => all_pure _) fun _ => all_pure _

theorem walkLabelLogged_plain {st : WalkState} (length : UInt8) (hin : st.cursor < dnsLen) :
    All (Access.Plain dnsLen) (walkLabelLogged dnsLen frameOffset st length) := by
  unfold walkLabelLogged
  refine (plain_minus hin).bind (.ite (fun _ => all_pure _) fun _ => .ite (fun _ => all_pure _) fun _ => all_pure _)

/-- One turn of the loop, in any state. -/
theorem walkStepLogged_plain (st : WalkState) :
    All (Access.Plain dnsLen) (walkStepLogged dns dnsLen frameOffset st) := by
  unfold walkStepLogged
  refine .ite (fun _ => all_pure _) fun hin => (plain_readByte (by omega)).bind ?_
  refine .ite (fun _ => walkPointerLogged_plain dns dnsLen frameOffset _ (by omega)) fun _ => ?_
  refine .ite (fun _ => all_pure _) fun _ => .ite (fun _ => ?_) fun _ => ?_
  · exact .ite (fun _ => all_pure _) fun _ => all_pure _
  · exact walkLabelLogged_plain dnsLen frameOffset _ (by omega)

theorem walkDnsNameLogged_plain (offset : Nat) :
    All (Access.Plain dnsLen) (walkDnsNameLogged dns dnsLen frameOffset offset) := by
  unfold walkDnsNameLogged
  generalize walkInit offset = st
  induction st using walkLoopLogged.induct dns dnsLen frameOffset with
  | case1 st turn stop hturn =>
    rw [walkLoopLogged, hturn]
    exact walkStepLogged_plain dns dnsLen frameOffset st
  | case2 st turn next hturn =>
    rw [walkLoopLogged, hturn]
    exact walkStepLogged_plain dns dnsLen frameOffset st
  | case3 st turn st' hturn ih =>
    rw [walkLoopLogged, hturn]
    exact fun access hmem =>
      (List.mem_append.mp hmem).elim (walkStepLogged_plain dns dnsLen frameOffset st access) (ih access)

/-- A walk from `cursor` on: every completed entry moved the cursor on by `least` bytes. -/
def Paid (least cursor : Nat) (walk : Logged Access (Except Stop Nat)) : Prop :=
  cursor + least * count Access.completes walk ≤ L09.reached dnsLen walk.value ∧
    L09.reached dnsLen walk.value ≤ dnsLen

/-- What a section needs to know of the part of an entry behind its name: `rest` bytes at least. -/
structure Entry (rest : Nat) (mark : Nat → Nat → Access) (entry : Nat → Logged Access (Except Stop Nat)) : Prop where
  plain : ∀ next ≤ dnsLen, All (Access.Plain dnsLen) (entry next)
  takes : ∀ next ≤ dnsLen, ∀ behind, (entry next).value = .ok behind → next + rest ≤ behind ∧ behind ≤ dnsLen
  safe : ∀ start behind, start + (rest + 1) ≤ behind → behind ≤ dnsLen → (mark start behind).Safe dnsLen
  completes : ∀ start behind, (mark start behind).completes = true

theorem questionFields_entry : Entry dnsLen 4 .question (questionFieldsLogged dnsLen frameOffset) where
  plain next hle := (plain_minus hle).bind (.ite (fun _ => all_pure _) fun _ => all_pure _)
  takes next hle behind h := by
    simp only [questionFieldsLogged, value_bind, value_ite, value_pure] at h
    split at h
    · cases h
    · next hroom =>
      rw [value_minus] at hroom
      obtain rfl := Except.ok.inj h
      omega
  safe _ _ hlt hle := ⟨hlt, hle⟩
  completes _ _ := rfl

theorem rrFields_entry : Entry dnsLen 10 .record (rrFieldsLogged dns dnsLen frameOffset) where
  plain next hle := by
    unfold rrFieldsLogged
    refine (plain_minus hle).bind (.ite (fun _ => all_pure _) fun hroom => ?_)
    rw [value_minus] at hroom
    refine (plain_readField16 (by omega)).bind ((plain_minus (by omega)).bind ?_)
    exact .ite (fun _ => all_pure _) fun _ => all_pure _
  takes next hle behind h := by
    simp only [rrFieldsLogged, value_bind, value_ite, value_pure] at h
    split at h
    · cases h
    · next hroom =>
      rw [value_minus] at hroom
      split at h
      · cases h
      · next hdata =>
        rw [value_minus] at hdata
        obtain rfl := Except.ok.inj h
        omega
  safe _ _ hlt hle := ⟨hlt, hle⟩
  completes _ _ := rfl

section
variable {dnsLen} {rest : Nat} {mark : Nat → Nat → Access} {entry : Nat → Logged Access (Except Stop Nat)}
  (h : Entry dnsLen rest mark entry)
include h

/-- A section of any length, from any cursor, even from one behind the message. -/
theorem walkSectionLogged_safe (count : Nat) : ∀ cursor,
    All (Access.Safe dnsLen) (walkSectionLogged dns dnsLen frameOffset mark entry count cursor) := by
  induction count with
  | zero => exact fun _ => all_pure _
  | succ count ih =>
    intro cursor
    rw [walkSectionLogged]
    refine ((walkDnsNameLogged_plain dns dnsLen frameOffset cursor).mono fun _ => Access.Plain.safe).bind ?_
    rw [walkDnsNameLogged_value]
    cases hname : walkDnsName dns dnsLen cursor frameOffset with
    | error stop => exact all_pure _
    | ok next =>
      obtain ⟨hlt, hle⟩ := walkDnsName_bounds hname
      refine ((h.plain next hle).mono fun _ => Access.Plain.safe).bind ?_
      cases hentry : (entry next).value with
      | error stop => exact all_pure _
      | ok behind =>
        obtain ⟨htakes, hin⟩ := h.takes next hle behind hentry
        have hdone : All (Access.Safe dnsLen) (tell (mark cursor behind)) :=
          (all_tell _).mpr (h.safe cursor behind (by omega) hin)
        exact hdone.bind (ih behind)

theorem walkSectionLogged_paid (entries : Nat) : ∀ {cursor}, cursor ≤ dnsLen →
    Paid dnsLen (rest + 1) cursor (walkSectionLogged dns dnsLen frameOffset mark entry entries cursor) := by
  induction entries with
  | zero => exact fun hcursor => ⟨Nat.le_refl _, hcursor⟩
  | succ entries ih =>
    intro cursor hcursor
    unfold Paid
    rw [walkSectionLogged, count_bind, value_bind, walkDnsNameLogged_value,
      L09.completes_of_plain (walkDnsNameLogged_plain dns dnsLen frameOffset cursor), Nat.zero_add]
    cases hname : walkDnsName dns dnsLen cursor frameOffset with
    | error stop => exact ⟨hcursor, Nat.le_refl _⟩
    | ok next =>
      obtain ⟨hlt, hle⟩ := walkDnsName_bounds hname
      dsimp only
      rw [count_bind, value_bind, L09.completes_of_plain (h.plain next hle), Nat.zero_add]
      cases hentry : (entry next).value with
      | error stop => exact ⟨hcursor, Nat.le_refl _⟩
      | ok behind =>
        obtain ⟨htakes, hin⟩ := h.takes next hle behind hentry
        obtain ⟨hcount, hend⟩ := ih hin
        have hone : count Access.completes (tell (mark cursor behind)) = 1 := by
          simp [count, h.completes]
        dsimp only
        rw [count_bind, value_bind, hone, Nat.mul_add]
        exact ⟨by omega, hend⟩

end

theorem walkSectionLogged_outside (mark : Nat → Nat → Access) (entry : Nat → Logged Access (Except Stop Nat))
    (entries : Nat) {cursor : Nat} (hcursor : dnsLen < cursor) :
    count Access.completes (walkSectionLogged dns dnsLen frameOffset mark entry entries cursor) = 0 := by
  cases entries with
  | zero => rfl
  | succ entries =>
    rw [walkSectionLogged, count_bind, walkDnsNameLogged_value,
      L09.completes_of_plain (walkDnsNameLogged_plain dns dnsLen frameOffset cursor), Nat.zero_add]
    cases hname : walkDnsName dns dnsLen cursor frameOffset with
    | error stop => rfl
    | ok next =>
      have hbounds := walkDnsName_bounds hname
      omega

theorem walkDnsRrsLogged_count (entries : UInt16) (cursor : Nat) :
    count Access.completes (walkDnsRrsLogged dns dnsLen frameOffset entries cursor) ≤ (dnsLen - cursor) / 11 := by
  have hentry := rrFields_entry dns dnsLen frameOffset
  by_cases hin : cursor ≤ dnsLen
  · obtain ⟨hcount, hend⟩ := walkSectionLogged_paid dns frameOffset hentry entries.toNat hin
    unfold walkDnsRrsLogged
    omega
  · unfold walkDnsRrsLogged
    rw [walkSectionLogged_outside dns dnsLen frameOffset _ _ _ (Nat.lt_of_not_le hin)]
    exact Nat.zero_le _

/-! ## The message -/

section
variable {dnsLen} {least cursor : Nat} {walk : Logged Access (Except Stop Nat)}

theorem Paid.mono (h : Paid dnsLen least cursor walk) {less : Nat} (hle : less ≤ least) :
    Paid dnsLen less cursor walk :=
  ⟨le_trans (Nat.add_le_add_left (Nat.mul_le_mul_right _ hle) _) h.1, h.2⟩

theorem behindSection_all {P : Access → Prop} {next : Nat → Logged Access (Except Stop Nat)} (h : All P walk)
    (hnext : ∀ behind, All P (next behind)) : All P (behindSection walk next) := by
  unfold behindSection
  refine h.bind ?_
  cases walk.value with
  | error stop => exact all_pure _
  | ok behind => exact hnext behind

theorem Paid.behind {next : Nat → Logged Access (Except Stop Nat)} (h : Paid dnsLen least cursor walk)
    (hnext : ∀ behind ≤ dnsLen, Paid dnsLen least behind (next behind)) :
    Paid dnsLen least cursor (behindSection walk next) := by
  obtain ⟨hcount, hend⟩ := h
  unfold Paid behindSection
  rw [count_bind, value_bind]
  cases hwalk : walk.value with
  | error stop =>
    rw [hwalk] at hcount
    exact ⟨hcount, Nat.le_refl _⟩
  | ok behind =>
    rw [hwalk] at hcount hend
    dsimp only [L09.reached] at hcount hend
    obtain ⟨hmore, hend'⟩ := hnext behind hend
    dsimp only
    rw [Nat.mul_add]
    exact ⟨by omega, hend'⟩

end

section
variable (questionCount answerCount authorityCount additionalCount : UInt16)

theorem walkSectionsLogged_safe : All (Access.Safe dnsLen)
    (walkSectionsLogged dns dnsLen frameOffset questionCount answerCount authorityCount additionalCount) := by
  have hrrs := fun count : UInt16 =>
    walkSectionLogged_safe dns frameOffset (rrFields_entry dns dnsLen frameOffset) count.toNat
  refine behindSection_all ?_ fun _ => behindSection_all (hrrs _ _) fun _ => ?_
  · exact walkSectionLogged_safe dns frameOffset (questionFields_entry dnsLen frameOffset) _ _
  · exact behindSection_all (hrrs _ _) fun _ => hrrs _ _

theorem walkSectionsLogged_paid (hlen : dnsHeader ≤ dnsLen) : Paid dnsLen 5 dnsHeader
    (walkSectionsLogged dns dnsLen frameOffset questionCount answerCount authorityCount additionalCount) := by
  have hrrs : ∀ count : UInt16, ∀ behind ≤ dnsLen,
      Paid dnsLen 5 behind (walkDnsRrsLogged dns dnsLen frameOffset count behind) := fun count behind hle =>
    (walkSectionLogged_paid dns frameOffset (rrFields_entry dns dnsLen frameOffset) count.toNat hle).mono (by decide)
  refine Paid.behind ?_ fun _ hle => (hrrs _ _ hle).behind fun _ hle => (hrrs _ _ hle).behind fun _ hle => hrrs _ _ hle
  exact walkSectionLogged_paid dns frameOffset (questionFields_entry dnsLen frameOffset) _ hlen

end

theorem parseDnsLogged_safe (report : Report) :
    All (Access.Safe dnsLen) (parseDnsLogged dns dnsLen frameOffset report) := by
  unfold parseDnsLogged dnsHeader
  refine .ite (fun _ => all_pure _) fun hlen => ?_
  have hfield : ∀ offset, offset + 2 ≤ 12 → All (Access.Safe dnsLen) (readField16 dns offset) := fun offset hin =>
    (plain_readField16 (by omega)).mono fun _ => Access.Plain.safe
  refine (hfield 0 (by omega)).bind ((hfield 4 (by omega)).bind ((hfield 6 (by omega)).bind ?_))
  refine (hfield 8 (by omega)).bind ((hfield 10 (by omega)).bind ?_)
  refine (walkSectionsLogged_safe dns dnsLen frameOffset _ _ _ _).bind ?_
  split <;> exact all_pure _

theorem parseDnsLogged_count (report : Report) :
    count Access.completes (parseDnsLogged dns dnsLen frameOffset report) ≤ (dnsLen - 12) / 5 := by
  unfold parseDnsLogged
  dsimp only
  by_cases hlen : dnsLen < dnsHeader
  · rw [if_pos hlen]
    exact Nat.zero_le _
  · have hfield : ∀ offset, count Access.completes (readField16 dns offset) = 0 := fun _ => rfl
    have hresult : ∀ (result : Except Stop Nat) (report : Report), count Access.completes (match result with
        | .error stop => pure (stop.record report)
        | .ok _ => pure (completed report (frameOffset + dnsLen)) : Logged Access (Status × Report)) = 0 := by
      intro result report
      cases result <;> rfl
    rw [if_neg hlen]
    simp only [count_bind, hfield, hresult, Nat.zero_add, Nat.add_zero]
    obtain ⟨hcount, hend⟩ := walkSectionsLogged_paid dns dnsLen frameOffset (readU16 dns 4) (readU16 dns 6)
      (readU16 dns 8) (readU16 dns 10) (Nat.le_of_not_lt hlen)
    unfold dnsHeader at hcount
    change count Access.completes (walkSectionsLogged dns dnsLen frameOffset (readU16 dns 4) (readU16 dns 6)
      (readU16 dns 8) (readU16 dns 10)) ≤ _
    omega

end Safety

/-! ## Both lessons -/

/-- A name that is walked or decoded ends behind its offset and inside the message. So no walk of either lesson, on
any message and with any counts, subtracts a cursor behind the end, reads outside the message or completes an entry
without moving on by its fixed part; and it completes no more entries than the message has room for. -/
theorem dns_walks_progress :
    (∀ dns dnsLen offset frameOffset next, walkDnsName dns dnsLen offset frameOffset = .ok next →
      offset < next ∧ next ≤ dnsLen) ∧
    (∀ message offset name, L09.decodeNameInternal message offset = .ok name →
      offset < name.nextOffset ∧ name.nextOffset ≤ message.length) ∧
    (∀ dns dnsLen frameOffset report,
      (parseDnsLogged dns dnsLen frameOffset report).value = parseDns dns dnsLen frameOffset report ∧
      (∀ access ∈ (parseDnsLogged dns dnsLen frameOffset report).log, access.Safe dnsLen) ∧
      ((parseDnsLogged dns dnsLen frameOffset report).log.countP Access.completes) ≤ (dnsLen - 12) / 5) ∧
    (∀ dns dnsLen frameOffset count cursor,
      (walkDnsRrsLogged dns dnsLen frameOffset count cursor).value = walkDnsRrs dns dnsLen frameOffset count cursor ∧
      (∀ access ∈ (walkDnsRrsLogged dns dnsLen frameOffset count cursor).log, access.Safe dnsLen) ∧
      ((walkDnsRrsLogged dns dnsLen frameOffset count cursor).log.countP Access.completes) ≤
        (dnsLen - cursor) / 11) ∧
    (∀ message,
      (L09.firstALogged message).value = L09.firstA message ∧
      (∀ access ∈ (L09.firstALogged message).log, access.Safe message.length) ∧
      ((L09.firstALogged message).log.countP Access.completes) ≤ (message.length - 12) / 5) := by
  refine ⟨fun _ _ _ _ _ h => walkDnsName_bounds h, fun _ _ _ h => L09.decodeNameInternal_bounds h, ?_, ?_, ?_⟩
  · intro dns dnsLen frameOffset report
    exact ⟨parseDnsLogged_value dns dnsLen frameOffset report, parseDnsLogged_safe dns dnsLen frameOffset report,
      parseDnsLogged_count dns dnsLen frameOffset report⟩
  · intro dns dnsLen frameOffset count cursor
    exact ⟨walkDnsRrsLogged_value dns dnsLen frameOffset count cursor,
      walkSectionLogged_safe dns frameOffset (rrFields_entry dns dnsLen frameOffset) count.toNat cursor,
      walkDnsRrsLogged_count dns dnsLen frameOffset count cursor⟩
  · intro message
    exact ⟨L09.firstALogged_value message, L09.firstALogged_safe message, L09.firstALogged_count message⟩

theorem dns_walks_progress_response :
    (walkDnsName L09.addressResponse 35 19 42 = .ok 21 ∧ 19 < 21 ∧ 21 ≤ 35) ∧
      ((parseDnsLogged L09.addressResponse 35 42 .zero).value.1 = .ok ∧
        (∀ access ∈ (parseDnsLogged L09.addressResponse 35 42 .zero).log, access.Safe 35) ∧
        (parseDnsLogged L09.addressResponse 35 42 .zero).log.countP Access.completes = 2 ∧ 2 ≤ (35 - 12) / 5) ∧
      (L09.firstALogged L09.addressResponse).value = .ok ⟨[192, 0, 2, 1], 9⟩ ∧
      (L09.firstALogged L09.addressResponse).log.countP Access.completes = 2 := by
  obtain ⟨hname, -, hparse, -, -⟩ := dns_walks_progress
  have hwalk : walkDnsName L09.addressResponse 35 19 42 = .ok 21 := by decide +kernel
  have hcount : (parseDnsLogged L09.addressResponse 35 42 .zero).log.countP Access.completes = 2 := by decide +kernel
  obtain ⟨-, hsafe, hmost⟩ := hparse L09.addressResponse 35 42 .zero
  rw [hcount] at hmost
  exact ⟨⟨hwalk, hname _ _ _ _ _ hwalk⟩, ⟨by decide +kernel, hsafe, hcount, hmost⟩, by decide +kernel,
    by decide +kernel⟩

end TcpipCourse.L12
