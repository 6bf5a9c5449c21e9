import TcpipCourse.L09.Decode
import TcpipCourse.L12.Window

/-!
# Lesson 12: the diagnoser walks names as lesson 09 decodes them

The walk keeps no text, so it is the decoder with the text erased.

* `erase` : a state of the decoder without its text; `SameTurn` : a turn of the one and a turn of the other;
* `copyLabel_sameTurn`, `followPointer_sameTurn`, `sameTurn` : turn by turn they agree, but for a label that breaks
  the text limit and leaves no wire length for the root byte (`appendLabel_of_wire`);
* `walkLoop_spent` : the walk does not return from there;
* `walkDnsName_agrees` : the main result.
-/

namespace TcpipCourse.L12
open Lib L09

def erase (st : DecodeState) : WalkState :=
  { cursor := st.cursor, expandedWireLen := st.expandedWireLen, pointerHops := st.pointerHops,
    visited := st.visited, nextOffset := st.nextOffset }

/-- Two turns with the same outcome; the status of a failure may differ, and the walk may fail later. -/
def SameTurn : Turn → WalkTurn → Prop
  | .fail _, .fail _ => True
  | .fail _, .again walk => dnsMaxWireName ≤ walk.expandedWireLen
  | .done name, .done nextOffset => name.nextOffset = nextOffset
  | .again st, .again walk => walk = erase st
  | _, _ => False

section Turns
variable {message : Bytes} {offset frameOffset : Nat} {st : DecodeState} {length : UInt8}

/-- A label passes the two text checks when the wire limit has room for it and for the root byte. -/
theorem appendLabel_of_wire (hv : Visits message offset st) (h0 : length ≠ 0)
    (hfit : st.cursor + 1 + length.toNat ≤ message.length)
    (hwire : st.expandedWireLen + (length.toNat + 1) < maxWireName) :
    ∃ decoded, appendLabel st.decoded (slice message (st.cursor + 1) length.toNat) = .ok decoded := by
  obtain ⟨hlab, hne⟩ := slice_label_length h0 hfit
  have htext : (L09.appendText st.decoded (slice message (st.cursor + 1) length.toNat)).length ≤ maxTextName := by
    rw [length_appendText, hlab]
    unfold maxTextName
    unfold maxWireName at hwire
    rcases hv.text with ⟨hd, hexp⟩ | ⟨hd, hexp⟩
    · rw [if_pos hd]
      omega
    · rw [if_neg hd]
      omega
  rw [appendLabel_eq hne, if_pos htext]
  exact ⟨_, rfl⟩

theorem followPointer_sameTurn :
    SameTurn (followPointer message st length) (walkPointer message message.length frameOffset (erase st) length) := by
  unfold followPointer walkPointer erase
  dsimp only
  split
  · trivial
  · split
    · trivial
    · unfold dnsVisitedGet dnsVisitedSet dnsMaxPointerHops maxPointerHops
      split
      · trivial
      · split
        · trivial
        · rfl

theorem copyLabel_sameTurn (hv : Visits message offset st) (h0 : length ≠ 0) (hin : st.cursor < message.length)
    (h64 : length.toNat < 64) :
    SameTurn (copyLabel message st length) (walkLabel message.length frameOffset (erase st) length) := by
  have hlimit : maxWireName = 255 := rfl
  have hlimit' : dnsMaxWireName = maxWireName := rfl
  unfold copyLabel walkLabel erase
  rw [hlimit']
  dsimp only
  by_cases hcut : length.toNat > message.length - (st.cursor + 1)
  · rw [if_pos hcut, if_pos hcut]
    trivial
  rw [if_neg hcut, if_neg hcut]
  by_cases hwire : st.expandedWireLen > maxWireName - (length.toNat + 1)
  · rw [if_pos hwire, if_pos hwire]
    trivial
  rw [if_neg hwire, if_neg hwire]
  by_cases hroom : st.expandedWireLen + (length.toNat + 1) < maxWireName
  · obtain ⟨decoded, hok⟩ := appendLabel_of_wire hv h0 (by omega) hroom
    rw [hok]
    rfl
  · cases appendLabel st.decoded (slice message (st.cursor + 1) length.toNat) with
    | error status =>
      show dnsMaxWireName ≤ st.expandedWireLen + (length.toNat + 1)
      omega
    | ok decoded => rfl

/-- **Step lemma.** -/
theorem sameTurn (hv : Visits message offset st) :
    SameTurn (decodeStep message st) (walkStep message message.length frameOffset (erase st)) := by
  have hcursor : (erase st).cursor = st.cursor := rfl
  unfold decodeStep walkStep
  rw [hcursor]
  by_cases hin : st.cursor ≥ message.length
  · rw [if_pos hin, if_pos hin]
    trivial
  rw [if_neg hin, if_neg hin]
  dsimp only
  generalize message.getD st.cursor 0 = length
  by_cases hpointer : length &&& 0xc0 = 0xc0
  · rw [if_pos hpointer, if_pos hpointer]
    exact followPointer_sameTurn
  rw [if_neg hpointer, if_neg hpointer]
  by_cases htop : length &&& 0xc0 ≠ 0
  · rw [if_pos htop, if_pos (.inl htop)]
    trivial
  have h64 : length.toNat < 64 := (topBits_iff length).1.mp (not_not.mp htop)
  have hshort : ¬ length > 63 := UInt8.not_lt.mpr (UInt8.le_iff_toNat_le.mpr (Nat.le_of_lt_succ h64))
  rw [if_neg htop, if_neg (not_or.mpr ⟨htop, hshort⟩)]
  by_cases h0 : length = 0
  · have hwire : (erase st).expandedWireLen = st.expandedWireLen := rfl
    rw [if_pos h0, if_pos h0, hwire]
    unfold dnsMaxWireName maxWireName
    split
    · trivial
    · rfl
  · rw [if_neg h0, if_neg h0]
    exact copyLabel_sameTurn hv h0 (by omega) h64

theorem walkLoop_spent {walk : WalkState} (h : dnsMaxWireName ≤ walk.expandedWireLen) (next : Nat) :
    walkLoop message message.length frameOffset walk ≠ .ok next := by
  induction walk using walkLoop.induct message message.length frameOffset with
  | case1 walk stop hstep =>
    rw [walkLoop, hstep]
    intro hok
    cases hok
  | case2 walk nextOffset hstep =>
    obtain ⟨-, -, hwire, -⟩ := walkStep_done hstep
    omega
  | case3 walk walk' hstep ih =>
    rw [walkLoop, hstep]
    apply ih
    obtain ⟨-, hp | ⟨-, hl⟩⟩ := walkStep_again hstep
    · obtain ⟨-, -, -, -, rfl⟩ := walkPointer_again hp
      exact h
    · obtain ⟨-, hwire, rfl⟩ := walkLabel_again hl
      dsimp only
      omega

/-- **Run lemma.** -/
theorem walkLoop_agrees (hv : Visits message offset st) (next : Nat) :
    walkLoop message message.length frameOffset (erase st) = .ok next ↔
      ∃ name, decodeLoop message st = .ok name ∧ name.nextOffset = next := by
  induction st using decodeLoop.induct message with
  | case1 st status hstep =>
    have hturn := @sameTurn message offset frameOffset st hv
    rw [hstep] at hturn
    have hfail : walkLoop message message.length frameOffset (erase st) ≠ .ok next := by
      rw [walkLoop]
      cases hwalk : walkStep message message.length frameOffset (erase st) with
      | fail stop =>
        intro hok
        cases hok
      | done nextOffset => rw [hwalk] at hturn; exact hturn.elim
      | again walk => rw [hwalk] at hturn; exact walkLoop_spent hturn next
    rw [decodeLoop, hstep]
    apply iff_of_false hfail
    rintro ⟨_, hok, -⟩
    cases hok
  | case2 st name hstep =>
    have hturn := @sameTurn message offset frameOffset st hv
    rw [hstep] at hturn
    rw [decodeLoop, hstep, walkLoop]
    cases hwalk : walkStep message message.length frameOffset (erase st) with
    | fail stop => rw [hwalk] at hturn; exact hturn.elim
    | done nextOffset =>
      rw [hwalk] at hturn
      have hsame : name.nextOffset = nextOffset := hturn
      simp [hsame]
    | again walk => rw [hwalk] at hturn; exact hturn.elim
  | case3 st st' hstep ih =>
    have hturn := @sameTurn message offset frameOffset st hv
    rw [hstep] at hturn
    rw [decodeLoop, hstep, walkLoop]
    cases hwalk : walkStep message message.length frameOffset (erase st) with
    | fail stop => rw [hwalk] at hturn; exact hturn.elim
    | done nextOffset => rw [hwalk] at hturn; exact hturn.elim
    | again walk =>
      rw [hwalk] at hturn
      obtain rfl : walk = erase st' := hturn
      exact ih (hv.again hstep)

end Turns

/-- **Main result.** On the same bytes the two walkers accept the same names and end them at the same offset,
whatever stands behind the message in memory. -/
theorem walkDnsName_agrees (message rest : Bytes) (offset frameOffset next : Nat) :
    walkDnsName (message ++ rest) message.length offset frameOffset = .ok next ↔
      ∃ name, decodeNameInternal message offset = .ok name ∧ name.nextOffset = next := by
  rw [walkDnsName_congr (sameWindow_append message rest)]
  exact walkLoop_agrees (visits_init message offset) next

theorem walkDnsName_agrees_pointer :
    walkDnsName ([1, 97, 0, 1, 98, 0xC0, 0] ++ [7]) 7 3 42 = .ok 7 ∧
      ∃ name, decodeNameInternal [1, 97, 0, 1, 98, 0xC0, 0] 3 = .ok name ∧ name.nextOffset = 7 := by
  have hwalk : walkDnsName ([1, 97, 0, 1, 98, 0xC0, 0] ++ [7]) 7 3 42 = .ok 7 := by decide +kernel
  exact ⟨hwalk, (walkDnsName_agrees [1, 97, 0, 1, 98, 0xC0, 0] [7] 3 42 7).mp hwalk⟩

end TcpipCourse.L12
