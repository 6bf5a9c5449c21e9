import TcpipCourse.L09.Exact
import TcpipCourse.L09.Query

/-!
# Lesson 09: answers do not depend on what follows

A success on a message stays the same success when bytes follow it.

* `Expands.append` : a name is where it was; `decodeName_append` : so its text and its next offset stay;
* `skipQuestions_append`, `readRecord_append`, `scanAnswers_append` : the walks of `firstA`, entry by entry;
* `answers_stable` : the main result.
-/

namespace TcpipCourse.L09
open Lib

section Append
variable {message : Bytes} (extra : Bytes)

theorem take_append : (message ++ extra).take message.length = message.take message.length := by
  rw [List.take_left, List.take_length]

theorem getD_append_of_lt {i : Nat} (h : i < message.length) : (message ++ extra).getD i 0 = message.getD i 0 :=
  getD_eq_of_take_eq (take_append extra) h 0

theorem readU16_append {offset : Nat} (h : offset + 1 < message.length) :
    readU16 (message ++ extra) offset = readU16 message offset := by
  unfold readU16
  rw [getD_append_of_lt extra (by omega), getD_append_of_lt extra h]

theorem readU32_append {offset : Nat} (h : offset + 3 < message.length) :
    readU32 (message ++ extra) offset = readU32 message offset := by
  unfold readU32
  rw [getD_append_of_lt extra (by omega), getD_append_of_lt extra (by omega), getD_append_of_lt extra (by omega),
    getD_append_of_lt extra h]

/-! ## Names -/

theorem getElem?_append_of_some {i : Nat} {b : UInt8} (h : message[i]? = some b) :
    (message ++ extra)[i]? = some b := by
  rw [List.getElem?_append_left (getD_of_getElem? h).1, h]

theorem Expands.append {off hops next : Nat} {labels : List Bytes} (h : Expands message off labels hops next) :
    Expands (message ++ extra) off labels hops next := by
  induction h with
  | root h => exact .root (getElem?_append_of_some extra h)
  | @label off hops next length labels h h0 h64 hfit _ ih =>
    rw [← slice_eq_of_take_eq (take_append extra) hfit]
    have hfit' : off + 1 + length.toNat ≤ (message ++ extra).length := by
      rw [List.length_append]
      omega
    exact .label (getElem?_append_of_some extra h) h0 h64 hfit' ih
  | pointer hhigh h192 hlow _ ih =>
    exact .pointer (getElem?_append_of_some extra hhigh) h192 (getElem?_append_of_some extra hlow) ih

theorem decodeNameInternal_append {offset : Nat} {name : DecodedName}
    (h : decodeNameInternal message offset = .ok name) : decodeNameInternal (message ++ extra) offset = .ok name := by
  obtain ⟨labels, hops, he, hhops, hwire, hdec⟩ := decodeNameInternal_sound h
  rw [decodeNameInternal_complete (he.append extra) hhops hwire, ← hdec]

theorem decodeName_append {offset : Nat} {out : Bytes} (h : (decodeName message offset out).status = .ok) :
    decodeName (message ++ extra) offset out = decodeName message offset out := by
  unfold decodeName at h ⊢
  by_cases hout : offset ≥ message.length
  · rw [if_pos hout] at h
    cases h
  rw [if_neg hout] at h ⊢
  rw [if_neg (by rw [List.length_append]; omega)]
  cases hname : decodeNameInternal message offset with
  | error status =>
    rw [hname] at h
    obtain rfl : status = .ok := h
    rcases decodeNameInternal_error hname with herr | herr <;> cases herr
  | ok name => rw [decodeNameInternal_append extra hname]

theorem skipName_append {cursor next : Nat} (h : skipName message cursor = .ok next) :
    skipName (message ++ extra) cursor = .ok next := by
  unfold skipName at h ⊢
  dsimp only at h ⊢
  split at h
  · cases h
  · next hok =>
    rw [decodeName_append extra (not_not.mp hok), if_neg hok]
    exact h

/-! ## The walks -/

theorem skipQuestions_append (count : Nat) {cursor next : Nat} (h : skipQuestions message count cursor = .ok next) :
    skipQuestions (message ++ extra) count cursor = .ok next := by
  induction count generalizing cursor with
  | zero => exact h
  | succ count ih =>
    rw [skipQuestions] at h ⊢
    cases hname : skipName message cursor with
    | error status =>
      rw [hname] at h
      cases h
    | ok cursor =>
      rw [hname] at h
      rw [skipName_append extra hname]
      dsimp only at h ⊢
      split at h
      · cases h
      · next hroom =>
        rw [if_neg (by rw [List.length_append]; omega)]
        exact ih h

theorem readRecord_append {cursor : Nat} {record : RecordFields} (h : readRecord message cursor = .ok record) :
    readRecord (message ++ extra) cursor = .ok record := by
  unfold readRecord at h ⊢
  cases hname : skipName message cursor with
  | error status =>
    rw [hname] at h
    cases h
  | ok cursor =>
    rw [hname] at h
    rw [skipName_append extra hname]
    dsimp only at h ⊢
    split at h
    · cases h
    · next hroom =>
      split at h
      · cases h
      · next hdata =>
        rw [if_neg (by rw [List.length_append]; omega), readU16_append extra (by omega),
          readU16_append extra (by omega),
          readU16_append extra (by omega), readU32_append extra (by omega),
          if_neg (by rw [List.length_append]; omega)]
        exact h

theorem readRecord_bounds {cursor : Nat} {record : RecordFields} (h : readRecord message cursor = .ok record) :
    record.cursor + record.dataLen.toNat ≤ message.length := by
  unfold readRecord at h
  split at h
  · cases h
  · split at h
    · cases h
    · dsimp only at h
      split at h
      · cases h
      · obtain rfl := Except.ok.inj h
        dsimp only
        omega

theorem scanAnswers_append (count : Nat) {cursor : Nat} {answer : Answer}
    (h : scanAnswers message count cursor = .ok answer) : scanAnswers (message ++ extra) count cursor = .ok answer := by
  induction count generalizing cursor with
  | zero => cases h
  | succ count ih =>
    rw [scanAnswers] at h ⊢
    cases hrecord : readRecord message cursor with
    | error status =>
      rw [hrecord] at h
      cases h
    | ok record =>
      have hbounds := readRecord_bounds hrecord
      rw [hrecord] at h
      rw [readRecord_append extra hrecord]
      dsimp only at h ⊢
      split at h
      · next ha =>
        split at h
        · cases h
        · next hfour =>
          have hlen : record.dataLen.toNat = 4 := congrArg UInt16.toNat (not_not.mp hfour)
          rw [if_pos ha, if_neg hfour, slice_eq_of_take_eq (take_append extra) (by omega)]
          exact h
      · next ha =>
        rw [if_neg ha]
        exact ih h

theorem firstA_append {answer : Answer} (h : firstA message = .ok answer) :
    firstA (message ++ extra) = .ok answer := by
  have hlen : ¬ message.length < dnsHeaderSize := by
    intro hshort
    unfold firstA parseMessage at h
    rw [if_pos hshort] at h
    cases h
  have hsize : dnsHeaderSize = 12 := rfl
  have hheader : parseMessage (message ++ extra) = parseMessage message := by
    unfold parseMessage
    rw [if_neg hlen, if_neg (by rw [List.length_append]; omega), readU16_append extra (by omega),
      readU16_append extra (by omega), readU16_append extra (by omega), readU16_append extra (by omega),
      readU16_append extra (by omega), readU16_append extra (by omega)]
  unfold firstA at h ⊢
  rw [hheader]
  split at h
  · cases h
  · next header hparsed =>
    split at h
    · cases h
    · next hflags =>
      rw [if_neg hflags]
      split at h
      · cases h
      · next htc =>
        rw [if_neg htc]
        split at h
        · cases h
        · next hrcode =>
          rw [if_neg hrcode]
          cases hquestions : skipQuestions message header.questionCount.toNat dnsHeaderSize with
          | error status =>
            rw [hquestions] at h
            cases h
          | ok cursor =>
            rw [hquestions] at h
            rw [skipQuestions_append extra _ hquestions]
            exact scanAnswers_append extra _ h

end Append

/-- **Main result.** A decoded name and a first A record are the same with more bytes behind the message; so on a part
of a message `firstA` fails or gives the answer of the whole. -/
theorem answers_stable (message extra : Bytes) (offset : Nat) (out : Bytes) :
    ((decodeName message offset out).status = .ok →
      decodeName (message ++ extra) offset out = decodeName message offset out) ∧
    (∀ answer, firstA message = .ok answer → firstA (message ++ extra) = .ok answer) ∧
    (∀ k, (∃ status, firstA (message.take k) = .error status) ∨ firstA (message.take k) = firstA message) := by
  refine ⟨decodeName_append extra, fun _ => firstA_append extra, fun k => ?_⟩
  cases hpart : firstA (message.take k) with
  | error status => exact .inl ⟨status, rfl⟩
  | ok answer =>
    right
    have hwhole := firstA_append (message.drop k) hpart
    rw [List.take_append_drop] at hwhole
    exact hwhole.symm

/-- A response with one question and one record, which names the question through a pointer. -/
def addressResponse : Bytes :=
  [0, 1, 0x80, 0, 0, 1, 0, 1, 0, 0, 0, 0, 1, 97, 0, 0, 1, 0, 1, 0xC0, 12, 0, 1, 0, 1, 0, 0, 0, 9, 0, 4, 192, 0, 2, 1]

theorem answers_stable_response :
    decodeName (addressResponse ++ [7]) 19 [1, 1, 1] = ⟨.ok, [97, 0, 1], 21, 1⟩ ∧
      firstA (addressResponse ++ [7]) = .ok ⟨[192, 0, 2, 1], 9⟩ ∧
      ∃ status, firstA (addressResponse.take 34) = .error status := by
  have hname : decodeName addressResponse 19 [1, 1, 1] = ⟨.ok, [97, 0, 1], 21, 1⟩ := by decide +kernel
  have hfirst : firstA addressResponse = .ok ⟨[192, 0, 2, 1], 9⟩ := by decide +kernel
  have hcut : firstA (addressResponse.take 34) ≠ .ok ⟨[192, 0, 2, 1], 9⟩ := by decide +kernel
  obtain ⟨hdecode, hanswer, hpart⟩ := answers_stable addressResponse [7] 19 [1, 1, 1]
  refine ⟨(hdecode (by rw [hname])).trans hname, hanswer _ hfirst, (hpart 34).resolve_right fun hsame => ?_⟩
  exact hcut (hsame.trans hfirst)

end TcpipCourse.L09
