import TcpipCourse.L04.Icmp

/-!
# Lesson 04: echo messages

* `echoBytes` : the layout of an echo message with a given checksum; `echo` : the one that verifies;
* `buildEcho_eq` : the stores of the builder are one store of `echo`, wherever the payload lies;
* `parseMessage_echo` : every echo message is accepted;
* `Answerable`, `replyTo` : which messages have a reply, and the reply; `makeEchoReply_eq` : where it is stored;
* `Replies` : what a call with room for the reply does; `echo_roundTrip` : building, parsing and replying.
-/

namespace TcpipCourse.L04
open Lib

/-! ## The layout -/

def echoBytes (type : UInt8) (identifier sequence checksum : UInt16) (payload : Bytes) : Bytes :=
  [type, 0] ++ be16Bytes checksum ++ (be16Bytes identifier ++ be16Bytes sequence ++ payload)

def echo (type : UInt8) (identifier sequence : UInt16) (payload : Bytes) : Bytes :=
  echoBytes type identifier sequence (checksum (echoBytes type identifier sequence 0 payload)) payload

@[simp] theorem length_echoBytes (type : UInt8) (identifier sequence checksum : UInt16) (payload : Bytes) :
    (echoBytes type identifier sequence checksum payload).length = 8 + payload.length := by
  simp [echoBytes]
  omega

@[simp] theorem length_echo (type : UInt8) (identifier sequence : UInt16) (payload : Bytes) :
    (echo type identifier sequence payload).length = 8 + payload.length := length_echoBytes ..

theorem checksum_echo (type : UInt8) (identifier sequence : UInt16) (payload : Bytes) :
    checksum (echo type identifier sequence payload) = 0 := by
  unfold checksum echo echoBytes
  exact finish_addBytes_insert (by decide) (by simp)

/-- **Every echo message is accepted**, whatever its payload. -/
theorem parseMessage_echo (type : UInt8) (identifier sequence : UInt16) (payload : Bytes) :
    parseMessage (echo type identifier sequence payload) = .ok
      { type := type
        code := 0
        checksum := checksum (echoBytes type identifier sequence 0 payload)
        bodyOffset := 4
        bodyLength := 4 + payload.length } := by
  have hlen := length_echo type identifier sequence payload
  unfold parseMessage
  rw [if_neg (by rw [hlen, headerLength]; omega), if_neg (not_not.mpr (checksum_echo ..)), hlen]
  refine congrArg Except.ok (Message.mk.injEq .. ▸ ⟨rfl, rfl, be16_be16Bytes _, rfl, ?_⟩)
  show 8 + payload.length - 4 = 4 + payload.length
  omega

/-! ## The stores of the builder -/

/-- The stores in front of the checksum, in the order the builder makes them, are one. -/
theorem overwrite_zeroed (memory payload : Bytes) (destination : Nat) (type : UInt8) (identifier sequence : UInt16) :
    overwrite (overwrite (overwrite (overwrite memory (destination + 8) payload) destination [type, 0, 0, 0])
      (destination + 4) (be16Bytes identifier)) (destination + 6) (be16Bytes sequence) =
      overwrite memory destination (echoBytes type identifier sequence 0 payload) := by
  have hidentifier := overwrite_overwrite (overwrite memory (destination + 8) payload) destination
    [type, 0, 0, 0] (be16Bytes identifier)
  have hsequence := overwrite_overwrite (overwrite memory (destination + 8) payload) destination
    ([type, 0, 0, 0] ++ be16Bytes identifier) (be16Bytes sequence)
  have hpayload := overwrite_overwrite_after memory destination
    ([type, 0, 0, 0] ++ be16Bytes identifier ++ be16Bytes sequence) payload
  exact ((congrArg (overwrite · (destination + 6) (be16Bytes sequence)) hidentifier).trans hsequence).trans hpayload

theorem overwrite_checksum {memory payload : Bytes} {destination : Nat} (type : UInt8)
    (identifier sequence checksum : UInt16) (hfit : destination + (8 + payload.length) ≤ memory.length) :
    overwrite (overwrite memory destination (echoBytes type identifier sequence 0 payload)) (destination + 2)
      (be16Bytes checksum) =
      overwrite memory destination (echoBytes type identifier sequence checksum payload) := by
  rw [overwrite_within (by rw [length_echoBytes]; exact hfit) (by rw [length_echoBytes, length_be16Bytes]; omega)]
  exact congrArg (overwrite memory destination) (overwrite_middle (by rfl) (by rfl) _)

/-- **The builder stores the echo message** of the payload as it is when the call is made. -/
theorem buildEcho_eq {memory : Bytes} {type : UInt8} (htype : type = echoRequest ∨ type = echoReply)
    (identifier sequence : UInt16) {payload payloadLength destination destinationCapacity : Nat}
    (hpayload : payload + payloadLength ≤ memory.length) (hmax : payloadLength ≤ 65527)
    (hcap : 8 + payloadLength ≤ destinationCapacity)
    (hdestination : destination + destinationCapacity ≤ memory.length) :
    buildEcho memory type identifier sequence payload payloadLength destination destinationCapacity =
      ⟨.ok, 8 + payloadLength,
        overwrite memory destination (echo type identifier sequence (slice memory payload payloadLength))⟩ := by
  have hlen : (slice memory payload payloadLength).length = payloadLength := length_slice hpayload
  have hbytes : (echoBytes type identifier sequence 0 (slice memory payload payloadLength)).length =
      8 + payloadLength := by rw [length_echoBytes, hlen]
  have hread := @slice_overwrite _ memory (echoBytes type identifier sequence 0 (slice memory payload payloadLength))
    destination (by omega)
  rw [hbytes] at hread
  have hmax' : ¬ payloadLength > uint16Max - echoHeaderLength := by
    show ¬ payloadLength > 65535 - 8
    omega
  have htype' : ¬ (type ≠ echoRequest ∧ type ≠ echoReply) := fun ⟨h, h'⟩ => htype.elim h h'
  unfold buildEcho
  rw [if_neg htype', if_neg hmax']
  dsimp only [echoHeaderLength]
  rw [if_neg (by omega), overwrite_zeroed, hread, overwrite_checksum _ _ _ _ (by omega)]
  rfl

/-! ## Replies -/

structure Answerable (message : Bytes) : Prop where
  length : 8 ≤ message.length
  checksum : checksum message = 0
  type : message.getD 0 0 = echoRequest
  code : message.getD 1 0 = 0

/-- The reply to an echo request: its identifier, sequence number and payload. -/
def replyTo (request : Bytes) : Bytes :=
  echo echoReply (readBe16 request 4) (readBe16 request 6) (request.drop 8)

theorem length_replyTo {request : Bytes} (h : 8 ≤ request.length) : (replyTo request).length = request.length := by
  rw [replyTo, length_echo, List.length_drop]
  omega

/-- A message with code 0 is the layout of its own fields. -/
theorem echoBytes_eq_self {message : Bytes} (h : 8 ≤ message.length) (hcode : message.getD 1 0 = 0) :
    echoBytes (message.getD 0 0) (readBe16 message 4) (readBe16 message 6) (readBe16 message 2) (message.drop 8) =
      message := by
  have hhead : [message.getD 0 0, 0] = slice message 0 2 := by
    rw [slice_succ (by omega) 1 0, slice_succ (by omega) 0 0, hcode]
    rfl
  unfold echoBytes readBe16
  rw [hhead, be16Bytes_getD (by omega), be16Bytes_getD (by omega), be16Bytes_getD (by omega)]
  simp (disch := omega) only [← List.append_assoc, slice_append_slice, Nat.reduceAdd]
  exact List.take_append_drop 8 message

theorem getD_echoBytes (type type' : UInt8) (identifier sequence c c' : UInt16) (payload : Bytes) {i : Nat}
    (h0 : i ≠ 0) (h2 : i ≠ 2) (h3 : i ≠ 3) :
    (echoBytes type identifier sequence c payload).getD i 0 =
      (echoBytes type' identifier sequence c' payload).getD i 0 := by
  match i, h0, h2, h3 with
  | 1, _, _, _ => rfl
  | i + 4, _, _, _ => rfl

theorem getD_replyTo {request : Bytes} (h : Answerable request) {i : Nat} (h0 : i ≠ 0) (h2 : i ≠ 2) (h3 : i ≠ 3) :
    (replyTo request).getD i 0 = request.getD i 0 := by
  rw [replyTo, echo, getD_echoBytes _ (request.getD 0 0) _ _ _ (readBe16 request 2) _ h0 h2 h3,
    echoBytes_eq_self h.length h.code]

theorem parseMessage_of_answerable {message : Bytes} (h : Answerable message) :
    parseMessage message = .ok
      { type := echoRequest
        code := 0
        checksum := readBe16 message 2
        bodyOffset := 4
        bodyLength := message.length - 4 } := by
  have hlen := h.length
  unfold parseMessage headerLength
  rw [if_neg (by omega), if_neg (not_not.mpr h.checksum), h.type, h.code]

/-- **What a reply is and where it is stored.** -/
theorem makeEchoReply_eq {memory : Bytes} {request requestLength destination destinationCapacity : Nat}
    (hrequest : request + requestLength ≤ memory.length) (hmax : requestLength ≤ 65535)
    (hcap : requestLength ≤ destinationCapacity) (hdestination : destination + destinationCapacity ≤ memory.length)
    (h : Answerable (slice memory request requestLength)) :
    makeEchoReply memory request requestLength destination destinationCapacity =
      ⟨.ok, requestLength, overwrite memory destination (replyTo (slice memory request requestLength))⟩ := by
  have hlen : (slice memory request requestLength).length = requestLength := length_slice hrequest
  have h8 : 8 ≤ requestLength := by rw [← hlen]; exact h.length
  have hread : ∀ k, k + 1 < requestLength →
      readBe16 memory (request + k) = readBe16 (slice memory request requestLength) k := by
    intro k hk
    rw [readBe16, readBe16, getD_slice (by omega), getD_slice (by omega), Nat.add_assoc]
  unfold makeEchoReply
  rw [parseMessage_of_answerable h, hlen]
  dsimp only
  rw [if_neg (by simp; omega), if_neg (by omega),
    buildEcho_eq (.inr rfl) _ _ (by unfold echoHeaderLength; omega) (by unfold echoHeaderLength; omega)
      (by unfold echoHeaderLength; omega) hdestination, hread 4 (by omega), hread 6 (by omega), replyTo, drop_slice]
  unfold echoHeaderLength
  rw [show 8 + (requestLength - 8) = requestLength by omega]

theorem parseMessage_ok {message : Bytes} {parsed : Message} (h : parseMessage message = .ok parsed) :
    4 ≤ message.length ∧ checksum message = 0 ∧ parsed.type = message.getD 0 0 ∧ parsed.code = message.getD 1 0 ∧
      parsed.bodyLength = message.length - 4 := by
  unfold parseMessage headerLength at h
  split at h
  · cases h
  · split at h
    · cases h
    · next hlen hsum =>
      cases h
      exact ⟨by omega, not_not.mp hsum, rfl, rfl, rfl⟩

theorem parseMessage_ne_error_ok (message : Bytes) : parseMessage message ≠ .error .ok := by
  unfold parseMessage
  split
  · nofun
  · split <;> nofun

/-- The status for a message that has no reply. -/
def refusal (message : Bytes) : Status :=
  match parseMessage message with
  | .error status => status
  | .ok _ => .malformed

theorem refusal_ne_ok (message : Bytes) : refusal message ≠ .ok := by
  unfold refusal
  cases h : parseMessage message with
  | error status =>
    rintro rfl
    exact parseMessage_ne_error_ok message h
  | ok parsed => nofun

theorem makeEchoReply_of_not_answerable {memory : Bytes} {request requestLength : Nat}
    (h : ¬ Answerable (slice memory request requestLength)) (destination destinationCapacity : Nat) :
    makeEchoReply memory request requestLength destination destinationCapacity =
      .fail memory (refusal (slice memory request requestLength)) := by
  unfold makeEchoReply refusal
  cases hparse : parseMessage (slice memory request requestLength) with
  | error status => rfl
  | ok parsed =>
    obtain ⟨hlen, hsum, htype, hcode, hbody⟩ := parseMessage_ok hparse
    dsimp only
    split
    · rfl
    · next hcheck =>
      simp only [not_or, not_not, Nat.not_lt] at hcheck
      exact absurd ⟨by omega, hsum, htype ▸ hcheck.1, hcode ▸ hcheck.2.1⟩ h

theorem buildEcho_failed {memory : Bytes} {type : UInt8} {identifier sequence : UInt16}
    {payload payloadLength destination destinationCapacity : Nat}
    (h : (buildEcho memory type identifier sequence payload payloadLength destination
      destinationCapacity).status ≠ .ok) :
    (buildEcho memory type identifier sequence payload payloadLength destination destinationCapacity).memory =
        memory ∧
      (buildEcho memory type identifier sequence payload payloadLength destination destinationCapacity).length = 0 := by
  unfold buildEcho at h ⊢
  dsimp only at h ⊢
  split
  · exact ⟨rfl, rfl⟩
  · split
    · exact ⟨rfl, rfl⟩
    · split
      · exact ⟨rfl, rfl⟩
      · next h1 h2 h3 =>
        rw [if_neg h1, if_neg h2, if_neg h3] at h
        exact absurd rfl h

theorem makeEchoReply_failed {memory : Bytes} {request requestLength destination destinationCapacity : Nat}
    (h : (makeEchoReply memory request requestLength destination destinationCapacity).status ≠ .ok) :
    (makeEchoReply memory request requestLength destination destinationCapacity).memory = memory ∧
      (makeEchoReply memory request requestLength destination destinationCapacity).length = 0 := by
  unfold makeEchoReply at h ⊢
  cases hparse : parseMessage (slice memory request requestLength) with
  | error status => exact ⟨rfl, rfl⟩
  | ok parsed =>
    rw [hparse] at h
    dsimp only at h ⊢
    split
    · exact ⟨rfl, rfl⟩
    · split
      · exact ⟨rfl, rfl⟩
      · next h1 h2 =>
        rw [if_neg h1, if_neg h2] at h
        exact buildEcho_failed h

theorem makeEchoReply_of_replyTo {memory : Bytes} {request requestLength : Nat} {message : Bytes}
    (h : slice memory request requestLength = replyTo message) (destination destinationCapacity : Nat) :
    makeEchoReply memory request requestLength destination destinationCapacity = .fail memory .malformed := by
  unfold makeEchoReply
  rw [h, replyTo, parseMessage_echo]
  dsimp only
  rw [if_pos (.inl (by decide))]

/-! ## The round trip -/

/-- What a call with a request of at most 65535 bytes and room for its reply does. -/
structure Replies (memory : Bytes) (request requestLength destination : Nat) (r : Stored) : Prop where
  ok_iff : r.status = .ok ↔ Answerable (slice memory request requestLength)
  length : r.status = .ok → r.length = requestLength
  same : r.status = .ok → ∀ i, i ≠ 0 → i ≠ 2 → i ≠ 3 →
    (slice r.memory destination requestLength).getD i 0 = (slice memory request requestLength).getD i 0
  accepted : r.status = .ok →
    ∃ parsed, parseMessage (slice r.memory destination requestLength) = .ok parsed ∧ parsed.type = echoReply
  no_loop : r.status = .ok → ∀ memory' reply destination' destinationCapacity',
    slice memory' reply requestLength = slice r.memory destination requestLength →
    makeEchoReply memory' reply requestLength destination' destinationCapacity' = .fail memory' .malformed
  in_place : ∀ capacity', requestLength ≤ capacity' → request + capacity' ≤ memory.length →
    (makeEchoReply memory request requestLength request capacity').status = r.status ∧
    (makeEchoReply memory request requestLength request capacity').length = r.length ∧
    (r.status = .ok →
      slice (makeEchoReply memory request requestLength request capacity').memory request requestLength =
        slice r.memory destination requestLength)

theorem slice_reply {memory : Bytes} {request requestLength destination : Nat}
    (hrequest : request + requestLength ≤ memory.length) (hdestination : destination + requestLength ≤ memory.length)
    (h : Answerable (slice memory request requestLength)) :
    slice (overwrite memory destination (replyTo (slice memory request requestLength))) destination requestLength =
      replyTo (slice memory request requestLength) := by
  have hlen : (replyTo (slice memory request requestLength)).length = requestLength :=
    (length_replyTo h.length).trans (length_slice hrequest)
  have hread := @slice_overwrite _ memory (replyTo (slice memory request requestLength)) destination (by omega)
  rwa [hlen] at hread

theorem replies {memory : Bytes} {request requestLength destination destinationCapacity : Nat}
    (hrequest : request + requestLength ≤ memory.length) (hmax : requestLength ≤ 65535)
    (hcap : requestLength ≤ destinationCapacity) (hdestination : destination + destinationCapacity ≤ memory.length) :
    Replies memory request requestLength destination
      (makeEchoReply memory request requestLength destination destinationCapacity) := by
  by_cases h : Answerable (slice memory request requestLength)
  · rw [makeEchoReply_eq hrequest hmax hcap hdestination h]
    have hread := @slice_reply memory request requestLength destination hrequest (by omega) h
    refine ⟨⟨fun _ => h, fun _ => rfl⟩, fun _ => rfl, fun _ i h0 h2 h3 => ?_, fun _ => ?_, fun _ => ?_, ?_⟩
    · dsimp only
      rw [hread, getD_replyTo h h0 h2 h3]
    · dsimp only
      rw [hread]
      exact ⟨_, parseMessage_echo .., rfl⟩
    · intro memory' reply destination' destinationCapacity' hreply
      exact makeEchoReply_of_replyTo (hreply.trans hread) _ _
    · intro capacity' hcap' hfit
      rw [makeEchoReply_eq hrequest hmax hcap' hfit h]
      exact ⟨rfl, rfl, fun _ => (slice_reply hrequest hrequest h).trans hread.symm⟩
  · have hne : (Stored.fail memory (refusal (slice memory request requestLength))).status ≠ .ok := refusal_ne_ok _
    rw [makeEchoReply_of_not_answerable h]
    refine ⟨⟨fun hok => absurd hok hne, fun ha => absurd ha h⟩, fun hok => absurd hok hne, fun hok => absurd hok hne,
      fun hok => absurd hok hne, fun hok => absurd hok hne, fun capacity' _ _ => ?_⟩
    rw [makeEchoReply_of_not_answerable h]
    exact ⟨rfl, rfl, fun hok => absurd hok hne⟩

/-- **The echo round trip**: what is built is accepted, and requests are answered once, in place or not. -/
theorem echo_roundTrip (memory : Bytes) :
    (∀ type identifier sequence payload payloadLength destination destinationCapacity,
      type = echoReply ∨ type = echoRequest → payloadLength ≤ 65527 → payload + payloadLength ≤ memory.length →
      8 + payloadLength ≤ destinationCapacity → destination + destinationCapacity ≤ memory.length →
      ∃ memory' parsed, buildEcho memory type identifier sequence payload payloadLength destination
          destinationCapacity = ⟨.ok, 8 + payloadLength, memory'⟩ ∧
        parseMessage (slice memory' destination (8 + payloadLength)) = .ok parsed ∧
        parsed.type = type ∧ parsed.code = 0 ∧ parsed.bodyLength = 4 + payloadLength) ∧
    (∀ request requestLength destination destinationCapacity, request + requestLength ≤ memory.length →
      requestLength ≤ 65535 → requestLength ≤ destinationCapacity →
      destination + destinationCapacity ≤ memory.length →
      Replies memory request requestLength destination
        (makeEchoReply memory request requestLength destination destinationCapacity)) ∧
    ∀ request requestLength destination destinationCapacity,
      (makeEchoReply memory request requestLength destination destinationCapacity).status ≠ .ok →
      (makeEchoReply memory request requestLength destination destinationCapacity).memory = memory ∧
        (makeEchoReply memory request requestLength destination destinationCapacity).length = 0 := by
  refine ⟨?_, fun _ _ _ _ => replies, fun _ _ _ _ => makeEchoReply_failed⟩
  intro type identifier sequence payload payloadLength destination destinationCapacity htype hmax hpayload hcap hfit
  have hlen : (slice memory payload payloadLength).length = payloadLength := length_slice hpayload
  have hread := @slice_overwrite _ memory (echo type identifier sequence (slice memory payload payloadLength))
    destination (by rw [length_echo, hlen]; omega)
  rw [length_echo, hlen] at hread
  exact ⟨_, _, buildEcho_eq htype.symm identifier sequence hpayload hmax hcap hfit,
    (congrArg parseMessage hread).trans (parseMessage_echo ..), rfl, rfl, congrArg (4 + ·) hlen⟩

/-- The message of five payload bytes is built in front of its payload, and answered where it lies. -/
theorem echo_roundTrip_inPlace :
    ∃ memory, buildEcho [0, 0, 0, 0, 0, 0, 0, 0, 97, 98, 99, 100, 101] 8 0x1234 7 8 5 0 13 = ⟨.ok, 13, memory⟩ ∧
      (makeEchoReply memory 0 13 0 13).status = .ok := by
  obtain ⟨memory, parsed, hbuild, hparse, htype, hcode, -⟩ :=
    (echo_roundTrip [0, 0, 0, 0, 0, 0, 0, 0, 97, 98, 99, 100, 101]).1 8 0x1234 7 8 5 0 13 (.inr rfl) (by decide)
      (by decide) (by decide) (by decide)
  have hlen : memory.length = 13 := by
    have hstored := @buildEcho_eq [0, 0, 0, 0, 0, 0, 0, 0, 97, 98, 99, 100, 101] 8 (.inl rfl) 0x1234 7 8 5 0 13
      (by decide) (by decide) (by decide) (by decide)
    rw [hbuild] at hstored
    injection hstored with _ _ hmemory
    rw [hmemory, length_overwrite]
    rfl
  obtain ⟨h4, hsum, htype', hcode', -⟩ := parseMessage_ok hparse
  have hreplies := (echo_roundTrip memory).2.1 0 13 0 13 (by omega) (by decide) (by decide) (by omega)
  refine ⟨memory, hbuild, hreplies.ok_iff.mpr ⟨?_, hsum, htype' ▸ htype, hcode' ▸ hcode⟩⟩
  rw [length_slice (by omega)]
  decide

end TcpipCourse.L04
