import TcpipCourse.L09.Encode

/-!
# Lesson 09: queries and answers

* `buildQuery` : a query with one question; `queryBytes` : its layout, and `buildQuery_ok` : it is what is built;
* `parseMessage` : the fixed header of a message;
* `firstA` : the walk to the first A record, with one definition for each of its two loops (`skipQuestions`,
  `scanAnswers`).
-/

namespace TcpipCourse.L09
open Lib

def dnsHeaderSize : Nat := 12

def readU16 (bytes : Bytes) (offset : Nat) : UInt16 := be16 (bytes.getD offset 0) (bytes.getD (offset + 1) 0)

def readU32 (bytes : Bytes) (offset : Nat) : UInt32 :=
  be32 (bytes.getD offset 0) (bytes.getD (offset + 1) 0) (bytes.getD (offset + 2) 0) (bytes.getD (offset + 3) 0)

/-! ## The query -/

/-- The stores of `tcpip_l09_build_query`. -/
def storeQuery (id : UInt16) (encodedName : Bytes) (qtype : UInt16) (out : Bytes) : Bytes :=
  let out := overwrite out 0 (List.replicate dnsHeaderSize 0)
  let out := overwrite out 0 (be16Bytes id)
  let out := overwrite out 2 (be16Bytes 0x0100)
  let out := overwrite out 4 (be16Bytes 1)
  let out := overwrite out dnsHeaderSize encodedName
  let out := overwrite out (dnsHeaderSize + encodedName.length) (be16Bytes qtype)
  overwrite out (dnsHeaderSize + encodedName.length + 2) (be16Bytes 1)

def buildQuery (id : UInt16) (name : Bytes) (qtype : UInt16) (out : Bytes) : EncodeResult :=
  if qtype = 0 then ⟨.invalidArgument, out, 0⟩
  else
    let encoded := encodeName name (List.replicate maxWireName 0)
    if encoded.status ≠ .ok then ⟨encoded.status, out, 0⟩
    else
      let totalLen := dnsHeaderSize + encoded.written + 4
      if totalLen > out.length then ⟨.capacity, out, 0⟩
      else ⟨.ok, storeQuery id (encoded.out.take encoded.written) qtype out, totalLen⟩

/-- The header, the name, and the type and class of a query. -/
def queryBytes (id : UInt16) (encodedName : Bytes) (qtype : UInt16) : Bytes :=
  be16Bytes id ++ be16Bytes 0x0100 ++ be16Bytes 1 ++ List.replicate 6 0 ++ encodedName ++
    (be16Bytes qtype ++ be16Bytes 1)

@[simp] theorem length_queryBytes (id : UInt16) (encodedName : Bytes) (qtype : UInt16) :
    (queryBytes id encodedName qtype).length = dnsHeaderSize + encodedName.length + 4 := by
  simp [queryBytes, dnsHeaderSize]
  omega

/-- The stores fill the front of a buffer that is long enough. -/
theorem storeQuery_eq (id : UInt16) (encodedName : Bytes) (qtype : UInt16) {out : Bytes}
    (hcap : dnsHeaderSize ≤ out.length) :
    storeQuery id encodedName qtype out = overwrite out 0 (queryBytes id encodedName qtype) := by
  let head : Bytes := be16Bytes id ++ be16Bytes 0x0100 ++ be16Bytes 1 ++ List.replicate 6 0
  have hlen : head.length = dnsHeaderSize := rfl
  have hzero : overwrite out 0 (List.replicate dnsHeaderSize 0) = List.replicate 12 0 ++ out.drop 12 :=
    overwrite_zero_append out _ (by rwa [List.length_replicate])
  have hhead : overwrite (overwrite (overwrite (overwrite out 0 (List.replicate dnsHeaderSize 0)) 0 (be16Bytes id)) 2
      (be16Bytes 0x0100)) 4 (be16Bytes 1) = overwrite out 0 head := by
    rw [hzero, overwrite_zero_append out head (by rwa [hlen])]
    rfl
  have hname : ∀ body, overwrite (overwrite out 0 head) dnsHeaderSize body = overwrite out 0 (head ++ body) := by
    intro body
    have hjoin := overwrite_overwrite out 0 head body
    rwa [hlen, Nat.zero_add] at hjoin
  unfold storeQuery
  dsimp only
  rw [hhead, show dnsHeaderSize + encodedName.length + 2 =
    dnsHeaderSize + (encodedName ++ be16Bytes qtype).length by rw [List.length_append, length_be16Bytes, Nat.add_assoc],
    overwrite_overwrite, overwrite_overwrite, hname]
  unfold queryBytes
  simp only [head, List.append_assoc]

theorem buildQuery_ok (id : UInt16) {name : Bytes} {qtype : UInt16} (hqtype : qtype ≠ 0)
    (hvalid : ∀ label ∈ textLabels (withoutDot name), ValidLabel label)
    (hwire : wireLength (textLabels (withoutDot name)) ≤ 255) {out : Bytes}
    (hcap : dnsHeaderSize + wireLength (textLabels (withoutDot name)) + 4 ≤ out.length) :
    buildQuery id name qtype out =
      ⟨.ok, overwrite out 0 (queryBytes id (wireName (textLabels (withoutDot name))) qtype),
        dnsHeaderSize + wireLength (textLabels (withoutDot name)) + 4⟩ := by
  have hencoded := @encodeName_ok name (List.replicate maxWireName 0) hvalid hwire (by rwa [List.length_replicate])
  have hlen := length_wireName (textLabels (withoutDot name))
  have htake : (overwrite (List.replicate maxWireName 0) 0 (wireName (textLabels (withoutDot name)))).take
      (wireLength (textLabels (withoutDot name))) = wireName (textLabels (withoutDot name)) := by
    rw [← hlen]
    apply take_overwrite_zero
    rwa [hlen, List.length_replicate]
  unfold buildQuery
  rw [if_neg hqtype, hencoded]
  dsimp only
  rw [if_neg (not_not.mpr rfl), if_neg (by omega), htake, storeQuery_eq _ _ _ (by omega)]

/-! ## The header -/

structure DnsHeader where
  id : UInt16
  flags : UInt16
  questionCount : UInt16
  answerCount : UInt16
  authorityCount : UInt16
  additionalCount : UInt16
  rcode : UInt8
  deriving DecidableEq, Repr

/-- On an error the output header is zeroed. -/
def parseMessage (message : Bytes) : Except Status DnsHeader :=
  if message.length < dnsHeaderSize then .error .truncated
  else
    let flags := readU16 message 2
    .ok
      { id := readU16 message 0
        flags := flags
        questionCount := readU16 message 4
        answerCount := readU16 message 6
        authorityCount := readU16 message 8
        additionalCount := readU16 message 10
        rcode := (flags &&& 0x000f).toUInt8 }

/-! ## The first A record -/

/-- The name at `cursor`, of which only the next offset is used: the text goes to `ignored_name`. -/
def skipName (message : Bytes) (cursor : Nat) : Except Status Nat :=
  let name := decodeName message cursor (List.replicate (maxTextName + 1) 0)
  if name.status ≠ .ok then .error name.status else .ok name.nextOffset

/-- The loop over the questions, from `cursor` on. -/
def skipQuestions (message : Bytes) : (count cursor : Nat) → Except Status Nat
  | 0, cursor => .ok cursor
  | count + 1, cursor =>
    match skipName message cursor with
    | .error status => .error status
    | .ok cursor =>
      if cursor > message.length ∨ message.length - cursor < 4 then .error .truncated
      else skipQuestions message count (cursor + 4)

/-- What the loop over the answers reads of one record, with the cursor behind its fixed fields. -/
structure RecordFields where
  type : UInt16
  recordClass : UInt16
  recordTtl : UInt32
  dataLen : UInt16
  cursor : Nat
  deriving DecidableEq, Repr

/-- A record up to the check of its data length. -/
def readRecord (message : Bytes) (cursor : Nat) : Except Status RecordFields :=
  match skipName message cursor with
  | .error status => .error status
  | .ok cursor =>
    if cursor > message.length ∨ message.length - cursor < 10 then .error .truncated
    else
      let dataLen := readU16 message (cursor + 8)
      if dataLen.toNat > message.length - (cursor + 10) then .error .truncated
      else .ok
        { type := readU16 message cursor
          recordClass := readU16 message (cursor + 2)
          recordTtl := readU32 message (cursor + 4)
          dataLen := dataLen
          cursor := cursor + 10 }

/-- What is returned with `OK`: the four bytes of `out`, and `*ttl`. -/
structure Answer where
  out : Bytes
  ttl : UInt32
  deriving DecidableEq, Repr

/-- The loop over the answers, from `cursor` on. -/
def scanAnswers (message : Bytes) : (count cursor : Nat) → Except Status Answer
  | 0, _ => .error .malformed
  | count + 1, cursor =>
    match readRecord message cursor with
    | .error status => .error status
    | .ok record =>
      if record.type = 1 ∧ record.recordClass = 1 then
        if record.dataLen ≠ 4 then .error .malformed
        else .ok ⟨slice message record.cursor 4, record.recordTtl⟩
      else scanAnswers message count (record.cursor + record.dataLen.toNat)

/-- On an error the address and the TTL are zeroed. -/
def firstA (message : Bytes) : Except Status Answer :=
  match parseMessage message with
  | .error status => .error status
  | .ok header =>
    if header.flags &&& 0x8000 = 0 ∨ header.flags &&& 0x7800 ≠ 0 ∨ header.flags &&& 0x0040 ≠ 0 then .error .malformed
    else if header.flags &&& 0x0200 ≠ 0 then .error .truncated
    else if header.rcode ≠ 0 then .error .malformed
    else
      match skipQuestions message header.questionCount.toNat dnsHeaderSize with
      | .error status => .error status
      | .ok cursor => scanAnswers message header.answerCount.toNat cursor

end TcpipCourse.L09
