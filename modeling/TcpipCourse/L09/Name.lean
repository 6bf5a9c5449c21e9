import TcpipCourse.Common
import TcpipCourse.Lib.Span
import TcpipCourse.Lib.Words

/-!
# Lesson 09: domain names

The two name functions of the lesson, as the code computes them.

* `decodeNameInternal` : one turn of the loop is `decodeStep`, the loop is `decodeLoop`;
* `decodeName` : the checks and the copy around it;
* `encodeName` : a pass that checks and sizes the labels (`sizeLabels`) and a pass that writes them
  (`writeLabels`).

A span argument is always there, so the `NULL` checks have no counterpart; an output buffer is given by its
contents and its capacity is their length.
-/

namespace TcpipCourse.L09
open Lib

def maxWireName : Nat := 255

def maxTextName : Nat := 253

def pointerSpace : Nat := 16384

def visitedBytes : Nat := pointerSpace / 8

def maxPointerHops : Nat := 128

def maxLabel : Nat := 63

def dot : UInt8 := 46

/-! ## The bitmap of visited targets -/

abbrev Visited := Vector UInt8 visitedBytes

theorem byteIndex_lt (offset : Fin pointerSpace) : offset.val / 8 < visitedBytes := by
  have := offset.isLt
  unfold pointerSpace at this
  unfold visitedBytes pointerSpace
  omega

def visitedGet (visited : Visited) (offset : Fin pointerSpace) : Bool :=
  (visited.get ⟨offset.val / 8, byteIndex_lt offset⟩ &&& (1 <<< UInt8.ofNat (offset.val % 8))) != 0

def visitedSet (visited : Visited) (offset : Fin pointerSpace) : Visited :=
  let byteIndex := ⟨offset.val / 8, byteIndex_lt offset⟩
  visited.set byteIndex.val (visited.get byteIndex ||| (1 <<< UInt8.ofNat (offset.val % 8))) byteIndex.isLt

/-! ## Decoding -/

/-- The locals of the loop. `decoded` holds the first `result_len` bytes of the array; `nextOffset` is the
stored `*next_offset` once `jumped` is set. -/
structure DecodeState where
  cursor : Nat
  decoded : Bytes
  expandedWireLen : Nat
  pointerHops : Nat
  visited : Visited
  nextOffset : Option Nat

/-- What `OK` leaves: `decoded` up to and with its NUL, and `*next_offset`. `decoded_len` is one less than
the length of `decoded`. -/
structure DecodedName where
  decoded : Bytes
  nextOffset : Nat
  deriving DecidableEq, Repr

/-- How one turn of `for (;;)` ends. -/
inductive Turn where
  | fail (status : Status)
  | done (name : DecodedName)
  | again (st : DecodeState)

theorem toNat_and_0x3f_lt (length : UInt8) : (length &&& 0x3f).toNat < 64 := by
  rw [UInt8.toNat_and, show UInt8.toNat 0x3f = 2 ^ 6 - 1 from rfl, Nat.and_two_pow_sub_one_eq_mod]
  omega

/-- The fourteen low bits of a compression pointer. -/
def pointerTarget (length low : UInt8) : Fin pointerSpace :=
  ⟨(be16 (length &&& 0x3f) low).toNat, by
    have h1 := toNat_and_0x3f_lt length
    have h2 := low.toNat_lt
    rw [toNat_be16]
    unfold pointerSpace
    omega⟩

/-- The branch of a byte whose two top bits are set. -/
def followPointer (message : Bytes) (st : DecodeState) (length : UInt8) : Turn :=
  if message.length - st.cursor < 2 then .fail .truncated
  else
    let target := pointerTarget length (message.getD (st.cursor + 1) 0)
    if target.val ≥ message.length then .fail .malformed
    else
      let nextOffset := st.nextOffset.getD (st.cursor + 2)
      if visitedGet st.visited target then .fail .malformed
      else
        let pointerHops := st.pointerHops + 1
        if pointerHops > maxPointerHops then .fail .malformed
        else .again { st with cursor := target.val, nextOffset := some nextOffset,
                              visited := visitedSet st.visited target, pointerHops := pointerHops }

/-- The separator, the two text checks and the `memcpy` of a label. -/
def appendLabel (decoded label : Bytes) : Except Status Bytes :=
  if decoded.length ≠ 0 ∧ decoded.length ≥ maxTextName then .error .malformed
  else
    let decoded := if decoded.length ≠ 0 then decoded ++ [dot] else decoded
    if label.length > maxTextName - decoded.length then .error .malformed
    else .ok (decoded ++ label)

/-- The branch of a nonzero length below 64, with the cursor already past it. -/
def copyLabel (message : Bytes) (st : DecodeState) (length : UInt8) : Turn :=
  let cursor := st.cursor + 1
  if length.toNat > message.length - cursor then .fail .truncated
  else if st.expandedWireLen > maxWireName - (length.toNat + 1) then .fail .malformed
  else match appendLabel st.decoded (slice message cursor length.toNat) with
    | .error status => .fail status
    | .ok decoded => .again { st with cursor := cursor + length.toNat, decoded := decoded,
                                      expandedWireLen := st.expandedWireLen + (length.toNat + 1) }

/-- One turn of the loop. -/
def decodeStep (message : Bytes) (st : DecodeState) : Turn :=
  if st.cursor ≥ message.length then .fail .truncated
  else
    let length := message.getD st.cursor 0
    if length &&& 0xc0 = 0xc0 then followPointer message st length
    else if length &&& 0xc0 ≠ 0 then .fail .malformed
    else if length = 0 then
      if st.expandedWireLen + 1 > maxWireName then .fail .malformed
      else .done ⟨st.decoded ++ [0], st.nextOffset.getD (st.cursor + 1)⟩
    else copyLabel message st length

/-- What is left of the hop and of the wire limit; every turn that goes on uses some of it. -/
def DecodeState.budget (st : DecodeState) : Nat :=
  (maxPointerHops + 1 - st.pointerHops) + (maxWireName + 1 - st.expandedWireLen)

/-- The pointer branch goes on only with a target inside the message, not met before, and a hop to spare. -/
theorem followPointer_again {message : Bytes} {st st' : DecodeState} {length : UInt8}
    (h : followPointer message st length = .again st') :
    let target := pointerTarget length (message.getD (st.cursor + 1) 0)
    st.cursor + 1 < message.length ∧ target.val < message.length ∧ visitedGet st.visited target = false ∧
      st.pointerHops < maxPointerHops ∧
      st' = { st with cursor := target.val, nextOffset := some (st.nextOffset.getD (st.cursor + 2)),
                      visited := visitedSet st.visited target, pointerHops := st.pointerHops + 1 } := by
  unfold followPointer at h
  dsimp only at h ⊢
  split at h
  · cases h
  · split at h
    · cases h
    · split at h
      · cases h
      · next hvis =>
        split at h
        · cases h
        · cases h
          exact ⟨by omega, by omega, Bool.eq_false_iff.mpr hvis, by omega, rfl⟩

/-- The label branch goes on only with a label inside the message and both limits respected. -/
theorem copyLabel_again {message : Bytes} {st st' : DecodeState} {length : UInt8}
    (h : copyLabel message st length = .again st') :
    length.toNat ≤ message.length - (st.cursor + 1) ∧
      st.expandedWireLen ≤ maxWireName - (length.toNat + 1) ∧
      ∃ decoded, appendLabel st.decoded (slice message (st.cursor + 1) length.toNat) = .ok decoded ∧
        st' = { st with cursor := st.cursor + 1 + length.toNat, decoded := decoded,
                        expandedWireLen := st.expandedWireLen + (length.toNat + 1) } := by
  unfold copyLabel at h
  dsimp only at h
  split at h
  · cases h
  · split at h
    · cases h
    · split at h
      · cases h
      · next decoded hok =>
        cases h
        exact ⟨by omega, by omega, decoded, hok, rfl⟩

theorem topBits_iff (b : UInt8) : (b &&& 0xc0 = 0 ↔ b.toNat < 64) ∧ (b &&& 0xc0 = 0xc0 ↔ 192 ≤ b.toNat) := by
  have hall : ∀ i : Fin 256, (UInt8.ofNat i.val &&& 0xc0 = 0 ↔ i.val < 64) ∧
      (UInt8.ofNat i.val &&& 0xc0 = 0xc0 ↔ 192 ≤ i.val) := by decide +kernel
  have h := hall ⟨b.toNat, b.toNat_lt⟩
  rwa [UInt8.ofNat_toNat] at h

theorem decodeStep_again {message : Bytes} {st st' : DecodeState} (h : decodeStep message st = .again st') :
    ∃ length, message[st.cursor]? = some length ∧
      (192 ≤ length.toNat ∧ followPointer message st length = .again st' ∨
        length ≠ 0 ∧ length.toNat < 64 ∧ copyLabel message st length = .again st') := by
  unfold decodeStep at h
  split at h
  · cases h
  · next hin =>
    refine ⟨message.getD st.cursor 0, ?_, ?_⟩
    · rw [List.getElem?_eq_getElem (by omega), List.getD_eq_getElem]
    · dsimp only at h
      split at h
      · next htop => exact .inl ⟨(topBits_iff _).2.mp htop, h⟩
      · split at h
        · cases h
        · next htop =>
          split at h
          · split at h <;> cases h
          · next h0 => exact .inr ⟨h0, (topBits_iff _).1.mp (not_not.mp htop), h⟩

theorem decodeStep_budget {message : Bytes} {st st' : DecodeState} (h : decodeStep message st = .again st') :
    st'.budget < st.budget := by
  obtain ⟨length, -, ⟨-, hp⟩ | ⟨-, h64, hl⟩⟩ := decodeStep_again h
  · obtain ⟨-, -, -, hhops, rfl⟩ := followPointer_again hp
    unfold DecodeState.budget maxPointerHops at *
    dsimp only
    omega
  · obtain ⟨-, hwire, decoded, -, rfl⟩ := copyLabel_again hl
    unfold DecodeState.budget maxWireName at *
    dsimp only
    omega

/-- `for (;;)` -/
def decodeLoop (message : Bytes) (st : DecodeState) : Except Status DecodedName :=
  match _h : decodeStep message st with
  | .fail status => .error status
  | .done name => .ok name
  | .again st' => decodeLoop message st'
termination_by st.budget
decreasing_by exact decodeStep_budget (by assumption)

def decodeInit (offset : Nat) : DecodeState :=
  { cursor := offset, decoded := [], expandedWireLen := 0, pointerHops := 0,
    visited := Vector.replicate visitedBytes 0, nextOffset := none }

def decodeNameInternal (message : Bytes) (offset : Nat) : Except Status DecodedName :=
  decodeLoop message (decodeInit offset)

/-- What `tcpip_l09_decode_name` leaves in the output buffer and behind its two pointers. -/
structure DecodeResult where
  status : Status
  out : Bytes
  nextOffset : Nat
  written : Nat
  deriving DecidableEq, Repr

def decodeName (message : Bytes) (offset : Nat) (out : Bytes) : DecodeResult :=
  if offset ≥ message.length then ⟨.truncated, out, 0, 0⟩
  else match decodeNameInternal message offset with
    | .error status => ⟨status, out, 0, 0⟩
    | .ok name =>
      if name.decoded.length > out.length then ⟨.capacity, out, 0, 0⟩
      else ⟨.ok, overwrite out 0 name.decoded, name.nextOffset, name.decoded.length - 1⟩

/-! ## Encoding -/

/-- The check of one label and the wire length with it. -/
def sizeLabel (labelLen encodedLen : Nat) : Except Status Nat :=
  if labelLen = 0 ∨ labelLen > maxLabel then .error .malformed
  else if encodedLen > maxWireName - (labelLen + 1) then .error .malformed
  else .ok (encodedLen + (labelLen + 1))

/-- The first pass from `inputIndex` on; `rest` is the name from there to `input_end`. -/
def sizeLabels : (rest : Bytes) → (inputIndex labelStart encodedLen : Nat) → Except Status (Nat × Nat)
  | [], _, labelStart, encodedLen => .ok (labelStart, encodedLen)
  | c :: rest, inputIndex, labelStart, encodedLen =>
    if c = 0 then .error .malformed
    else if c = dot then
      match sizeLabel (inputIndex - labelStart) encodedLen with
      | .error status => .error status
      | .ok encodedLen => sizeLabels rest (inputIndex + 1) (inputIndex + 1) encodedLen
    else sizeLabels rest (inputIndex + 1) labelStart encodedLen

/-- Where the output buffer is and how far it has been written. -/
structure Writer where
  out : Bytes
  outputIndex : Nat
  deriving DecidableEq, Repr

/-- The length byte and the bytes of a label; an empty label writes nothing. -/
def writeLabel (name : Bytes) (labelStart labelLen : Nat) (w : Writer) : Writer :=
  if labelLen ≠ 0 then
    { out := overwrite (overwrite w.out w.outputIndex [UInt8.ofNat labelLen]) (w.outputIndex + 1)
        (slice name labelStart labelLen),
      outputIndex := w.outputIndex + 1 + labelLen }
  else w

/-- The second pass from `inputIndex` on, which also visits `input_end`. -/
def writeLabels (name : Bytes) : (rest : Bytes) → (inputIndex labelStart : Nat) → Writer → Writer
  | [], inputIndex, labelStart, w => writeLabel name labelStart (inputIndex - labelStart) w
  | c :: rest, inputIndex, labelStart, w =>
    if c = dot then
      writeLabels name rest (inputIndex + 1) (inputIndex + 1)
        (writeLabel name labelStart (inputIndex - labelStart) w)
    else writeLabels name rest (inputIndex + 1) labelStart w

structure EncodeResult where
  status : Status
  out : Bytes
  written : Nat
  deriving DecidableEq, Repr

/-- A lone dot is the root; any other name loses one trailing dot. -/
def inputEnd (name : Bytes) : Nat :=
  if name.length = 1 ∧ name.getD 0 0 = dot then 0
  else if name.length ≠ 0 ∧ name.getD (name.length - 1) 0 = dot then name.length - 1
  else name.length

/-- The checks before the capacity check: the wire length of the name up to `input_end`. -/
def encodedLength (name : Bytes) : Except Status Nat :=
  match sizeLabels (name.take (inputEnd name)) 0 0 1 with
  | .error status => .error status
  | .ok (labelStart, encodedLen) =>
    if inputEnd name ≠ 0 then sizeLabel (inputEnd name - labelStart) encodedLen else .ok encodedLen

def encodeName (name out : Bytes) : EncodeResult :=
  match encodedLength name with
  | .error status => ⟨status, out, 0⟩
  | .ok encodedLen =>
    if encodedLen > out.length then ⟨.capacity, out, 0⟩
    else if inputEnd name = 0 then ⟨.ok, overwrite out 0 [0], 1⟩
    else
      let w := writeLabels name (name.take (inputEnd name)) 0 0 ⟨out, 0⟩
      ⟨.ok, overwrite w.out w.outputIndex [0], w.outputIndex + 1⟩

end TcpipCourse.L09
