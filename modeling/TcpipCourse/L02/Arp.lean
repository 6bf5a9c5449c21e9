import TcpipCourse.Common
import TcpipCourse.Lib.Span
import TcpipCourse.Lib.Words

/-!
# Lesson 02: ARP packets

* `parseArp` : the parser of IPv4-over-Ethernet ARP, over a span that may be longer than the packet;
* `parseArp_ok_iff` : which spans it accepts.
-/

namespace TcpipCourse.L02
open Lib

def macLength : Nat := 6

def ipv4Length : Nat := 4

def arpPacketLength : Nat := 28

def readBe16At (data : Bytes) (offset : Nat) : UInt16 := be16 (data.getD offset 0) (data.getD (offset + 1) 0)

structure ArpPacket where
  hardwareType : UInt16
  protocolType : UInt16
  hardwareAddressLength : UInt8
  protocolAddressLength : UInt8
  operation : UInt16
  senderMac : Bytes
  senderIp : Bytes
  targetMac : Bytes
  targetIp : Bytes
  deriving DecidableEq, Repr

/-- The fields that are fixed for IPv4 over Ethernet, and the two operations. -/
def SupportedArp (data : Bytes) : Prop :=
  readBe16At data 0 = 1 ∧ readBe16At data 2 = 0x0800 ∧ data.getD 4 0 = 6 ∧ data.getD 5 0 = 4 ∧
    (readBe16At data 6 = 1 ∨ readBe16At data 6 = 2)

/-- On an error the output packet is zeroed. -/
def parseArp (data : Bytes) : Except Status ArpPacket :=
  if data.length < arpPacketLength then .error .truncated
  else if readBe16At data 0 ≠ 1 ∨ readBe16At data 2 ≠ 0x0800 ∨ data.getD 4 0 ≠ 6 ∨ data.getD 5 0 ≠ 4 ∨
      (readBe16At data 6 ≠ 1 ∧ readBe16At data 6 ≠ 2) then .error .malformed
  else .ok
    { hardwareType := readBe16At data 0
      protocolType := readBe16At data 2
      hardwareAddressLength := data.getD 4 0
      protocolAddressLength := data.getD 5 0
      operation := readBe16At data 6
      senderMac := slice data 8 macLength
      senderIp := slice data 14 ipv4Length
      targetMac := slice data 18 macLength
      targetIp := slice data 24 ipv4Length }

theorem parseArp_ok_iff (data : Bytes) :
    (∃ packet, parseArp data = .ok packet) ↔ arpPacketLength ≤ data.length ∧ SupportedArp data := by
  have hfields : ¬ (readBe16At data 0 ≠ 1 ∨ readBe16At data 2 ≠ 0x0800 ∨ data.getD 4 0 ≠ 6 ∨ data.getD 5 0 ≠ 4 ∨
      (readBe16At data 6 ≠ 1 ∧ readBe16At data 6 ≠ 2)) ↔ SupportedArp data := by
    unfold SupportedArp
    simp only [ne_eq, not_or, not_and_or, not_not]
  unfold parseArp
  by_cases hshort : data.length < arpPacketLength
  · rw [if_pos hshort]
    apply iff_of_false
    · rintro ⟨_, hok⟩
      cases hok
    · rintro ⟨hlen, -⟩
      omega
  rw [if_neg hshort]
  by_cases hok : SupportedArp data
  · rw [if_neg (hfields.mpr hok)]
    exact iff_of_true ⟨_, rfl⟩ ⟨by omega, hok⟩
  · rw [if_pos (not_not.mp (mt hfields.mp hok))]
    apply iff_of_false
    · rintro ⟨_, hok⟩
      cases hok
    · exact fun h => hok h.2

end TcpipCourse.L02
