import Mathlib.Algebra.Ring.Nat
import Mathlib.Data.List.Basic

/-!
# Status codes and byte spans shared by the lessons

Every lesson declares its own `tcpip_lNN_status`; the codes have the same names and values, so one
type serves for all of them. A C function that writes its output only on `OK` and leaves it zeroed
otherwise returns `Except Status`; one whose output matters on every path returns it explicitly.
`TODO` is returned by the starter files only and is left out.
-/

namespace TcpipCourse

/-- `tcpip_lNN_status`: the last three codes are those of the lessons with sockets. -/
inductive Status where
  | ok
  | invalidArgument
  | truncated
  | malformed
  | capacity
  | eof
  | timeout
  | system
  deriving DecidableEq, Repr

/-- A `const uint8_t *` with its explicit length. -/
abbrev Bytes := List UInt8

abbrev Ipv4Address := Vector UInt8 4

/-- `SIZE_MAX` on the 64-bit targets of the course. -/
def sizeMax : Nat := 18446744073709551615

def uint16Max : Nat := 65535

theorem toNat_length16 {n : Nat} (h : n ≤ uint16Max) : (UInt16.ofNat n).toNat = n :=
  UInt16.toNat_ofNat_of_lt' (Nat.lt_succ_of_le h)

def uint32Max : Nat := 4294967295

def uint64Max : Nat := 18446744073709551615

end TcpipCourse
