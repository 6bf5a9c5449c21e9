import TcpipCourse.Common
import TcpipCourse.Lib.Words

/-!
# Lesson 01: networks

* `prefixContains` : an address against a network, the bits behind the whole bytes under a mask;
* `any_ne_iff` : its loop compares two spans.
-/

namespace TcpipCourse.L01
open Lib

/-- `out_contains` is `false` on an error. -/
def prefixContains (address network : Bytes) (prefixLength : UInt8) : Except Status Bool :=
  if address.length < 4 ∨ network.length < 4 then .error .truncated
  else if prefixLength > 32 then .error .invalidArgument
  else
    let fullBytes := prefixLength.toNat / 8
    let remainingBits := prefixLength.toNat % 8
    if (List.range fullBytes).any fun index => address.getD index 0 ≠ network.getD index 0 then .ok false
    else if remainingBits ≠ 0 then
      let mask := (0xff : UInt8) <<< UInt8.ofNat (8 - remainingBits)
      if address.getD fullBytes 0 &&& mask ≠ network.getD fullBytes 0 &&& mask then .ok false else .ok true
    else .ok true

theorem any_ne_iff {address network : Bytes} {n : Nat} (haddress : n ≤ address.length) (hnetwork : n ≤ network.length) :
    ((List.range n).any fun index => address.getD index 0 ≠ network.getD index 0) = true ↔
      network.take n ≠ address.take n := by
  rw [List.any_eq_true]
  constructor
  · rintro ⟨index, hindex, hne⟩ heq
    rw [decide_eq_true_eq] at hne
    exact hne (getD_eq_of_take_eq heq.symm (List.mem_range.mp hindex) 0)
  · intro hne
    by_contra hall
    apply hne
    have hget : ∀ index < n, network.getD index 0 = address.getD index 0 := by
      intro index hindex
      by_contra hdiffer
      exact hall ⟨index, List.mem_range.mpr hindex, decide_eq_true (Ne.symm hdiffer)⟩
    exact @slice_congr _ network address 0 n 0 (by omega) (by omega) fun i _ hi => hget i (by omega)

end TcpipCourse.L01
