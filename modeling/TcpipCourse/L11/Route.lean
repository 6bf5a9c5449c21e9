import TcpipCourse.Common
import TcpipCourse.Lib.Scan

/-!
# Lesson 11: longest-prefix routing

* `Route` : `tcpip_l11_route`, without the next hop and the interface, which the lookup does not read;
* `routeIsCanonical`, `prefixMatches` : the checks on one route;
* `longestPrefix` : the lookup. Longer prefixes win, then lower metrics, then earlier routes.
-/

namespace TcpipCourse.L11
open Lib

structure Route where
  network : Ipv4Address
  prefixLength : UInt8
  metric : UInt32
  deriving DecidableEq

/-- No bit of the network is set behind the prefix. -/
def routeIsCanonical (route : Route) : Bool :=
  if route.prefixLength > 32 then false
  else
    let wholeBytes := route.prefixLength.toNat / 8
    let remainingBits := route.prefixLength.toNat % 8
    if remainingBits ≠ 0 then
      let hostMask := ((1 : UInt8) <<< UInt8.ofNat (8 - remainingBits)) - 1
      if route.network.toList.getD wholeBytes 0 &&& hostMask ≠ 0 then false
      else (route.network.toList.drop (wholeBytes + 1)).all (· = 0)
    else (route.network.toList.drop wholeBytes).all (· = 0)

def prefixMatches (network destination : Ipv4Address) (prefixLength : UInt8) : Bool :=
  let wholeBytes := prefixLength.toNat / 8
  let remainingBits := prefixLength.toNat % 8
  if network.toList.take wholeBytes ≠ destination.toList.take wholeBytes then false
  else if remainingBits = 0 then true
  else
    let mask := (0xff : UInt8) <<< UInt8.ofNat (8 - remainingBits)
    network.toList.getD wholeBytes 0 &&& mask = destination.toList.getD wholeBytes 0 &&& mask

def isBetter (candidate best : Route) : Bool :=
  candidate.prefixLength > best.prefixLength ||
    (candidate.prefixLength = best.prefixLength && candidate.metric < best.metric)

/-- The second loop of `tcpip_l11_longest_prefix`; `none` stands for `SIZE_MAX`. -/
def scanRoutes (destinationIp : Ipv4Address) (routes : List Route) : Option (Nat × Route) :=
  scanBest (fun candidate =>
    if prefixMatches candidate.network destinationIp candidate.prefixLength then some candidate else none)
    isBetter routes

/-- On an error `*index` is `SIZE_MAX`. -/
def longestPrefix (routes : List Route) (destinationIp : Ipv4Address) : Except Status Nat :=
  if routes.any fun route => !routeIsCanonical route then .error .malformed
  else match scanRoutes destinationIp routes with
    | none => .error .truncated
    | some (best, _) => .ok best

end TcpipCourse.L11
