import TcpipCourse.Lib.Blocks
import TcpipCourse.L01.Prefix
import TcpipCourse.L11.Lookup

/-!
# Lesson 11: the blocks of a routing table

* `block` : the addresses that lesson 01 finds in the network of a route;
* `prefixContains_eq` : the test of lesson 01 is that of the lookup;
* `block_subset`, `block_nested` : blocks that meet are nested;
* `longestPrefix_innermost` : the lookup finds the innermost block, and finds the same for every address that is in
  no smaller one.
-/

namespace TcpipCourse.L11
open Lib
open L01 (prefixContains)

/-- The addresses in the network of a route. -/
def block (route : Route) : Set Ipv4Address :=
  {address | prefixContains address.toList route.network.toList route.prefixLength = .ok true}

/-- The two lessons compare an address with a network in the same way. -/
theorem prefixContains_eq (address network : Ipv4Address) {prefixLength : UInt8} (h : prefixLength.toNat ≤ 32) :
    prefixContains address.toList network.toList prefixLength = .ok (prefixMatches network address prefixLength) := by
  have h32 : ¬ prefixLength > 32 := by
    rw [gt_iff_lt, UInt8.lt_iff_toNat_lt, show UInt8.toNat 32 = 32 from rfl]
    omega
  have hbytes := @L01.any_ne_iff address.toList network.toList (prefixLength.toNat / 8)
    (by rw [length_address]; omega) (by rw [length_address]; omega)
  unfold prefixContains prefixMatches
  rw [if_neg (by rw [length_address, length_address]; omega), if_neg h32]
  dsimp only
  by_cases hwhole : network.toList.take (prefixLength.toNat / 8) ≠ address.toList.take (prefixLength.toNat / 8)
  · rw [if_pos (hbytes.mpr hwhole), if_pos hwhole]
  · rw [if_neg (mt hbytes.mp hwhole), if_neg hwhole]
    by_cases hr : prefixLength.toNat % 8 = 0
    · rw [if_neg (not_not.mpr hr), if_pos hr]
    · rw [if_pos hr, if_neg hr]
      split
      · next hne => rw [decide_eq_false (Ne.symm hne)]
      · next heq => rw [decide_eq_true (not_not.mp heq).symm]

section Blocks
variable {route other : Route} {address : Ipv4Address}

theorem mem_block_iff (h : route.prefixLength.toNat ≤ 32) : address ∈ block route ↔ Matches address route := by
  rw [← prefixMatches_iff_word address h]
  show prefixContains address.toList route.network.toList route.prefixLength = .ok true ↔ _
  rw [prefixContains_eq address route.network h, Except.ok.injEq]

theorem block_eq (h : route.prefixLength.toNat ≤ 32) :
    block route = Set.preimage (fun a : Ipv4Address => bytesValue a.toList)
      (Lib.block (32 - route.prefixLength.toNat) (bytesValue route.network.toList)) := by
  ext a
  rw [mem_block_iff h, matches_iff]
  exact eq_comm

theorem block_subset (h : route.prefixLength.toNat ≤ 32) (h' : other.prefixLength.toNat ≤ 32)
    (hin : address ∈ block route) (hin' : address ∈ block other)
    (hle : other.prefixLength.toNat ≤ route.prefixLength.toNat) : block route ⊆ block other := by
  rw [block_eq h] at hin ⊢
  rw [block_eq h'] at hin' ⊢
  exact Set.preimage_mono (Lib.block_subset hin hin' (by omega))

theorem block_nested (h : route.prefixLength.toNat ≤ 32) (h' : other.prefixLength.toNat ≤ 32) :
    block route ⊆ block other ∨ block other ⊆ block route ∨ Disjoint (block route) (block other) := by
  rw [block_eq h, block_eq h']
  rcases Lib.block_nested (32 - route.prefixLength.toNat) (32 - other.prefixLength.toNat)
    (bytesValue route.network.toList) (bytesValue other.network.toList) with hsub | hsub | hapart
  · exact .inl (Set.preimage_mono hsub)
  · exact .inr (.inl (Set.preimage_mono hsub))
  · exact .inr (.inr (hapart.preimage _))

end Blocks

/-! ## The lookup -/

section Lookup
variable {routes : List Route} {destinationIp : Ipv4Address}

theorem canonical_of_ok {i : Nat} (h : longestPrefix routes destinationIp = .ok i) : ∀ r ∈ routes, Canonical r := by
  by_contra hbad
  rw [longestPrefix_malformed (by simpa using hbad)] at h
  cases h

theorem Canonical.length_le {route : Route} (h : Canonical route) : route.prefixLength.toNat ≤ 32 :=
  UInt8.le_iff_toNat_le.mp h.1

/-- Two addresses in the same blocks have the same route. -/
theorem longestPrefix_congr (hcanonical : ∀ r ∈ routes, Canonical r) {other : Ipv4Address}
    (hsame : ∀ r ∈ routes, destinationIp ∈ block r ↔ other ∈ block r) :
    longestPrefix routes destinationIp = longestPrefix routes other := by
  have hmatches : ∀ r ∈ routes, Matches destinationIp r ↔ Matches other r := by
    intro r hr
    rw [← mem_block_iff (hcanonical r hr).length_le, ← mem_block_iff (hcanonical r hr).length_le]
    exact hsame r hr
  have hselected : ∀ i, Selected routes destinationIp i → Selected routes other i := by
    rintro i ⟨r, hget, hmatch, hbest⟩
    exact ⟨r, hget, (hmatches r (List.mem_of_getElem? hget)).mp hmatch, fun j r' hget' hmatch' =>
      hbest j r' hget' ((hmatches r' (List.mem_of_getElem? hget')).mpr hmatch')⟩
  rcases longestPrefix_cases destinationIp hcanonical with ⟨hlookup, hnone⟩ | ⟨i, hlookup, hi⟩
  · rcases longestPrefix_cases other hcanonical with ⟨hlookup', -⟩ | ⟨j, -, r, hget, hmatch, -⟩
    · rw [hlookup, hlookup']
    · have hmem := List.mem_of_getElem? hget
      exact absurd ((hmatches r hmem).mpr hmatch) (hnone r hmem)
  · rcases longestPrefix_cases other hcanonical with ⟨-, hnone⟩ | ⟨j, hlookup', hj⟩
    · obtain ⟨r, hget, hmatch, -⟩ := hi
      have hmem := List.mem_of_getElem? hget
      exact absurd ((hmatches r hmem).mp hmatch) (hnone r hmem)
    · rw [hlookup, hlookup', (hselected i hi).unique hcanonical hj]

/-- The selected block lies in every other block of the table that holds the address. -/
theorem Selected.innermost (hcanonical : ∀ r ∈ routes, Canonical r) {i : Nat} (h : Selected routes destinationIp i) :
    ∃ route, routes[i]? = some route ∧ destinationIp ∈ block route ∧
      ∀ other ∈ routes, destinationIp ∈ block other → block route ⊆ block other := by
  obtain ⟨route, hget, hmatch, hbest⟩ := h
  have hlength := (hcanonical route (List.mem_of_getElem? hget)).length_le
  have hin := (mem_block_iff hlength).mpr hmatch
  refine ⟨route, hget, hin, fun other hother hin' => ?_⟩
  have hlength' := (hcanonical other hother).length_le
  obtain ⟨j, hj⟩ := List.getElem?_of_mem hother
  obtain ⟨hle, -⟩ := hbest j other hj ((mem_block_iff hlength').mp hin')
  exact block_subset hlength hlength' hin hin' (UInt8.le_iff_toNat_le.mp hle)

/-- **Main result.** The route that is found has the innermost block around the destination, and the same route is
found for every address of that block that is in no smaller one; where no route is found, no block holds the
destination. -/
theorem longestPrefix_innermost (routes : List Route) (destinationIp : Ipv4Address) :
    (∀ i, longestPrefix routes destinationIp = .ok i →
      ∃ route, routes[i]? = some route ∧ destinationIp ∈ block route ∧
        (∀ other ∈ routes, destinationIp ∈ block other → block route ⊆ block other) ∧
        ∀ address ∈ block route, (∀ other ∈ routes, address ∈ block other → ¬ block other ⊂ block route) →
          longestPrefix routes address = .ok i) ∧
      (longestPrefix routes destinationIp = .error .truncated ↔
        (∀ r ∈ routes, routeIsCanonical r = true) ∧ ∀ r ∈ routes, destinationIp ∉ block r) := by
  constructor
  · intro i hi
    have hcanonical := canonical_of_ok hi
    rcases longestPrefix_cases destinationIp hcanonical with ⟨hlookup, -⟩ | ⟨j, hlookup, hselected⟩
    · rw [hlookup] at hi
      cases hi
    · rw [hlookup, Except.ok.injEq] at hi
      subst hi
      obtain ⟨route, hget, hin, hinner⟩ := hselected.innermost hcanonical
      have hroute := hcanonical route (List.mem_of_getElem? hget)
      refine ⟨route, hget, hin, hinner, fun address haddress hsmaller => ?_⟩
      rw [← hlookup]
      refine longestPrefix_congr hcanonical fun other hother => ⟨fun hin' => ?_, fun hin' => ?_⟩
      · by_cases hsub : block route ⊆ block other
        · exact hsub hin
        · rcases block_nested (hcanonical other hother).length_le hroute.length_le with hsub' | hsub' | hapart
          · exact absurd ⟨hsub', hsub⟩ (hsmaller other hother hin')
          · exact absurd hsub' hsub
          · exact absurd haddress (Set.disjoint_left.mp hapart hin')
      · exact hinner other hother hin' haddress
  · by_cases hcanonical : ∀ r ∈ routes, Canonical r
    · have hchecked : ∀ r ∈ routes, routeIsCanonical r = true := fun r hr =>
        (routeIsCanonical_iff_word r).mpr (hcanonical r hr)
      rw [and_iff_right hchecked]
      rcases longestPrefix_cases destinationIp hcanonical with ⟨hlookup, hnone⟩ | ⟨i, hlookup, hselected⟩
      · refine iff_of_true hlookup fun r hr hin => hnone r hr ?_
        exact (mem_block_iff (hcanonical r hr).length_le).mp hin
      · obtain ⟨route, hget, hin, -⟩ := hselected.innermost hcanonical
        rw [hlookup]
        exact iff_of_false nofun fun hnone => hnone route (List.mem_of_getElem? hget) hin
    · rw [longestPrefix_malformed (by simpa using hcanonical)]
      refine iff_of_false nofun fun h => hcanonical fun r hr => ?_
      exact (routeIsCanonical_iff_word r).mp (h.1 r hr)

end Lookup

end TcpipCourse.L11
