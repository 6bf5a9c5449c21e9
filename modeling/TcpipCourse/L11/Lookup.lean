import Mathlib.Data.Prod.Lex
import TcpipCourse.Lib.Prefix
import TcpipCourse.L11.Route

/-!
# Lesson 11: the lookup against 32-bit numbers

* `addressWord`, `prefixMask`, `Canonical`, `Matches` : a route read as numbers;
* `routeIsCanonical_iff_word`, `prefixMatches_iff_word` : the checks byte by byte are those on the numbers;
* `Selected` : the route of a table that should be found; `selected_iff_firstLeast` : it is the first one with
  the least key, longer prefixes and then lower metrics first;
* `longestPrefix_oracle` : every outcome of the lookup, and its independence of the order of the table.
-/

namespace TcpipCourse.L11
open Lib

/-- The address as a number, most significant byte first. -/
def addressWord (address : Ipv4Address) : BitVec 32 :=
  let bytes := address.toList
  (be32 (bytes.getD 0 0) (bytes.getD 1 0) (bytes.getD 2 0) (bytes.getD 3 0)).toBitVec

/-- `prefixLength` one bits from the top. -/
def prefixMask (prefixLength : UInt8) : BitVec 32 := BitVec.allOnes 32 <<< (32 - prefixLength.toNat)

/-- No bit of the network is set behind its prefix. -/
def Canonical (route : Route) : Prop :=
  route.prefixLength ≤ 32 ∧ addressWord route.network &&& ~~~prefixMask route.prefixLength = 0

def Matches (destinationIp : Ipv4Address) (route : Route) : Prop :=
  addressWord route.network &&& prefixMask route.prefixLength =
    addressWord destinationIp &&& prefixMask route.prefixLength

/-! ## Bytes -/

theorem length_address (address : Ipv4Address) : address.toList.length = 4 := by simp

theorem toList_address (address : Ipv4Address) : ∃ a b c d, address.toList = [a, b, c, d] :=
  List.length_eq_four.mp (length_address address)

theorem toNat_addressWord (address : Ipv4Address) : (addressWord address).toNat = bytesValue address.toList := by
  obtain ⟨a, b, c, d, hbytes⟩ := toList_address address
  have hnil : bytesValue [] = 0 := rfl
  unfold addressWord
  simp only [hbytes, bytesValue_cons, hnil, List.length_cons, List.length_nil]
  exact (toNat_be32 a b c d).trans (by omega)

theorem byteMasks {r : Nat} (h0 : r ≠ 0) (h8 : r < 8) (b : UInt8) :
    (b &&& (((1 : UInt8) <<< UInt8.ofNat (8 - r)) - 1)).toNat = b.toNat % 2 ^ (8 - r) ∧
      (b &&& ((0xff : UInt8) <<< UInt8.ofNat (8 - r))).toNat = b.toNat / 2 ^ (8 - r) * 2 ^ (8 - r) := by
  have hall : ∀ k : Fin 7, ∀ n : Fin 256,
      (UInt8.ofNat n.val &&& (((1 : UInt8) <<< UInt8.ofNat (7 - k.val)) - 1)).toNat = n.val % 2 ^ (7 - k.val) ∧
        (UInt8.ofNat n.val &&& ((0xff : UInt8) <<< UInt8.ofNat (7 - k.val))).toNat =
          n.val / 2 ^ (7 - k.val) * 2 ^ (7 - k.val) := by decide +kernel
  have h := hall ⟨r - 1, by omega⟩ ⟨b.toNat, b.toNat_lt⟩
  dsimp only at h
  rwa [UInt8.ofNat_toNat, show 7 - (r - 1) = 8 - r by omega] at h

/-- A network shorter than 32 bits: the byte it is cut in, and the bytes behind. -/
theorem routeIsCanonical_iff {route : Route} (hp : route.prefixLength.toNat < 32) :
    routeIsCanonical route = true ↔
      (route.network.toList.getD (route.prefixLength.toNat / 8) 0).toNat %
          2 ^ (8 - route.prefixLength.toNat % 8) = 0 ∧
        ∀ b ∈ route.network.toList.drop (route.prefixLength.toNat / 8 + 1), b = 0 := by
  have h32 : ¬ route.prefixLength > 32 := by
    rw [gt_iff_lt, UInt8.lt_iff_toNat_lt, show UInt8.toNat 32 = 32 from rfl]
    omega
  have hin : route.prefixLength.toNat / 8 < route.network.toList.length := by
    rw [length_address]
    omega
  unfold routeIsCanonical
  rw [if_neg h32]
  dsimp only
  by_cases hr : route.prefixLength.toNat % 8 = 0
  · rw [if_neg (not_not.mpr hr), hr, List.drop_eq_getElem_cons hin, ← List.getD_eq_getElem _ 0 hin, List.all_cons,
      Bool.and_eq_true, decide_eq_true_eq, List.all_eq_true]
    have hbyte := (route.network.toList.getD (route.prefixLength.toNat / 8) 0).toNat_lt
    rw [← UInt8.toNat_inj, Nat.mod_eq_of_lt (by exact hbyte)]
    simp
  · have hmask := (byteMasks hr (Nat.mod_lt _ (by omega))
      (route.network.toList.getD (route.prefixLength.toNat / 8) 0)).1
    rw [if_pos hr, ← hmask, ← show UInt8.toNat 0 = 0 from rfl, UInt8.toNat_inj]
    split
    · next hne =>
      constructor
      · intro h
        cases h
      · rintro ⟨h, -⟩
        exact absurd h hne
    · next heq =>
      rw [not_not] at heq
      rw [List.all_eq_true, and_iff_right heq]
      simp only [decide_eq_true_eq]

/-- A network shorter than 32 bits matches on its whole bytes and on the high bits of the next. -/
theorem prefixMatches_iff {network destination : Ipv4Address} {prefixLength : UInt8} :
    prefixMatches network destination prefixLength = true ↔
      network.toList.take (prefixLength.toNat / 8) = destination.toList.take (prefixLength.toNat / 8) ∧
        (network.toList.getD (prefixLength.toNat / 8) 0).toNat / 2 ^ (8 - prefixLength.toNat % 8) =
          (destination.toList.getD (prefixLength.toNat / 8) 0).toNat / 2 ^ (8 - prefixLength.toNat % 8) := by
  unfold prefixMatches
  dsimp only
  by_cases htake : network.toList.take (prefixLength.toNat / 8) = destination.toList.take (prefixLength.toNat / 8)
  · rw [if_neg (not_not.mpr htake)]
    by_cases hr : prefixLength.toNat % 8 = 0
    · have hzero : ∀ b : UInt8, b.toNat / 2 ^ (8 - 0) = 0 := fun b => Nat.div_eq_of_lt b.toNat_lt
      rw [if_pos hr, hr, hzero, hzero]
      exact ⟨fun _ => ⟨htake, rfl⟩, fun _ => rfl⟩
    · have hr8 : prefixLength.toNat % 8 < 8 := Nat.mod_lt _ (by omega)
      rw [if_neg hr, decide_eq_true_eq, ← UInt8.toNat_inj, (byteMasks hr hr8 _).2, (byteMasks hr hr8 _).2,
        Nat.mul_left_inj (Nat.ne_of_gt (Nat.two_pow_pos _))]
      exact ⟨fun h => ⟨htake, h⟩, fun h => h.2⟩
  · rw [if_pos htake]
    constructor
    · intro h
      cases h
    · rintro ⟨h, -⟩
      exact absurd h htake

/-! ## Words -/

theorem canonical_iff (route : Route) :
    Canonical route ↔ route.prefixLength.toNat ≤ 32 ∧
      bytesValue route.network.toList % 2 ^ (32 - route.prefixLength.toNat) = 0 := by
  rw [Canonical, prefixMask, and_not_mask_eq_zero_iff, toNat_addressWord, UInt8.le_iff_toNat_le]
  rfl

theorem matches_iff (destinationIp : Ipv4Address) (route : Route) :
    Matches destinationIp route ↔ bytesValue route.network.toList / 2 ^ (32 - route.prefixLength.toNat) =
      bytesValue destinationIp.toList / 2 ^ (32 - route.prefixLength.toNat) := by
  rw [Matches, prefixMask, and_mask_eq_iff, toNat_addressWord, toNat_addressWord]

theorem routeIsCanonical_iff_word (route : Route) : routeIsCanonical route = true ↔ Canonical route := by
  have h32 : UInt8.toNat 32 = 32 := rfl
  rw [canonical_iff]
  rcases Nat.lt_trichotomy route.prefixLength.toNat 32 with hlt | heq | hgt
  · have hsuffix := @suffix_zero_iff route.network.toList route.prefixLength.toNat (by rw [length_address]; omega)
    rw [length_address] at hsuffix
    rw [routeIsCanonical_iff hlt, ← hsuffix, and_iff_right (by omega)]
  · have hle : ¬ route.prefixLength > 32 := by
      rw [gt_iff_lt, UInt8.lt_iff_toNat_lt]
      omega
    have hdrop : route.network.toList.drop 4 = [] := List.drop_eq_nil_of_le (by rw [length_address])
    unfold routeIsCanonical
    rw [if_neg hle, heq]
    simp [hdrop, Nat.mod_one]
  · have hgt' : route.prefixLength > 32 := by
      rw [gt_iff_lt, UInt8.lt_iff_toNat_lt]
      omega
    unfold routeIsCanonical
    rw [if_pos hgt']
    constructor
    · intro h
      cases h
    · rintro ⟨h, -⟩
      omega

theorem prefixMatches_iff_word (destinationIp : Ipv4Address) {route : Route} (hle : route.prefixLength.toNat ≤ 32) :
    prefixMatches route.network destinationIp route.prefixLength = true ↔ Matches destinationIp route := by
  rw [prefixMatches_iff, matches_iff]
  rcases Nat.lt_or_eq_of_le hle with hlt | heq
  · have hprefix := @prefix_eq_iff route.network.toList destinationIp.toList route.prefixLength.toNat
      (by rw [length_address, length_address]) (by rw [length_address]; omega)
    rw [length_address] at hprefix
    exact hprefix.symm
  · have hwhole : ∀ address : Ipv4Address, address.toList.take 4 = address.toList ∧ address.toList.getD 4 0 = 0 := by
      intro address
      obtain ⟨a, b, c, d, hbytes⟩ := toList_address address
      rw [hbytes]
      exact ⟨rfl, rfl⟩
    rw [heq, (hwhole _).1, (hwhole _).1, (hwhole _).2, (hwhole _).2, and_iff_left rfl, Nat.sub_self, Nat.pow_zero,
      Nat.div_one, Nat.div_one, bytesValue_inj (by rw [length_address, length_address])]

/-! ## The route that is found -/

/-- Route `i` matches; of all that match none has a longer prefix, of these none has a smaller metric, and of these
none comes earlier. -/
def Selected (routes : List Route) (destinationIp : Ipv4Address) (i : Nat) : Prop :=
  ∃ r, routes[i]? = some r ∧ Matches destinationIp r ∧
    ∀ j r', routes[j]? = some r' → Matches destinationIp r' →
      r'.prefixLength ≤ r.prefixLength ∧
        (r'.prefixLength = r.prefixLength → r.metric ≤ r'.metric ∧ (r'.metric = r.metric → i ≤ j))

/-- Longer prefixes come first, then smaller metrics. -/
def routeKey (route : Route) : ℕᵒᵈ ×ₗ ℕ := toLex (OrderDual.toDual route.prefixLength.toNat, route.metric.toNat)

/-- The view of the scan: a route that matches. -/
def viewRoute (destinationIp : Ipv4Address) (candidate : Route) : Option Route :=
  if prefixMatches candidate.network destinationIp candidate.prefixLength then some candidate else none

theorem routeKey_lt_iff (r r' : Route) :
    routeKey r < routeKey r' ↔ r'.prefixLength.toNat < r.prefixLength.toNat ∨
      r.prefixLength.toNat = r'.prefixLength.toNat ∧ r.metric.toNat < r'.metric.toNat := by
  rw [routeKey, routeKey, Prod.Lex.toLex_lt_toLex, OrderDual.toDual_lt_toDual, OrderDual.toDual_inj]

theorem isBetter_iff (candidate best : Route) :
    isBetter candidate best = true ↔ routeKey candidate < routeKey best := by
  rw [routeKey_lt_iff, isBetter, Bool.or_eq_true, Bool.and_eq_true, decide_eq_true_eq, decide_eq_true_eq,
    decide_eq_true_eq, gt_iff_lt, UInt8.lt_iff_toNat_lt, UInt32.lt_iff_toNat_lt, UInt8.toNat_inj]

section Table
variable {routes : List Route} {destinationIp : Ipv4Address}

theorem passes_iff (hcanonical : ∀ r ∈ routes, Canonical r) {j : Nat} {r : Route} :
    Passes (viewRoute destinationIp) routes j r ↔ routes[j]? = some r ∧ Matches destinationIp r := by
  have hview : ∀ a, routes[j]? = some a →
      (viewRoute destinationIp a = some r ↔ a = r ∧ Matches destinationIp a) := by
    intro a hget
    have hword := prefixMatches_iff_word destinationIp
      (UInt8.le_iff_toNat_le.mp (hcanonical a (List.mem_of_getElem? hget)).1)
    unfold viewRoute
    split
    · next hmatch =>
      rw [Option.some.injEq, ← hword, and_iff_left hmatch]
    · next hno =>
      rw [← hword]
      simp [hno]
  constructor
  · rintro ⟨a, hget, hpass⟩
    obtain ⟨rfl, hmatch⟩ := (hview a hget).mp hpass
    exact ⟨hget, hmatch⟩
  · rintro ⟨hget, hmatch⟩
    exact ⟨r, hget, (hview r hget).mpr ⟨rfl, hmatch⟩⟩

theorem selected_iff_firstLeast (hcanonical : ∀ r ∈ routes, Canonical r) {i : Nat} :
    Selected routes destinationIp i ↔ ∃ r, FirstLeast (viewRoute destinationIp) routeKey routes i r := by
  constructor
  · rintro ⟨r, hget, hmatch, hbest⟩
    refine ⟨r, (passes_iff hcanonical).mpr ⟨hget, hmatch⟩, fun j b hpass => ?_, fun j b hlt hpass => ?_⟩
    · obtain ⟨hget', hmatch'⟩ := (passes_iff hcanonical).mp hpass
      obtain ⟨hlong, hmetric⟩ := hbest j b hget' hmatch'
      rw [UInt8.le_iff_toNat_le] at hlong
      rw [← not_lt, routeKey_lt_iff]
      rintro (hlonger | ⟨heq, hsmaller⟩)
      · omega
      · have hle := (hmetric (UInt8.toNat_inj.mp heq)).1
        rw [UInt32.le_iff_toNat_le] at hle
        omega
    · obtain ⟨hget', hmatch'⟩ := (passes_iff hcanonical).mp hpass
      obtain ⟨hlong, hmetric⟩ := hbest j b hget' hmatch'
      rw [UInt8.le_iff_toNat_le] at hlong
      rw [routeKey_lt_iff]
      rcases Nat.lt_or_eq_of_le hlong with hshorter | heq
      · exact .inl hshorter
      · obtain ⟨hle, hfirst⟩ := hmetric (UInt8.toNat_inj.mp heq)
        rw [UInt32.le_iff_toNat_le] at hle
        rcases Nat.lt_or_eq_of_le hle with hsmaller | hsame
        · exact .inr ⟨heq.symm, hsmaller⟩
        · exact absurd hlt (Nat.not_lt.mpr (hfirst (UInt32.toNat_inj.mp hsame).symm))
  · rintro ⟨r, hpass, hleast, hfirst⟩
    obtain ⟨hget, hmatch⟩ := (passes_iff hcanonical).mp hpass
    refine ⟨r, hget, hmatch, fun j b hget' hmatch' => ?_⟩
    have hpass' : Passes (viewRoute destinationIp) routes j b := (passes_iff hcanonical).mpr ⟨hget', hmatch'⟩
    have hle := hleast j b hpass'
    rw [← not_lt, routeKey_lt_iff, not_or, not_and] at hle
    refine ⟨UInt8.le_iff_toNat_le.mpr (by omega), fun heq => ⟨?_, fun hsame => ?_⟩⟩
    · have hmetric := hle.2 (congrArg UInt8.toNat heq)
      exact UInt32.le_iff_toNat_le.mpr (by omega)
    · by_contra hlt
      have hstrict := hfirst j b (by omega) hpass'
      rw [routeKey_lt_iff, heq, hsame] at hstrict
      omega

theorem Selected.unique (hcanonical : ∀ r ∈ routes, Canonical r) {i j : Nat} (h : Selected routes destinationIp i)
    (h' : Selected routes destinationIp j) : i = j := by
  rw [selected_iff_firstLeast hcanonical] at h h'
  obtain ⟨r, hr⟩ := h
  obtain ⟨r', hr'⟩ := h'
  exact hr.unique hr'

/-- The lookup of a table whose routes are all canonical. -/
theorem longestPrefix_cases (destinationIp : Ipv4Address) (hcanonical : ∀ r ∈ routes, Canonical r) :
    (longestPrefix routes destinationIp = .error .truncated ∧ ∀ r ∈ routes, ¬ Matches destinationIp r) ∨
      ∃ i, longestPrefix routes destinationIp = .ok i ∧ Selected routes destinationIp i := by
  have hany : ¬ (routes.any fun route => !routeIsCanonical route) = true := by
    rw [List.any_eq_true]
    rintro ⟨r, hr, hnot⟩
    rw [(routeIsCanonical_iff_word r).mpr (hcanonical r hr)] at hnot
    cases hnot
  unfold longestPrefix
  rw [if_neg hany]
  cases hscan : scanRoutes destinationIp routes with
  | none =>
    refine .inl ⟨rfl, fun r hr hmatch => ?_⟩
    obtain ⟨j, hj⟩ := List.getElem?_of_mem hr
    obtain ⟨a, hget, hview⟩ := (passes_iff hcanonical).mpr ⟨hj, hmatch⟩
    have hnone := scanBest_none (viewRoute destinationIp) isBetter hscan a (List.mem_of_getElem? hget)
    rw [hnone] at hview
    cases hview
  | some found =>
    refine .inr ⟨found.1, rfl, (selected_iff_firstLeast hcanonical).mpr ⟨found.2, ?_⟩⟩
    exact scanBest_firstLeast isBetter isBetter_iff hscan

theorem longestPrefix_malformed (h : ∃ r ∈ routes, ¬ Canonical r) :
    longestPrefix routes destinationIp = .error .malformed := by
  obtain ⟨r, hr, hnot⟩ := h
  rw [← routeIsCanonical_iff_word, Bool.not_eq_true] at hnot
  have hany : (routes.any fun route => !routeIsCanonical route) = true := by
    rw [List.any_eq_true]
    exact ⟨r, hr, by rw [hnot]; rfl⟩
  unfold longestPrefix
  rw [if_pos hany]

end Table

/-- What the caller reads at the index that is found. -/
def selection (routes : List Route) (destinationIp : Ipv4Address) : Except Status (Option (UInt8 × UInt32)) :=
  (longestPrefix routes destinationIp).map fun i => routes[i]?.map fun r => (r.prefixLength, r.metric)

theorem selection_perm {routes routes' : List Route} (hperm : routes.Perm routes') (destinationIp : Ipv4Address) :
    selection routes destinationIp = selection routes' destinationIp := by
  unfold selection
  by_cases hcanonical : ∀ r ∈ routes, Canonical r
  · have hcanonical' : ∀ r ∈ routes', Canonical r := fun r hr => hcanonical r (hperm.mem_iff.mpr hr)
    rcases longestPrefix_cases destinationIp hcanonical with ⟨hlookup, hnone⟩ | ⟨i, hlookup, hselected⟩
    · rcases longestPrefix_cases destinationIp hcanonical' with ⟨hlookup', -⟩ | ⟨j, -, r', hget', hmatch', -⟩
      · rw [hlookup, hlookup']
        rfl
      · exact absurd hmatch' (hnone r' (hperm.mem_iff.mpr (List.mem_of_getElem? hget')))
    · rcases longestPrefix_cases destinationIp hcanonical' with ⟨-, hnone'⟩ | ⟨j, hlookup', hselected'⟩
      · obtain ⟨r, hget, hmatch, -⟩ := hselected
        exact absurd hmatch (hnone' r (hperm.mem_iff.mp (List.mem_of_getElem? hget)))
      · obtain ⟨r, hr⟩ := (selected_iff_firstLeast hcanonical).mp hselected
        obtain ⟨r', hr'⟩ := (selected_iff_firstLeast hcanonical').mp hselected'
        have hkey := toLex_inj.mp (hr.key_eq hperm hr')
        obtain ⟨hlength, hmetric⟩ := Prod.mk.inj hkey
        have hlength' : r.prefixLength = r'.prefixLength := UInt8.toNat_inj.mp (OrderDual.toDual_inj.mp hlength)
        have hget := ((passes_iff hcanonical).mp hr.passes).1
        have hget' := ((passes_iff hcanonical').mp hr'.passes).1
        rw [hlookup, hlookup']
        show Except.ok (routes[i]?.map fun r => (r.prefixLength, r.metric)) =
          Except.ok (routes'[j]?.map fun r => (r.prefixLength, r.metric))
        rw [hget, hget', Option.map_some, Option.map_some, hlength', UInt32.toNat_inj.mp hmetric]
  · have hbad : ∃ r ∈ routes, ¬ Canonical r := by simpa using hcanonical
    obtain ⟨r, hr, hnot⟩ := hbad
    rw [longestPrefix_malformed ⟨r, hr, hnot⟩, longestPrefix_malformed ⟨r, hperm.mem_iff.mp hr, hnot⟩]
    rfl

/-- **The lookup is the 32-bit oracle.** A table with a route that is not canonical, anywhere, is malformed; in any
other table the lookup fails when no route matches, and else returns the one index that should be selected. So
reordering the table changes neither the status nor the prefix length and metric found. -/
theorem longestPrefix_oracle (routes : List Route) (destinationIp : Ipv4Address) :
    (longestPrefix routes destinationIp = .error .malformed ↔
        ∃ r ∈ routes, r.prefixLength > 32 ∨ addressWord r.network &&& ~~~prefixMask r.prefixLength ≠ 0) ∧
      (longestPrefix routes destinationIp = .error .truncated ↔
        (∀ r ∈ routes, Canonical r) ∧ ∀ r ∈ routes, ¬ Matches destinationIp r) ∧
      (∀ i, longestPrefix routes destinationIp = .ok i ↔
        (∀ r ∈ routes, Canonical r) ∧ Selected routes destinationIp i) ∧
      ((∀ r ∈ routes, Canonical r) → (∃ r ∈ routes, Matches destinationIp r) →
        ∃! i, Selected routes destinationIp i) ∧
      ∀ routes' : List Route, routes.Perm routes' →
        selection routes destinationIp = selection routes' destinationIp := by
  have hbad : (∃ r ∈ routes, r.prefixLength > 32 ∨ addressWord r.network &&& ~~~prefixMask r.prefixLength ≠ 0) ↔
      ∃ r ∈ routes, ¬ Canonical r := by
    simp only [Canonical, not_and_or, UInt8.not_le]
  have hall : (∃ r ∈ routes, ¬ Canonical r) ↔ ¬ ∀ r ∈ routes, Canonical r := by simp
  rw [hbad]
  by_cases hcanonical : ∀ r ∈ routes, Canonical r
  · have hgood : ¬ ∃ r ∈ routes, ¬ Canonical r := by rwa [hall, not_not]
    rcases longestPrefix_cases destinationIp hcanonical with
      ⟨hlookup, hnone⟩ | ⟨i, hlookup, hselected⟩
    · have hunselected : ∀ i, ¬ Selected routes destinationIp i := by
        rintro i ⟨r, hget, hmatch, -⟩
        exact hnone r (List.mem_of_getElem? hget) hmatch
      rw [hlookup]
      refine ⟨iff_of_false (by simp) hgood, iff_of_true rfl ⟨hcanonical, hnone⟩, fun i => ?_, ?_, ?_⟩
      · exact iff_of_false (by simp) fun h => hunselected i h.2
      · rintro - ⟨r, hr, hmatch⟩
        exact absurd hmatch (hnone r hr)
      · exact fun routes' hperm => selection_perm hperm destinationIp
    · have hunique : ∀ j, Selected routes destinationIp j → j = i := fun j hj => hj.unique hcanonical hselected
      have hmatched : ¬ ∀ r ∈ routes, ¬ Matches destinationIp r := by
        obtain ⟨r, hget, hmatch, -⟩ := hselected
        exact fun hnone => hnone r (List.mem_of_getElem? hget) hmatch
      rw [hlookup]
      refine ⟨iff_of_false (by simp) hgood, iff_of_false (by simp) fun h => hmatched h.2, fun j => ?_, ?_, ?_⟩
      · constructor
        · intro h
          cases h
          exact ⟨hcanonical, hselected⟩
        · rintro ⟨-, hj⟩
          rw [hunique j hj]
      · exact fun _ _ => ⟨i, hselected, hunique⟩
      · exact fun routes' hperm => selection_perm hperm destinationIp
  · rw [longestPrefix_malformed (hall.mpr hcanonical)]
    refine ⟨iff_of_true rfl (hall.mpr hcanonical), iff_of_false (by simp) fun h => hcanonical h.1, fun i => ?_, ?_, ?_⟩
    · exact iff_of_false (by simp) fun h => hcanonical h.1
    · exact fun h => absurd h hcanonical
    · exact fun routes' hperm => selection_perm hperm destinationIp

/-- The default route, and two equal routes of 31 bits. -/
def tiedRoutes : List Route :=
  [⟨Vector.replicate 4 0, 0, 5⟩, ⟨Vector.replicate 4 8, 31, 9⟩, ⟨Vector.replicate 4 8, 31, 9⟩]

/-- The first of the two is found, and the prefix length and the metric are the same in the other order. -/
theorem longestPrefix_oracle_example :
    longestPrefix tiedRoutes (Vector.replicate 4 8) = .ok 1 ∧ Selected tiedRoutes (Vector.replicate 4 8) 1 ∧
      (∃! i, Selected tiedRoutes (Vector.replicate 4 8) i) ∧
      selection tiedRoutes (Vector.replicate 4 8) = selection tiedRoutes.reverse (Vector.replicate 4 8) := by
  have hlookup : longestPrefix tiedRoutes (Vector.replicate 4 8) = .ok 1 := by decide
  obtain ⟨-, -, hfound, hunique, hperm⟩ := longestPrefix_oracle tiedRoutes (Vector.replicate 4 8)
  obtain ⟨hcanonical, hselected⟩ := (hfound 1).mp hlookup
  exact ⟨hlookup, hselected, hunique hcanonical ⟨⟨Vector.replicate 4 8, 31, 9⟩, by decide, rfl⟩,
    hperm _ (List.reverse_perm tiedRoutes).symm⟩

end TcpipCourse.L11
