import TcpipCourse.Lib.Words

/-!
# The Internet checksum: sums of 16-bit words in ones' complement

A 32-bit accumulator takes 16-bit words one at a time and adds the carries back in.

* `foldOnce`, `addWord`, `addBytes`, `foldCarries`, `finish` : the loops of the usual C code;
* `wordSum` : the plain sum of the big-endian words of a byte string; `endAround n` : what is left of `n`
  once all carries are added back in, so `0` only for `n = 0`;
* `addBytes_spec`, `toNat_foldCarries`, `toNat_finish` : the loops compute `endAround` of the sum;
* `endAround_add_complement`, `endAround_complete` : the words that complete a sum to all ones;
* `pseudoHeader_spec`, `toNat_finish_pseudoHeader` : the checksum of a UDP datagram or a TCP segment;
* `addBytesSums`, `foldCarriesSums` : every value the accumulator takes before it is folded, none above `0x1fffe`;
* `endAround_flipBit`, `endAround_ne_of_replace` : one flipped bit, and one replaced word, is seen;
* `finish_addBytes_insert` : with the checksum stored over its zeroed field, the checksum is zero.
-/

namespace TcpipCourse.Lib

/-! ## The loops -/

/-- `(sum & 0xffff) + (sum >> 16)` -/
def foldOnce (sum : UInt32) : UInt32 := (sum &&& (0xffff : UInt32)) + (sum >>> 16)

def addWord (sum : UInt32) (word : UInt16) : UInt32 := foldOnce (sum + word.toUInt32)

/-- The words of the bytes, most significant byte first; an odd last byte is the high byte of its word. -/
def addBytes : UInt32 → List UInt8 → UInt32
  | sum, [] => sum
  | sum, [a] => addWord sum (a.toUInt16 <<< 8)
  | sum, a :: b :: rest => addBytes (addWord sum (be16 a b)) rest

theorem toNat_foldOnce (sum : UInt32) : (foldOnce sum).toNat = sum.toNat % 65536 + sum.toNat / 65536 := by
  have h := sum.toNat_lt
  have hlo : (sum &&& (0xffff : UInt32)).toNat = sum.toNat % 65536 := by
    rw [UInt32.toNat_and, show UInt32.toNat 0xffff = 2 ^ 16 - 1 from rfl, Nat.and_two_pow_sub_one_eq_mod]
  have hhi : (sum >>> 16).toNat = sum.toNat / 65536 := by
    rw [UInt32.toNat_shiftRight]
    exact Nat.shiftRight_eq_div_pow _ 16
  rw [foldOnce, UInt32.toNat_add, hlo, hhi]
  omega

theorem shiftRight_ne_zero_iff (sum : UInt32) : sum >>> 16 ≠ 0 ↔ 65536 ≤ sum.toNat := by
  have hhi : (sum >>> 16).toNat = sum.toNat / 65536 := by
    rw [UInt32.toNat_shiftRight]
    exact Nat.shiftRight_eq_div_pow _ 16
  rw [ne_eq, ← UInt32.toNat_inj, hhi, show UInt32.toNat 0 = 0 from rfl]
  omega

/-- `while ((sum >> 16) != 0) sum = (sum & 0xffff) + (sum >> 16);` -/
def foldCarries (sum : UInt32) : UInt32 :=
  if sum >>> 16 ≠ 0 then foldCarries (foldOnce sum) else sum
termination_by sum.toNat
decreasing_by
  next h =>
  rw [shiftRight_ne_zero_iff] at h
  rw [toNat_foldOnce]
  omega

def finish (sum : UInt32) : UInt16 := ~~~(foldCarries sum).toUInt16

/-! ## What they compute -/

/-- The sum of the big-endian words of the bytes. -/
def wordSum : List UInt8 → Nat
  | [] => 0
  | [a] => a.toNat * 256
  | a :: b :: rest => a.toNat * 256 + b.toNat + wordSum rest

/-- `n` with its carries added back in: the representative of `n` modulo `65535` in `1 .. 65535`, and
`0` for `0`. -/
def endAround (n : Nat) : Nat := if n = 0 then 0 else 1 + (n - 1) % 65535

theorem endAround_le (n : Nat) : endAround n ≤ 65535 := by
  unfold endAround
  split <;> omega

theorem endAround_of_lt {n : Nat} (h : n < 65536) : endAround n = n := by
  unfold endAround
  split <;> omega

/-- One fold keeps the residue and does not make a nonzero sum zero. -/
theorem endAround_fold (n : Nat) : endAround (n % 65536 + n / 65536) = endAround n := by
  unfold endAround
  split <;> split <;> omega

theorem endAround_endAround_add (m n : Nat) : endAround (endAround m + n) = endAround (m + n) := by
  unfold endAround
  split <;> split <;> split <;> omega

theorem endAround_add_congr {m m' : Nat} (h : endAround m = endAround m') (n : Nat) :
    endAround (m + n) = endAround (m' + n) := by
  rw [← endAround_endAround_add, h, endAround_endAround_add]

/-- All ones stands for the positive multiples of 65535. -/
theorem endAround_eq_ones_iff (n : Nat) : endAround n = 65535 ↔ 0 < n ∧ n % 65535 = 0 := by
  unfold endAround
  split <;> omega

/-- The ones' complement of a sum is its negative modulo 65535. -/
theorem complement_add_mod (n : Nat) : (65535 - endAround n + n) % 65535 = 0 := by
  unfold endAround
  split <;> omega

/-- A sum and its ones' complement fill all sixteen bits. -/
theorem endAround_add_complement (n : Nat) : endAround (n + (65535 - endAround n)) = 65535 := by
  unfold endAround
  split <;> split <;> omega

/-- Only two words complete a sum: its complement, and all ones where the complement is zero. -/
theorem endAround_complete {n c : Nat} (hc : c ≤ 65535) (h : endAround (n + c) = 65535) :
    c = 65535 - endAround n ∨ c = 65535 ∧ endAround n = 65535 := by
  unfold endAround at h ⊢
  split at h <;> split <;> omega

/-- A word fits on an accumulator below `2^17`, and leaves one. -/
theorem addWord_spec {sum : UInt32} (hsum : sum.toNat < 131072) (word : UInt16) :
    (addWord sum word).toNat < 131072 ∧
      endAround (addWord sum word).toNat = endAround (sum.toNat + word.toNat) := by
  have hw := word.toNat_lt
  have hadd : (sum + word.toUInt32).toNat = sum.toNat + word.toNat := by
    rw [UInt32.toNat_add, UInt16.toNat_toUInt32]
    omega
  unfold addWord
  rw [toNat_foldOnce, endAround_fold, hadd]
  exact ⟨by omega, rfl⟩

/-- An accumulator of sixteen bits stays one. -/
theorem addWord_le {sum : UInt32} (hsum : sum.toNat ≤ 65535) (word : UInt16) : (addWord sum word).toNat ≤ 65535 := by
  have hw := word.toNat_lt
  have hadd : (sum + word.toUInt32).toNat = sum.toNat + word.toNat := by
    rw [UInt32.toNat_add, UInt16.toNat_toUInt32]
    omega
  unfold addWord
  rw [toNat_foldOnce, hadd]
  omega

theorem addBytes_le (bytes : List UInt8) : ∀ sum : UInt32, sum.toNat ≤ 65535 → (addBytes sum bytes).toNat ≤ 65535 := by
  induction bytes using wordSum.induct with
  | case1 =>
    intro sum hsum
    exact hsum
  | case2 a =>
    intro sum hsum
    exact addWord_le hsum _
  | case3 a b rest ih =>
    intro sum hsum
    exact ih _ (addWord_le hsum _)

theorem toNat_oddWord (a : UInt8) : (a.toUInt16 <<< 8).toNat = a.toNat * 256 := by
  have ha := a.toNat_lt
  rw [UInt16.toNat_shiftLeft, UInt8.toNat_toUInt16]
  show a.toNat <<< 8 % 65536 = a.toNat * 256
  rw [Nat.shiftLeft_eq]
  omega

theorem addBytes_spec (bytes : List UInt8) : ∀ sum : UInt32, sum.toNat < 131072 →
    (addBytes sum bytes).toNat < 131072 ∧
      endAround (addBytes sum bytes).toNat = endAround (sum.toNat + wordSum bytes) := by
  induction bytes using wordSum.induct with
  | case1 =>
    intro sum hsum
    exact ⟨hsum, rfl⟩
  | case2 a =>
    intro sum hsum
    have h := addWord_spec hsum (a.toUInt16 <<< 8)
    rwa [toNat_oddWord] at h
  | case3 a b rest ih =>
    intro sum hsum
    obtain ⟨hlt, heq⟩ := addWord_spec hsum (be16 a b)
    obtain ⟨hlt', heq'⟩ := ih _ hlt
    refine ⟨hlt', ?_⟩
    rw [addBytes, heq', endAround_add_congr heq, toNat_be16, wordSum, Nat.add_assoc]

theorem toNat_foldCarries (sum : UInt32) : (foldCarries sum).toNat = endAround sum.toNat := by
  induction sum using foldCarries.induct with
  | case1 sum h ih =>
    unfold foldCarries
    rw [if_pos h, ih, toNat_foldOnce, endAround_fold]
  | case2 sum h =>
    unfold foldCarries
    rw [if_neg h]
    rw [shiftRight_ne_zero_iff] at h
    exact (endAround_of_lt (by omega)).symm

theorem toNat_finish (sum : UInt32) : (finish sum).toNat = 65535 - endAround sum.toNat := by
  have hle := endAround_le sum.toNat
  unfold finish
  rw [UInt16.toNat_not, UInt32.toNat_toUInt16, toNat_foldCarries]
  show 65536 - 1 - endAround sum.toNat % 65536 = 65535 - endAround sum.toNat
  omega

theorem finish_eq_zero_iff (sum : UInt32) : finish sum = 0 ↔ endAround sum.toNat = 65535 := by
  have hle := endAround_le sum.toNat
  rw [← UInt16.toNat_inj, toNat_finish, show UInt16.toNat 0 = 0 from rfl]
  omega

theorem toNat_finish_addBytes {sum : UInt32} (hsum : sum.toNat < 131072) (bytes : List UInt8) :
    (finish (addBytes sum bytes)).toNat = 65535 - endAround (sum.toNat + wordSum bytes) := by
  rw [toNat_finish, (addBytes_spec bytes sum hsum).2]

theorem finish_addBytes_eq_zero_iff {sum : UInt32} (hsum : sum.toNat < 131072) (bytes : List UInt8) :
    finish (addBytes sum bytes) = 0 ↔ endAround (sum.toNat + wordSum bytes) = 65535 := by
  rw [finish_eq_zero_iff, (addBytes_spec bytes sum hsum).2]

/-- A pseudo-header: two addresses, a protocol and a length. -/
theorem pseudoHeader_spec (source destination : List UInt8) (protocol length : UInt16) :
    (addWord (addWord (addBytes (addBytes 0 source) destination) protocol) length).toNat < 131072 ∧
      endAround (addWord (addWord (addBytes (addBytes 0 source) destination) protocol) length).toNat =
        endAround (wordSum source + wordSum destination + protocol.toNat + length.toNat) := by
  obtain ⟨h0, e0⟩ := addBytes_spec source 0 (by decide)
  obtain ⟨h1, e1⟩ := addBytes_spec destination _ h0
  obtain ⟨h2, e2⟩ := addWord_spec h1 protocol
  obtain ⟨h3, e3⟩ := addWord_spec h2 length
  refine ⟨h3, ?_⟩
  have hzero : (0 : UInt32).toNat + wordSum source = wordSum source := Nat.zero_add _
  rw [e3, endAround_add_congr e2, endAround_add_congr (endAround_add_congr e1 _),
    endAround_add_congr (endAround_add_congr (endAround_add_congr e0 _) _), hzero]

theorem toNat_finish_pseudoHeader (source destination data : List UInt8) (protocol : UInt16) {length : Nat}
    (hlen : length ≤ 65535) :
    (finish (addBytes (addWord (addWord (addBytes (addBytes 0 source) destination) protocol) (UInt16.ofNat length))
      data)).toNat =
      65535 - endAround (wordSum source + wordSum destination + protocol.toNat + length + wordSum data) := by
  obtain ⟨hlt, heq⟩ := pseudoHeader_spec source destination protocol (UInt16.ofNat length)
  rw [UInt16.toNat_ofNat_of_lt' (by show length < 65536; omega)] at heq
  rw [toNat_finish_addBytes hlt, endAround_add_congr heq]

/-- A sum of words is not large. -/
theorem wordSum_le (bytes : List UInt8) : wordSum bytes ≤ 65535 * ((bytes.length + 1) / 2) := by
  induction bytes using wordSum.induct with
  | case1 => exact Nat.zero_le _
  | case2 a =>
    have ha := a.toNat_lt
    rw [wordSum, List.length_singleton]
    omega
  | case3 a b rest ih =>
    have ha := a.toNat_lt
    have hb := b.toNat_lt
    rw [wordSum, List.length_cons, List.length_cons]
    omega

/-! ## Every accumulator on the way -/

/-- The exact sums that `addBytes` folds, one after the other. -/
def addBytesSums : UInt32 → List UInt8 → List Nat
  | _, [] => []
  | sum, [a] => [sum.toNat + (a.toUInt16 <<< 8).toNat]
  | sum, a :: b :: rest => (sum.toNat + (be16 a b).toNat) :: addBytesSums (addWord sum (be16 a b)) rest

/-- The sums that `foldCarries` tests, one after the other. -/
def foldCarriesSums (sum : UInt32) : List Nat :=
  if sum >>> 16 ≠ 0 then sum.toNat :: foldCarriesSums (foldOnce sum) else [sum.toNat]
termination_by sum.toNat
decreasing_by
  next h =>
  rw [shiftRight_ne_zero_iff] at h
  rw [toNat_foldOnce]
  omega

/-- Sixteen bits and one more word. -/
theorem addBytesSums_le (bytes : List UInt8) : ∀ sum : UInt32, sum.toNat ≤ 65535 →
    ∀ n ∈ addBytesSums sum bytes, n ≤ 0x1fffe := by
  induction bytes using wordSum.induct with
  | case1 =>
    intro sum _ n hn
    cases hn
  | case2 a =>
    intro sum hsum n hn
    have hword := (a.toUInt16 <<< 8).toNat_lt
    rw [addBytesSums, List.mem_singleton] at hn
    omega
  | case3 a b rest ih =>
    intro sum hsum n hn
    have hword := (be16 a b).toNat_lt
    rw [addBytesSums, List.mem_cons] at hn
    rcases hn with rfl | hn
    · omega
    · exact ih _ (addWord_le hsum _) n hn

theorem foldCarriesSums_le (sum : UInt32) : sum.toNat ≤ 0x1fffe → ∀ n ∈ foldCarriesSums sum, n ≤ 0x1fffe := by
  induction sum using foldCarriesSums.induct with
  | case1 sum h ih =>
    intro hsum n hn
    unfold foldCarriesSums at hn
    rw [if_pos h, List.mem_cons] at hn
    rcases hn with rfl | hn
    · exact hsum
    · exact ih (by rw [toNat_foldOnce]; omega) n hn
  | case2 sum h =>
    intro hsum n hn
    unfold foldCarriesSums at hn
    rw [if_neg h, List.mem_singleton] at hn
    omega

/-! ## Storing the checksum -/

/-- Words do not straddle a boundary at an even offset. -/
theorem wordSum_append {pre : List UInt8} (h : pre.length % 2 = 0) (post : List UInt8) :
    wordSum (pre ++ post) = wordSum pre + wordSum post := by
  induction pre using wordSum.induct with
  | case1 => simp [wordSum]
  | case2 a => simp at h
  | case3 a b rest ih =>
    have hrest : rest.length % 2 = 0 := by simp at h; omega
    simp only [List.cons_append, wordSum, ih hrest]
    omega

theorem wordSum_be16Bytes (v : UInt16) : wordSum (be16Bytes v) = v.toNat := by
  have h := congrArg UInt16.toNat (be16_be16Bytes v)
  rw [toNat_be16] at h
  simpa [wordSum, be16Bytes] using h

theorem wordSum_insert {pre : List UInt8} (h : pre.length % 2 = 0) (v : UInt16) (post : List UInt8) :
    wordSum (pre ++ be16Bytes v ++ post) = wordSum pre + wordSum post + v.toNat := by
  rw [wordSum_append (by simp; omega), wordSum_append h, wordSum_be16Bytes]
  omega

/-- The checksum computed over a zeroed field at an even offset and stored there verifies. -/
theorem finish_addBytes_insert {sum : UInt32} (hsum : sum.toNat < 131072) {pre post : List UInt8}
    (hpre : pre.length % 2 = 0) :
    finish (addBytes sum (pre ++ be16Bytes (finish (addBytes sum (pre ++ be16Bytes 0 ++ post))) ++ post)) = 0 := by
  apply UInt16.toNat_inj.mp
  have hzero : sum.toNat + (wordSum pre + wordSum post + (0 : UInt16).toNat) =
      sum.toNat + (wordSum pre + wordSum post) := rfl
  rw [toNat_finish_addBytes hsum, wordSum_insert hpre, toNat_finish_addBytes hsum, wordSum_insert hpre, hzero,
    ← Nat.add_assoc, endAround_add_complement]
  rfl

/-! ## One flipped bit -/

/-- What a byte counts in the sum: it is the high or the low byte of its word. -/
def byteWeight (i : Nat) : Nat := if i % 2 = 0 then 256 else 1

theorem wordSum_set (bytes : List UInt8) : ∀ i, i < bytes.length → ∀ b : UInt8,
    wordSum (bytes.set i b) + byteWeight i * (bytes.getD i 0).toNat = wordSum bytes + byteWeight i * b.toNat := by
  induction bytes using wordSum.induct with
  | case1 =>
    intro i hi
    exact absurd hi (Nat.not_lt_zero i)
  | case2 a =>
    intro i hi b
    obtain rfl : i = 0 := by rw [List.length_singleton] at hi; omega
    show b.toNat * 256 + 256 * a.toNat = a.toNat * 256 + 256 * b.toNat
    omega
  | case3 a b rest ih =>
    intro i hi c
    match i, hi with
    | 0, _ =>
      show c.toNat * 256 + b.toNat + wordSum rest + 256 * a.toNat =
        a.toNat * 256 + b.toNat + wordSum rest + 256 * c.toNat
      omega
    | 1, _ =>
      show a.toNat * 256 + c.toNat + wordSum rest + 1 * b.toNat = a.toNat * 256 + b.toNat + wordSum rest + 1 * c.toNat
      omega
    | i + 2, hi =>
      have hrest := ih i (by simpa using hi) c
      have hweight : byteWeight (i + 2) = byteWeight i := by
        unfold byteWeight
        rw [Nat.add_mod_right]
      rw [hweight]
      show a.toNat * 256 + b.toNat + wordSum (rest.set i c) + byteWeight i * (rest.getD i 0).toNat =
        a.toNat * 256 + b.toNat + wordSum rest + byteWeight i * c.toNat
      omega

def flipBit (bytes : List UInt8) (i bit : Nat) : List UInt8 :=
  bytes.set i (bytes.getD i 0 ^^^ (1 <<< UInt8.ofNat bit))

@[simp] theorem length_flipBit (bytes : List UInt8) (i bit : Nat) : (flipBit bytes i bit).length = bytes.length :=
  List.length_set

theorem take_flipBit {bytes : List UInt8} {i n : Nat} (hi : i < n) (bit : Nat) :
    (flipBit bytes i bit).take n = flipBit (bytes.take n) i bit := by
  have hget : (bytes.take n).getD i 0 = bytes.getD i 0 := by
    rw [List.getD_eq_getElem?_getD, List.getElem?_take_of_lt hi, List.getD_eq_getElem?_getD]
  unfold flipBit
  rw [List.take_set, hget]

theorem take_flipBit_of_le {bytes : List UInt8} {i n : Nat} (hi : n ≤ i) (bit : Nat) :
    (flipBit bytes i bit).take n = bytes.take n := by
  unfold flipBit
  rw [List.take_set, List.set_eq_of_length_le ((List.length_take_le _ _).trans hi)]

theorem flipBit_append (pre post : List UInt8) (i bit : Nat) :
    flipBit (pre ++ post) (pre.length + i) bit = pre ++ flipBit post i bit := by
  have hget : (pre ++ post).getD (pre.length + i) 0 = post.getD i 0 := by
    rw [List.getD_eq_getElem?_getD, List.getElem?_append_right (Nat.le_add_right _ _), Nat.add_sub_cancel_left,
      List.getD_eq_getElem?_getD]
  unfold flipBit
  rw [List.set_append_right (pre.length + i) _ (Nat.le_add_right _ _), Nat.add_sub_cancel_left, hget]

/-- A flip adds or takes away the value of its bit. -/
theorem toNat_flip (b : UInt8) (bit : Fin 8) :
    (b ^^^ (1 <<< UInt8.ofNat bit.val)).toNat = b.toNat + 2 ^ bit.val ∨
      (b ^^^ (1 <<< UInt8.ofNat bit.val)).toNat + 2 ^ bit.val = b.toNat := by
  have hall : ∀ n : Fin 256, ∀ k : Fin 8,
      (UInt8.ofNat n.val ^^^ (1 <<< UInt8.ofNat k.val)).toNat = n.val + 2 ^ k.val ∨
        (UInt8.ofNat n.val ^^^ (1 <<< UInt8.ofNat k.val)).toNat + 2 ^ k.val = n.val := by decide +kernel
  have h := hall ⟨b.toNat, b.toNat_lt⟩ bit
  rwa [UInt8.ofNat_toNat] at h

/-- A flipped bit moves the sum by a power of two below `2^16`. -/
theorem wordSum_flipBit {bytes : List UInt8} {i bit : Nat} (hi : i < bytes.length) (hbit : bit < 8) :
    ∃ d, 1 ≤ d ∧ d < 65535 ∧
      (wordSum (flipBit bytes i bit) = wordSum bytes + d ∨ wordSum (flipBit bytes i bit) + d = wordSum bytes) := by
  have hset := wordSum_set bytes i hi (bytes.getD i 0 ^^^ (1 <<< UInt8.ofNat bit))
  have hflip := toNat_flip (bytes.getD i 0) ⟨bit, hbit⟩
  have hpow : 1 ≤ 2 ^ bit ∧ 2 ^ bit ≤ 128 :=
    ⟨Nat.one_le_two_pow, Nat.pow_le_pow_right (by omega) (show bit ≤ 7 by omega)⟩
  dsimp only at hflip
  unfold flipBit
  generalize 2 ^ bit = v at hflip hpow
  generalize bytes.getD i 0 ^^^ (1 <<< UInt8.ofNat bit) = b at hset hflip ⊢
  unfold byteWeight at hset
  by_cases heven : i % 2 = 0
  · rw [if_pos heven] at hset
    exact ⟨256 * v, by omega, by omega, by omega⟩
  · rw [if_neg heven] at hset
    exact ⟨v, by omega, by omega, by omega⟩

/-- Sums that verify are multiples of 65535, and the next one is far. -/
theorem endAround_ne_of_shift {n n' d : Nat} (h : endAround n = 65535) (hpos : 1 ≤ d) (hlt : d < 65535)
    (hshift : n' = n + d ∨ n' + d = n) : endAround n' ≠ 65535 := by
  unfold endAround at h ⊢
  split at h <;> split <;> omega

/-- A flipped bit is seen, whatever else is in the sum. -/
theorem endAround_flipBit {bytes : List UInt8} {i bit rest : Nat} (hi : i < bytes.length) (hbit : bit < 8)
    (h : endAround (rest + wordSum bytes) = 65535) : endAround (rest + wordSum (flipBit bytes i bit)) ≠ 65535 := by
  obtain ⟨d, hpos, hlt, hshift⟩ := wordSum_flipBit hi hbit
  exact endAround_ne_of_shift h hpos hlt (by omega)

/-- A replaced word is seen, unless the two are the two zeros of ones' complement. -/
theorem endAround_ne_of_replace {n w w' : Nat} (h : endAround (n + w) = 65535) (hw : w ≤ 65535) (hw' : w' ≤ 65535)
    (hne : w ≠ w') (hup : ¬ (w = 0 ∧ w' = 65535)) (hdown : ¬ (w = 65535 ∧ w' = 0)) :
    endAround (n + w') ≠ 65535 := by
  rw [endAround_eq_ones_iff] at h
  rw [ne_eq, endAround_eq_ones_iff]
  omega

end TcpipCourse.Lib
