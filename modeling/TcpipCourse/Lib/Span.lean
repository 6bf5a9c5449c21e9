import Mathlib.Data.List.Basic
import Mathlib.Data.List.GetD
import Mathlib.Data.List.TakeWhile

/-!
# Spans: reading and overwriting a list by offset

* `slice l off n` : `n` elements from `off` (`memcpy` out of a buffer);
* `overwrite dst off src` : `dst` with `src` stored from `off` (`memcpy` into a buffer); what would pass
  the end is dropped, so the length never changes;
* `take_slice`, `drop_slice`, `slice_add`, `slice_left`, `slice_right` : a span cut in two, and put together;
* `slice_overwrite`, `slice_overwrite_before` : the span that was written, and one in front of it;
* `overwrite_overwrite`, `getD_overwrite` : two writes in a row, and what each position holds afterwards;
* `length_takeWhile_drop` : the length of a run of positions that meet a test.
-/

namespace TcpipCourse.Lib

variable {α : Type*}

/-- `n` elements from offset `off`. -/
def slice (l : List α) (off n : Nat) : List α := (l.drop off).take n

@[simp] theorem slice_zero_length (l : List α) : slice l 0 l.length = l := by simp [slice]

theorem length_slice {l : List α} {off n : Nat} (h : off + n ≤ l.length) : (slice l off n).length = n := by
  simp [slice]; omega

theorem getD_slice {l : List α} {off n i : Nat} (h : i < n) (d : α) :
    (slice l off n).getD i d = l.getD (off + i) d := by
  simp [slice, List.getD_eq_getElem?_getD, h, List.getElem?_drop]

theorem slice_congr {a b : List α} {off n : Nat} (d : α) (ha : off + n ≤ a.length) (hb : off + n ≤ b.length)
    (h : ∀ i, off ≤ i → i < off + n → a.getD i d = b.getD i d) : slice a off n = slice b off n := by
  refine List.ext_getElem (by rw [length_slice ha, length_slice hb]) fun i h1 h2 => ?_
  rw [length_slice ha] at h1
  rw [← List.getD_eq_getElem _ d, ← List.getD_eq_getElem _ d, getD_slice h1, getD_slice h1]
  exact h _ (by omega) (by omega)

theorem slice_take {l : List α} {off n e : Nat} (h : off + n ≤ e) : slice (l.take e) off n = slice l off n := by
  unfold slice
  rw [List.drop_take, List.take_take]
  congr 1
  omega

/-- Two lists that agree below `e` have the same spans there. -/
theorem slice_eq_of_take_eq {a b : List α} {off n e : Nat} (hab : a.take e = b.take e) (h : off + n ≤ e) :
    slice a off n = slice b off n := by
  rw [← slice_take h, hab, slice_take h]

theorem getD_eq_of_take_eq {a b : List α} {i e : Nat} (hab : a.take e = b.take e) (h : i < e) (d : α) :
    a.getD i d = b.getD i d := by
  have hget : ∀ l : List α, (l.take e).getD i d = l.getD i d := by
    intro l
    rw [List.getD_eq_getElem?_getD, List.getD_eq_getElem?_getD, List.getElem?_take_of_lt h]
  rw [← hget a, hab, hget]

theorem getD_drop (l : List α) (k i : Nat) (d : α) : (l.drop k).getD i d = l.getD (k + i) d := by
  rw [List.getD_eq_getElem?_getD, List.getD_eq_getElem?_getD, List.getElem?_drop]

/-- The front and the back of a span. -/
theorem take_slice (l : List α) {off k n : Nat} (h : k ≤ n) : (slice l off n).take k = slice l off k := by
  rw [slice, List.take_take, Nat.min_eq_left h, slice]

theorem drop_slice (l : List α) (off k n : Nat) : (slice l off n).drop k = slice l (off + k) (n - k) := by
  rw [slice, List.drop_take, List.drop_drop, slice]

theorem slice_left {l front back : List α} {off n : Nat} (h : slice l off n = front ++ back) :
    slice l off front.length = front := by
  have hle : front.length ≤ n := by
    have hlen := congrArg List.length h
    have hmax : (slice l off n).length ≤ n := List.length_take_le _ _
    rw [List.length_append] at hlen
    omega
  rw [← take_slice l hle, h, List.take_left]

theorem slice_right {l front back : List α} {off n : Nat} (h : slice l off n = front ++ back) :
    slice l (off + front.length) (n - front.length) = back := by
  rw [← drop_slice, h, List.drop_left]

theorem slice_succ {l : List α} {off : Nat} (h : off < l.length) (n : Nat) (d : α) :
    slice l off (n + 1) = l.getD off d :: slice l (off + 1) n := by
  rw [slice, List.drop_eq_getElem_cons h, List.take_succ_cons, List.getD_eq_getElem _ _ h, slice]

theorem slice_add (l : List α) (off m n : Nat) : slice l off (m + n) = slice l off m ++ slice l (off + m) n := by
  rw [slice, List.take_add, List.drop_drop, slice, slice]

/-- Two spans, one behind the other. -/
theorem slice_append_slice (l : List α) {off m k : Nat} (h : off + m = k) (n : Nat) :
    slice l off m ++ slice l k n = slice l off (m + n) := by
  rw [slice_add, h]

theorem slice_append_drop (l : List α) (off n : Nat) : slice l off n ++ l.drop (off + n) = l.drop off := by
  unfold slice
  rw [← List.drop_drop, List.take_append_drop]

theorem slice_min (l : List α) (off n : Nat) : slice l off (min (l.length - off) n) = slice l off n := by
  rw [slice, slice, ← List.length_drop, Nat.min_comm, ← List.take_eq_take_min]

/-- The spans of one length, one behind the other, are the front of the list. -/
theorem flatMap_slice (l : List α) (n count : Nat) :
    (List.range count).flatMap (fun i => slice l (i * n) n) = l.take (count * n) := by
  induction count with
  | zero => rw [Nat.zero_mul]; rfl
  | succ count ih =>
    have hfront : slice l 0 (count * n) = l.take (count * n) := rfl
    rw [List.range_succ, List.flatMap_append, ih, List.flatMap_singleton, ← hfront,
      slice_append_slice l (Nat.zero_add _), ← Nat.succ_mul]
    rfl

/-- `dst` with `src` stored from offset `off` on. -/
def overwrite : List α → Nat → List α → List α
  | [], _, _ => []
  | b :: dst, off + 1, src => b :: overwrite dst off src
  | b :: dst, 0, [] => b :: dst
  | _ :: dst, 0, s :: src => s :: overwrite dst 0 src

@[simp] theorem length_overwrite (dst : List α) (off : Nat) (src : List α) :
    (overwrite dst off src).length = dst.length := by
  induction dst, off, src using overwrite.induct with
  | case1 => rfl
  | case2 b dst off src ih => simp [overwrite, ih]
  | case3 => rfl
  | case4 b dst s src ih => simp [overwrite, ih]

theorem overwrite_zero_append (dst src : List α) (h : src.length ≤ dst.length) :
    overwrite dst 0 src = src ++ dst.drop src.length := by
  induction src generalizing dst with
  | nil => cases dst <;> rfl
  | cons s src ih =>
    cases dst with
    | nil => simp at h
    | cons b dst => simpa [overwrite] using ih dst (by simpa using h)

theorem take_overwrite_zero {dst src : List α} (h : src.length ≤ dst.length) :
    (overwrite dst 0 src).take src.length = src := by
  rw [overwrite_zero_append dst src h, List.take_left]

theorem take_overwrite_of_length {dst src : List α} {n : Nat} (hlen : src.length = n) (h : n ≤ dst.length) :
    (overwrite dst 0 src).take n = src := by
  subst hlen
  exact take_overwrite_zero h

/-- A write that fits replaces exactly the positions it covers. -/
theorem overwrite_eq_append (dst : List α) (off : Nat) (src : List α) (h : off + src.length ≤ dst.length) :
    overwrite dst off src = dst.take off ++ src ++ dst.drop (off + src.length) := by
  induction off generalizing dst with
  | zero => simpa using overwrite_zero_append dst src (by simpa using h)
  | succ off ih =>
    cases dst with
    | nil =>
      have : off + 1 + src.length ≤ 0 := h
      omega
    | cons b dst =>
      have hlen : off + src.length ≤ dst.length := by simp at h; omega
      rw [overwrite, ih dst hlen, show off + 1 + src.length = (off + src.length) + 1 by omega]
      simp

/-- A write over as many elements replaces them. -/
theorem overwrite_middle {pre old src : List α} {off : Nat} (hoff : pre.length = off)
    (hlen : old.length = src.length) (post : List α) :
    overwrite (pre ++ old ++ post) off src = pre ++ src ++ post := by
  subst hoff
  rw [overwrite_eq_append _ _ _ (by simp only [List.length_append]; omega), List.append_assoc pre old post,
    List.take_left, ← hlen, ← List.length_append, ← List.append_assoc pre old post, List.drop_left]

@[simp] theorem overwrite_nil (dst : List α) (off : Nat) : overwrite dst off [] = dst := by
  induction dst generalizing off with
  | nil => rfl
  | cons b dst ih =>
    cases off with
    | zero => rfl
    | succ off => rw [overwrite, ih]

theorem set_eq_overwrite (dst : List α) (off : Nat) (b : α) : dst.set off b = overwrite dst off [b] := by
  induction dst generalizing off with
  | nil => rfl
  | cons c dst ih =>
    cases off with
    | zero => rw [List.set_cons_zero, overwrite, overwrite_nil]
    | succ off => rw [List.set_cons_succ, overwrite, ih]

/-- Two writes, one behind the other, are one. -/
theorem overwrite_overwrite (dst : List α) (off : Nat) (src more : List α) :
    overwrite (overwrite dst off src) (off + src.length) more = overwrite dst off (src ++ more) := by
  induction dst, off, src using overwrite.induct with
  | case1 off src => simp [overwrite]
  | case2 b dst off src ih =>
    rw [overwrite, show off + 1 + src.length = (off + src.length) + 1 by omega, overwrite, ih]
    rfl
  | case3 b dst => rfl
  | case4 b dst s src ih =>
    rw [overwrite, List.length_cons, show 0 + (src.length + 1) = (0 + src.length) + 1 by omega, overwrite, ih]
    rfl

/-- The same, when the span behind is written first. -/
theorem overwrite_overwrite_after (dst : List α) (off : Nat) (src more : List α) :
    overwrite (overwrite dst (off + src.length) more) off src = overwrite dst off (src ++ more) := by
  induction dst, off, src using overwrite.induct with
  | case1 off src => simp [overwrite]
  | case2 b dst off src ih =>
    rw [show off + 1 + src.length = (off + src.length) + 1 by omega, overwrite, overwrite, ih]
    rfl
  | case3 b dst => rw [overwrite_nil]; rfl
  | case4 b dst s src ih =>
    rw [List.length_cons, show 0 + (src.length + 1) = (0 + src.length) + 1 by omega, overwrite, overwrite, ih]
    rfl

/-- A write inside a span that was just written. -/
theorem overwrite_within {dst src more : List α} {off k : Nat} (h : off + src.length ≤ dst.length)
    (hk : k + more.length ≤ src.length) :
    overwrite (overwrite dst off src) (off + k) more = overwrite dst off (overwrite src k more) := by
  have hoff : (dst.take off).length = off := List.length_take_of_le (by omega)
  have hfront : (dst.take off ++ src.take k).length = off + k := by
    rw [List.length_append, hoff, List.length_take_of_le (by omega)]
  have hold : ((src.drop k).take more.length).length = more.length :=
    List.length_take_of_le (by rw [List.length_drop]; omega)
  have hsrc : src = src.take k ++ (src.drop k).take more.length ++ src.drop (k + more.length) := by
    rw [← List.drop_drop, List.append_assoc, List.take_append_drop, List.take_append_drop]
  rw [overwrite_eq_append dst off (overwrite src k more) (by rw [length_overwrite]; exact h), length_overwrite,
    overwrite_eq_append src k more hk, overwrite_eq_append dst off src h]
  nth_rewrite 1 [hsrc]
  simpa only [List.append_assoc] using overwrite_middle hfront hold (src.drop (k + more.length) ++ _)

/-- The stored span reads back, and the spans before it are as they were. -/
theorem slice_overwrite {dst src : List α} {off : Nat} (h : off + src.length ≤ dst.length) :
    slice (overwrite dst off src) off src.length = src := by
  have hlen : (dst.take off).length = off := by
    rw [List.length_take]
    omega
  rw [overwrite_eq_append dst off src h, slice, List.append_assoc]
  nth_rewrite 1 [← hlen]
  rw [List.drop_left, List.take_left]

theorem slice_overwrite_before {dst src : List α} {off o n : Nat} (h : off + src.length ≤ dst.length)
    (hbefore : o + n ≤ off) : slice (overwrite dst off src) o n = slice dst o n := by
  refine slice_eq_of_take_eq ?_ hbefore
  have hlen : (dst.take off).length = off := by
    rw [List.length_take]
    omega
  rw [overwrite_eq_append dst off src h, List.append_assoc]
  nth_rewrite 1 [← hlen]
  rw [List.take_left]

theorem getD_overwrite {dst src : List α} {off : Nat} (h : off + src.length ≤ dst.length) (i : Nat) (d : α) :
    (overwrite dst off src).getD i d =
      if off ≤ i ∧ i < off + src.length then src.getD (i - off) d else dst.getD i d := by
  have hmin : min off dst.length = off := by omega
  simp only [overwrite_eq_append dst off src h, List.getD_eq_getElem?_getD, List.append_assoc,
    List.getElem?_append, List.length_take, List.getElem?_take, List.getElem?_drop, hmin]
  by_cases h1 : i < off
  · rw [if_pos h1, if_pos h1, if_neg (by omega)]
  · rw [if_neg h1]
    by_cases h2 : i - off < src.length
    · rw [if_pos h2, if_pos (by omega)]
    · rw [if_neg h2, if_neg (by omega), show off + src.length + (i - off - src.length) = i by omega]

theorem drop_length_takeWhile (p : α → Bool) (l : List α) : l.drop (l.takeWhile p).length = l.dropWhile p := by
  have h := @List.drop_left _ (l.takeWhile p) (l.dropWhile p)
  rwa [List.takeWhile_append_dropWhile] at h

/-- A loop that counts from `c` while the test holds stops at the first failure or at the end. -/
theorem length_takeWhile_drop {l : List α} {p : α → Bool} {c k : Nat} (d : α)
    (hrun : ∀ i, c ≤ i → i < c + k → p (l.getD i d) = true)
    (hstop : c + k = l.length ∨ c + k < l.length ∧ p (l.getD (c + k) d) = false) :
    ((l.drop c).takeWhile p).length = k := by
  induction k generalizing c with
  | zero =>
    rcases hstop with h | ⟨hlt, h⟩
    · rw [List.drop_eq_nil_of_le (by omega)]; rfl
    · rw [Nat.add_zero] at hlt h
      rw [List.drop_eq_getElem_cons hlt, List.takeWhile_cons, ← List.getD_eq_getElem l d hlt, h]
      rfl
  | succ k ih =>
    have hlt : c < l.length := by omega
    have hc : p l[c] = true := by
      rw [← List.getD_eq_getElem l d hlt]
      exact hrun c (by omega) (by omega)
    rw [List.drop_eq_getElem_cons hlt, List.takeWhile_cons, hc, if_pos rfl, List.length_cons,
      ih (fun i h1 h2 => hrun i (by omega) (by omega))]
    rwa [show c + 1 + k = c + (k + 1) by omega]

end TcpipCourse.Lib
