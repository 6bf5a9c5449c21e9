import TcpipCourse.Lib.Coverage
import TcpipCourse.L07.Reassembly

/-!
# Lesson 07: what a push and a read do

* `scanOverlap_eq` : the overlap scan finds a conflict or counts the absent positions;
* `reassemblyPush_eq` : the outcome of every push with a nonempty input;
* `getD_present_write`, `getD_data_write` : the two arrays after a stored segment.
-/

namespace TcpipCourse.L07
open Lib

/-! ## The overlap scan -/

/-- Some byte of the input differs from a byte already present. -/
def Conflict (ctx : Reassembly) (offset : Nat) (input : Bytes) : Prop :=
  ∃ j < input.length, ctx.present.getD (offset + j) 0 ≠ 0 ∧ ctx.data.getD (offset + j) 0 ≠ input.getD j 0

instance (ctx : Reassembly) (offset : Nat) (input : Bytes) : Decidable (Conflict ctx offset input) :=
  inferInstanceAs (Decidable (∃ j < input.length, _ ∧ _))

/-- The positions of `[offset, offset + n)` that are absent. -/
def absent (ctx : Reassembly) (offset n : Nat) : Finset Nat :=
  (stretch offset n).filter fun i => ctx.present.getD i 0 = 0

theorem conflict_cons (ctx : Reassembly) (offset : Nat) (b : UInt8) (input : Bytes) :
    Conflict ctx offset (b :: input) ↔
      (ctx.present.getD offset 0 ≠ 0 ∧ ctx.data.getD offset 0 ≠ b) ∨ Conflict ctx (offset + 1) input := by
  constructor
  · rintro ⟨j, hj, hp, hd⟩
    cases j with
    | zero => exact .inl ⟨hp, hd⟩
    | succ j =>
      rw [show offset + (j + 1) = offset + 1 + j by omega] at hp hd
      exact .inr ⟨j, by simpa using hj, hp, by simpa using hd⟩
  · rintro (⟨hp, hd⟩ | ⟨j, hj, hp, hd⟩)
    · exact ⟨0, by simp, hp, hd⟩
    · refine ⟨j + 1, by simpa using hj, ?_, ?_⟩ <;> rw [show offset + (j + 1) = offset + 1 + j by omega]
      · exact hp
      · simpa using hd

theorem stretch_succ (o n : Nat) : stretch o (n + 1) = insert o (stretch (o + 1) n) := by
  ext i
  simp only [mem_stretch, Finset.mem_insert]
  omega

theorem card_absent_succ (ctx : Reassembly) (offset n : Nat) :
    (absent ctx offset (n + 1)).card =
      (if ctx.present.getD offset 0 = 0 then 1 else 0) + (absent ctx (offset + 1) n).card := by
  unfold absent
  rw [stretch_succ, Finset.filter_insert]
  split
  · rw [Finset.card_insert_of_notMem (by simp), Nat.add_comm]
  · rw [Nat.zero_add]

/-- The scan stops at a conflict, and otherwise adds the number of absent positions to the count. -/
theorem scanOverlap_eq (ctx : Reassembly) (input : Bytes) : ∀ offset newBytes : Nat,
    scanOverlap ctx offset input newBytes =
      if Conflict ctx offset input then none
      else some (newBytes + (absent ctx offset input.length).card) := by
  induction input with
  | nil =>
    intro offset newBytes
    have hno : ¬ Conflict ctx offset [] := by simp [Conflict]
    rw [if_neg hno]
    simp [scanOverlap, absent, stretch]
  | cons b input ih =>
    intro offset newBytes
    rw [scanOverlap, List.length_cons, card_absent_succ]
    simp only [conflict_cons]
    by_cases hp : ctx.present.getD offset 0 = 0
    · simp only [hp, ne_eq, not_true_eq_false, if_false, false_and, false_or, if_true, ih]
      split <;> simp; omega
    · by_cases hd : ctx.data.getD offset 0 = b
      · simp only [hp, hd, ne_eq, not_true_eq_false, not_false_eq_true, if_true, if_false, and_false,
          false_or, ih, Nat.zero_add]
      · simp only [hp, hd, ne_eq, not_false_eq_true, if_true, and_self, true_or]

/-- The outcome of every push of a nonempty input on a valid window. -/
theorem reassemblyPush_eq {ctx : Reassembly} (hv : reassemblyIsValid ctx = true) (seq : UInt32)
    {input : Bytes} (hne : input.length ≠ 0) :
    reassemblyPush ctx seq input =
      let offset := (seq - ctx.initialSeq).toNat
      if offset + input.length > ctx.capacity then ⟨.capacity, 0, ctx⟩
      else if Conflict ctx offset input then ⟨.malformed, 0, ctx⟩
      else ⟨.ok, (absent ctx offset input.length).card, ctx.write offset input⟩ := by
  simp only [reassemblyPush, hv, Bool.not_true, Bool.false_eq_true, if_false, hne, scanOverlap_eq,
    Nat.zero_add]
  generalize (seq - ctx.initialSeq).toNat = offset
  by_cases h1 : offset > ctx.capacity
  · rw [if_pos h1, if_pos (by omega)]
  · by_cases h2 : input.length > ctx.capacity - offset
    · rw [if_neg h1, if_pos h2, if_pos (by omega)]
    · have h3 : ¬ offset + input.length > ctx.capacity := by omega
      by_cases hc : Conflict ctx offset input
      · simp only [h1, h2, h3, hc, if_true, if_false]
      · simp only [h1, h2, h3, hc, if_false]

/-! ## Writing -/

theorem getD_present_write {ctx : Reassembly} {offset : Nat} {input : Bytes}
    (h : offset + input.length ≤ ctx.capacity) (i : Nat) :
    (ctx.write offset input).present.getD i 0 =
      if i ∈ stretch offset input.length then 1 else ctx.present.getD i 0 := by
  have hfit : offset + (List.replicate input.length (1 : UInt8)).length ≤ ctx.present.length := by
    rw [List.length_replicate, ctx.present_length]; exact h
  simp only [Reassembly.write, getD_overwrite hfit, List.length_replicate, mem_stretch]
  split
  · next hi => rw [List.getD_eq_getElem _ _ (by simp; omega), List.getElem_replicate]
  · rfl

theorem getD_data_write {ctx : Reassembly} {offset : Nat} {input : Bytes}
    (h : offset + input.length ≤ ctx.capacity) (i : Nat) :
    (ctx.write offset input).data.getD i 0 =
      if i ∈ stretch offset input.length then input.getD (i - offset) 0 else ctx.data.getD i 0 := by
  have hfit : offset + input.length ≤ ctx.data.length := by rw [ctx.data_length]; exact h
  simp only [Reassembly.write, getD_overwrite hfit, mem_stretch]

end TcpipCourse.L07
