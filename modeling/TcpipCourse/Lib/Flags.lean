import Mathlib.Data.List.Induction

/-!
# Flags in a word

* `Flags` : every flag has a bit of its own; `mask` : the flags of a list, in one word;
* `Flags.mask_and_eq_zero_iff` : a test of one flag in a mask;
* `Tally` : a word of flags with their number, which is kept when a flag is added that may be there already.
-/

namespace TcpipCourse.Lib

variable {φ : Type*}

structure Flags (bit : φ → UInt32) : Prop where
  ne_zero : ∀ f, bit f ≠ 0
  disjoint : ∀ f g, f ≠ g → bit f &&& bit g = 0

def mask (bit : φ → UInt32) (fs : List φ) : UInt32 := fs.foldl (fun m f => m ||| bit f) 0

@[simp] theorem mask_concat (bit : φ → UInt32) (fs : List φ) (f : φ) :
    mask bit (fs ++ [f]) = mask bit fs ||| bit f := by
  rw [mask, List.foldl_append]
  rfl

theorem or_and_eq_zero_iff {a b c : UInt32} : (a ||| b) &&& c = 0 ↔ a &&& c = 0 ∧ b &&& c = 0 := by
  have hdistrib : (a ||| b) &&& c = (a &&& c) ||| (b &&& c) := by
    apply UInt32.eq_of_toBitVec_eq
    simp only [UInt32.toBitVec_and, UInt32.toBitVec_or]
    exact BitVec.and_or_distrib_right
  rw [hdistrib, UInt32.or_eq_zero_iff]

variable {bit : φ → UInt32}

/-- A word that has none of the flags has nothing of their mask. -/
theorem mask_and_eq_zero {fs : List φ} {a : UInt32} (h : ∀ f ∈ fs, bit f &&& a = 0) : mask bit fs &&& a = 0 := by
  induction fs using List.reverseRecOn with
  | nil => exact UInt32.zero_and
  | append_singleton fs f ih =>
    rw [mask_concat, or_and_eq_zero_iff]
    exact ⟨ih fun g hg => h g (by simp [hg]), h f (by simp)⟩

theorem Flags.bit_and_eq_zero_iff (h : Flags bit) {f g : φ} : bit f &&& bit g = 0 ↔ f ≠ g := by
  constructor
  · rintro hzero rfl
    rw [UInt32.and_self] at hzero
    exact h.ne_zero f hzero
  · exact h.disjoint f g

theorem Flags.mask_and_eq_zero_iff (h : Flags bit) {fs : List φ} {f : φ} : mask bit fs &&& bit f = 0 ↔ f ∉ fs := by
  induction fs using List.reverseRecOn with
  | nil => exact iff_of_true UInt32.zero_and List.not_mem_nil
  | append_singleton fs g ih =>
    rw [mask_concat, or_and_eq_zero_iff, ih, h.bit_and_eq_zero_iff, List.mem_append, List.mem_singleton, not_or]
    exact and_congr_right fun _ => ne_comm

/-! ## Counting flags -/

/-- The word has the flags of the list, and the number is how many these are. -/
def Tally (bit : φ → UInt32) (bits : UInt32) (count : Nat) (fs : List φ) : Prop :=
  bits = mask bit fs ∧ count = fs.length

/-- A flag that is added counts once. -/
theorem Flags.tally_concat (h : Flags bit) {bits : UInt32} {count : Nat} {fs : List φ} {f : φ}
    (htally : Tally bit bits count fs) (hf : f ∉ fs) :
    Tally bit (bits ||| bit f) (if bits &&& bit f = 0 then count + 1 else count) (fs ++ [f]) := by
  obtain ⟨rfl, rfl⟩ := htally
  rw [if_pos (h.mask_and_eq_zero_iff.mpr hf)]
  exact ⟨(mask_concat bit fs f).symm, by rw [List.length_append, List.length_singleton]⟩

end TcpipCourse.Lib
