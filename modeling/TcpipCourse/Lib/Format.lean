import Mathlib.Data.Nat.Digits.Defs
import Mathlib.Data.List.Basic

/-!
# Formatted text and its length

* `Piece` : a literal, a text, or a number in one of the conversions of `printf`; `render` : the formatted text;
* `Piece.Ok` : the number is a value of its type; `Piece.width` : how many characters the piece takes at most;
* `length_render_le` : the text is not longer than all widths together, whatever the numbers are;
* `snprintf` : the text cut to fit a buffer, with the length that it really has.

The characters are of any type: `encode` is what a character of a literal or a digit becomes in the text.
-/

namespace TcpipCourse.Lib

variable {α : Type}

inductive Piece (α : Type) where
  | literal (s : String)
  /-- `%s` -/
  | text (cs : List α)
  /-- `%u`, of an unsigned type with so many bits -/
  | unsigned (bits n : Nat)
  /-- `%0*x`, with the number of digits -/
  | hex (digits n : Nat)

namespace Piece

def render (encode : Char → α) : Piece α → List α
  | literal s => s.toList.map encode
  | text cs => cs
  | unsigned _ n => (Nat.toDigits 10 n).map encode
  | hex digits n => ((Nat.toDigits 16 n).leftpad digits '0').map encode

/-- The number is one that its type, or its digits, can hold. -/
def Ok : Piece α → Prop
  | literal _ | text _ => True
  | unsigned bits n => n < 2 ^ bits
  | hex digits n => 0 < digits ∧ n < 16 ^ digits

def width : Piece α → Nat
  | literal s => s.toList.length
  | text cs => cs.length
  | unsigned bits _ => (Nat.toDigits 10 (2 ^ bits - 1)).length
  | hex digits _ => digits

theorem length_render_le (encode : Char → α) {piece : Piece α} (h : piece.Ok) :
    (piece.render encode).length ≤ piece.width := by
  cases piece with
  | literal s => exact (List.length_map _).le
  | text cs => exact Nat.le_refl _
  | unsigned bits n =>
    have hmost : 2 ^ bits - 1 < 10 ^ (Nat.toDigits 10 (2 ^ bits - 1)).length :=
      (Nat.length_toDigits_le_iff (by decide) Nat.length_toDigits_pos).mp (Nat.le_refl _)
    have hn : n < 2 ^ bits := h
    rw [render, List.length_map, width, Nat.length_toDigits_le_iff (by decide) Nat.length_toDigits_pos]
    omega
  | hex digits n =>
    have hdigits := (Nat.length_toDigits_le_iff (by decide) h.1).mpr h.2
    rw [render, List.length_map, List.length_leftpad, width]
    omega

end Piece

def render (encode : Char → α) (pieces : List (Piece α)) : List α := pieces.flatMap (Piece.render encode)

theorem length_render_le (encode : Char → α) {pieces : List (Piece α)} (h : ∀ piece ∈ pieces, piece.Ok) :
    (render encode pieces).length ≤ (pieces.map Piece.width).sum := by
  induction pieces with
  | nil => exact Nat.le_refl _
  | cons piece rest ih =>
    have hpiece := Piece.length_render_le encode (h piece List.mem_cons_self)
    have hrest := ih fun p hp => h p (List.mem_cons_of_mem _ hp)
    unfold render at hrest ⊢
    rw [List.flatMap_cons, List.length_append, List.map_cons, List.sum_cons]
    omega

/-- The length of the text, and what a buffer of `size` characters holds of it. -/
def snprintf (nul : α) (size : Nat) (text : List α) : Nat × List α := (text.length, text.take (size - 1) ++ [nul])

/-- A text that fits is in the buffer as it is. -/
theorem take_snprintf (nul : α) {size n : Nat} {text : List α} (hfits : text.length < size) (hn : n ≤ text.length) :
    (snprintf nul size text).2.take n = text.take n := by
  unfold snprintf
  rw [List.take_of_length_le (by omega : text.length ≤ size - 1), List.take_append_of_le_length hn]

end TcpipCourse.Lib
