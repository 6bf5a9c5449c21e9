import Mathlib.Data.List.Chain

/-!
# Graphs that are drawn as lines

The edges of a relation are listed, and so are some lines along them. When every line can be entered from every edge
that leads into it, the walks of the graph are the pieces of the lines.

* `Drawn` : what the lines have to meet;
* `Drawn.isChain_iff` : a walk is a nonempty piece of a line.
-/

namespace TcpipCourse.Lib

variable {α : Type*}

/-- The lines run along the edges and reach every node; and where an edge leads into a line, some line has the edge
and goes on in the same way. -/
structure Drawn (edges : List (α × α)) (lines : List (List α)) : Prop where
  along : ∀ l ∈ lines, l.IsChain fun a b => (a, b) ∈ edges
  node : ∀ a, ∃ l ∈ lines, a ∈ l
  enter : ∀ e ∈ edges, ∀ l ∈ lines, ∀ t, e.2 :: t <:+ l → ∃ m ∈ lines, e.1 :: e.2 :: t <:+ m

variable {edges : List (α × α)} {lines : List (List α)}

/-- A walk starts the rest of a line. -/
theorem Drawn.prefix_suffix (h : Drawn edges lines) {p : List α} (hne : p ≠ [])
    (hp : p.IsChain fun a b => (a, b) ∈ edges) : ∃ l ∈ lines, ∃ t, p <+: t ∧ t <:+ l := by
  induction p with
  | nil => exact absurd rfl hne
  | cons a p ih =>
    cases p with
    | nil =>
      obtain ⟨l, hl, ha⟩ := h.node a
      obtain ⟨u, v, rfl⟩ := List.append_of_mem ha
      exact ⟨_, hl, a :: v, List.prefix_append [a] v, List.suffix_append u (a :: v)⟩
    | cons b p =>
      obtain ⟨hedge, hrest⟩ := List.isChain_cons_cons.mp hp
      obtain ⟨l, hl, t, hfront, hback⟩ := ih (by simp) hrest
      obtain ⟨r, rfl⟩ := hfront
      obtain ⟨m, hm, hback⟩ := h.enter (a, b) hedge l hl (p ++ r) hback
      exact ⟨m, hm, a :: b :: (p ++ r), List.prefix_append (a :: b :: p) r, hback⟩

/-- **Main result.** The walks are the nonempty pieces of the lines. -/
theorem Drawn.isChain_iff (h : Drawn edges lines) {p : List α} (hne : p ≠ []) :
    p.IsChain (fun a b => (a, b) ∈ edges) ↔ ∃ l ∈ lines, p <:+: l := by
  constructor
  · intro hp
    obtain ⟨l, hl, t, hfront, hback⟩ := h.prefix_suffix hne hp
    exact ⟨l, hl, List.infix_iff_prefix_suffix.mpr ⟨t, hfront, hback⟩⟩
  · rintro ⟨l, hl, u, v, rfl⟩
    have hfront := (List.isChain_append.mp (h.along _ hl)).1
    exact (List.isChain_append.mp hfront).2.1

end TcpipCourse.Lib
