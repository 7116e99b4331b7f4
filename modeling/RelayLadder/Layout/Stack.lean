/-
  Several diagrams one below another.
-/
import RelayLadder.Layout.Diagram

namespace RelayLadder.Layout

variable {α : Type} [Scalar α]

open Scalar

/-- Diagrams with the amount by which each is moved down, in a frame of the given size. -/
structure Stack (α : Type) where
  placed : List (α × Diagram α)
  width : α
  height : α

/-- The diagrams with their shifts, the first band starting at `offset`, and the offset behind the
    last gap. -/
def stackFrom (gap offset : α) : List (Diagram α) → List (α × Diagram α) × α
  | [] => ([], offset)
  | d :: ds =>
    let (placed, last) := stackFrom gap (offset + (d.height + gap)) ds
    ((offset - d.top, d) :: placed, last)

/-- The largest width; 0 if there are no diagrams. -/
def widest : List (Diagram α) → α
  | [] => 0
  | d :: ds => greatestOf d.width (ds.map Diagram.width)

/-- The diagrams one below another, with `gap` between each two. -/
def stack (gap : α) (ds : List (Diagram α)) : Stack α :=
  let (placed, last) := stackFrom gap 0 ds
  { placed, width := widest ds, height := greatest (last - gap) 0 }

end RelayLadder.Layout
