/-
  Drawings of rungs.

  A diagram is a list of lines, rectangles, circles and texts, with y growing downward.  It also
  says which area belongs to which instruction (`HitRegion`), so that a point can be led back to
  the instruction drawn there, and where branches fan out and merge (`BranchGeometry`).
-/
import RelayLadder.Catalog
import RelayLadder.Error
import RelayLadder.Number.Scalar

namespace RelayLadder.Layout

/-! ## Primitives -/

/-- What a line or shape is part of. -/
inductive Role where
  | rail
  | wire
  | branch
  | glyph
deriving DecidableEq, Repr

def Role.name : Role → String
  | rail => "rail"
  | wire => "wire"
  | branch => "branch"
  | glyph => "glyph"

/-- Which point of a text its position is. -/
inductive Anchor where
  | start
  | middle
  | finish
deriving DecidableEq, Repr

def Anchor.name : Anchor → String
  | start => "start"
  | middle => "middle"
  | finish => "end"

/-- A straight line. -/
structure Line (α : Type) where
  x1 : α
  y1 : α
  x2 : α
  y2 : α
  role : Role
  strokeWidth : α
deriving DecidableEq

/-- An upright rectangle, by its upper left corner and its size. -/
structure Rect (α : Type) where
  x : α
  y : α
  width : α
  height : α
deriving DecidableEq

/-- A circle, by its centre and radius. -/
structure Circle (α : Type) where
  cx : α
  cy : α
  r : α
deriving DecidableEq

/-- A text at a point. -/
structure Label (α : Type) where
  x : α
  y : α
  text : String
  size : α
  anchor : Anchor
  bold : Bool
  mono : Bool
deriving DecidableEq

/-- Something drawn. -/
inductive Primitive (α : Type) where
  | line (l : Line α)
  | rect (r : Rect α) (role : Role)
  | circle (c : Circle α) (role : Role)
  | label (t : Label α)
deriving DecidableEq

variable {α : Type}

section
variable [Scalar α]

/-- The x of the right edge. -/
def Rect.right (r : Rect α) : α := r.x + r.width

/-- The y of the lower edge. -/
def Rect.bottom (r : Rect α) : α := r.y + r.height

/-- The point lies in the rectangle or on its edge. -/
def Rect.contains (r : Rect α) (x y : α) : Bool :=
  r.x ≤ x && x ≤ r.right && r.y ≤ y && y ≤ r.bottom

end

/-! ## Regions and branches -/

/-- The area of an instruction in a drawing, with what tells the instruction: its rung and number
    there, its mnemonic, its operand values, in order and under their names, and the legs around
    it. -/
structure HitRegion (α : Type) where
  rung : Int
  index : Nat
  mnemonic : String
  values : List String
  fields : Labels
  bounds : Rect α
  branchPath : List Nat
  instruction : Instruction
deriving DecidableEq

/-- Where a branch was drawn. -/
structure BranchGeometry (α : Type) where
  /-- Where the branch leaves the rail around it. -/
  startX : α
  /-- Where every leg starts. -/
  entryX : α
  /-- Where every leg ends. -/
  mergeX : α
  /-- Where the rail around the branch goes on. -/
  endX : α
  /-- The y of the rail around the branch. -/
  mainY : α
  /-- The y of each leg. -/
  legYs : List α
  /-- The x that each leg's own elements reach. -/
  legEndXs : List α
  /-- The number of branches around this one. -/
  depth : Nat
deriving DecidableEq

/-- The width of each leg's own elements. -/
def BranchGeometry.legWidths [Scalar α] (g : BranchGeometry α) : List α :=
  g.legEndXs.map (· - g.entryX)

/-- The width of the branch with its fans. -/
def BranchGeometry.width [Scalar α] (g : BranchGeometry α) : α := g.endX - g.startX

/-! ## Diagrams -/

/-- The drawing of a rung.  It reaches down from `top`, which is 0 unless legs rise above the
    upper edge, by `height`. -/
structure Diagram (α : Type) where
  rung : Int
  primitives : List (Primitive α)
  regions : List (HitRegion α)
  branches : List (BranchGeometry α)
  width : α
  height : α
  top : α
  railEndX : α

namespace Diagram

/-- Neither an instruction nor a branch is drawn. -/
def isEmpty (d : Diagram α) : Bool := d.regions.isEmpty && d.branches.isEmpty

/-- The first region that the point lies in. -/
def hitTest [Scalar α] (d : Diagram α) (x y : α) : Option (HitRegion α) :=
  d.regions.find? (·.bounds.contains x y)

/-- The region of the instruction with this number. -/
def region (d : Diagram α) (index : Int) : Except Error (HitRegion α) :=
  match d.regions.find? fun r => (r.index : Int) == index with
  | some r => .ok r
  | none => .error (.noRegion d.rung index)

/-- The lines whose role is wanted. -/
def lines (d : Diagram α) (wanted : Role → Bool) : List (Line α) :=
  d.primitives.filterMap fun
    | .line l => if wanted l.role then some l else none
    | _ => none

end Diagram

end RelayLadder.Layout
