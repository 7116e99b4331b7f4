/-
  Laying out a rung.

  Elements run left to right on the main rail, each in a cell whose width depends on its glyph.  A
  branch with `n` legs takes a band of `n` leg spacings, centred on the rail that it sits on, with
  its legs in the middle of their strips.  All legs start at the same x and rejoin where the widest
  one ends, so the legs are placed before the connectors are drawn.

  * `Drawing` is what has been drawn so far: where the next element starts, its number, how far up
    and down the drawing reaches, and what is in it;
  * `placeSeries` goes on with a drawing by a series, `placeLegs` draws the legs of a branch, and
    `joinLegs` puts drawn legs together into their branch;
  * `layout` draws a rung, with its power rails.
-/
import RelayLadder.Layout.Glyphs

namespace RelayLadder.Layout

variable {α : Type} [Scalar α]

open Scalar

/-! ## Drawings -/

/-- What has been drawn so far. -/
structure Drawing (α : Type) where
  x : α
  index : Nat
  minY : α
  maxY : α
  primitives : List (Primitive α) := []
  regions : List (HitRegion α) := []
  branches : List (BranchGeometry α) := []

namespace Drawing

/-- Nothing drawn yet on the rail at `y`. -/
def start (x y : α) (index : Nat) : Drawing α := { x, index, minY := y, maxY := y }

/-- Both drawings, the second of which starts where the first ends. -/
def append (a b : Drawing α) : Drawing α where
  x := b.x
  index := b.index
  minY := least a.minY b.minY
  maxY := greatest a.maxY b.maxY
  primitives := a.primitives ++ b.primitives
  regions := a.regions ++ b.regions
  branches := a.branches ++ b.branches

end Drawing

/-- What stays the same while a rung is laid out, and the legs around the current series. -/
structure Context (α : Type) where
  config : Config α
  rung : Int
  branchPath : List Nat := []

/-- The context inside a leg. -/
def Context.intoLeg (ctx : Context α) (leg : Nat) : Context α :=
  { ctx with branchPath := ctx.branchPath ++ [leg] }

/-! ## Elements -/

/-- Draws an instruction whose left end is at `(x, y)`. -/
def placeInstruction (ctx : Context α) (i : Instruction) (x y : α) (index : Nat) : Drawing α :=
  let sketch := drawInstruction ctx.config i x y
  let cell := cellWidth ctx.config i
  { x := x + cell
    index := index + 1
    minY := least sketch.bounds.y y
    maxY := greatest sketch.bounds.bottom y
    primitives := sketch.primitives ++ [wire sketch.railOut y (x + cell) y]
    regions :=
      [{ rung := ctx.rung, index, mnemonic := i.mnemonic, values := i.values, fields := i.labels
         bounds := sketch.bounds, branchPath := ctx.branchPath, instruction := i }] }

/-- The height of the band of a branch with `n` legs. -/
def bandHeight (c : Config α) (n : Nat) : α := (n : α) * c.legSpacing

/-- The y of leg number `leg` of `n`, for a branch on the rail at `y`. -/
def legY (c : Config α) (y : α) (n leg : Nat) : α :=
  y - bandHeight c n / 2 + (leg : α) * c.legSpacing + c.legSpacing / 2

/-- The lines from the rail at `y` to a leg, from the leg's end to the merge point, and back. -/
def legConnectors (y entryX mergeX : α) (leg : Drawing α) (legY : α) : List (Primitive α) :=
  [connector entryX y entryX legY] ++
    (if leg.x < mergeX then [connector leg.x legY mergeX legY] else []) ++
    [connector mergeX legY mergeX y]

/-- The drawing of a branch at `(x, y)` from the drawings of its legs, with the y of each. -/
def joinLegs (ctx : Context α) (x y : α) (index : Nat) (legs : List (Drawing α × α)) :
    Drawing α :=
  match legs with
  | [] => .start x y index
  | first :: rest =>
    let c := ctx.config
    let band := bandHeight c legs.length
    let entryX := x + c.fanWidth
    let mergeX := entryX + greatestOf (first.1.x - entryX) (rest.map fun leg => leg.1.x - entryX)
    let endX := mergeX + c.fanWidth
    let own : Drawing α :=
      { x, index
        minY := y - band / 2
        maxY := y + band / 2
        primitives :=
          [connector x y entryX y] ++
          legs.flatMap (fun leg => legConnectors y entryX mergeX leg.1 leg.2) ++
          [connector mergeX y endX y]
        branches :=
          [{ startX := x, entryX, mergeX, endX, mainY := y
             legYs := legs.map (·.2), legEndXs := legs.map (·.1.x)
             depth := ctx.branchPath.length }] }
    { legs.foldl (fun d leg => d.append leg.1) own with x := endX }

mutual
/-- Goes on with a drawing on the rail at `y` by a series of elements. -/
def placeSeries (ctx : Context α) (y : α) (d : Drawing α) : Series → Drawing α
  | [] => d
  | .instr i :: es => placeSeries ctx y (d.append (placeInstruction ctx i d.x y d.index)) es
  | .branch legs :: es =>
    let placed := placeLegs ctx (d.x + ctx.config.fanWidth) (legY ctx.config y legs.length)
      0 d.index legs
    placeSeries ctx y (d.append (joinLegs ctx d.x y d.index placed)) es

/-- Draws legs that start at `entryX`, from leg number `leg` on, each with its y. -/
def placeLegs (ctx : Context α) (entryX : α) (legY : Nat → α) (leg index : Nat) :
    Legs → List (Drawing α × α)
  | [] => []
  | es :: legs =>
    let d := placeSeries (ctx.intoLeg leg) (legY leg) (.start entryX (legY leg) index) es
    (d, legY leg) :: placeLegs ctx entryX legY (leg + 1) d.index legs
end

/-- A series is drawn part by part. -/
theorem placeSeries_append (ctx : Context α) (y : α) (d : Drawing α) (a b : Series) :
    placeSeries ctx y d (a ++ b) = placeSeries ctx y (placeSeries ctx y d a) b := by
  induction a generalizing d with
  | nil => simp [placeSeries]
  | cons e a ih => cases e <;> simp [placeSeries, ih]

/-! ## Rungs -/

/-- The elements of a rung on the main rail, without the power rails. -/
def placeRung (c : Config α) (rung : Int) (es : Series) : Drawing α :=
  placeSeries ⟨c, rung, []⟩ c.railY (.start c.startX c.railY 0) es

/-- The diagram of a rung. -/
def layout (es : Series) (rung : Int) (c : Config α) : Diagram α :=
  let body := placeRung c rung es
  let width := body.x + c.rightMargin
  let top := least 0 (body.minY - c.railInset)
  let bottom := greatest (body.maxY + c.bottomMargin) c.minHeight
  let rightRailX := width - c.leftRailX
  { rung, width, top
    height := bottom - top
    railEndX := body.x
    primitives :=
      [powerRail c.leftRailX (top + c.railInset) (bottom - c.railInset),
       powerRail rightRailX (top + c.railInset) (bottom - c.railInset),
       wire c.leftRailX c.railY c.startX c.railY,
       wire body.x c.railY rightRailX c.railY] ++ body.primitives
    regions := body.regions
    branches := body.branches }

/-- The width of a series on one rail. -/
def seriesWidth (c : Config α) (es : Series) : α :=
  (placeSeries ⟨c, 0, []⟩ c.railY (.start 0 c.railY 0) es).x

end RelayLadder.Layout
