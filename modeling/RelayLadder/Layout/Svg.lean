/-
  Diagrams as SVG documents.

  Every text from a rung is written with references for the characters that have a meaning in
  markup, and every coordinate in six significant digits.  Behind the drawing stand invisible
  rectangles that name rung and instruction, for a reader that takes clicks.
-/
import RelayLadder.Layout.Stack
import RelayLadder.Number.Written
import RelayLadder.Text.Markup

namespace RelayLadder.Layout

variable {α : Type} [Written α]

open Text

/-- An attribute with the space before it. -/
def attr (name value : String) : String := " " ++ name ++ "=\"" ++ value ++ "\""

/-- The markup of something drawn. -/
def Primitive.svg : Primitive α → String
  | .line l =>
    "<line" ++ attr "class" l.role.name ++ attr "x1" (written l.x1) ++ attr "y1" (written l.y1) ++
      attr "x2" (written l.x2) ++ attr "y2" (written l.y2) ++
      attr "stroke-width" (written l.strokeWidth) ++ "/>"
  | .rect r role =>
    "<rect" ++ attr "class" role.name ++ attr "x" (written r.x) ++ attr "y" (written r.y) ++
      attr "width" (written r.width) ++ attr "height" (written r.height) ++
      attr "stroke-width" "2" ++ "/>"
  | .circle c role =>
    "<circle" ++ attr "class" role.name ++ attr "cx" (written c.cx) ++ attr "cy" (written c.cy) ++
      attr "r" (written c.r) ++ attr "stroke-width" "2" ++ "/>"
  | .label t =>
    "<text" ++ attr "class" (if t.mono then "label" else "title") ++ attr "x" (written t.x) ++
      attr "y" (written t.y) ++ attr "text-anchor" t.anchor.name ++
      attr "font-size" (written t.size) ++ (if t.bold then attr "font-weight" "bold" else "") ++
      ">" ++ escape t.text ++ "</text>"

/-- The rectangle that takes the clicks on an instruction of the rung that goes by this label. -/
def HitRegion.svg (label : String) (r : HitRegion α) : String :=
  "<rect" ++ attr "class" "hit" ++ attr "data-rung" label ++
    attr "data-index" (toString r.index) ++ attr "data-type" (escape r.mnemonic) ++
    attr "x" (written r.bounds.x) ++ attr "y" (written r.bounds.y) ++
    attr "width" (written r.bounds.width) ++ attr "height" (written r.bounds.height) ++ "/>"

/-- The lines that every document starts with. -/
def svgHead (width height top : String) : List String :=
  ["<?xml version=\"1.0\" encoding=\"UTF-8\"?>",
   "<svg" ++ attr "xmlns" "http://www.w3.org/2000/svg" ++ attr "width" width ++
     attr "height" height ++ attr "viewBox" ("0 " ++ top ++ " " ++ width ++ " " ++ height) ++ ">",
   "  <style>",
   "    .rail \x7b stroke: currentColor; \x7d",
   "    .wire, .branch, .glyph \x7b stroke: currentColor; fill: none; \x7d",
   "    .label \x7b fill: currentColor; font-family: ui-monospace, monospace; \x7d",
   "    .title \x7b fill: currentColor; font-family: sans-serif; \x7d",
   "    .hit \x7b fill: transparent; stroke: none; \x7d",
   "  </style>"]

/-- Lines, each ended. -/
def unlines (lines : List String) : String := String.join (lines.map (· ++ "\n"))

section
variable [Scalar α]

/-- The label of the rung beside its rail. -/
def Diagram.svgTitle (d : Diagram α) (label : String) : String :=
  "<text" ++ attr "class" "title" ++ attr "x" "2" ++ attr "y" (written (d.top + 10)) ++
    attr "font-size" "10" ++ ">" ++ label ++ "</text>"

/-- The lines of the content of a diagram whose rung goes by this label, with or without the label
    beside the rail. -/
def Diagram.svgContent (d : Diagram α) (label : String) (titled : Bool) : List String :=
  (if titled then [d.svgTitle label] else []) ++ d.primitives.map Primitive.svg ++
    ["<g class=\"hit-regions\">"] ++ d.regions.map (fun r => "  " ++ r.svg label) ++ ["</g>"]

/-- The document of one diagram whose rung goes by this label. -/
def Diagram.svgLabelled (d : Diagram α) (label : String) (titled : Bool := true) : String :=
  unlines (svgHead (written d.width) (written d.height) (written d.top) ++
    (d.svgContent label titled).map ("  " ++ ·) ++ ["</svg>"])

/-- The document of one diagram; its rung goes by its number. -/
def Diagram.svg (d : Diagram α) (numbered : Bool := true) : String :=
  d.svgLabelled (toString d.rung) numbered

/-- The document of a stack of diagrams. -/
def Stack.svg (s : Stack α) : String :=
  unlines (svgHead (written s.width) (written s.height) "0" ++
    s.placed.flatMap (fun (shift, d) =>
      ["  <g transform=\"translate(0 " ++ written shift ++ ")\">"] ++
        (d.svgContent (toString d.rung) true).map ("    " ++ ·) ++ ["  </g>"]) ++
    ["</svg>"])

end

end RelayLadder.Layout
