/-
  A stand-in for the console library.

  It shows what the library shows on a console that is wide enough for all lines and has no colours.
  Captions with marks of the library in them are not its concern: it does not show them, where the
  library obeys the marks or fails.  No theorem about programs is about it: they take any console.

  * `shown`: texts without the controls that ring, go back or feed, and with spaces for tabs;
  * `outlineLines`: below a label stand its children, each behind a guide that ends in a corner for
    the last one; what belongs to a child is indented under it, with the guide going on beside all
    but the last;
  * `Grid.lines`: each column is as wide as its widest cell or heading, with a space on either side;
    the heading stands in a heavy frame, and the title is padded to the width of the table.
-/
import RelayLadder.Console.Display
import RelayLadder.StandIn.Columns
import RelayLadder.Text.Quoted

namespace RelayLadder.StandIn

open Console

/-! ## Texts -/

/-- Controls that are not shown: bell, backspace, vertical tab, form feed, carriage return. -/
def isDroppedControl (c : Char) : Bool := [0x7, 0x8, 0xB, 0xC, 0xD].contains c.toNat

/-- The columns between tab stops. -/
def tabWidth : Nat := 8

/-- Replaces tabs by spaces, given the column after the last tab and, reversed, what stands behind
    that. -/
def expandTabs (column : Nat) (behind : List Char) : List Char → List Char
  | [] => behind.reverse
  | '\n' :: cs => behind.reverse ++ '\n' :: expandTabs 0 [] cs
  | '\t' :: cs =>
    let part := behind.reverse ++ [' ']
    let column := column + columnsOf part
    let n := (tabWidth - column % tabWidth) % tabWidth
    part ++ List.replicate n ' ' ++ expandTabs (column + n) [] cs
  | c :: cs => expandTabs column (c :: behind) cs

/-- The text as it is shown. -/
def shown (s : String) : String :=
  String.ofList (expandTabs 0 [] (s.toList.filter (!isDroppedControl ·)))

/-- Lines as they are shown, each ended. -/
def shownLines (lines : List String) : String := String.join (lines.map fun l => shown l ++ "\n")

/-! ## Outlines -/

mutual
/-- The lines of an outline. -/
def outlineLines : Outline → List String
  | .item label children => label :: childLines children

/-- The lines of some children, the last of which ends the guide. -/
def childLines : List Outline → List String
  | [] => []
  | [last] => indent "└── " "    " (outlineLines last)
  | child :: next :: rest =>
    indent "├── " "│   " (outlineLines child) ++ childLines (next :: rest)

/-- Puts one mark in front of the first line and another in front of the others. -/
def indent (first others : String) : List String → List String
  | [] => []
  | line :: lines => (first ++ line) :: lines.map (others ++ ·)
end


/-! ## Tables -/

/-- Spaces. -/
def spaces (n : Nat) : String := String.ofList (List.replicate n ' ')

/-- The text with spaces on one side, `width` columns in all. -/
def padded (right : Bool) (width : Nat) (s : String) : String :=
  if right then spaces (width - columns s) ++ s else s ++ spaces (width - columns s)

/-- Pieces between a left end and a right end, divided by `mid`. -/
def framed (left mid right : String) (pieces : List String) : String :=
  left ++ String.intercalate mid pieces ++ right

/-- The text of a caption.  Marks stand in brackets or between colons; a text that may have some is
    not shown. -/
def captionText : Caption → Except String String
  | .plain text => .ok text
  | .marked text =>
    if text.toList.contains '[' || 1 < text.toList.count ':' then
      .error ("marks in " ++ Text.quote text)
    else .ok text

/-- A table whose captions are texts. -/
structure Grid where
  title : String
  headings : List (String × Bool)
  rows : List (List String)

/-- The table with the texts of its captions. -/
def Grid.ofTable (t : Table) : Except String Grid := do
  let title ← captionText t.title
  let headings ← t.columns.mapM fun c => return (← captionText c.heading, c.right)
  let rows ← t.rows.mapM (·.mapM captionText)
  return { title, headings, rows }

namespace Grid

/-- The widths of the columns, by their widest cells. -/
def widths (g : Grid) : List Nat :=
  g.headings.mapIdx fun k (heading, _) =>
    g.rows.foldl (fun w row => max w (columns (row[k]?.getD ""))) (columns heading)

/-- A line across the table. -/
def ruler (g : Grid) (left bar mid right : String) : String :=
  framed left mid right (g.widths.map fun w => String.join (List.replicate (w + 2) bar))

/-- A line of cells. -/
def line (g : Grid) (bar : String) (cells : List String) : String :=
  framed bar bar bar ((cells.zip (g.headings.zip g.widths)).map fun (cell, (_, right), w) =>
    " " ++ padded right w cell ++ " ")

/-- The lines of the table. -/
def lines (g : Grid) : List String :=
  let top := g.ruler "┏" "━" "┳" "┓"
  [padded false top.length g.title, top, g.line "┃" (g.headings.map Prod.fst),
    g.ruler "┡" "━" "╇" "┩"] ++
    g.rows.map (g.line "│") ++ [g.ruler "└" "─" "┴" "┘"]

end Grid

/-! ## The console -/

/-- The stand-in for the console library. -/
def console : Console
  | .outline o => .ok (shownLines (outlineLines o))
  | .table t => do return shownLines (← Grid.ofTable t).lines
  | .notice text => .ok (shownLines [text])
  | .text text ended => .ok (if ended then shownLines [text] else shown text)

end RelayLadder.StandIn
