/-
  What is shown on a console.

  A console shows outlines, tables, notices and texts, each in its own way, or says why it cannot:
  captions can hold the console's own marks, and those it may not take.  Everything that is printed
  goes through a `Console`.
-/
import RelayLadder.Console.Outline

namespace RelayLadder

namespace Console

/-- A text in a table. -/
inductive Caption where
  /-- The text is shown as it is. -/
  | plain (text : String)
  /-- What looks like one of the console's own marks in the text is taken for it. -/
  | marked (text : String)
deriving DecidableEq, Repr

/-- A column's heading, and whether its cells are moved to the right. -/
structure Column where
  heading : Caption
  right : Bool := false

/-- A table with its rows from top to bottom, and its title at the left above them. -/
structure Table where
  title : Caption
  columns : List Column
  rows : List (List Caption)

/-- Something to be shown. -/
inductive Display where
  | outline (o : Outline)
  | table (t : Table)
  /-- A text on lines of its own. -/
  | notice (text : String)
  /-- A text whose lines are not broken, with or without a line end behind it. -/
  | text (text : String) (ended : Bool)

end Console

/-- What a console makes of what it is to show, or its wording of why it cannot show this. -/
abbrev Console := Console.Display → Except String String

end RelayLadder
