/-
  Writing a routine as L5X markup.

  A rung is written with its number, its comment, if it has one, and its text; texts are to stand in
  sections, without references.
-/
import RelayLadder.Routine
import RelayLadder.Xml.Library

namespace RelayLadder.L5X

open Xml

/-- The text without the blanks around it, and with a semicolon at its end. -/
def terminated (s : String) : String :=
  let t := Text.trim s.toList
  String.ofList (if t.getLast? = some ';' then t else t ++ [';'])

/-- The text of a rung as it is written: the stored one, or made anew from the elements. -/
def writtenText (r : Rung) (regenerate : Bool) : String :=
  if regenerate then Series.rungText r.elements else terminated r.text

/-- A rung as it is to be written. -/
def rungDraft (regenerate : Bool) (r : Rung) : Draft :=
  .group "Rung" [("Number", toString r.number), ("Type", "N")]
    ((r.comment.toList.map (.leaf "Comment")) ++ [.leaf "Text" (writtenText r regenerate)])

/-- A routine as it is to be written, named by the last part of its name. -/
def routineDraft (regenerate : Bool) (r : Routine) : Draft :=
  .group "Routine" [("Name", r.localName), ("Type", "RLL")]
    [.group "RLLContent" [] (r.rungs.map (rungDraft regenerate))]

/-- A routine as markup. -/
def write (xml : Library) (r : Routine) (regenerate : Bool := false) : Except Error String :=
  match xml.write (routineDraft regenerate r) with
  | some markup => .ok markup
  | none => .error .unwritableText

end RelayLadder.L5X
