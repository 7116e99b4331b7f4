/-
  Rungs: numbered texts with the elements that they hold.

  A rung is never changed in place: an edit yields a new rung, whose text is the canonical text of
  its new elements.  Instructions are named by their number in reading order.

  * `Rung.ofText` and `Rung.ofElements` make rungs, `Rung.ofFields` checks the values first;
  * `Rung.replace`, `Rung.remove` and `Rung.insert` edit one instruction;
  * `Rung.set` changes one field and leaves the others as they are, the elements too.
-/
import RelayLadder.Element.Location
import RelayLadder.Element.Printer
import RelayLadder.Element.Traversal
import RelayLadder.Error
import RelayLadder.RungText.Parser

namespace RelayLadder

/-- A rung of a routine. -/
structure Rung where
  number : Nat
  text : String := ""
  elements : Series := []
  comment : Option String := none
deriving DecidableEq

namespace Rung

/-- The rung with this text. -/
def ofText (number : Nat) (text : String) (comment : Option String := none) : Rung :=
  { number, text, elements := RungText.elements text, comment }

/-- The rung with these elements, written canonically. -/
def ofElements (number : Nat) (es : Series) : Rung :=
  { number, text := Series.rungText es, elements := es }

/-- The rung has no elements. -/
def isEmpty (r : Rung) : Bool := r.elements.isEmpty

/-- The number of instructions of the rung. -/
def count (r : Rung) : Nat := Series.count r.elements

/-- What reading the rung's text tolerates. -/
def diagnostics (r : Rung) : List RungText.Diagnostic := (RungText.parse r.text).diagnostics

/-! ## Checked fields -/

/-- A rung number is an integer, and not negative. -/
def checkNumber : FieldValue → Except Error Nat
  | .integer (.ofNat n) => .ok n
  | .integer (.negSucc _) => .error .negativeNumber
  | v => .error (.wrongType "Rung" "number" v)

/-- A rung's text is a text. -/
def checkText : FieldValue → Except Error String
  | .text s => .ok s
  | v => .error (.wrongType "Rung" "text" v)

/-- A comment is a text, or there is none. -/
def checkComment : FieldValue → Except Error (Option String)
  | .text s => .ok (some s)
  | .null => .ok none
  | v => .error (.wrongType "Rung" "comment" v)

/-- The rung with this text, if number and comment have the right types; the comment is looked at
    first. -/
def ofFields (number : FieldValue) (text : String) (comment : FieldValue := .null) :
    Except Error Rung := do
  let comment ← checkComment comment
  let number ← checkNumber number
  return ofText number text comment

/-- Changes one field.  Text and elements are not brought together again. -/
def set (r : Rung) (field : String) (value : FieldValue) : Except Error Rung :=
  if field = "number" then return { r with number := ← checkNumber value }
  else if field = "text" then return { r with text := ← checkText value }
  else if field = "comment" then return { r with comment := ← checkComment value }
  else throw (.unknownField "Rung" field)

/-! ## Edits -/

/-- The rung with another text, and the elements that it holds. -/
def withText (r : Rung) (text : String) : Rung :=
  { r with text, elements := RungText.elements text }

/-- The rung with other elements, written canonically. -/
def withElements (r : Rung) (es : Series) : Rung :=
  { r with text := Series.rungText es, elements := es }

/-- The location of an instruction of the rung. -/
def locate (r : Rung) (index : Int) : Except Error Location :=
  match Series.locate r.elements index with
  | some l => .ok l
  | none => .error (.noInstruction index r.number r.count)

/-- The instruction with this number. -/
def instructionAt (r : Rung) (index : Int) : Except Error Instruction :=
  return (← r.locate index).instruction

/-- Changes the series around an instruction, given the instruction's position there. -/
def editAround (r : Rung) (index : Int) (change : Nat → Series → Series) :
    Except Error Rung := do
  let l ← r.locate index
  return r.withElements (Series.editAt (change l.position) l.path r.elements)

/-- Puts another instruction in the place of the one with this number. -/
def replace (r : Rung) (index : Int) (i : Instruction) : Except Error Rung :=
  r.editAround index fun position es => Series.splice es position [.instr i]

/-- Removes the instruction with this number; legs and branches that become empty go with it. -/
def remove (r : Rung) (index : Int) : Except Error Rung :=
  r.editAround index fun position es => Series.splice es position []

/-- Inserts an instruction before the one with this number, or at the end of the rung if the number
    is one past the last. -/
def insert (r : Rung) (index : Int) (i : Instruction) : Except Error Rung :=
  if index = r.count then return r.withElements (r.elements ++ [.instr i])
  else r.editAround index fun position es => es.take position ++ .instr i :: es.drop position

end Rung

end RelayLadder
