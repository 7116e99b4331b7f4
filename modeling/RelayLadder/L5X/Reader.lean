/-
  Reading ladder routines from L5X documents.

  The routines of all programs are read, named with their program in front; routines in other
  languages are passed over.  A rung's text is read whatever it holds; only the document around it
  can be refused, or a rung number that is made of digits and is no number.
-/
import RelayLadder.Number.Numeral
import RelayLadder.Routine
import RelayLadder.Xml.Library

namespace RelayLadder.L5X

open Xml

/-- The name of the root element. -/
def rootTag : String := "RSLogix5000Content"

/-- The text of an element, without the blanks around it. -/
def strippedText (n : Option Node) : Option String := (n.bind Node.text).map Text.strip

/-- The number of a rung: the one given, if it is made of digits, else the rung's position. -/
def rungNumber (given : Option String) (position : Nat) : Except Error Nat :=
  match given with
  | some s => if s ≠ "" ∧ s.toList.all Text.isDigit then natOfDigits s else .ok position
  | none => .ok position

/-- The rung of an element at this position among its fellows. -/
def readRung (n : Node) (position : Nat) : Except Error Rung := do
  let number ← rungNumber (n.attribute? "Number") position
  return Rung.ofText number ((strippedText (n.child? "Text")).getD "")
    (strippedText (n.child? "Comment"))

/-- The rungs of a routine's content. -/
def readRungs (content : Node) : Except Error (List Rung) :=
  (content.childrenNamed "Rung").zipIdx.mapM fun (n, position) => readRung n position

/-- The name that an element gives itself. -/
def givenName (n : Node) : String := (n.attribute? "Name").getD "Unknown"

/-- The ladder content of a routine, if it is a ladder routine. -/
def ladderContent? (routine : Node) : Option Node :=
  if (routine.attribute? "Type").getD "RLL" = "RLL" then routine.child? "RLLContent" else none

/-- The content elements of all ladder routines of a document, with the routines' names. -/
def ladderContents (root : Node) : List (String × Node) :=
  (root.descend ["Controller", "Programs", "Program"]).flatMap fun program =>
    (program.descend ["Routines", "Routine"]).filterMap fun routine =>
      (ladderContent? routine).map (givenName program ++ "/" ++ givenName routine, ·)

/-- The routines of a document with this root. -/
def ofRoot (root : Node) : Except Error (List Routine) :=
  if root.tag = rootTag then
    (ladderContents root).mapM fun (name, content) => return ⟨name, ← readRungs content⟩
  else .error (.wrongRoot rootTag root.tag)

/-- The bytes without the byte order mark of texts in UTF-8, if it is in front. -/
def withoutMark (bytes : ByteArray) : ByteArray :=
  match bytes.data.toList with
  | 0xEF :: 0xBB :: 0xBF :: rest => ⟨rest.toArray⟩
  | _ => bytes

/-- The routines of a document given as bytes. -/
def read (xml : Library) (bytes : ByteArray) : Except Error (List Routine) :=
  match xml.read (withoutMark bytes) with
  | some root => ofRoot root
  | none => .error .malformedDocument

/-- The first routine that goes by this name, with or without its program in front. -/
def findRoutine (routines : List Routine) (name : String) : Except Error Routine :=
  match routines.find? fun r => r.name == name || r.localName == name with
  | some r => .ok r
  | none => .error (.noSuchKey (.text name))

end RelayLadder.L5X
