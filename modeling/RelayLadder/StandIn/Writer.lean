/-
  A stand-in for the XML library: writing.

  An element is written with each element in it on a line of its own, two spaces further in.  A
  document cannot hold some characters, and then nothing is written.
-/
import RelayLadder.StandIn.Document
import RelayLadder.Xml.Source

namespace RelayLadder.StandIn

open Xml

/-- The text can stand in a document. -/
def isLegible (s : String) : Bool := s.toList.all isDocumentChar

mutual
/-- All texts and values in the element can stand in a document. -/
def isLegibleDraft : Draft → Bool
  | .leaf _ text => isLegible text
  | .group _ attributes children =>
    attributes.all (fun a => isLegible a.2) && areLegible children

/-- The same for several elements. -/
def areLegible : List Draft → Bool
  | [] => true
  | d :: ds => isLegibleDraft d && areLegible ds
end

/-- A step to the right. -/
def inwards (outer : List Char) : List Char := outer ++ [' ', ' ']

mutual
/-- An element on a line that starts with `outer`, a line feed and spaces, in front of some
    markup. -/
def layLine (outer : List Char) (rest : Source) : Draft → Source
  | .leaf tag text => .leaf outer tag (sections text.toList) rest
  | .group tag attributes children => .group outer tag attributes (layInside outer children) rest

/-- What is in an element whose own line starts with `outer`. -/
def layInside (outer : List Char) : List Draft → Source
  | [] => .done []
  | d :: ds => layLine (inwards outer) (layLines outer ds) d

/-- Further elements in it. -/
def layLines (outer : List Char) : List Draft → Source
  | [] => .done outer
  | d :: ds => layLine (inwards outer) (layLines outer ds) d
end

/-- A document with this element, and a line feed behind it. -/
def layOut : Draft → Source
  | .leaf tag text => .leaf [] tag (sections text.toList) (.done ['\n'])
  | .group tag attributes children =>
    .group [] tag attributes (layInside ['\n'] children) (.done ['\n'])

/-- The stand-in for the XML library.  What it takes for bytes is text in UTF-8. -/
def xml : Library where
  read bytes := (String.fromUTF8? bytes).bind Document.read
  write d := if areLegible [d] then some (String.ofList (layOut d).chars) else none

end RelayLadder.StandIn
