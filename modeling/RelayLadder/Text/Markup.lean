/-
  Texts inside markup: the characters that have a meaning there are written as references.
-/
namespace RelayLadder.Text

/-- A character in the content of an element or in an attribute. -/
def escapeChar (c : Char) : List Char :=
  match c with
  | '&' => "&amp;".toList
  | '<' => "&lt;".toList
  | '>' => "&gt;".toList
  | '"' => "&quot;".toList
  | '\'' => "&#x27;".toList
  | c => [c]

/-- The text with the characters `& < > " '` as references. -/
def escape (s : String) : String := String.ofList (s.toList.flatMap escapeChar)

end RelayLadder.Text
