/-
  The canonical text of elements.

  Elements of a series stand back to back, the legs of a branch between brackets with commas
  between them, and an instruction without operands as its mnemonic with empty parentheses.  A
  rung's text ends with a semicolon.
-/
import RelayLadder.Element

namespace RelayLadder

/-- The pieces with a comma between each two. -/
def commaSeparated : List (List Char) → List Char
  | [] => []
  | [piece] => piece
  | piece :: next :: rest => piece ++ ',' :: commaSeparated (next :: rest)

/-- The characters of an instruction's text: the mnemonic, then the operands in parentheses. -/
def Instruction.spell (i : Instruction) : List Char :=
  i.mnemonic.toList ++ '(' :: commaSeparated (i.values.map String.toList) ++ [')']

mutual
/-- The characters of a series' text. -/
def Series.spell : Series → List Char
  | [] => []
  | .instr i :: es => i.spell ++ Series.spell es
  | .branch legs :: es => '[' :: Legs.spell legs ++ ']' :: Series.spell es

/-- The characters between the brackets of a branch. -/
def Legs.spell : Legs → List Char
  | [] => []
  | [leg] => Series.spell leg
  | leg :: next :: legs => Series.spell leg ++ ',' :: Legs.spell (next :: legs)
end

/-- The text of an instruction. -/
def Instruction.text (i : Instruction) : String := String.ofList i.spell

/-- The canonical text of a series, without the semicolon that ends a rung. -/
def Series.text (es : Series) : String := String.ofList (Series.spell es)

/-- The canonical text of an element. -/
def Element.text (e : Element) : String := Series.text [e]

/-- The canonical text of a rung with these elements, ended by a semicolon. -/
def Series.rungText (es : Series) : String := String.ofList (Series.spell es ++ [';'])

theorem Series.spell_append (a b : Series) :
    Series.spell (a ++ b) = Series.spell a ++ Series.spell b := by
  induction a with
  | nil => simp [Series.spell]
  | cons e a ih => cases e <;> simp [Series.spell, ih]

end RelayLadder
