/-
  Blank characters, and texts without blanks at their ends.

  * `isBlank` holds of the separators and of the controls that move to another place on the line
    or to another line; zero-width characters are not blank;
  * `trimLeft`, `trimRight` and `trim` drop the blanks at the start, at the end, at both ends.
-/
namespace RelayLadder.Text

/-- A blank character. -/
def isBlank (c : Char) : Bool :=
  let n := c.toNat
  (0x9 ≤ n && n ≤ 0xD) || (0x1C ≤ n && n ≤ 0x20) || n == 0x85 || n == 0xA0 || n == 0x1680 ||
    (0x2000 ≤ n && n ≤ 0x200A) || n == 0x2028 || n == 0x2029 || n == 0x202F || n == 0x205F ||
    n == 0x3000

/-- Drops the blanks at the start. -/
def trimLeft (cs : List Char) : List Char :=
  cs.dropWhile isBlank

/-- Drops the blanks at the end. -/
def trimRight (cs : List Char) : List Char :=
  (cs.reverse.dropWhile isBlank).reverse

/-- Drops the blanks at both ends. -/
def trim (cs : List Char) : List Char :=
  trimRight (trimLeft cs)

/-- The text without the blanks at its ends. -/
def strip (s : String) : String :=
  String.ofList (trim s.toList)

@[simp]
theorem trimRight_nil : trimRight [] = [] := rfl

@[simp]
theorem trim_nil : trim [] = [] := rfl

end RelayLadder.Text
