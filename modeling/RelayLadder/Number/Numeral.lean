/-
  Numerals in texts.

  Numerals are read in the decimal digits of any script, and have at most `maxDigits` digits.

  * `natOfDigits` reads a text that consists of digits, and tells which rule it breaks if some are
    not decimal or there are too many;
  * `intOfText?` reads an integer with blanks around it, a sign and underscores between digits.
-/
import RelayLadder.Error
import RelayLadder.Text.Blank
import RelayLadder.Text.Digit

namespace RelayLadder

open Text

/-- The largest number of digits that is read. -/
def maxDigits : Nat := 4300

/-- The number that a text of digits denotes.  The limit holds for the decimal digits that the text
    starts with, and is looked at first. -/
def natOfDigits (s : String) : Except Error Nat :=
  let values := s.toList.map decimalValue?
  let leading := (values.takeWhile Option.isSome).length
  if maxDigits < leading then .error (.longNumeral maxDigits leading)
  else if leading < values.length then .error (.badNumeral s)
  else .ok (ofDecimalValues values.reduceOption)

/-- The values of decimal digits, with single underscores allowed between them. -/
def digitValues? : List Char → Option (List Nat)
  | [] => none
  | c :: cs => do
    let d ← decimalValue? c
    match cs with
    | [] => some [d]
    | '_' :: cs => (digitValues? cs).map (d :: ·)
    | c :: cs => (digitValues? (c :: cs)).map (d :: ·)

/-- A blank that may stand around an integer: any but the information separators. -/
def isNumeralSpace (c : Char) : Bool := isBlank c && !(0x1C ≤ c.toNat && c.toNat ≤ 0x1F)

/-- The integer that a text denotes. -/
def intOfText? (s : String) : Option Int := do
  let cs := s.toList.dropWhile isNumeralSpace
  let cs := (cs.reverse.dropWhile isNumeralSpace).reverse
  let (negative, cs) := match cs with
    | '-' :: cs => (true, cs)
    | '+' :: cs => (false, cs)
    | cs => (false, cs)
  let values ← digitValues? cs
  if maxDigits < values.length then none
  let n : Int := ofDecimalValues values
  return if negative then -n else n

end RelayLadder
