/-
  Texts in quotes.

  A quoted text stands between apostrophes, or between double quotes if it holds an apostrophe and
  no double quote.  The backslash and the enclosing quote are escaped by a backslash, line feed,
  carriage return and tab by a letter, and every other character without a visible form by its
  code in hexadecimal (`\x`, `\u` or `\U` with two, four or eight digits).
-/
import RelayLadder.Text.Printable

namespace RelayLadder.Text

/-- The last `width` hexadecimal digits of `n`. -/
def hexDigits (width n : Nat) : List Char :=
  let ds := Nat.toDigits 16 n
  List.replicate (width - ds.length) '0' ++ ds

/-- How `c` is written in a text that stands between the quotes `q`. -/
def quoteChar (q c : Char) : List Char :=
  if c = q ∨ c = '\\' then ['\\', c]
  else if c = '\n' then ['\\', 'n']
  else if c = '\r' then ['\\', 'r']
  else if c = '\t' then ['\\', 't']
  else if isPrintable c then [c]
  else if c.toNat ≤ 0xFF then '\\' :: 'x' :: hexDigits 2 c.toNat
  else if c.toNat ≤ 0xFFFF then '\\' :: 'u' :: hexDigits 4 c.toNat
  else '\\' :: 'U' :: hexDigits 8 c.toNat

/-- The quote that a text is put between. -/
def quoteFor (s : String) : Char :=
  if s.toList.contains '\'' && !s.toList.contains '"' then '"' else '\''

/-- The text between quotes, on one line and in visible characters only. -/
def quote (s : String) : String :=
  let q := quoteFor s
  String.ofList (q :: s.toList.flatMap (quoteChar q) ++ [q])

end RelayLadder.Text
