/-
  Numbers as they are written in drawings.

  A number is rounded to six significant digits, a half going to the even neighbour, and zeros at
  the end of its fraction are left out.  It is written positionally if its first digit stands at
  one of the powers 10^-4 to 10^5, and else with one digit before the point and an exponent of at
  least two digits.

  * `decimalExponent` is the power of ten of the first digit;
  * `roundHalfEven` rounds a quotient to a whole number;
  * `writePositive` writes a positive quotient, and `Written` has instances for rationals and for
    binary64 numbers.
-/
import RelayLadder.Number.Exact

namespace RelayLadder

/-- The number of significant digits. -/
def precision : Nat := 6

/-- The quotient `num / den`, rounded; a half goes to the even neighbour. -/
def roundHalfEven (num den : Nat) : Nat :=
  let q := num / den
  let r := num % den
  if 2 * r < den ∨ (2 * r = den ∧ q % 2 = 0) then q else q + 1

/-- The number of decimal digits of `n`. -/
def digitCount (n : Nat) : Nat := (Nat.toDigits 10 n).length

/-- Numerator and denominator of `num / den · 10^k`. -/
def shiftDecimal (num den : Nat) (k : Int) : Nat × Nat :=
  if 0 ≤ k then (num * Nat.pow 10 k.toNat, den)
  else (num, den * Nat.pow 10 (-k).toNat)

/-- The largest `e` such that `10^e ≤ num / den`, for a positive quotient. -/
def decimalExponent (num den : Nat) : Int :=
  let e : Int := digitCount num - digitCount den
  let (n, d) := shiftDecimal num den (-e)
  if d ≤ n then e else e - 1

/-- The digits without the zeros at their end. -/
def dropFinalZeros (ds : List Char) : List Char := (ds.reverse.dropWhile (· == '0')).reverse

/-- A point and the digits behind it; nothing if these are zeros. -/
def fractionPart (ds : List Char) : List Char :=
  match dropFinalZeros ds with
  | [] => []
  | ds => '.' :: ds

/-- An exponent: sign and at least two digits. -/
def exponentPart (e : Int) : List Char :=
  let ds := Nat.toDigits 10 e.natAbs
  'e' :: (if e < 0 then '-' else '+') :: (List.replicate (2 - ds.length) '0' ++ ds)

/-- Writes the number with digits `ds`, the first of which stands at `10^e`. -/
def placePoint (ds : List Char) (e : Int) : List Char :=
  if 0 ≤ e ∧ e < precision then
    ds.take (e.toNat + 1) ++ fractionPart (ds.drop (e.toNat + 1))
  else if -4 ≤ e ∧ e < 0 then
    '0' :: fractionPart (List.replicate ((-e).toNat - 1) '0' ++ ds)
  else ds.take 1 ++ fractionPart (ds.drop 1) ++ exponentPart e

/-- Writes the positive quotient `num / den`. -/
def writePositive (num den : Nat) : List Char :=
  let e := decimalExponent num den
  let (n, d) := shiftDecimal num den (precision - 1 - e)
  let m := roundHalfEven n d
  if m = Nat.pow 10 precision then placePoint (Nat.toDigits 10 (m / 10)) (e + 1)
  else placePoint (Nat.toDigits 10 m) e

/-- Writes a number of the given sign and magnitude. -/
def writeSigned (negative : Bool) (magnitude : Rat) : String :=
  let ds := if magnitude.num = 0 then ['0'] else writePositive magnitude.num.natAbs magnitude.den
  String.ofList (if negative then '-' :: ds else ds)

/-- Numbers that can be written in a drawing. -/
class Written (α : Type) where
  written : α → String

export Written (written)

instance : Written Rat where
  written r := writeSigned (r.num < 0) r

instance : Written Float where
  written x :=
    match exactValue x with
    | .finite negative magnitude => writeSigned negative magnitude
    | .infinite negative => if negative then "-inf" else "inf"
    | .undefined => "nan"

end RelayLadder
