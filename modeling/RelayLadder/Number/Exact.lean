/-
  The exact value of a binary64 number, read off its bits.

  Bit 63 is the sign, the next eleven bits the exponent and the last 52 the fraction.  The value of
  a finite number is a whole number of units 2^k; with exponent bits 0 there is no hidden leading
  bit, and exponent bits 2047 are for infinities and for what is no number.
-/
namespace RelayLadder

/-- What a binary64 number stands for.  Both zeros have magnitude 0. -/
inductive ExactValue where
  | finite (negative : Bool) (magnitude : Rat)
  | infinite (negative : Bool)
  | undefined

/-- The rational `m · 2^(k - 1075)`. -/
def scaleByPower (m k : Nat) : Rat :=
  if 1075 ≤ k then ((m * Nat.pow 2 (k - 1075) : Nat) : Rat)
  else mkRat m (Nat.pow 2 (1075 - k))

/-- The value of a binary64 number. -/
def exactValue (x : Float) : ExactValue :=
  let bits := x.toBits.toNat
  let negative := Nat.pow 2 63 ≤ bits
  let exponent := bits / Nat.pow 2 52 % Nat.pow 2 11
  let fraction := bits % Nat.pow 2 52
  if exponent = 2047 then
    if fraction = 0 then .infinite negative else .undefined
  else if exponent = 0 then .finite negative (scaleByPower fraction 1)
  else .finite negative (scaleByPower (Nat.pow 2 52 + fraction) exponent)

end RelayLadder
