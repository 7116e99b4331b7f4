/-
  Coordinates.

  A layout is computed in any type with arithmetic and comparisons: in binary64 numbers when it is
  run, in rationals where its exact geometry is the subject.

  * `Scalar` collects what a layout needs of its coordinates, with instances for both;
  * `least` and `greatest` compare two coordinates; of two equal ones they give the first.
-/
namespace RelayLadder

/-- Arithmetic, comparisons and numerals: what a layout needs of its coordinates. -/
class Scalar (α : Type) extends Add α, Sub α, Mul α, Div α, NatCast α, LT α, LE α where
  numeral : (n : Nat) → OfNat α n
  decLt : DecidableLT α
  decLe : DecidableLE α

instance : Scalar Rat where
  numeral _ := Rat.instOfNat
  decLt := Rat.instDecidableLt
  decLe := Rat.instDecidableLe

instance : Scalar Float where
  natCast := Float.ofNat
  numeral _ := instOfNatFloat
  decLt := Float.decLt
  decLe := Float.decLe

namespace Scalar

variable {α : Type} [Scalar α]

instance (priority := low) (n : Nat) : OfNat α n := numeral n

instance (priority := low) : DecidableLT α := decLt

instance (priority := low) : DecidableLE α := decLe

/-- The smaller of two coordinates, the first if they are equal. -/
def least (a b : α) : α := if b < a then b else a

/-- The larger of two coordinates, the first if they are equal. -/
def greatest (a b : α) : α := if a < b then b else a

/-- The largest of some coordinates, the first of those. -/
def greatestOf (a : α) (as : List α) : α := as.foldl greatest a

end Scalar

end RelayLadder
