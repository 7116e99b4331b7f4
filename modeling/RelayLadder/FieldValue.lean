/-
  Values offered for the fields of a record, before their type is checked.
-/
import RelayLadder.Number.Exact
import RelayLadder.Text.Quoted

namespace RelayLadder

/-- A value that is offered for a field or used as a key. -/
inductive FieldValue where
  | integer (n : Int)
  /-- A number with a fraction, by its spelling, and the integer that it equals, if it does. -/
  | decimal (spelling : String) (whole : Option Int)
  | text (s : String)
  | null
  | list
deriving DecidableEq, Repr

namespace FieldValue

/-- The value with this spelling that stands for a binary64 number. -/
def ofFloat (spelling : String) (x : Float) : FieldValue :=
  .decimal spelling <|
    match exactValue x with
    | .finite negative magnitude =>
      if magnitude.den = 1 then some (if negative then -magnitude.num else magnitude.num) else none
    | _ => none

/-- The value is the number `n`. -/
def isNumber (v : FieldValue) (n : Nat) : Bool :=
  match v with
  | integer k | decimal _ (some k) => k == n
  | _ => false

/-- The name of the value's type, as messages give it. -/
def typeName : FieldValue → String
  | integer _ => "int"
  | decimal .. => "float"
  | text _ => "str"
  | null => "NoneType"
  | list => "list"

/-- The value as messages show it. -/
def shown : FieldValue → String
  | integer n => toString n
  | decimal spelling _ => spelling
  | text s => Text.quote s
  | null => "None"
  | list => "[]"

end FieldValue

end RelayLadder
