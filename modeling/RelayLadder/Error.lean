/-
  Everything that can go wrong, by cause, and the wording of each cause.
-/
import RelayLadder.FieldValue

namespace RelayLadder

/-- Why an operation failed. -/
inductive Error where
  /-- An instruction needs a mnemonic. -/
  | emptyMnemonic
  /-- A distance that must be positive is not. -/
  | notPositive (setting : String)
  /-- There is no such layout setting. -/
  | unknownSetting (key : String)
  /-- The rung has no instruction with this number to edit. -/
  | noInstruction (index : Int) (rung count : Nat)
  /-- The diagram has no region for an instruction with this number. -/
  | noRegion (rung index : Int)
  /-- Nothing is stored under this key. -/
  | noSuchKey (key : FieldValue)
  /-- The routine already has a rung with this number. -/
  | duplicateRung (routine : String) (number : FieldValue)
  /-- Rung numbers start at 0. -/
  | negativeNumber
  /-- The field of the record takes no value of this type. -/
  | wrongType (record field : String) (value : FieldValue)
  /-- The record has no such field. -/
  | unknownField (record field : String)
  /-- The document is not well-formed. -/
  | malformedDocument
  /-- The document is of another kind. -/
  | wrongRoot (expected tag : String)
  /-- The text is made of digits, but not all are decimal. -/
  | badNumeral (text : String)
  /-- The numeral is longer than numerals may be. -/
  | longNumeral (limit digits : Nat)
  /-- The text has characters that a document cannot hold. -/
  | unwritableText
  /-- The path has a character that ends paths. -/
  | brokenPath
  /-- The console cannot show what is printed, and says why. -/
  | notShown (wording : String)
deriving DecidableEq, Repr

namespace Error

/-- The wording of a cause. -/
def message : Error → String
  | emptyMnemonic => "Instruction type must be non-empty"
  | notPositive setting => setting ++ " must be > 0"
  | unknownSetting key =>
    "LayoutConfig.__init__() got an unexpected keyword argument '" ++ key ++ "'"
  | noInstruction index rung count =>
    "Instruction index " ++ toString index ++ " out of range in rung " ++ toString rung ++
      " (rung has " ++ toString count ++ ")"
  | noRegion rung index => "Rung " ++ toString rung ++ " has no instruction " ++ toString index
  | noSuchKey key => key.shown
  | duplicateRung routine number =>
    "Routine " ++ Text.quote routine ++ " already has rung " ++ number.shown
  | negativeNumber =>
    "Field invariant failed, invariant_errors=[rung number must be >= 0], missing_fields=[]"
  | wrongType record field value =>
    "Invalid type for field " ++ record ++ "." ++ field ++ ", was " ++ value.typeName
  | unknownField record field =>
    "'" ++ field ++ "' is not among the specified fields for " ++ record
  | malformedDocument => "Invalid L5X XML"
  | wrongRoot expected tag =>
    "Expected root element " ++ Text.quote expected ++ ", got " ++ Text.quote tag
  | badNumeral text =>
    "invalid literal for int() with base 10: " ++
      String.ofList ((Text.quote text).toList.take 200)
  | longNumeral limit digits =>
    "Exceeds the limit (" ++ toString limit ++
      " digits) for integer string conversion: value has " ++ toString digits ++
      " digits; use sys.set_int_max_str_digits() to increase the limit"
  | unwritableText =>
    "All strings must be XML compatible: Unicode or ASCII, no NULL bytes or control characters"
  | brokenPath => "embedded null byte"
  | notShown wording => wording

end Error

end RelayLadder
