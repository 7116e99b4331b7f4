/-
  The catalog of known instructions.

  An entry says what an instruction is called, how it is drawn and what its operands are named.
  Any mnemonic can be read; those without an entry are drawn and named by `Spec.generic`.

  * `catalog` lists the entries, `lookup` finds one by mnemonic;
  * `Instruction.labels` pairs the operand values of an instruction with names: those of the
    catalog first, then `param` with the position.
-/
import RelayLadder.Element

namespace RelayLadder

/-- How an instruction is drawn. -/
inductive Glyph where
  | contact
  | contactClosed
  | coil
  | coilLatch
  | coilUnlatch
  | box
  | generic
deriving DecidableEq, Repr

namespace Glyph

def name : Glyph → String
  | contact => "contact"
  | contactClosed => "contact_nc"
  | coil => "coil"
  | coilLatch => "coil_latch"
  | coilUnlatch => "coil_unlatch"
  | box => "box"
  | generic => "generic"

/-- An input contact, normally open or closed. -/
def isContact : Glyph → Bool
  | contact | contactClosed => true
  | _ => false

/-- An output coil, plain, latching or unlatching. -/
def isCoil : Glyph → Bool
  | coil | coilLatch | coilUnlatch => true
  | _ => false

end Glyph

/-- The group of an instruction. -/
inductive Category where
  | bit
  | timer
  | compare
  | math
  | move
  | program
  | other
deriving DecidableEq, Repr

namespace Category

def name : Category → String
  | bit => "bit"
  | timer => "timer"
  | compare => "compare"
  | math => "math"
  | move => "move"
  | program => "program"
  | other => "other"

/-- The groups that have entries, in the order in which they are shown. -/
def listed : List Category := [bit, timer, compare, math, move, program]

end Category

/-- A catalog entry. -/
structure Spec where
  mnemonic : String
  name : String
  description : String
  category : Category
  glyph : Glyph
  operandNames : List String := []
deriving DecidableEq, Repr

namespace Spec

/-- What stands in for the entry of an unknown mnemonic. -/
def generic : Spec := ⟨"", "Instruction", "Unknown instruction", .other, .generic, []⟩

/-- A bit instruction with one operand. -/
def bit (mnemonic name description : String) (glyph : Glyph)
    (operandNames : List String := ["tag"]) : Spec :=
  ⟨mnemonic, name, description, .bit, glyph, operandNames⟩

/-- A timer or counter, whose first operand is the structure it keeps its state in. -/
def timer (mnemonic name description struct : String) : Spec :=
  ⟨mnemonic, name, description, .timer, .box, [struct, "preset", "accum"]⟩

/-- A comparison of two values. -/
def compare (mnemonic name description : String) : Spec :=
  ⟨mnemonic, name, description, .compare, .box, ["source_a", "source_b"]⟩

/-- An operation on two values with a result. -/
def combine (category : Category) (mnemonic name description : String) : Spec :=
  ⟨mnemonic, name, description, category, .box, ["source_a", "source_b", "dest"]⟩

/-- An operation on one value with a result. -/
def convert (category : Category) (mnemonic name description : String) : Spec :=
  ⟨mnemonic, name, description, category, .box, ["source", "dest"]⟩

/-- An instruction that directs the flow of the program. -/
def control (mnemonic name description : String) (operandNames : List String := []) : Spec :=
  ⟨mnemonic, name, description, .program, .generic, operandNames⟩

end Spec

/-- The known instructions, in the order in which they are shown. -/
def catalog : List Spec :=
  [.bit "XIC" "Examine If Closed" "Checks if bit is ON (1)" .contact,
   .bit "XIO" "Examine If Open" "Checks if bit is OFF (0)" .contactClosed,
   .bit "OTE" "Output Energize" "Sets bit ON when rung is true" .coil,
   .bit "OTL" "Output Latch" "Latches bit ON (retentive)" .coilLatch,
   .bit "OTU" "Output Unlatch" "Unlatches bit OFF" .coilUnlatch,
   .bit "ONS" "One Shot" "Executes once per false-to-true transition" .generic ["storage"],
   .bit "OSR" "One Shot Rising" "One shot on rising edge" .box ["storage", "output"],
   .bit "OSF" "One Shot Falling" "One shot on falling edge" .box ["storage", "output"],
   .timer "TON" "Timer On Delay" "Delays turning ON" "timer",
   .timer "TOF" "Timer Off Delay" "Delays turning OFF" "timer",
   .timer "RTO" "Retentive Timer On" "Retentive on-delay timer" "timer",
   .timer "CTU" "Count Up" "Increments counter" "counter",
   .timer "CTD" "Count Down" "Decrements counter" "counter",
   ⟨"RES", "Reset", "Resets timer or counter", .timer, .generic, ["structure"]⟩,
   .compare "EQU" "Equal" "Tests if A equals B",
   .compare "NEQ" "Not Equal" "Tests if A not equal to B",
   .compare "LES" "Less Than" "Tests if A less than B",
   .compare "LEQ" "Less Than or Equal" "Tests if A <= B",
   .compare "GRT" "Greater Than" "Tests if A greater than B",
   .compare "GEQ" "Greater Than or Equal" "Tests if A >= B",
   ⟨"LIM", "Limit Test", "Tests if value within limits", .compare, .box,
     ["low_limit", "test", "high_limit"]⟩,
   .combine .math "ADD" "Add" "Adds two values",
   .combine .math "SUB" "Subtract" "Subtracts B from A",
   .combine .math "MUL" "Multiply" "Multiplies two values",
   .combine .math "DIV" "Divide" "Divides A by B",
   .combine .math "MOD" "Modulo" "Returns remainder",
   .convert .math "NEG" "Negate" "Changes sign of value",
   .convert .math "ABS" "Absolute Value" "Returns absolute value",
   .convert .math "SQR" "Square Root" "Calculates square root",
   .convert .move "MOV" "Move" "Copies value to destination",
   ⟨"MVM", "Masked Move", "Moves with mask", .move, .box, ["source", "mask", "dest"]⟩,
   ⟨"CLR", "Clear", "Sets value to zero", .move, .box, ["dest"]⟩,
   ⟨"BTD", "Bit Field Distribute", "Moves bits within words", .move, .box,
     ["source", "source_bit", "dest", "dest_bit", "length"]⟩,
   .combine .move "AND" "Bitwise AND" "Logical AND operation",
   .combine .move "OR" "Bitwise OR" "Logical OR operation",
   .combine .move "XOR" "Bitwise XOR" "Logical XOR operation",
   .convert .move "NOT" "Bitwise NOT" "Logical NOT operation",
   .control "JSR" "Jump to Subroutine" "Calls another routine" ["routine_name"],
   .control "RET" "Return" "Returns from subroutine",
   .control "JMP" "Jump to Label" "Jumps to label" ["label"],
   .control "LBL" "Label" "Defines jump target" ["label"],
   .control "MCR" "Master Control Reset" "Zone control start/end",
   .control "AFI" "Always False" "Always evaluates false",
   .control "NOP" "No Operation" "Placeholder instruction"]

/-- The entry of a mnemonic, if it has one. -/
def lookup? (mnemonic : String) : Option Spec :=
  catalog.find? (·.mnemonic == mnemonic)

/-- The entry of a mnemonic, or the generic one. -/
def lookup (mnemonic : String) : Spec :=
  (lookup? mnemonic).getD .generic

/-- The mnemonic has an entry. -/
def isKnown (mnemonic : String) : Bool := (lookup? mnemonic).isSome

/-- The entries of the group with this name. -/
def specsOf (category : String) : List Spec :=
  catalog.filter (·.category.name == category)

/-! ## Names for operands -/

/-- Operand values under their names, in the order in which the names were first given. -/
abbrev Labels := List (String × String)

/-- Gives `name` the value: in its old place if the name is there already, else at the end. -/
def Labels.put (labels : Labels) (name value : String) : Labels :=
  match labels with
  | [] => [(name, value)]
  | (n, v) :: rest =>
    if n = name then (n, value) :: rest else (n, v) :: Labels.put rest name value

/-- The name of the value at position `k`, when `names` are the names given first. -/
def operandName (names : List String) (k : Nat) : String :=
  names[k]?.getD ("param" ++ toString k)

/-- The operand names of an instruction without an entry, by the number of its values. -/
def conventionalNames : Nat → List String
  | 1 => ["tag"]
  | 2 => ["source", "dest"]
  | _ => []

/-- The names that an instruction's first operands go by. -/
def Instruction.operandNames (i : Instruction) : List String :=
  match lookup? i.mnemonic with
  | some spec => spec.operandNames
  | none => conventionalNames i.values.length

/-- The operand values of an instruction under their names. -/
def Instruction.labels (i : Instruction) : Labels :=
  i.values.zipIdx.foldl (fun ls (value, k) => ls.put (operandName i.operandNames k) value) []

end RelayLadder
