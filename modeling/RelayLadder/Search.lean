/-
  Finding instructions by a piece of their mnemonic or of an operand, in any case.

  Matches come in the order of routines, rungs and instructions.  Blanks around the query do not
  count, and a blank query finds nothing.
-/
import RelayLadder.Routine
import RelayLadder.Text.LowerCase

namespace RelayLadder

/-- `needle` is a contiguous part of `cs`. -/
def Text.occursIn (needle : List Char) : List Char → Bool
  | [] => needle.isEmpty
  | c :: cs => needle.isPrefixOf (c :: cs) || Text.occursIn needle cs

/-- An instruction that was found: the routine and rung it stands in, and where. -/
structure Match where
  routine : String
  rung : Nat
  location : Location
deriving DecidableEq

/-- What is looked for when `query` is asked. -/
def searchNeedle (query : String) : List Char := (Text.lower (Text.strip query)).toList

/-- The mnemonic or an operand of the instruction has the needle in it, in lower case. -/
def Instruction.mentions (i : Instruction) (needle : List Char) : Bool :=
  (i.mnemonic :: i.values).any fun s => Text.occursIn needle (Text.lower s).toList

/-- The matches in one rung. -/
def Rung.search (r : Rung) (routine : String) (needle : List Char) : List Match :=
  ((Series.walk r.elements).filter (·.instruction.mentions needle)).map
    fun location => { routine, rung := r.number, location }

/-- The instructions of the routines that mention the query. -/
def search (routines : List Routine) (query : String) : List Match :=
  let needle := searchNeedle query
  if needle.isEmpty then []
  else routines.flatMap fun r => r.rungs.flatMap (·.search r.name needle)

end RelayLadder
