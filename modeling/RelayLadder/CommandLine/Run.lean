/-
  Programs, run with the stand-ins for the libraries.

  What is defined here only puts the stand-ins in the places of the XML library and the console.
-/
import RelayLadder.CommandLine.Tasks
import RelayLadder.L5X.Writer
import RelayLadder.StandIn.Screen
import RelayLadder.StandIn.Writer

namespace RelayLadder

namespace L5X

/-- The routines of a document given as bytes. -/
def ofBytes (bytes : ByteArray) : Except Error (List Routine) := read StandIn.xml bytes

/-- The routines of a document given as a text, which is read in UTF-8. -/
def ofText (text : String) : Except Error (List Routine) := ofBytes text.toUTF8

/-- A routine as markup. -/
def writeRoutine (r : Routine) (regenerate : Bool := false) : Except Error String :=
  write StandIn.xml r regenerate

end L5X

namespace CommandLine

/-- The program of a command. -/
def Command.program (c : Command) : Program := c.programWith StandIn.xml

/-- What a run left behind. -/
structure Outcome where
  code : Nat
  out : String
  files : FileTree

/-- Runs a program on a file tree, with what was printed before. -/
def Program.run (files : FileTree) (out : String) (p : Program) : Except Error Outcome :=
  let ending := p.runOn StandIn.console files out
  ending.result.map fun code => ⟨code, ending.out, ending.files⟩

end CommandLine

end RelayLadder
