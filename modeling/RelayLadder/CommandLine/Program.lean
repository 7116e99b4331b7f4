/-
  What a command does to its surroundings, step by step.

  A program prints, reads and writes files, makes directories and ends with a code.  It can be run
  on a `FileTree` (`Program.runOn`), or by the outermost layer on the real one.  A file that cannot
  be used ends it with a message and the code for errors; what the console cannot show ends it too,
  but not what it did to files before.
-/
import RelayLadder.Console.Display
import RelayLadder.Error
import RelayLadder.FileTree

namespace RelayLadder.CommandLine

/-- The code of a run that ended well. -/
def exitOk : Nat := 0

/-- The code of a run that ended in an error. -/
def exitError : Nat := 2

/-- Steps to take. -/
inductive Program where
  /-- Ends with a code. -/
  | exit (code : Nat)
  /-- Ends with a cause that is not told on the console. -/
  | fail (cause : Error)
  | print (display : Console.Display) (next : Program)
  | makeDirectory (path : Path) (next : Program)
  | write (path : Path) (content : String) (next : Program)
  /-- Reads the bytes of a file. -/
  | read (path : Path) (next : ByteArray → Program)

/-- The notice of an error. -/
def errorNotice (message : String) : Console.Display := .notice ("Error: " ++ message)

/-- Prints a message and ends with the code for errors. -/
def Program.error (message : String) : Program := .print (errorNotice message) (.exit exitError)

/-- How a run ended: with a code, unless a cause ended it that is not told on the console, and with
    what was printed and the files until then. -/
structure Ending where
  result : Except Error Nat
  out : String
  files : FileTree

/-- The ending of a run at a file that cannot be used. -/
def Ending.fileError (console : Console) (e : FileError) (files : FileTree) (out : String) :
    Ending :=
  match console (errorNotice e.message) with
  | .ok text => ⟨.ok exitError, out ++ text, files⟩
  | .error wording => ⟨.error (.notShown wording), out, files⟩

/-- Runs a program on a file tree, with what was printed before.  Files hold text in UTF-8. -/
def Program.runOn (console : Console) (files : FileTree) (out : String) : Program → Ending
  | .exit code => ⟨.ok code, out, files⟩
  | .fail cause => ⟨.error cause, out, files⟩
  | .print display next =>
    match console display with
    | .ok text => next.runOn console files (out ++ text)
    | .error wording => ⟨.error (.notShown wording), out, files⟩
  | .makeDirectory path next =>
    match files.makeDirectory path with
    | .ok files => next.runOn console files out
    | .error e => .fileError console e files out
  | .write path content next =>
    match files.write path content with
    | .ok files => next.runOn console files out
    | .error e => .fileError console e files out
  | .read path next =>
    match files.read path with
    | .ok content => (next content.toUTF8).runOn console files out
    | .error e => .fileError console e files out

end RelayLadder.CommandLine
