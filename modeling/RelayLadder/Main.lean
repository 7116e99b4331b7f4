/-
  The command line: reads the arguments and carries out the program of the command.
-/
import RelayLadder.CommandLine.Run

namespace RelayLadder.CommandLine

/-- How the command line is used. -/
def usage : String :=
  "usage: relayladder [-h] [-v] parse TEXT\n" ++
  "       relayladder [-h] [-v] format TEXT [--semicolon]\n" ++
  "       relayladder [-h] [-v] svg TEXT [-o FILE] [--rung N]\n" ++
  "       relayladder [-h] [-v] l5x FILE [--routine NAME] [--svg-dir DIR] [--find QUERY]\n"

/-- Why the file at a path could not be used. -/
def fileError (path : Path) : IO.Error → FileError
  | .alreadyExists .. => .inTheWay path
  | .inappropriateType .. => .isDirectory path
  | _ => .missing path

/-- Prints what the console makes of a display and goes on, or ends with the wording of why it
    cannot be shown. -/
def display (d : Console.Display) (next : IO UInt32) : IO UInt32 := do
  match StandIn.console d with
  | .ok text =>
    IO.print text
    next
  | .error wording =>
    IO.eprintln wording
    return 1

/-- Does something with a file and goes on with the result, or ends with a message. -/
def attempt {α : Type} (path : Path) (act : IO α) (next : α → IO UInt32) : IO UInt32 := do
  match ← act.toBaseIO with
  | .ok a => next a
  | .error e =>
    display (errorNotice (fileError path e).message) (return exitError.toUInt32)

/-- Carries out a program on the real files. -/
def Program.perform : Program → IO UInt32
  | .exit code => return code.toUInt32
  | .fail cause => do
    IO.eprintln cause.message
    return 1
  | .print d next => display d next.perform
  | .makeDirectory path next => attempt path (IO.FS.createDirAll path.text) fun _ => next.perform
  | .write path content next =>
    attempt path (IO.FS.writeFile path.text content) fun _ => next.perform
  | .read path next =>
    attempt path (IO.FS.readBinFile path.text) fun bytes => (next bytes).perform

end RelayLadder.CommandLine

open RelayLadder.CommandLine in
/-- Carries out the command that the arguments give. -/
def main (args : List String) : IO UInt32 := do
  match Command.ofArguments args with
  | .ok command => command.program.perform
  | .error .help => do
    IO.print usage
    return exitOk.toUInt32
  | .error .usage => do
    IO.eprint usage
    return exitError.toUInt32
