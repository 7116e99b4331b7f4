/-
  The commands of the command line, and how arguments name them.

  * `parse TEXT` shows the elements of a rung and what was tolerated in its text;
  * `format TEXT [--semicolon]` writes a rung canonically;
  * `svg TEXT [-o FILE] [--rung N]` draws a rung;
  * `l5x FILE [--routine NAME] [--svg-dir DIR] [--find QUERY]` lists, searches or draws the rungs of
    a document.

  Before the command, `-v` asks for more talk; `-h` asks for help anywhere.
-/
import RelayLadder.CommandLine.Arguments
import RelayLadder.Number.Numeral

namespace RelayLadder.CommandLine

/-- What is to be done. -/
inductive Command where
  | parse (text : String)
  | format (text : String) (semicolon : Bool)
  /-- Without a rung number, the rung is drawn with an empty one. -/
  | svg (text : String) (output : Option String) (rung : Option Int)
  | l5x (file : String) (routine svgDir find : Option String)
deriving DecidableEq, Repr

/-- An option without a value. -/
def flag (names : List String) : OptionSpec := { names, takesValue := false }

/-- An option with any value. -/
def setting (names : List String) : OptionSpec := { names, takesValue := true }

/-- The value of an option, if it was given one that is not empty. -/
def Taken.nonempty? (t : Taken) (name : String) : Option String := (t.get? name).filter (· ≠ "")

/-- The options and the meaning of each command. -/
def commandTable : List (String × List OptionSpec × (String → Taken → Command)) :=
  [("parse", [], fun text _ => .parse text),
   ("format", [flag ["--semicolon"]],
     fun text t => .format text (t.has "--semicolon")),
   ("svg",
     [setting ["-o", "--output"],
      { setting ["--rung"] with accepts := fun s => (intOfText? s).isSome }],
     fun text t => .svg text (t.nonempty? "-o")
       (if t.has "--rung" then (t.get? "--rung").bind intOfText? else some 0)),
   ("l5x", [setting ["--routine"], setting ["--svg-dir"], setting ["--find"]],
     fun file t =>
       .l5x file (t.nonempty? "--routine") (t.nonempty? "--svg-dir") (t.nonempty? "--find"))]

/-- The command that a name and the arguments behind it give. -/
def Command.named (name : String) (args : List String) : Except Stop Command :=
  match commandTable.lookup name with
  | none => .error .usage
  | some (specs, meaning) => do
    let specs := helpOption :: specs
    let t ← takeArguments specs {} (← classify specs args)
    match t.operand, t.surplus with
    | some operand, false => return meaning operand t
    | _, _ => throw .usage

/-- The options before the command. -/
def commonOptions : List OptionSpec := [helpOption, flag ["-v", "--verbose"]]

/-- The command that the arguments give. -/
def Command.ofArguments (args : List String) : Except Stop Command := do
  let args ← classify commonOptions args
  let isOption := fun a : String × Argument => match a.2 with
    | .long .. | .short .. | .unknown => true
    | _ => false
  let t ← takeArguments commonOptions {} (args.takeWhile isOption)
  match args.dropWhile isOption with
  | (name, .plain _) :: rest =>
    let command ← Command.named name (rest.map Prod.fst)
    if t.surplus then throw .usage else return command
  | _ => throw .usage

end RelayLadder.CommandLine
