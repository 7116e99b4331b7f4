/-
  Reading the arguments of a command line.

  Options start with a hyphen and may stand before or after the other arguments.  Long options can
  be cut short where that leaves no doubt, take a value behind `=` or as the next argument, and
  short ones also take it right behind their letter; short options without values can stand behind
  one hyphen together.  Two hyphens end the options; in the place of a value in the same argument
  they leave the option without one.  What looks like a negative number or has a space in it is no
  option.

  All arguments are sorted into options and others first (`classify`), then taken from left to right
  (`takeArguments`).
-/
import RelayLadder.Text.Digit

namespace RelayLadder.CommandLine

/-- Why a command line does not lead to a command: it asks for help, or it is wrong. -/
inductive Stop where
  | help
  | usage
deriving DecidableEq, Repr

/-- An option: its names, and whether it takes a value, and which values it accepts. -/
structure OptionSpec where
  names : List String
  takesValue : Bool
  accepts : String → Bool := fun _ => true

/-- The option that asks for help. -/
def helpOption : OptionSpec := { names := ["-h", "--help"], takesValue := false }

/-- An argument by its place on the command line. -/
inductive Argument where
  /-- No option. -/
  | plain (text : String)
  /-- The two hyphens that end the options. -/
  | endOfOptions
  /-- An option by its long name, with the value behind `=`. -/
  | long (spec : OptionSpec) (value : Option String)
  /-- An option by its letter, with the characters behind that. -/
  | short (spec : OptionSpec) (rest : List Char)
  /-- It looks like an option but is none. -/
  | unknown

/-! ## Telling options from other arguments -/

/-- All names with their options. -/
def namesOf (specs : List OptionSpec) : List (String × OptionSpec) :=
  specs.flatMap fun s => s.names.map (·, s)

/-- The option with this letter. -/
def letter? (specs : List OptionSpec) (c : Char) : Option OptionSpec :=
  (namesOf specs).lookup (String.ofList ['-', c])

/-- A minus sign and digits, with or without a point; one line may end behind them. -/
def looksNegative (s : String) : Bool :=
  match s.toList with
  | '-' :: cs =>
    let isDecimal := fun c => (Text.decimalValue? c).isSome
    let cs := if cs.getLast? = some '\n' then cs.dropLast else cs
    match cs.dropWhile isDecimal with
    | [] => !cs.isEmpty
    | '.' :: fraction => !fraction.isEmpty && fraction.all isDecimal
    | _ => false
  | _ => false

/-- An argument with a hyphen that stands for no option. -/
def noOption (s : String) : Argument :=
  if looksNegative s || s.toList.contains ' ' then .plain s else .unknown

/-- A long option; `none` if it may be several. -/
def classifyLong (specs : List OptionSpec) (s : String) : Option Argument :=
  let name := s.toList.takeWhile (· ≠ '=')
  let value := match s.toList.dropWhile (· ≠ '=') with
    | [] => none
    | _ :: cs => some (String.ofList cs)
  match (namesOf specs).lookup (String.ofList name) with
  | some spec => some (.long spec value)
  | none =>
    match (namesOf specs).filter fun n => name.isPrefixOf n.1.toList with
    | [(_, spec)] => some (.long spec value)
    | [] => some (noOption s)
    | _ => none

/-- An argument that stands before the end of the options; `none` if it may be several. -/
def classifyOne (specs : List OptionSpec) (s : String) : Option Argument :=
  match s.toList with
  | '-' :: '-' :: _ => classifyLong specs s
  | '-' :: c :: cs =>
    match letter? specs c with
    | some spec => some (.short spec cs)
    | none => some (noOption s)
  | _ => some (.plain s)

/-- All arguments with what they are; it is an error if one may be several options. -/
def classify (specs : List OptionSpec) : List String → Except Stop (List (String × Argument))
  | [] => .ok []
  | "--" :: rest => .ok (("--", .endOfOptions) :: rest.map fun s => (s, .plain s))
  | s :: rest =>
    match classifyOne specs s with
    | some a => do return (s, a) :: (← classify specs rest)
    | none => .error .usage

/-! ## Taking arguments -/

/-- The options taken so far, under their first names, latest first, with their values; whether
    there were arguments that fit nowhere; and the plain argument. -/
structure Taken where
  settings : List (String × Option String) := []
  surplus : Bool := false
  operand : Option String := none

/-- The option was given. -/
def Taken.has (t : Taken) (name : String) : Bool := (t.settings.lookup name).isSome

/-- The value that an option was last given, if it was not left without one. -/
def Taken.get? (t : Taken) (name : String) : Option String := (t.settings.lookup name).join

/-- Takes an option with its value. -/
def Taken.set (t : Taken) (spec : OptionSpec) (value : Option String) : Except Stop Taken :=
  let name := spec.names.headD ""
  if name = "-h" then .error .help
  else if value.all spec.accepts then .ok { t with settings := (name, value) :: t.settings }
  else .error .usage

/-- The options that one argument stands for: those without a value, and one that takes a value,
    which may have to be waited for. -/
structure Chain where
  flags : List OptionSpec := []
  last : Option (OptionSpec × Option String) := none

/-- The options behind one hyphen, from the first on, given the characters behind its letter. -/
def Chain.ofLetters (specs : List OptionSpec) (spec : OptionSpec) :
    List Char → Except Stop Chain
  | [] => .ok (if spec.takesValue then { last := some (spec, none) } else { flags := [spec] })
  | c :: cs =>
    if spec.takesValue then .ok { last := some (spec, some (String.ofList (c :: cs))) }
    else match letter? specs c with
      | some next => do
        let chain ← Chain.ofLetters specs next cs
        return { chain with flags := spec :: chain.flags }
      | none => .error .usage

/-- The option under a long name, with the value given along with it. -/
def Chain.ofLong (spec : OptionSpec) (value : Option String) : Except Stop Chain :=
  if spec.takesValue then .ok { last := some (spec, value) }
  else if value.isSome then .error .usage
  else .ok { flags := [spec] }

/-- The options behind one hyphen; a sign `=` may stand behind the first letter. -/
def Chain.ofShort (specs : List OptionSpec) (spec : OptionSpec) : List Char → Except Stop Chain
  | ['='] => Chain.ofLong spec (some "")
  | '=' :: cs => Chain.ofLetters specs spec cs
  | cs => Chain.ofLetters specs spec cs

/-- The options that an argument stands for; only options stand for any. -/
def Chain.ofArgument (specs : List OptionSpec) : Argument → Except Stop Chain
  | .long spec value => Chain.ofLong spec value
  | .short spec cs => Chain.ofShort specs spec cs
  | _ => .ok {}

/-- Takes the options of a chain in order, the last with the given value. -/
def Taken.setChain (t : Taken) (chain : Chain) (value : Option String) : Except Stop Taken := do
  let t ← chain.flags.foldlM (fun t spec => t.set spec none) t
  match chain.last with
  | some (spec, _) => t.set spec value
  | none => return t

/-- The value of an option in the same argument: two hyphens are none. -/
def valueAlong (s : String) : Option String := if s = "--" then none else some s

/-- Takes arguments from left to right, one of which is the operand.  The end of the options fits
    right before or right behind the operand. -/
def takeArguments (specs : List OptionSpec) (t : Taken) :
    List (String × Argument) → Except Stop Taken
  | [] => .ok t
  | (_, .endOfOptions) :: rest =>
    takeArguments specs (if t.operand.isSome then { t with surplus := true } else t) rest
  | (_, .plain s) :: rest =>
    if t.operand.isSome then takeArguments specs { t with surplus := true } rest
    else
      let t := { t with operand := some s }
      match rest with
      | (_, .endOfOptions) :: rest => takeArguments specs t rest
      | rest => takeArguments specs t rest
  | (_, .unknown) :: rest => takeArguments specs { t with surplus := true } rest
  | (_, a) :: rest => do
    let chain ← Chain.ofArgument specs a
    match chain.last, rest with
    | some (_, none), (_, .plain s) :: rest =>
      takeArguments specs (← t.setChain chain (some s)) rest
    | some (_, none), _ => .error .usage
    | some (_, some v), rest => takeArguments specs (← t.setChain chain (valueAlong v)) rest
    | none, rest => takeArguments specs (← t.setChain chain none) rest

end RelayLadder.CommandLine
