/-
  The programs of the commands.

  What is printed are tables, outlines and texts; a routine's name is the only caption of them that
  is read for the console's own marks and can hold any text.
-/
import RelayLadder.CommandLine.Command
import RelayLadder.CommandLine.Program
import RelayLadder.L5X.Reader
import RelayLadder.Layout.Placement
import RelayLadder.Layout.Svg
import RelayLadder.Search

namespace RelayLadder.CommandLine

open Console Layout

/-! ## Tables -/

/-- What was tolerated in a rung's text. -/
def diagnosticsTable (ds : List RungText.Diagnostic) : Table where
  title := .marked "Tolerated input"
  columns := [⟨.marked "Kind", false⟩, ⟨.marked "Span", true⟩, ⟨.marked "Text", false⟩]
  rows := ds.map fun d =>
    [.marked d.finding.name, .marked (toString d.start ++ "-" ++ toString d.stop),
      .plain (Text.quote d.text)]

/-- The instructions that a search found. -/
def matchesTable (query : String) (ms : List Match) : Table where
  title := .plain ("Matches for " ++ Text.quote query)
  columns := [⟨.marked "Routine", false⟩, ⟨.marked "Rung", true⟩, ⟨.marked "#", true⟩,
    ⟨.marked "Instruction", false⟩]
  rows := ms.map fun m =>
    [.plain m.routine, .marked (toString m.rung), .marked (toString m.location.index),
      .plain m.location.instruction.text]

/-- The rungs of a routine. -/
def routineTable (r : Routine) : Table where
  title := .marked r.name
  columns := [⟨.marked "Rung", true⟩, ⟨.marked "Instructions", true⟩, ⟨.marked "Text", false⟩]
  rows := r.rungs.map fun rung =>
    [.marked (toString rung.number), .marked (toString rung.count), .plain rung.text]

/-! ## Drawings -/

/-- The drawing of a rung, in the standard distances; an empty list stands for a number that is
    missing. -/
def drawing (es : Series) (rung : Option Int) : String :=
  (layout es (rung.getD 0) (Config.standard : Config Float)).svgLabelled (rung.elim "[]" toString)

/-- The name of the file that a rung is drawn to: the routine's name without slashes, and the rung's
    number in at least four digits. -/
def drawingName (routine : String) (rung : Nat) : String :=
  let number := toString rung
  String.ofList (routine.toList.map fun c => if c = '/' then '_' else c) ++ "_" ++
    String.ofList (List.replicate (4 - number.length) '0') ++ number ++ ".svg"

/-- Draws every rung of a routine to a file of its own, then goes on. -/
def drawRungs (dir : Path) (r : Routine) (next : Program) : Program :=
  r.rungs.foldr (fun rung next =>
    let path := dir.child (drawingName r.name rung.number)
    .write path (drawing rung.elements (some rung.number)) next) next

/-! ## Commands -/

/-- Goes on with the path that a text gives; no path has a null character. -/
def withPath (text : String) (next : Path → Program) : Program :=
  if text.toList.contains '\x00' then .fail .brokenPath else next (Path.ofText text)

/-- Lists routines, and draws their rungs if a directory is given. -/
def listRoutines (dir : Option Path) (routines : List Routine) : Program :=
  routines.foldr (fun r next =>
    let shownNext := .print (.table (routineTable r)) next
    match dir with
    | some dir => drawRungs dir r shownNext
    | none => shownNext) (.exit exitOk)

/-- Searches, lists or draws the routines of a document. -/
def processRoutines (svgDir find : Option String) (routines : List Routine) : Program :=
  match find, svgDir with
  | some query, _ => .print (.table (matchesTable query (search routines query))) (.exit exitOk)
  | none, some dir =>
    withPath dir fun path => .makeDirectory path (listRoutines (some path) routines)
  | none, none => listRoutines none routines

/-- What becomes of the content of a document. -/
def processDocument (xml : Xml.Library) (content : ByteArray) (routine svgDir find : Option String) :
    Program :=
  match L5X.read xml content with
  | .error e =>
    match e with
    | .malformedDocument | .wrongRoot .. => .error e.message
    | e => .fail e
  | .ok routines =>
    match routine with
    | none => processRoutines svgDir find routines
    | some name =>
      match L5X.findRoutine routines name with
      | .ok r => processRoutines svgDir find [r]
      | .error _ => .error ("no routine named " ++ Text.quote name)

/-- The program of a command, with a library for documents. -/
def Command.programWith (xml : Xml.Library) : Command → Program
  | .parse text =>
    let r := RungText.parse text
    .print (.outline (rungOutline r.elements))
      (if r.clean then .exit exitOk
        else .print (.table (diagnosticsTable r.diagnostics)) (.exit exitOk))
  | .format text semicolon =>
    let es := RungText.elements text
    .print (.text (if semicolon then Series.rungText es else Series.text es) true) (.exit exitOk)
  | .svg text output rung =>
    let svg := drawing (RungText.elements text) rung
    match output with
    | some file =>
      withPath file fun path => .write path svg (.print (.notice ("Wrote " ++ file)) (.exit exitOk))
    | none => .print (.text svg false) (.exit exitOk)
  | .l5x file routine svgDir find =>
    withPath file fun path =>
      .read path fun content => processDocument xml content routine svgDir find

end RelayLadder.CommandLine
