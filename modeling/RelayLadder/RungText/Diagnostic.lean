/-
  What the reading of rung text tolerated.

  A `Span` is a finding by position, a `Diagnostic` adds the text that it covers.
-/
namespace RelayLadder.RungText

/-- The kinds of findings. -/
inductive Finding where
  /-- Characters that fit nowhere were passed over. -/
  | skipped
  /-- A branch was not closed before the text ended. -/
  | unterminatedBranch
  /-- An operand list was not closed before the text ended. -/
  | unterminatedInstruction
  /-- A leg without elements was dropped. -/
  | emptyLeg
  /-- A branch without legs was dropped. -/
  | emptyBranch
  /-- A branch was opened inside too many others. -/
  | tooDeep
deriving DecidableEq, Repr

def Finding.name : Finding → String
  | skipped => "skipped"
  | unterminatedBranch => "unterminated_branch"
  | unterminatedInstruction => "unterminated_instruction"
  | emptyLeg => "empty_leg"
  | emptyBranch => "empty_branch"
  | tooDeep => "too_deep"

/-- A finding about the characters from `start` up to, not including, `stop`. -/
structure Span where
  finding : Finding
  start : Nat
  stop : Nat
deriving DecidableEq, Repr

/-- A finding with the text that it is about. -/
structure Diagnostic extends Span where
  text : String
deriving DecidableEq, Repr

/-- The characters of `cs` from `start` up to `stop`. -/
def slice (cs : List Char) (start stop : Nat) : List Char :=
  (cs.drop start).take (stop - start)

/-- The diagnostic of a span in the text `body`, which starts at `offset` in a longer text: the
    positions are given in the longer text. -/
def Span.toDiagnostic (body : List Char) (offset : Nat) (s : Span) : Diagnostic where
  finding := s.finding
  start := s.start + offset
  stop := s.stop + offset
  text := String.ofList (slice body s.start s.stop)

end RelayLadder.RungText
