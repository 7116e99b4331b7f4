/-
  From rung text to elements.

  Reading never fails.  Characters that fit nowhere are passed over, and brackets that are missing
  at the end are taken as given, so that every recognisable instruction is kept; what was tolerated
  is told as diagnostics, in the order in which it is found.

  The lexemes drive a machine (`State.step`) that holds the main rail, the branches that are open
  around the current leg, innermost first, and the findings so far.  Legs without elements are
  dropped, branches without legs too, and a branch inside `maxDepth` others is not opened.  At the
  end of the text the open branches are closed from the inside out (`State.finish`).

  `parse` reads a rung's text: the blanks around it and one semicolon at its end do not count.
-/
import RelayLadder.RungText.Lexeme
import RelayLadder.RungText.Diagnostic

namespace RelayLadder.RungText

open Text

/-- Branches nest at most this deep. -/
def maxDepth : Nat := 64

/-! ## Open branches -/

/-- An open branch: where it was opened, its finished legs, where legs without elements ended, and
    the elements of the current leg. -/
structure Frame where
  start : Nat
  legs : Legs := []
  emptyLegs : List Nat := []
  leg : Series := []

namespace Frame

/-- Adds elements to the current leg. -/
def add (f : Frame) (es : Series) : Frame := { f with leg := f.leg ++ es }

/-- Ends the current leg at `pos`. -/
def closeLeg (f : Frame) (pos : Nat) : Frame :=
  if f.leg.isEmpty then { f with emptyLegs := f.emptyLegs ++ [pos] }
  else { f with legs := f.legs ++ [f.leg], leg := [] }

/-- What a branch with all legs ended adds to the series around it: itself, if it has legs. -/
def elements (f : Frame) : Series :=
  if f.legs.isEmpty then [] else [.branch f.legs]

/-- What is told of a branch with all legs ended that stops at `stop`. -/
def findings (f : Frame) (stop : Nat) : List Span :=
  if f.legs.isEmpty then [⟨.emptyBranch, f.start, stop⟩]
  else f.emptyLegs.map fun pos => ⟨.emptyLeg, pos, pos⟩

end Frame

/-! ## The machine -/

/-- The machine's state: the main rail, the open branches, innermost first, and the findings,
    latest first. -/
structure State where
  rail : Series := []
  frames : List Frame := []
  found : List Span := []

namespace State

/-- Tells findings, given in the order in which they are told. -/
def report (s : State) (spans : List Span) : State :=
  { s with found := spans.reverse ++ s.found }

/-- Passes over the character at `pos`.  A run of characters with the same finding is told once. -/
def skip (s : State) (finding : Finding) (pos : Nat) : State :=
  match s.found with
  | last :: found =>
    if last.finding = finding ∧ last.stop = pos then
      { s with found := { last with stop := pos + 1 } :: found }
    else s.report [⟨finding, pos, pos + 1⟩]
  | [] => s.report [⟨finding, pos, pos + 1⟩]

/-- Adds elements to the current leg, or to the main rail if no branch is open. -/
def add (s : State) (es : Series) : State :=
  match s.frames with
  | f :: frames => { s with frames := f.add es :: frames }
  | [] => { s with rail := s.rail ++ es }

/-- Takes the next lexeme. -/
def step (s : State) (l : Lexeme) : State :=
  match l.token, s.frames with
  | .instruction i closed, _ =>
    (s.report (if closed then [] else [⟨.unterminatedInstruction, l.start, l.stop⟩])).add
      [.instr i]
  | .openBranch, frames =>
    if frames.length < maxDepth then { s with frames := { start := l.start } :: frames }
    else s.skip .tooDeep l.start
  | .comma, f :: frames => { s with frames := f.closeLeg l.start :: frames }
  | .closeBranch, f :: frames =>
    let f := f.closeLeg l.start
    ({ s with frames }.report (f.findings l.stop)).add f.elements
  | _, _ => s.skip .skipped l.start

/-- Closes open branches at the end of the text, innermost first.  `inner` is what the branch
    closed before adds to the current leg. -/
def closeAll (stop : Nat) (inner : Series) : List Frame → State → State
  | [], s => { s with rail := s.rail ++ inner, frames := [] }
  | f :: frames, s =>
    let f := (f.add inner).closeLeg stop
    closeAll stop f.elements frames
      (s.report (⟨.unterminatedBranch, f.start, stop⟩ :: f.findings stop))

/-- Ends the reading at `stop`. -/
def finish (s : State) (stop : Nat) : State := closeAll stop [] s.frames s

end State

/-- The state after reading a text that has no blanks or semicolon around it. -/
def readBody (cs : List Char) : State :=
  ((lexemes cs).foldl State.step {}).finish cs.length

/-! ## Reading a rung -/

/-- The part of a rung's text that is read: without the blanks around it, one semicolon at its end
    and the blanks before that. -/
def body (cs : List Char) : List Char :=
  let t := trim cs
  if t.getLast? = some ';' then trimRight t.dropLast else t

/-- Where the part that is read starts. -/
def bodyStart (cs : List Char) : Nat :=
  if (body cs).isEmpty then 0 else (cs.takeWhile isBlank).length

/-- What reading a rung's text yields. -/
structure ParseResult where
  elements : Series
  diagnostics : List Diagnostic

/-- Nothing had to be tolerated. -/
def ParseResult.clean (r : ParseResult) : Bool := r.diagnostics.isEmpty

/-- Reads a rung's text, and tells what was tolerated. -/
def parse (text : String) : ParseResult :=
  let cs := text.toList
  let s := readBody (body cs)
  { elements := s.rail
    diagnostics := s.found.reverse.map (Span.toDiagnostic (body cs) (bodyStart cs)) }

/-- The elements that a rung's text holds. -/
def elements (text : String) : Series := (parse text).elements

end RelayLadder.RungText
