/-
  Outlines: labelled trees, and the outline of a rung.
-/
import RelayLadder.Catalog
import RelayLadder.Element.Printer
import RelayLadder.Element.Traversal

namespace RelayLadder.Console

/-- A label with what stands below it. -/
inductive Outline where
  | item (label : String) (children : List Outline)

/-! ## The outline of a rung -/

/-- The label of an instruction: number, text and, if it is in the catalog, its name. -/
def instructionLabel (index : Nat) (i : Instruction) : String :=
  "#" ++ toString index ++ " " ++ i.text ++
    match lookup? i.mnemonic with
    | some spec => "  " ++ spec.name
    | none => ""

mutual
/-- The outlines of the elements of a series whose first instruction has the given number. -/
def seriesOutline (index : Nat) : Series → List Outline
  | [] => []
  | .instr i :: es => .item (instructionLabel index i) [] :: seriesOutline (index + 1) es
  | .branch legs :: es =>
    .item ("Branch (" ++ toString legs.length ++ " legs)") (legsOutline index 0 legs) ::
      seriesOutline (index + (Legs.instructions legs).length) es

/-- The outlines of legs, from leg number `leg` on, whose first instruction has the given
    number. -/
def legsOutline (index leg : Nat) : Legs → List Outline
  | [] => []
  | es :: legs =>
    .item ("Leg " ++ toString leg) (seriesOutline index es) ::
      legsOutline (index + Series.count es) (leg + 1) legs
end

/-- The outline of a rung's elements. -/
def rungOutline (es : Series) : Outline := .item "Rung" (seriesOutline 0 es)

end RelayLadder.Console
