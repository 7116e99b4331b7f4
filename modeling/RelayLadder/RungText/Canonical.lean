/-
  Canonical series: those whose text says all about them.

  In a canonical series every mnemonic is a name, every instruction has the form of operands that
  fits its values, every operand stands by itself in an operand list (no blanks at its ends,
  balanced parentheses, no comma outside them), no branch lacks legs, no leg lacks elements, and
  branches nest no deeper than texts can.
-/
import RelayLadder.Element.Traversal
import RelayLadder.RungText.Parser

namespace RelayLadder

open RungText

/-- Inside `depth` open parentheses, the text closes them all and no others, and has no comma
    outside parentheses. -/
def RungText.isSealed (depth : Nat) : List Char → Bool
  | [] => depth == 0
  | c :: cs =>
    if c = '(' then isSealed (depth + 1) cs
    else if c = ')' then depth != 0 && isSealed (depth - 1) cs
    else if c = ',' then depth != 0 && isSealed depth cs
    else isSealed depth cs

/-- An operand value that an operand list holds as it is. -/
def RungText.isOperandText (v : String) : Bool :=
  Text.strip v == v && isSealed 0 v.toList

/-- The operands are in the form that fits their number, and not a single empty one. -/
def Operands.isFitting (o : Operands) : Bool := o == .ofValues o.values && o != .unary ""

/-- The instruction is what its text holds. -/
def Instruction.isCanonical (i : Instruction) : Bool :=
  i.mnemonic.toList.all isNameChar && i.operands.isFitting && i.values.all isOperandText

mutual
/-- All instructions are canonical, and no branch or leg is empty. -/
def Series.isProper : Series → Bool
  | [] => true
  | .instr i :: es => i.isCanonical && Series.isProper es
  | .branch legs :: es => !legs.isEmpty && Legs.isProper legs && Series.isProper es

/-- All instructions in the legs are canonical, and no branch or leg is empty. -/
def Legs.isProper : Legs → Bool
  | [] => true
  | leg :: legs => !leg.isEmpty && Series.isProper leg && Legs.isProper legs
end

/-- The series is what its text holds. -/
def Series.Canonical (es : Series) : Prop :=
  Series.isProper es = true ∧ Series.depth es ≤ maxDepth

instance (es : Series) : Decidable (Series.Canonical es) :=
  inferInstanceAs (Decidable (_ ∧ _))

theorem Series.isProper_append (a b : Series) :
    Series.isProper (a ++ b) = (Series.isProper a && Series.isProper b) := by
  induction a with
  | nil => simp [Series.isProper]
  | cons e a ih => cases e <;> simp [Series.isProper, ih, Bool.and_assoc]

/-- Series on one rail are canonical exactly if both parts are. -/
theorem Series.canonical_append {a b : Series} :
    Series.Canonical (a ++ b) ↔ Series.Canonical a ∧ Series.Canonical b := by
  simp only [Series.Canonical, Series.isProper_append, Series.depth_append, Bool.and_eq_true,
    Nat.max_le]
  exact ⟨fun ⟨⟨ha, hb⟩, da, db⟩ => ⟨⟨ha, da⟩, hb, db⟩,
    fun ⟨⟨ha, da⟩, hb, db⟩ => ⟨⟨ha, hb⟩, da, db⟩⟩

end RelayLadder
