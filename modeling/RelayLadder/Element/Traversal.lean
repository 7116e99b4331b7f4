/-
  The instructions of a series in reading order, and how deep its branches nest.

  Reading goes depth first: a branch is read leg by leg, top to bottom, before what follows it.
-/
import RelayLadder.Element

namespace RelayLadder

/-! ## Instructions in reading order -/

mutual
/-- The instructions of a series in reading order. -/
def Series.instructions : Series → List Instruction
  | [] => []
  | .instr i :: es => i :: Series.instructions es
  | .branch legs :: es => Legs.instructions legs ++ Series.instructions es

/-- The instructions of all legs, leg by leg. -/
def Legs.instructions : Legs → List Instruction
  | [] => []
  | leg :: legs => Series.instructions leg ++ Legs.instructions legs
end

/-- The number of instructions. -/
def Series.count (es : Series) : Nat := (Series.instructions es).length

theorem Series.instructions_append (a b : Series) :
    Series.instructions (a ++ b) = Series.instructions a ++ Series.instructions b := by
  induction a with
  | nil => simp [Series.instructions]
  | cons e a ih => cases e <;> simp [Series.instructions, ih]

theorem Legs.instructions_append (a b : Legs) :
    Legs.instructions (a ++ b) = Legs.instructions a ++ Legs.instructions b := by
  induction a with
  | nil => simp [Legs.instructions]
  | cons leg a ih => simp [Legs.instructions, ih]

/-! ## Nesting -/

mutual
/-- The deepest nesting of branches; 0 for a series without branches. -/
def Series.depth : Series → Nat
  | [] => 0
  | .instr _ :: es => Series.depth es
  | .branch legs :: es => max (Legs.depth legs + 1) (Series.depth es)

/-- The deepest nesting of branches inside the legs. -/
def Legs.depth : Legs → Nat
  | [] => 0
  | leg :: legs => max (Series.depth leg) (Legs.depth legs)
end

theorem Series.depth_append (a b : Series) :
    Series.depth (a ++ b) = max (Series.depth a) (Series.depth b) := by
  induction a with
  | nil => simp [Series.depth]
  | cons e a ih => cases e <;> simp [Series.depth, ih, Nat.max_assoc]

end RelayLadder
