/-
  The elements of a rung.

  A rung is a *series* of elements, read left to right.  An element is an instruction (a mnemonic
  with its operands) or a branch: parallel *legs*, each a series of its own, that rejoin into one
  path.

  * `Operands` has one form for each usual number of operands; `Operands.ofValues` picks the form
    that fits a list of values, and `Operands.values` lists them again;
  * `Instruction` carries the proof that its mnemonic is not empty, so that an element always has
    something to show;
  * `Series.induction` is the induction principle that proofs about series and legs go by.
-/
namespace RelayLadder

/-! ## Operands -/

/-- The operands of an instruction, by their number.  `nary` may hold any number of them; texts
    only ever yield it for three or more. -/
inductive Operands where
  | nullary
  | unary (tag : String)
  | binary (source dest : String)
  | nary (params : List String)
deriving DecidableEq, Repr

namespace Operands

/-- The form of operands that fits the number of values. -/
def ofValues : List String → Operands
  | [] => nullary
  | [tag] => unary tag
  | [source, dest] => binary source dest
  | params => nary params

/-- The values in the order in which they are written. -/
def values : Operands → List String
  | nullary => []
  | unary tag => [tag]
  | binary source dest => [source, dest]
  | nary params => params

/-- The number of operands. -/
def arity (o : Operands) : Nat := o.values.length

/-- The names of the places that this form of operands has. -/
def slots : Operands → List String
  | nullary => []
  | unary _ => ["tag"]
  | binary _ _ => ["source", "dest"]
  | nary _ => ["params"]

/-- The operand of an instruction that has one. -/
def tag? : Operands → Option String
  | unary tag => some tag
  | _ => none

/-- The first operand of an instruction that has two. -/
def source? : Operands → Option String
  | binary source _ => some source
  | _ => none

/-- The second operand of an instruction that has two. -/
def dest? : Operands → Option String
  | binary _ dest => some dest
  | _ => none

/-- The operands that are kept as one list; none in the other forms. -/
def params : Operands → List String
  | nary params => params
  | _ => []

@[simp]
theorem values_ofValues (vs : List String) : (ofValues vs).values = vs := by
  match vs with
  | [] | [_] | [_, _] | _ :: _ :: _ :: _ => rfl

end Operands

/-! ## Instructions and elements -/

/-- An instruction: a mnemonic with its operands.  Any text but the empty one may be a mnemonic. -/
structure Instruction where
  mnemonic : String
  operands : Operands := .nullary
  mnemonic_ne : mnemonic ≠ "" := by decide
deriving DecidableEq

namespace Instruction

/-- The instruction with this mnemonic, unless the mnemonic is empty. -/
def of? (mnemonic : String) (operands : Operands) : Option Instruction :=
  if h : mnemonic = "" then none else some { mnemonic, operands, mnemonic_ne := h }

/-- The operand values in the order in which they are written. -/
def values (i : Instruction) : List String := i.operands.values

/-- The instruction's form of operands has a place of this name. -/
def hasOperand (i : Instruction) (name : String) : Bool := i.operands.slots.contains name

theorem of?_eq_none_iff {m : String} {o : Operands} : of? m o = none ↔ m = "" := by
  simp [of?]

end Instruction

/-- An element of a rung: an instruction, or a branch with its parallel legs. -/
inductive Element where
  | instr (i : Instruction)
  | branch (legs : List (List Element))

/-- Elements on one rail, left to right. -/
abbrev Series := List Element

/-- The parallel series of a branch, top to bottom. -/
abbrev Legs := List Series

/-! ## Equality -/

mutual
/-- Equality of series can be decided. -/
def Series.decEq : (a b : Series) → Decidable (a = b)
  | [], [] => isTrue rfl
  | [], _ :: _ => isFalse nofun
  | _ :: _, [] => isFalse nofun
  | .instr i :: a, .instr j :: b =>
    match decEq i j, Series.decEq a b with
    | isTrue h, isTrue k => isTrue (by rw [h, k])
    | isFalse h, _ => isFalse (fun e => h (by injection e with e; injection e))
    | _, isFalse k => isFalse (fun e => k (by injection e))
  | .branch l :: a, .branch m :: b =>
    match Legs.decEq l m, Series.decEq a b with
    | isTrue h, isTrue k => isTrue (by rw [h, k])
    | isFalse h, _ => isFalse (fun e => h (by injection e with e; injection e))
    | _, isFalse k => isFalse (fun e => k (by injection e))
  | .instr _ :: _, .branch _ :: _ => isFalse (fun e => by injection e with e; cases e)
  | .branch _ :: _, .instr _ :: _ => isFalse (fun e => by injection e with e; cases e)

/-- Equality of legs can be decided. -/
def Legs.decEq : (a b : Legs) → Decidable (a = b)
  | [], [] => isTrue rfl
  | [], _ :: _ => isFalse nofun
  | _ :: _, [] => isFalse nofun
  | l :: a, m :: b =>
    match Series.decEq l m, Legs.decEq a b with
    | isTrue h, isTrue k => isTrue (by rw [h, k])
    | isFalse h, _ => isFalse (fun e => h (by injection e))
    | _, isFalse k => isFalse (fun e => k (by injection e))
end

instance : DecidableEq Element := fun a b =>
  match Series.decEq [a] [b] with
  | isTrue h => isTrue (by injection h)
  | isFalse h => isFalse (fun e => h (by rw [e]))

/-! ## Induction -/

mutual
/-- What holds of the empty series, and is kept by putting an instruction or a branch in front of
    a series, holds of every series; for a branch it may be used of its legs. -/
theorem Series.induction {P : Series → Prop} {Q : Legs → Prop}
    (nil : P []) (instr : ∀ i es, P es → P (.instr i :: es))
    (branch : ∀ legs es, Q legs → P es → P (.branch legs :: es))
    (noLegs : Q []) (leg : ∀ es legs, P es → Q legs → Q (es :: legs)) : ∀ es, P es
  | [] => nil
  | .instr i :: es => instr i es (Series.induction nil instr branch noLegs leg es)
  | .branch legs :: es =>
    branch legs es (Legs.induction nil instr branch noLegs leg legs)
      (Series.induction nil instr branch noLegs leg es)

/-- The companion of `Series.induction` for legs. -/
theorem Legs.induction {P : Series → Prop} {Q : Legs → Prop}
    (nil : P []) (instr : ∀ i es, P es → P (.instr i :: es))
    (branch : ∀ legs es, Q legs → P es → P (.branch legs :: es))
    (noLegs : Q []) (leg : ∀ es legs, P es → Q legs → Q (es :: legs)) : ∀ legs, Q legs
  | [] => noLegs
  | es :: legs =>
    leg es legs (Series.induction nil instr branch noLegs leg es)
      (Legs.induction nil instr branch noLegs leg legs)
end

end RelayLadder
