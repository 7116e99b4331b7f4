/-
  The grammar of rung text.

  A rung is a series of elements with blanks between them; an element is an instruction or, inside
  fewer than `maxDepth` others, a branch of legs in brackets; each leg has elements.  The relations
  say what a text derives up to a rest, since a bare name depends on what follows it.

  `flatInstructions` is a second, flat way to read a text: it takes instructions wherever they stand
  and knows nothing of branches.
-/
import RelayLadder.RungText.Parser

namespace RelayLadder.RungText

open Text

/-! ## Operand lists -/

/-- The number of open parentheses after a character. -/
def depthAfter (depth : Nat) (c : Char) : Nat :=
  if c = '(' then depth + 1 else if c = ')' then depth - 1 else depth

/-- Inside `depth` open parentheses, the text closes them all and no others. -/
def isBalanced (depth : Nat) : List Char → Bool
  | [] => depth == 0
  | c :: cs => (c != ')' || depth != 0) && isBalanced (depthAfter depth c) cs

/-- The pieces between the commas outside parentheses. -/
def topPieces (depth : Nat) : List Char → List (List Char)
  | [] => [[]]
  | c :: cs =>
    let pieces := topPieces (depthAfter depth c) cs
    if c = ',' ∧ depth = 0 then [] :: pieces else (c :: pieces.headD []) :: pieces.tail

/-- The values of an operand list: the pieces without the blanks around them; none if the only piece
    is blank. -/
def listedValues (params : List Char) : List String :=
  let values := (topPieces 0 params).map fun piece => String.ofList (trim piece)
  if values = [""] then [] else values

/-! ## Derivations -/

mutual
/-- The text derives an element inside `depth` branches, up to the rest. -/
inductive DerivesElement : Nat → List Char → Element → List Char → Prop
  /-- A name, blanks and an operand list. -/
  | listed {depth : Nat} {i : Instruction} {blanks params rest : List Char} :
      i.mnemonic.toList.all isNameChar = true → blanks.all isBlank = true →
      isBalanced 0 params = true → i.operands = .ofValues (listedValues params) →
      DerivesElement depth (i.mnemonic.toList ++ blanks ++ '(' :: params ++ ')' :: rest)
        (.instr i) rest
  /-- A bare name. -/
  | bare {depth : Nat} {i : Instruction} {rest : List Char} :
      i.mnemonic.toList.all isNameChar = true → i.operands = .nullary →
      endsName rest = true → (trimLeft rest).head? ≠ some '(' →
      DerivesElement depth (i.mnemonic.toList ++ rest) (.instr i) rest
  /-- Legs in brackets. -/
  | branch {depth : Nat} {cs rest : List Char} {legs : Legs} :
      depth < maxDepth → DerivesLegs (depth + 1) cs legs rest →
      DerivesElement depth ('[' :: cs) (.branch legs) rest

/-- The text derives a series inside `depth` branches, up to the rest. -/
inductive DerivesSeries : Nat → List Char → Series → List Char → Prop
  | nil {depth : Nat} {rest : List Char} : DerivesSeries depth rest [] rest
  | blank {depth : Nat} {c : Char} {cs rest : List Char} {es : Series} :
      isBlank c = true → DerivesSeries depth cs es rest → DerivesSeries depth (c :: cs) es rest
  | cons {depth : Nat} {cs mid rest : List Char} {e : Element} {es : Series} :
      DerivesElement depth cs e mid → DerivesSeries depth mid es rest →
      DerivesSeries depth cs (e :: es) rest

/-- The text derives the legs of a branch inside `depth` branches (itself included), up to the rest
    behind its closing bracket. -/
inductive DerivesLegs : Nat → List Char → Legs → List Char → Prop
  | last {depth : Nat} {cs rest : List Char} {es : Series} :
      es ≠ [] → DerivesSeries depth cs es (']' :: rest) → DerivesLegs depth cs [es] rest
  | next {depth : Nat} {cs mid rest : List Char} {es : Series} {legs : Legs} :
      es ≠ [] → DerivesSeries depth cs es (',' :: mid) → DerivesLegs depth mid legs rest →
      DerivesLegs depth cs (es :: legs) rest
end

/-- The text of a rung, without what does not count around it, derives the series. -/
def Derives (text : String) (es : Series) : Prop :=
  DerivesSeries 0 (body text.toList) es []

/-! ## Flat reading -/

/-- The instructions of a text that has `before` in front of it and whose first `pending` characters
    belong to the instruction before. -/
def flatInstructions (before : Option Char) (pending : Nat) : List Char → List Instruction
  | [] => []
  | c :: cs =>
    match pending with
    | pending + 1 => flatInstructions (some c) pending cs
    | 0 =>
      if isBlank c then flatInstructions (some c) 0 cs
      else match readInstruction before (c :: cs) with
        | some r => r.instruction :: flatInstructions (some c) (r.length - 1) cs
        | none => flatInstructions (some c) 0 cs

end RelayLadder.RungText
