/-
  Lexemes of rung text.

  Rung text is cut into instructions, the brackets and commas of branches, and characters that fit
  nowhere; blanks between these are passed over.  What is an instruction does not depend on the
  branches around it:

  * a name over `A`-`Z` and `_`, then blanks, then an operand list in parentheses.  Commas outside
    inner parentheses divide the list, blanks around an operand do not count, and a list with
    nothing but blanks has no operands.  Text that ends before the list does leaves it *open*: the
    inner parentheses still open are then closed at the end of the last operand;
  * a bare name, which must not continue a word and must stand before a blank, a comma, a bracket
    or the end.

  `readInstruction` recognises an instruction at the start of a text, `lexemes` cuts a whole text.
-/
import RelayLadder.Element
import RelayLadder.Text.Blank
import RelayLadder.Text.AlphaNum

namespace RelayLadder.RungText

open Text

/-! ## Operand lists -/

/-- A character of an instruction's name. -/
def isNameChar (c : Char) : Bool := c.isUpper || c == '_'

/-- A character of a word; a bare name cannot follow one. -/
def isWordChar (c : Char) : Bool := isAlphaNum c || c == '_'

/-- An operand list cut at its commas: the pieces, the number of characters read (with the closing
    parenthesis) and whether the closing parenthesis was there. -/
structure OperandList where
  first : List Char
  rest : List (List Char)
  length : Nat
  closed : Bool

namespace OperandList

/-- One more character in front of the first piece. -/
def push (c : Char) (l : OperandList) : OperandList :=
  { l with first := c :: l.first, length := l.length + 1 }

/-- An empty piece and a comma in front. -/
def divide (l : OperandList) : OperandList :=
  { l with first := [], rest := l.first :: l.rest, length := l.length + 1 }

/-- Reads an operand list from behind its opening parenthesis, inside `depth` inner ones. -/
def read (depth : Nat) : List Char → OperandList
  | [] => ⟨List.replicate depth ')', [], 0, false⟩
  | c :: cs =>
    if c = '(' then (read (depth + 1) cs).push c
    else if c = ')' then
      match depth with
      | 0 => ⟨[], [], 1, true⟩
      | depth + 1 => (read depth cs).push c
    else if c = ',' ∧ depth = 0 then (read depth cs).divide
    else (read depth cs).push c

/-- The operand values: the pieces without the blanks around them; none if there is one piece and
    it is blank. -/
def values (l : OperandList) : List String :=
  match (l.first :: l.rest).map fun piece => String.ofList (trim piece) with
  | [""] => []
  | vs => vs

end OperandList

/-! ## Instructions -/

/-- An instruction at the start of a text: its length there, and whether its operand list was
    closed. -/
structure Reading where
  instruction : Instruction
  length : Nat
  closed : Bool

/-- The instruction of the given name (with first character `c`) and operand values. -/
def named (c : Char) (name : List Char) (values : List String) : Instruction where
  mnemonic := String.ofList (c :: name)
  operands := .ofValues values
  mnemonic_ne := by simp

/-- A bare name ends at a blank, a comma, a bracket or the end of the text. -/
def endsName : List Char → Bool
  | [] => true
  | c :: _ => isBlank c || c == ',' || c == '[' || c == ']'

/-- The instruction that the text `cs` starts with, where `before` is the character in front of
    it. -/
def readInstruction (before : Option Char) : List Char → Option Reading
  | [] => none
  | c :: cs =>
    if isNameChar c then
      let name := cs.takeWhile isNameChar
      let after := cs.dropWhile isNameChar
      let blanks := after.takeWhile isBlank
      match after.dropWhile isBlank with
      | '(' :: list =>
        let operands := OperandList.read 0 list
        some ⟨named c name operands.values,
          name.length + blanks.length + operands.length + 2, operands.closed⟩
      | _ =>
        if !before.any isWordChar && endsName after then
          some ⟨named c name [], name.length + 1, true⟩
        else none
    else none

/-! ## Cutting a text -/

/-- What a lexeme is. -/
inductive Token where
  /-- An instruction, and whether its operand list was closed. -/
  | instruction (i : Instruction) (closed : Bool)
  | openBranch
  | comma
  | closeBranch
  /-- A character that fits nowhere. -/
  | junk
deriving DecidableEq

/-- A token with the positions where it starts and stops. -/
structure Lexeme where
  token : Token
  start : Nat
  stop : Nat
deriving DecidableEq

/-- The token at the start of a text whose first character `c` is not blank, and its length. -/
def tokenAt (before : Option Char) (c : Char) (cs : List Char) : Token × Nat :=
  if c = '[' then (.openBranch, 1)
  else if c = ',' then (.comma, 1)
  else if c = ']' then (.closeBranch, 1)
  else match readInstruction before (c :: cs) with
    | some r => (.instruction r.instruction r.closed, r.length)
    | none => (.junk, 1)

/-- The lexemes of a text that starts at position `pos`, has `before` in front of it and still
    belongs to the lexeme before for its first `pending` characters. -/
def lexemesFrom (before : Option Char) (pos pending : Nat) : List Char → List Lexeme
  | [] => []
  | c :: cs =>
    match pending with
    | pending + 1 => lexemesFrom (some c) (pos + 1) pending cs
    | 0 =>
      if isBlank c then lexemesFrom (some c) (pos + 1) 0 cs
      else
        let (token, length) := tokenAt before c cs
        ⟨token, pos, pos + length⟩ :: lexemesFrom (some c) (pos + 1) (length - 1) cs

/-- The lexemes of a text. -/
def lexemes (cs : List Char) : List Lexeme := lexemesFrom none 0 0 cs

/-- Characters that belong to the lexeme before are passed over. -/
theorem lexemesFrom_append (before : Option Char) (pos : Nat) (taken cs : List Char) :
    lexemesFrom before pos taken.length (taken ++ cs) =
      lexemesFrom (taken.getLast?.or before) (pos + taken.length) 0 cs := by
  induction taken generalizing before pos with
  | nil => simp
  | cons c taken ih =>
    simp only [List.length_cons, List.cons_append, lexemesFrom, ih]
    cases taken <;> simp [List.getLast?_cons, Nat.add_assoc, Nat.add_comm 1]

end RelayLadder.RungText
