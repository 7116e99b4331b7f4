/-
  References in markup, and the marks that markup is cut at.

  * `expandReferences` replaces the five named references and those by number;
  * `splitAtMark` cuts a text at the first place where a mark stands, `readQuoted` at the end of what
    stands between quotes.
-/
import RelayLadder.Xml.Character

namespace RelayLadder.Xml

/-- Reads a value from the start of a text and gives what is left; `none` if there is none. -/
abbrev Reader (α : Type) := List Char → Option (α × List Char)

/-! ## References -/

/-- The value of a numeral in base 10 or 16; `none` if it is empty or has other characters. -/
def numeral? (base : Nat) (ds : List Char) : Option Nat :=
  if ds.isEmpty then none
  else ds.foldlM (fun n c =>
    let d :=
      if c.isDigit then some (c.toNat - '0'.toNat)
      else if base = 16 ∧ 'a' ≤ c ∧ c ≤ 'f' then some (c.toNat - 'a'.toNat + 10)
      else if base = 16 ∧ 'A' ≤ c ∧ c ≤ 'F' then some (c.toNat - 'A'.toNat + 10)
      else none
    d.map (base * n + ·)) 0

/-- The document character with this code. -/
def charOfCode? (n : Nat) : Option Char :=
  if n.isValidChar ∧ isDocumentChar (Char.ofNat n) then some (Char.ofNat n) else none

/-- The character that stands for what is between `&` and `;`. -/
def referenced? : List Char → Option Char
  | ['l', 't'] => some '<'
  | ['g', 't'] => some '>'
  | ['a', 'm', 'p'] => some '&'
  | ['q', 'u', 'o', 't'] => some '"'
  | ['a', 'p', 'o', 's'] => some '\''
  | '#' :: 'x' :: ds => numeral? 16 ds >>= charOfCode?
  | '#' :: ds => numeral? 10 ds >>= charOfCode?
  | _ => none

/-- Replaces references; `pending` holds what has been read, reversed, of one that is not over.
    Characters outside references go through `plain`. -/
def expandFrom (plain : Char → Char) (pending : Option (List Char)) :
    List Char → Option (List Char)
  | [] => if pending.isSome then none else some []
  | c :: cs =>
    match pending with
    | none =>
      if c = '&' then expandFrom plain (some []) cs
      else (expandFrom plain none cs).map (plain c :: ·)
    | some name =>
      if c = ';' then do
        let d ← referenced? name.reverse
        (expandFrom plain none cs).map (d :: ·)
      else expandFrom plain (some (c :: name)) cs

/-- Replaces the references in a text. -/
def expandReferences (cs : List Char) : Option (List Char) := expandFrom id none cs

/-! ## Marks -/

/-- What is in front of the first `mark`, and what is behind it. -/
def splitAtMark (mark : List Char) : List Char → Option (List Char × List Char)
  | [] => none
  | c :: cs =>
    if mark.isPrefixOf (c :: cs) then some ([], (c :: cs).drop mark.length)
    else (splitAtMark mark cs).map fun (front, back) => (c :: front, back)

/-- What stands between quotes. -/
def readQuoted : Reader (List Char)
  | q :: cs =>
    if q = '"' ∨ q = '\'' then splitAtMark [q] cs else none
  | [] => none

theorem splitAtMark_singleton {q : Char} {cs : List Char} (h : q ∉ cs) (rest : List Char) :
    splitAtMark [q] (cs ++ q :: rest) = some (cs, rest) := by
  induction cs with
  | nil => simp [splitAtMark]
  | cons c cs ih =>
    rw [List.mem_cons, not_or] at h
    simp [splitAtMark, ih h.2, h.1]

end RelayLadder.Xml
