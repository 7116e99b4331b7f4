/-
  Routines: named lists of rungs, found by their numbers.

  The first rung with a number is the one that the number stands for; routines that are built by
  the operations here have each number at most once.
-/
import RelayLadder.Rung

namespace RelayLadder

/-- A routine: its rungs in order. -/
structure Routine where
  name : String
  rungs : List Rung := []
deriving DecidableEq

namespace Routine

/-- A routine's name is a text. -/
def checkName : FieldValue → Except Error String
  | .text s => .ok s
  | v => .error (.wrongType "Routine" "name" v)

/-- The routine of rungs with these texts, numbered in order from 0. -/
def ofTexts (name : String) (texts : List String) : Routine :=
  { name, rungs := texts.mapIdx fun number text => Rung.ofText number text }

/-- The rung numbers in the order of the rungs. -/
def numbers (r : Routine) : List Nat := r.rungs.map Rung.number

/-- One past the highest rung number. -/
def nextNumber (r : Routine) : Nat := r.numbers.foldl (fun next n => max next (n + 1)) 0

/-- The next number is past every number that is there. -/
theorem lt_nextNumber {r : Routine} {n : Nat} (h : n ∈ r.numbers) : n < r.nextNumber := by
  have key : ∀ (ns : List Nat) (m : Nat), m ≤ ns.foldl (fun next n => max next (n + 1)) m ∧
      ∀ n ∈ ns, n < ns.foldl (fun next n => max next (n + 1)) m := by
    intro ns
    induction ns with
    | nil => simp
    | cons a ns ih =>
      intro m
      have := ih (max m (a + 1))
      simp only [List.foldl_cons, List.mem_cons, forall_eq_or_imp]
      exact ⟨by omega, by omega, this.2⟩
  exact (key r.numbers 0).2 n h

/-- The position of the first rung that the key is the number of. -/
def position (r : Routine) (key : FieldValue) : Except Error Nat :=
  match r.rungs.findIdx? fun rung => key.isNumber rung.number with
  | some k => .ok k
  | none => .error (.noSuchKey key)

/-- The rung with this number. -/
def rung (r : Routine) (key : FieldValue) : Except Error Rung :=
  match r.rungs.find? fun rung => key.isNumber rung.number with
  | some rung => .ok rung
  | none => .error (.noSuchKey key)

/-- Adds a rung at the end.  Without a number it gets the next one; a number that is there already
    is refused before its type is looked at. -/
def add (r : Routine) (text : String) (number : FieldValue := .null)
    (comment : FieldValue := .null) : Except Error Routine := do
  let number ← match number with
    | .null => pure (.integer r.nextNumber)
    | v => if r.numbers.any v.isNumber then throw (.duplicateRung r.name v) else pure v
  return { r with rungs := r.rungs ++ [← Rung.ofFields number text comment] }

/-- Puts a rung in the place of the one with its number. -/
def replace (r : Routine) (rung : Rung) : Except Error Routine := do
  let k ← r.position (.integer rung.number)
  return { r with rungs := r.rungs.set k rung }

/-- Removes the rung with this number. -/
def remove (r : Routine) (key : FieldValue) : Except Error Routine := do
  let k ← r.position key
  return { r with rungs := r.rungs.eraseIdx k }

/-- The same rungs, numbered in order from 0. -/
def renumber (r : Routine) : Routine :=
  { r with rungs := r.rungs.mapIdx fun number rung => { rung with number } }

/-- The part of the name behind the last slash: routines are named with their program in front. -/
def localName (r : Routine) : String :=
  String.ofList (r.name.toList.reverse.takeWhile (· ≠ '/')).reverse

end Routine

end RelayLadder
