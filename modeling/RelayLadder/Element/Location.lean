/-
  Where an instruction stands in the tree.

  Instructions are numbered from 0 in reading order, with one count across all legs.  That number
  names an instruction within its rung; a `Location` adds the way to it: for each enclosing branch
  its position and the leg taken, then the position in the innermost series.

  * `Series.places` lists position and way of every instruction, `Series.walk` numbers them;
  * `Series.locate` finds one by its number;
  * `Series.follow` is the series that a way leads to;
  * `Series.editAt` changes the series that a way leads to, and drops the legs and branches that
    have become empty along it.
-/
import RelayLadder.Element.Traversal

namespace RelayLadder

/-- The way from the main rail into nested legs, outermost first: the position of each enclosing
    branch in its series, and the number of the leg taken. -/
abbrev LegPath := List (Nat × Nat)

/-- An instruction with its place: the way to its series, and its position there. -/
structure Place where
  path : LegPath
  position : Nat
  instruction : Instruction
deriving DecidableEq

/-- A place together with the instruction's number in reading order. -/
structure Location extends Place where
  index : Nat
deriving DecidableEq

namespace Location

/-- The number of branches around the instruction. -/
def depth (l : Location) : Nat := l.path.length

/-- The numbers of the legs around the instruction, outermost first. -/
def branchPath (l : Location) : List Nat := l.path.map Prod.snd

end Location

/-! ## Walking the tree -/

mutual
/-- The places of the instructions of a series that `path` leads to, whose first element has the
    given position. -/
def Series.places (path : LegPath) (position : Nat) : Series → List Place
  | [] => []
  | .instr i :: es => ⟨path, position, i⟩ :: Series.places path (position + 1) es
  | .branch legs :: es =>
    Legs.places path position 0 legs ++ Series.places path (position + 1) es

/-- The places of the instructions of the legs, from leg number `leg` on, of a branch at
    `position` in the series that `path` leads to. -/
def Legs.places (path : LegPath) (position leg : Nat) : Legs → List Place
  | [] => []
  | es :: legs =>
    Series.places (path ++ [(position, leg)]) 0 es ++ Legs.places path position (leg + 1) legs
end

theorem Series.places_append (path : LegPath) (position : Nat) (a b : Series) :
    Series.places path position (a ++ b) =
      Series.places path position a ++ Series.places path (position + a.length) b := by
  induction a generalizing position with
  | nil => simp [Series.places]
  | cons e a ih => cases e <;> simp [Series.places, ih, Nat.add_assoc, Nat.add_comm 1]

mutual
/-- The places of a series hold its instructions in reading order. -/
theorem Series.map_instruction_places (path : LegPath) (position : Nat) : (es : Series) →
    (Series.places path position es).map Place.instruction = Series.instructions es
  | [] => by simp [Series.places, Series.instructions]
  | .instr i :: es => by
    simp [Series.places, Series.instructions, Series.map_instruction_places path _ es]
  | .branch legs :: es => by
    simp [Series.places, Series.instructions, Series.map_instruction_places path _ es,
      Legs.map_instruction_places path position 0 legs]

/-- The places of legs hold their instructions in reading order. -/
theorem Legs.map_instruction_places (path : LegPath) (position leg : Nat) : (legs : Legs) →
    (Legs.places path position leg legs).map Place.instruction = Legs.instructions legs
  | [] => by simp [Legs.places, Legs.instructions]
  | es :: legs => by
    simp [Legs.places, Legs.instructions, Series.map_instruction_places _ 0 es,
      Legs.map_instruction_places path position (leg + 1) legs]
end

/-- Every instruction with its location, in reading order. -/
def Series.walk (es : Series) : List Location :=
  (Series.places [] 0 es).mapIdx fun index place => { place with index }

theorem Series.length_walk (es : Series) : (Series.walk es).length = Series.count es := by
  simp [Series.walk, Series.count, ← Series.map_instruction_places [] 0 es]

/-- The location of the instruction with this number, if there is one. -/
def Series.locate (es : Series) (index : Int) : Option Location :=
  if index < 0 then none else (Series.walk es)[index.toNat]?

/-! ## Following a way -/

/-- The series that the way leads to, if there is one. -/
def Series.follow : LegPath → Series → Option Series
  | [], es => some es
  | (position, leg) :: path, es =>
    match es[position]? with
    | some (.branch legs) => legs[leg]?.bind (Series.follow path)
    | _ => none

/-! ## Editing at a place -/

/-- Puts elements in the place of the element at `position`. -/
def Series.splice (es : Series) (position : Nat) (new : Series) : Series :=
  es.take position ++ new ++ es.drop (position + 1)

/-- A branch of the legs that are not empty; nothing if all are. -/
def Legs.prune (legs : Legs) : Series :=
  match legs.filter (!·.isEmpty) with
  | [] => []
  | kept => [.branch kept]

/-- Applies `change` to the series that the way leads to.  Each branch on the way is put together
    again from its non-empty legs, and vanishes if there are none. -/
def Series.editAt (change : Series → Series) : LegPath → Series → Series
  | [], es => change es
  | (position, leg) :: path, es =>
    match es[position]? with
    | some (.branch legs) =>
      es.splice position (Legs.prune (legs.modify leg (Series.editAt change path)))
    | _ => es

end RelayLadder
