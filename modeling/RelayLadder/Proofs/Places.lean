/-
  What the ways into a series lead to, and what an edit at the end of a way does.

  * `Leads path es before inner after`: the way `path` leads from `es` to the series `inner`, whose
    instructions are read between those in `before` and those in `after`;
  * `Leads.instructions_editAt`: an edit there changes the instructions of `inner`, and no others,
    whatever legs and branches vanish on the way;
  * `Stands es k place`: the place is that of the instruction with number `k`.  Every number has
    such a place (`exists_stands`), and `Series.walk` finds it (`locate_eq_some_iff`);
  * `Stands.instructions_editAt`: an edit at a place changes one entry of the list of instructions.
-/
import RelayLadder.Element.Location

namespace RelayLadder

/-! ## Ways -/

namespace Series

/-- The way leads from the first series to the second, whose instructions are read between the two
    lists. -/
inductive Leads : LegPath → Series → List Instruction → Series → List Instruction → Prop
  /-- The empty way stays where it is. -/
  | here {es : Series} : Leads [] es [] es []
  /-- A step goes into a leg of a branch; the legs above it and the elements to the left of the
      branch are read before it. -/
  | into {left right : Series} {above below : Legs} {leg : Series} {path : LegPath}
      {before after : List Instruction} {inner : Series} : Leads path leg before inner after →
      Leads ((left.length, above.length) :: path) (left ++ .branch (above ++ leg :: below) :: right)
        (instructions left ++ Legs.instructions above ++ before) inner
        (after ++ Legs.instructions below ++ instructions right)

theorem Leads.instructions_eq {path : LegPath} {es inner : Series}
    {before after : List Instruction} (h : Leads path es before inner after) :
    instructions es = before ++ instructions inner ++ after := by
  induction h with
  | here => simp
  | into _ ih =>
    simp [instructions_append, instructions, Legs.instructions_append, Legs.instructions, ih]

end Series

/-! ## Edits -/

/-- What vanishes with the empty legs of a branch has no instructions. -/
theorem Legs.instructions_prune (legs : Legs) :
    Series.instructions (Legs.prune legs) = Legs.instructions legs := by
  have hfilter : Legs.instructions (legs.filter (!·.isEmpty)) = Legs.instructions legs := by
    induction legs with
    | nil => rfl
    | cons leg legs ih =>
      cases leg with
      | nil => simpa [Legs.instructions, Series.instructions] using ih
      | cons e leg => simp [Legs.instructions, ih]
  unfold Legs.prune
  split
  · rename_i h
    simp [← hfilter, h, Legs.instructions, Series.instructions]
  · simp [← hfilter, Series.instructions]

namespace Series

@[simp]
theorem splice_append_cons (left : Series) (e : Element) (right new : Series) :
    splice (left ++ e :: right) left.length new = left ++ new ++ right := by
  simp [splice]

theorem editAt_into (change : Series → Series) (left right : Series) (above below : Legs)
    (leg : Series) (path : LegPath) :
    editAt change ((left.length, above.length) :: path)
        (left ++ .branch (above ++ leg :: below) :: right) =
      left ++ Legs.prune (above ++ editAt change path leg :: below) ++ right := by
  simp [editAt, List.modify_eq_take_drop]

/-- **An edit at the end of a way changes the instructions there, and no others.** -/
theorem Leads.instructions_editAt {path : LegPath} {es inner : Series}
    {before after : List Instruction} (h : Leads path es before inner after)
    (change : Series → Series) :
    instructions (editAt change path es) = before ++ instructions (change inner) ++ after := by
  induction h with
  | here => simp [editAt]
  | into _ ih =>
    simp [editAt_into, instructions_append, Legs.instructions_prune, Legs.instructions_append,
      Legs.instructions, ih]

end Series

/-! ## Places -/

theorem Series.length_places (path : LegPath) (position : Nat) (es : Series) :
    (Series.places path position es).length = Series.count es := by
  rw [Series.count, ← Series.map_instruction_places path position es, List.length_map]

theorem Legs.length_places (path : LegPath) (position leg : Nat) (legs : Legs) :
    (Legs.places path position leg legs).length = (Legs.instructions legs).length := by
  rw [← Legs.map_instruction_places path position leg legs, List.length_map]

theorem Legs.places_append (path : LegPath) (position leg : Nat) (a b : Legs) :
    Legs.places path position leg (a ++ b) =
      Legs.places path position leg a ++ Legs.places path position (leg + a.length) b := by
  induction a generalizing leg with
  | nil => simp [Legs.places]
  | cons es a ih => simp [Legs.places, ih, Nat.add_assoc, Nat.add_comm 1]

namespace Series

/-- The place is that of the instruction with number `k`: its way leads to the series in which the
    instruction has its position, and `k` instructions are read before it. -/
def Stands (es : Series) (k : Nat) (place : Place) : Prop :=
  ∃ before left right after,
    Leads place.path es before (left ++ .instr place.instruction :: right) after ∧
      left.length = place.position ∧ (before ++ instructions left).length = k

/-- The list of places has the end of a way, with the position there, behind the places of what is
    read before. -/
theorem Leads.exists_places_eq {path : LegPath} {es left right : Series} {i : Instruction}
    {before after : List Instruction} (h : Leads path es before (left ++ .instr i :: right) after)
    (front : LegPath) :
    ∃ a b, places front 0 es = a ++ ⟨front ++ path, left.length, i⟩ :: b ∧
      a.length = (before ++ instructions left).length := by
  generalize hinner : left ++ .instr i :: right = inner at h
  induction h generalizing front with
  | here =>
    subst hinner
    refine ⟨places front 0 left, places front (left.length + 1) right, ?_, ?_⟩
    · simp [places_append, places]
    · simp [length_places, count]
  | @into outer rest above below _ _ _ _ _ _ ih =>
    obtain ⟨a, b, hab, hlen⟩ := ih (front ++ [(outer.length, above.length)]) hinner
    refine ⟨places front 0 outer ++ Legs.places front outer.length 0 above ++ a,
      b ++ Legs.places front outer.length (above.length + 1) below ++
        places front (outer.length + 1) rest, ?_, ?_⟩
    · simp [places_append, places, Legs.places_append, Legs.places, hab]
    · simp only [List.length_append, length_places, Legs.length_places, count] at hlen ⊢
      omega

theorem Stands.getElem?_places {es : Series} {k : Nat} {place : Place} (h : Stands es k place) :
    (places [] 0 es)[k]? = some place := by
  obtain ⟨before, left, right, after, hlead, hpos, rfl⟩ := h
  obtain ⟨a, b, hab, hlen⟩ := hlead.exists_places_eq []
  rw [hab, ← hlen, List.getElem?_append_right (Nat.le_refl _), Nat.sub_self, hpos]
  rfl

theorem Stands.unique {es : Series} {k : Nat} {a b : Place} (ha : Stands es k a)
    (hb : Stands es k b) : a = b :=
  Option.some.inj (ha.getElem?_places.symm.trans hb.getElem?_places)

theorem Stands.into {leg : Series} {k : Nat} {place : Place} (h : Stands leg k place)
    (left right : Series) (above below : Legs) :
    Stands (left ++ .branch (above ++ leg :: below) :: right)
      ((instructions left).length + (Legs.instructions above).length + k)
      { place with path := (left.length, above.length) :: place.path } := by
  obtain ⟨before, l, r, after, hlead, hpos, rfl⟩ := h
  refine ⟨_, l, r, _, .into hlead, hpos, ?_⟩
  simp [Nat.add_assoc]

theorem exists_stands_append (es : Series) : ∀ (left : Series) (k : Nat), k < count es →
    ∃ place, Stands (left ++ es) ((instructions left).length + k) place := by
  -- `left` collects the elements that the induction has gone past
  refine Series.induction
    (P := fun es => ∀ (left : Series) (k : Nat), k < count es →
      ∃ place, Stands (left ++ es) ((instructions left).length + k) place)
    (Q := fun legs => ∀ k < (Legs.instructions legs).length, ∃ above leg below place m,
      legs = above ++ leg :: below ∧ Stands leg m place ∧ (Legs.instructions above).length + m = k)
    ?nil ?instr ?branch ?noLegs ?leg es
  case nil =>
    intro left k hk
    simp [count, instructions] at hk
  case instr =>
    intro i es ih left k hk
    simp only [count, instructions, List.length_cons] at hk
    cases k with
    | zero => exact ⟨⟨[], left.length, i⟩, [], left, es, [], .here, rfl, rfl⟩
    | succ k =>
      obtain ⟨place, hplace⟩ := ih (left ++ [.instr i]) k (Nat.lt_of_succ_lt_succ hk)
      refine ⟨place, ?_⟩
      simpa [instructions_append, instructions, Nat.add_assoc, Nat.add_comm 1] using hplace
  case branch =>
    intro legs es ihl ih left k hk
    simp only [count, instructions, List.length_append] at hk
    by_cases hlegs : k < (Legs.instructions legs).length
    · obtain ⟨above, leg, below, place, m, rfl, hplace, rfl⟩ := ihl k hlegs
      rw [← Nat.add_assoc]
      exact ⟨_, hplace.into left es above below⟩
    · obtain ⟨place, hplace⟩ := ih (left ++ [.branch legs])
        (k - (Legs.instructions legs).length) (by simp only [count]; omega)
      have hk' : (instructions (left ++ [.branch legs])).length +
          (k - (Legs.instructions legs).length) = (instructions left).length + k := by
        simp only [instructions_append, instructions, List.append_nil, List.length_append]
        omega
      rw [hk', List.append_assoc] at hplace
      exact ⟨place, hplace⟩
  case noLegs =>
    intro k hk
    simp [Legs.instructions] at hk
  case leg =>
    intro leg legs ih ihl k hk
    simp only [Legs.instructions, List.length_append] at hk
    by_cases hleg : k < count leg
    · obtain ⟨place, hplace⟩ := ih [] k hleg
      exact ⟨[], leg, legs, place, k, rfl, by simpa [instructions] using hplace,
        by simp [Legs.instructions]⟩
    · simp only [count] at hleg
      obtain ⟨above, leg', below, place, m, rfl, hplace, hm⟩ :=
        ihl (k - (instructions leg).length) (by omega)
      refine ⟨leg :: above, leg', below, place, m, rfl, hplace, ?_⟩
      simp only [Legs.instructions, List.length_append]
      omega

/-- **Every number below the count has its place.** -/
theorem exists_stands {es : Series} {k : Nat} (h : k < count es) : ∃ place, Stands es k place := by
  simpa [instructions] using exists_stands_append es [] k h

theorem getElem?_places_eq_some_iff {es : Series} {k : Nat} {place : Place} :
    (places [] 0 es)[k]? = some place ↔ Stands es k place := by
  refine ⟨fun h => ?_, Stands.getElem?_places⟩
  obtain ⟨hk, -⟩ := List.getElem?_eq_some_iff.1 h
  obtain ⟨place', hplace'⟩ := exists_stands (length_places [] 0 es ▸ hk)
  have heq : some place' = some place := hplace'.getElem?_places.symm.trans h
  cases heq
  exact hplace'

theorem map_index_walk (es : Series) : (walk es).map Location.index = List.range (count es) := by
  refine List.ext_getElem (by simp [length_walk]) fun k _ _ => ?_
  simp [walk]

theorem map_instruction_walk (es : Series) : (walk es).map (·.instruction) = instructions es := by
  rw [← map_instruction_places [] 0 es]
  exact List.ext_getElem? fun k => by simp [walk, Function.comp_def]

theorem locate_eq_some_iff_getElem? {es : Series} {index : Int} {l : Location} :
    locate es index = some l ↔ ∃ k : Nat, index = k ∧ (walk es)[k]? = some l := by
  unfold locate
  split
  · rename_i hneg
    refine ⟨nofun, ?_⟩
    rintro ⟨k, rfl, -⟩
    omega
  · rename_i hneg
    refine ⟨fun h => ⟨index.toNat, by omega, h⟩, ?_⟩
    rintro ⟨k, rfl, h⟩
    exact h

/-- **Looking up a number finds the place of the instruction that has it**, and nothing else. -/
theorem locate_eq_some_iff {es : Series} {index : Int} {l : Location} :
    locate es index = some l ↔ index = l.index ∧ Stands es l.index l.toPlace := by
  rw [← getElem?_places_eq_some_iff, locate_eq_some_iff_getElem?]
  constructor
  · rintro ⟨k, rfl, h⟩
    rw [walk, List.getElem?_mapIdx] at h
    obtain ⟨place, hplace, rfl⟩ := Option.map_eq_some_iff.1 h
    exact ⟨rfl, hplace⟩
  · rintro ⟨hindex, hplace⟩
    refine ⟨l.index, hindex, ?_⟩
    rw [walk, List.getElem?_mapIdx, hplace]
    rfl

/-- There is a location for each number below the count, and for no other. -/
theorem locate_eq_none_iff {es : Series} {index : Int} :
    locate es index = none ↔ ¬ (0 ≤ index ∧ index < count es) := by
  unfold locate
  by_cases hneg : index < 0
  · simp only [if_pos hneg, true_iff]
    omega
  · simp only [if_neg hneg, List.getElem?_eq_none_iff, length_walk]
    omega

/-- **An edit at a place changes one entry of the list of instructions**: if `change` puts `new` in
    the place of the instruction, so does the edit in the list. -/
theorem Stands.instructions_editAt {es : Series} {k : Nat} {place : Place}
    (h : Stands es k place) :
    ∃ a b, a.length = k ∧ instructions es = a ++ place.instruction :: b ∧
      ∀ (change : Series → Series) (new : Series),
        (∀ left right, left.length = place.position →
          change (left ++ .instr place.instruction :: right) = left ++ new ++ right) →
        instructions (editAt change place.path es) = a ++ instructions new ++ b := by
  obtain ⟨before, left, right, after, hlead, hpos, hk⟩ := h
  refine ⟨before ++ instructions left, instructions right ++ after, hk, ?_, ?_⟩
  · simp [hlead.instructions_eq, instructions_append, instructions]
  · intro change new hchange
    simp [hlead.instructions_editAt, hchange left right hpos, instructions_append]

end Series

end RelayLadder
