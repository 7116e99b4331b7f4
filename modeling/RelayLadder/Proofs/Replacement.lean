/-
  Replacing an instruction of a rung without empty legs.

  * `Series.mapNumbered` applies a function to each instruction and its number.  It keeps all places
    (`Series.places_mapNumbered`), and one such function after another is one again
    (`Series.mapNumbered_mapNumbered`);
  * `Series.replaceAt` replaces the instruction of one number.  Where no leg is empty, an edit of a
    rung does just that (`Rung.replace_eq_ok`);
  * `Rung.replace_lawful`: replacing keeps the places of all instructions, puts an instruction in
    its own place without effect, keeps nothing of what it replaces, and does not depend on the
    order for different numbers.
-/
import RelayLadder.Proofs.FilledLegs

namespace RelayLadder

/-! ## Functions of numbered instructions -/

mutual
/-- The series with `f` applied to each instruction and its number, the first of which is `k`. -/
def Series.mapNumbered (f : Nat → Instruction → Instruction) (k : Nat) : Series → Series
  | [] => []
  | .instr i :: es => .instr (f k i) :: Series.mapNumbered f (k + 1) es
  | .branch legs :: es =>
    .branch (Legs.mapNumbered f k legs) ::
      Series.mapNumbered f (k + (Legs.instructions legs).length) es

/-- The legs with `f` applied to each instruction and its number, the first of which is `k`. -/
def Legs.mapNumbered (f : Nat → Instruction → Instruction) (k : Nat) : Legs → Legs
  | [] => []
  | leg :: legs =>
    Series.mapNumbered f k leg ::
      Legs.mapNumbered f (k + (Series.instructions leg).length) legs
end

section
variable (f : Nat → Instruction → Instruction)

theorem Series.mapNumbered_append (k : Nat) (a b : Series) :
    Series.mapNumbered f k (a ++ b) =
      Series.mapNumbered f k a ++
        Series.mapNumbered f (k + (Series.instructions a).length) b := by
  induction a generalizing k with
  | nil => simp [Series.mapNumbered, Series.instructions]
  | cons e a ih =>
    cases e <;> simp [Series.mapNumbered, Series.instructions, ih, Nat.add_assoc, Nat.add_comm 1]

theorem Legs.mapNumbered_append (k : Nat) (a b : Legs) :
    Legs.mapNumbered f k (a ++ b) =
      Legs.mapNumbered f k a ++ Legs.mapNumbered f (k + (Legs.instructions a).length) b := by
  induction a generalizing k with
  | nil => simp [Legs.mapNumbered, Legs.instructions]
  | cons leg a ih => simp [Legs.mapNumbered, Legs.instructions, ih, Nat.add_assoc]

/-- `f` applied to the instructions at some places, the first of which has the number `k`. -/
def mapPlaces (k : Nat) (places : List Place) : List Place :=
  places.mapIdx fun n place => { place with instruction := f (k + n) place.instruction }

theorem mapPlaces_cons (k : Nat) (place : Place) (places : List Place) :
    mapPlaces f k (place :: places) =
      { place with instruction := f k place.instruction } :: mapPlaces f (k + 1) places := by
  simp [mapPlaces, List.mapIdx_cons, Nat.add_assoc, Nat.add_comm 1]

theorem mapPlaces_append (k : Nat) (a b : List Place) :
    mapPlaces f k (a ++ b) = mapPlaces f k a ++ mapPlaces f (k + a.length) b := by
  simp [mapPlaces, List.mapIdx_append, Nat.add_assoc, Nat.add_comm a.length]

mutual
/-- **The places stay as they are**, and only their instructions change. -/
theorem Series.places_mapNumbered (path : LegPath) (position k : Nat) : (es : Series) →
    Series.places path position (Series.mapNumbered f k es) =
      mapPlaces f k (Series.places path position es)
  | [] => by simp [Series.mapNumbered, Series.places, mapPlaces]
  | .instr i :: es => by
    rw [Series.mapNumbered, Series.places, Series.places, mapPlaces_cons,
      Series.places_mapNumbered path _ _ es]
  | .branch legs :: es => by
    rw [Series.mapNumbered, Series.places, Series.places, mapPlaces_append,
      Legs.places_mapNumbered path position 0 k legs, Series.places_mapNumbered path _ _ es,
      Legs.length_places]
termination_by es => sizeOf es

/-- The places in legs stay as they are, and only their instructions change. -/
theorem Legs.places_mapNumbered (path : LegPath) (position leg k : Nat) : (legs : Legs) →
    Legs.places path position leg (Legs.mapNumbered f k legs) =
      mapPlaces f k (Legs.places path position leg legs)
  | [] => by simp [Legs.mapNumbered, Legs.places, mapPlaces]
  | es :: legs => by
    rw [Legs.mapNumbered, Legs.places, Legs.places, mapPlaces_append,
      Series.places_mapNumbered _ 0 k es, Legs.places_mapNumbered path position _ _ legs,
      Series.length_places, Series.count]
termination_by legs => sizeOf legs
end

theorem Series.count_mapNumbered (k : Nat) (es : Series) :
    Series.count (Series.mapNumbered f k es) = Series.count es := by
  rw [← Series.length_places [] 0, Series.places_mapNumbered, mapPlaces, List.length_mapIdx,
    Series.length_places]

theorem Legs.length_instructions_mapNumbered (k : Nat) (legs : Legs) :
    (Legs.instructions (Legs.mapNumbered f k legs)).length = (Legs.instructions legs).length := by
  rw [← Legs.length_places [] 0 0, Legs.places_mapNumbered, mapPlaces, List.length_mapIdx,
    Legs.length_places]

theorem Legs.length_mapNumbered (k : Nat) (legs : Legs) :
    (Legs.mapNumbered f k legs).length = legs.length := by
  induction legs generalizing k with
  | nil => rw [Legs.mapNumbered]
  | cons leg legs ih => rw [Legs.mapNumbered, List.length_cons, List.length_cons, ih]

theorem Series.isEmpty_mapNumbered (k : Nat) (es : Series) :
    (Series.mapNumbered f k es).isEmpty = es.isEmpty := by
  match es with
  | [] | .instr _ :: _ | .branch _ :: _ => simp [Series.mapNumbered]

mutual
theorem Series.isFilled_mapNumbered (k : Nat) : (es : Series) →
    Series.isFilled (Series.mapNumbered f k es) = Series.isFilled es
  | [] => by rw [Series.mapNumbered]
  | .instr i :: es => by
    rw [Series.mapNumbered, Series.isFilled, Series.isFilled, Series.isFilled_mapNumbered _ es]
  | .branch legs :: es => by
    rw [Series.mapNumbered, Series.isFilled, Series.isFilled, Legs.isFilled_mapNumbered k legs,
      Series.isFilled_mapNumbered _ es]
termination_by es => sizeOf es

theorem Legs.isFilled_mapNumbered (k : Nat) : (legs : Legs) →
    Legs.isFilled (Legs.mapNumbered f k legs) = Legs.isFilled legs
  | [] => by rw [Legs.mapNumbered]
  | leg :: legs => by
    rw [Legs.mapNumbered, Legs.isFilled, Legs.isFilled, Series.isEmpty_mapNumbered,
      Series.isFilled_mapNumbered k leg, Legs.isFilled_mapNumbered _ legs]
termination_by legs => sizeOf legs
end

mutual
/-- **One function after another is a function again**, number by number. -/
theorem Series.mapNumbered_mapNumbered (g : Nat → Instruction → Instruction) (k : Nat) :
    (es : Series) → Series.mapNumbered g k (Series.mapNumbered f k es) =
      Series.mapNumbered (fun n i => g n (f n i)) k es
  | [] => by rw [Series.mapNumbered, Series.mapNumbered, Series.mapNumbered]
  | .instr i :: es => by
    rw [Series.mapNumbered, Series.mapNumbered, Series.mapNumbered,
      Series.mapNumbered_mapNumbered g _ es]
  | .branch legs :: es => by
    rw [Series.mapNumbered, Series.mapNumbered, Series.mapNumbered,
      Legs.length_instructions_mapNumbered, Legs.mapNumbered_mapNumbered g k legs,
      Series.mapNumbered_mapNumbered g _ es]
termination_by es => sizeOf es

theorem Legs.mapNumbered_mapNumbered (g : Nat → Instruction → Instruction) (k : Nat) :
    (legs : Legs) → Legs.mapNumbered g k (Legs.mapNumbered f k legs) =
      Legs.mapNumbered (fun n i => g n (f n i)) k legs
  | [] => by rw [Legs.mapNumbered, Legs.mapNumbered, Legs.mapNumbered]
  | leg :: legs => by
    have hcount : (Series.instructions (Series.mapNumbered f k leg)).length =
        (Series.instructions leg).length := Series.count_mapNumbered f k leg
    rw [Legs.mapNumbered, Legs.mapNumbered, Legs.mapNumbered, hcount,
      Series.mapNumbered_mapNumbered g k leg, Legs.mapNumbered_mapNumbered g _ legs]
termination_by legs => sizeOf legs
end

variable {f}

mutual
/-- A function that changes nothing at the numbers of a series leaves it as it is. -/
theorem Series.mapNumbered_eq_self (k : Nat) : (es : Series) →
    (∀ n, k ≤ n → n < k + (Series.instructions es).length → ∀ i, f n i = i) →
      Series.mapNumbered f k es = es
  | [], _ => by rw [Series.mapNumbered]
  | .instr i :: es, h => by
    rw [Series.instructions, List.length_cons] at h
    rw [Series.mapNumbered, h k (Nat.le_refl k) (by omega), Series.mapNumbered_eq_self _ es]
    exact fun n hle hlt => h n (by omega) (by omega)
  | .branch legs :: es, h => by
    rw [Series.instructions, List.length_append] at h
    rw [Series.mapNumbered, Legs.mapNumbered_eq_self k legs, Series.mapNumbered_eq_self _ es]
    · exact fun n hle hlt => h n (by omega) (by omega)
    · exact fun n hle hlt => h n hle (by omega)
termination_by es => sizeOf es

theorem Legs.mapNumbered_eq_self (k : Nat) : (legs : Legs) →
    (∀ n, k ≤ n → n < k + (Legs.instructions legs).length → ∀ i, f n i = i) →
      Legs.mapNumbered f k legs = legs
  | [], _ => by rw [Legs.mapNumbered]
  | leg :: legs, h => by
    rw [Legs.instructions, List.length_append] at h
    rw [Legs.mapNumbered, Series.mapNumbered_eq_self k leg, Legs.mapNumbered_eq_self _ legs]
    · exact fun n hle hlt => h n (by omega) (by omega)
    · exact fun n hle hlt => h n hle (by omega)
termination_by legs => sizeOf legs
end

end

/-! ## Replacing one instruction -/

/-- Puts `x` in the place of the instruction with the number `target`. -/
def exchangeAt (target : Nat) (x : Instruction) (n : Nat) (i : Instruction) : Instruction :=
  if n = target then x else i

/-- The series with `x` in the place of its instruction number `target`. -/
def Series.replaceAt (es : Series) (target : Nat) (x : Instruction) : Series :=
  Series.mapNumbered (exchangeAt target x) 0 es

section
variable {target k : Nat} {x : Instruction}

theorem exchangeAt_self (i : Instruction) : exchangeAt target x target i = x := if_pos rfl

theorem exchangeAt_of_ne {n : Nat} (h : n ≠ target) (i : Instruction) :
    exchangeAt target x n i = i := if_neg h

theorem Series.exchangeAt_outside (es : Series)
    (h : target < k ∨ k + (Series.instructions es).length ≤ target) :
    Series.mapNumbered (exchangeAt target x) k es = es :=
  Series.mapNumbered_eq_self k es fun n _ _ => exchangeAt_of_ne (by omega)

theorem Legs.exchangeAt_outside (legs : Legs)
    (h : target < k ∨ k + (Legs.instructions legs).length ≤ target) :
    Legs.mapNumbered (exchangeAt target x) k legs = legs :=
  Legs.mapNumbered_eq_self k legs fun n _ _ => exchangeAt_of_ne (by omega)

end

namespace Series

/-- **Where no leg is empty, putting an instruction in the place of another at the end of a way does
    just that.** -/
theorem Leads.editAt_splice {path : LegPath} {es left right : Series} {i : Instruction}
    {before after : List Instruction} (h : Leads path es before (left ++ .instr i :: right) after)
    (hfilled : isFilled es = true) (x : Instruction) {target k : Nat}
    (htarget : target = k + (before ++ instructions left).length) :
    editAt (fun inner => splice inner left.length [.instr x]) path es =
      mapNumbered (exchangeAt target x) k es := by
  generalize hinner : left ++ .instr i :: right = inner at h
  rw [List.length_append] at htarget
  induction h generalizing k with
  | here =>
    subst hinner
    rw [List.length_nil, Nat.zero_add] at htarget
    rw [editAt, splice_append_cons, mapNumbered_append, mapNumbered, ← htarget, exchangeAt_self,
      exchangeAt_outside left (.inr htarget.ge),
      exchangeAt_outside right (.inl (Nat.lt_succ_self target)), List.append_assoc,
      List.singleton_append]
  | @into outer rest above below leg path before after inner h ih =>
    obtain ⟨hfilled, hne, habove, hbelow⟩ := isFilled_into hfilled
    have hleg := congrArg List.length h.instructions_eq
    simp only [← hinner, instructions_append, instructions, List.length_append, List.length_cons]
      at hleg htarget
    have hedit := ih hfilled
      (k := k + (instructions outer).length + (Legs.instructions above).length) (by omega) hinner
    have hedited : editAt (fun inner => splice inner left.length [.instr x]) path leg ≠ [] := by
      rwa [hedit, ne_eq, ← List.isEmpty_iff, isEmpty_mapNumbered, List.isEmpty_iff]
    rw [editAt_into_of_ne_nil habove hbelow hedited, hedit, mapNumbered_append, mapNumbered,
      Legs.mapNumbered_append, Legs.mapNumbered, Legs.instructions_append, Legs.instructions,
      List.length_append, List.length_append]
    -- of the parts around the leg none has the number
    rw [exchangeAt_outside outer (by omega),
      Legs.exchangeAt_outside above (by omega),
      Legs.exchangeAt_outside below (by omega),
      exchangeAt_outside rest (by omega)]

theorem walk_replaceAt (es : Series) (target : Nat) (x : Instruction) :
    walk (es.replaceAt target x) =
      (walk es).modify target fun l => { l with instruction := x } := by
  refine List.ext_getElem? fun n => ?_
  simp only [replaceAt, walk, places_mapNumbered, mapPlaces, List.getElem?_modify,
    List.getElem?_mapIdx, Option.map_eq_map, Option.map_map]
  congr 1
  funext place
  by_cases h : target = n
  · simp [exchangeAt, h]
  · simp [exchangeAt, h, Ne.symm h]

theorem replaceAt_replaceAt (es : Series) (target : Nat) (x y : Instruction) :
    (es.replaceAt target x).replaceAt target y = es.replaceAt target y := by
  rw [replaceAt, replaceAt, mapNumbered_mapNumbered, replaceAt]
  congr
  funext n i
  simp only [exchangeAt]
  split <;> rfl

theorem replaceAt_comm (es : Series) {m n : Nat} (h : m ≠ n) (x y : Instruction) :
    (es.replaceAt m x).replaceAt n y = (es.replaceAt n y).replaceAt m x := by
  rw [replaceAt, replaceAt, mapNumbered_mapNumbered, replaceAt, replaceAt, mapNumbered_mapNumbered]
  congr
  funext k i
  simp only [exchangeAt]
  by_cases hk : k = m
  · simp [hk, h]
  · simp [hk]

end Series

/-! ## Replacing as an edit of a rung -/

namespace Rung

variable {r : Rung} {index : Int}

/-- **Where no leg is empty, replacing an instruction does just that.** -/
theorem replace_eq_ok (hfilled : Series.isFilled r.elements = true)
    (hindex : 0 ≤ index ∧ index < r.count) (x : Instruction) :
    r.replace index x = .ok (r.withElements (r.elements.replaceAt index.toNat x)) := by
  obtain ⟨l, hl⟩ := exists_locate hindex
  obtain ⟨hnumber, before, left, right, after, hlead, hpos, hbefore⟩ :=
    Series.locate_eq_some_iff.1 hl
  have hedit : Series.editAt (fun es => Series.splice es left.length [.instr x]) l.path
      r.elements = r.elements.replaceAt index.toNat x :=
    hlead.editAt_splice hfilled x (by omega)
  rw [replace, editAround_eq_ok hl, ← hpos, hedit]

/-- **An instruction may be put in its own place without effect.** -/
theorem replace_self (hfilled : Series.isFilled r.elements = true) {l : Location}
    (hl : Series.locate r.elements index = some l) :
    r.replace index l.instruction = .ok (r.withElements r.elements) := by
  obtain ⟨-, before, left, right, after, hlead, hpos, -⟩ := Series.locate_eq_some_iff.1 hl
  obtain ⟨hole, hhole, hedit⟩ := hlead.exists_hole hfilled
  have hsame : Series.splice (left ++ .instr l.instruction :: right) l.position
      [.instr l.instruction] = left ++ .instr l.instruction :: right := by
    rw [← hpos, Series.splice_append_cons, List.append_assoc, List.singleton_append]
  have hkeep := (hedit (left ++ .instr l.instruction :: right)).2
    (fun es => Series.splice es l.position [.instr l.instruction]) (by simp [hsame])
  simp only [hsame, hhole] at hkeep
  rw [replace, editAround_eq_ok hl, hkeep]

theorem isFilled_withElements_replaceAt (hfilled : Series.isFilled r.elements = true)
    (target : Nat) (x : Instruction) :
    Series.isFilled (r.withElements (r.elements.replaceAt target x)).elements = true :=
  (Series.isFilled_mapNumbered _ 0 r.elements).trans hfilled

theorem count_withElements_replaceAt (r : Rung) (target : Nat) (x : Instruction) :
    (r.withElements (r.elements.replaceAt target x)).count = r.count :=
  Series.count_mapNumbered _ 0 r.elements

/-- **Replacing one instruction after another**, in a rung where no leg is empty. -/
theorem replace_replace_eq_ok (hfilled : Series.isFilled r.elements = true) {i j : Int}
    (hi : 0 ≤ i ∧ i < r.count) (hj : 0 ≤ j ∧ j < r.count) (x y : Instruction) :
    ∃ mid, r.replace i x = .ok mid ∧ mid.elements = r.elements.replaceAt i.toNat x ∧
      mid.replace j y =
        .ok (r.withElements ((r.elements.replaceAt i.toNat x).replaceAt j.toNat y)) :=
  ⟨_, replace_eq_ok hfilled hi x, rfl, replace_eq_ok (isFilled_withElements_replaceAt hfilled _ x)
    (by rwa [count_withElements_replaceAt]) y⟩

/-- **Replacing an instruction obeys the laws of an indexed update.** -/
theorem replace_lawful (r : Rung) (hfilled : Series.isFilled r.elements = true) {i : Int}
    (hi : 0 ≤ i ∧ i < r.count) (x y : Instruction) :
    ∃ withX withY old, r.replace i x = .ok withX ∧ r.replace i y = .ok withY ∧
      r.instructionAt i = .ok old ∧
      Series.walk withX.elements =
        (Series.walk r.elements).modify i.toNat (fun l => { l with instruction := x }) ∧
      (∃ same, r.replace i old = .ok same ∧ same.elements = r.elements) ∧
      withX.replace i y = .ok withY ∧
      ∀ j : Int, 0 ≤ j ∧ j < r.count → i ≠ j → ∃ withYAtJ both,
        r.replace j y = .ok withYAtJ ∧ withX.replace j y = .ok both ∧
        withYAtJ.replace i x = .ok both := by
  obtain ⟨l, hl⟩ := exists_locate hi
  have hold : r.instructionAt i = .ok l.instruction := instructionAt_eq_ok_iff.2 ⟨l, hl, rfl⟩
  obtain ⟨withX, hx, hxes, hxy⟩ := replace_replace_eq_ok hfilled hi hi x y
  rw [Series.replaceAt_replaceAt] at hxy
  refine ⟨withX, _, l.instruction, hx, replace_eq_ok hfilled hi y, hold, ?_,
    ⟨_, replace_self hfilled hl, rfl⟩, hxy, fun j hj hij => ?_⟩
  · rw [hxes, Series.walk_replaceAt]
  · obtain ⟨withX', hx', -, hxj⟩ := replace_replace_eq_ok hfilled hi hj x y
    obtain rfl : withX = withX' := Except.ok.inj (hx.symm.trans hx')
    obtain ⟨withYAtJ, hy, -, hyi⟩ := replace_replace_eq_ok hfilled hj hi y x
    refine ⟨withYAtJ, _, hy, hxj, ?_⟩
    rw [hyi, Series.replaceAt_comm r.elements (by omega : i.toNat ≠ j.toNat)]

/-- The instruction before the last one is replaced, two branches deep. -/
theorem replace_lawful_nested :
    let r : Rung := .ofText 0 "XIC(A)[XIO(B)[OTE(C),OTL(D)],NOP()]"
    let x : Instruction := ⟨"TON", .unary "T", by decide⟩
    let y : Instruction := ⟨"CTU", .unary "N", by decide⟩
    (Series.isFilled r.elements = true ∧ 0 ≤ (3 : Int) ∧ (3 : Int) < r.count) ∧
      ∃ withX withY old, r.replace 3 x = .ok withX ∧ r.replace 3 y = .ok withY ∧
        r.instructionAt 3 = .ok old ∧
        Series.walk withX.elements =
          (Series.walk r.elements).modify 3 (fun l => { l with instruction := x }) ∧
        (∃ same, r.replace 3 old = .ok same ∧ same.elements = r.elements) ∧
        withX.replace 3 y = .ok withY ∧
        ∀ j : Int, 0 ≤ j ∧ j < r.count → 3 ≠ j → ∃ withYAtJ both,
          r.replace j y = .ok withYAtJ ∧ withX.replace j y = .ok both ∧
          withYAtJ.replace 3 x = .ok both := by
  intro r x y
  have hfilled : Series.isFilled r.elements = true := by decide +kernel
  have hindex : 0 ≤ (3 : Int) ∧ (3 : Int) < r.count := by decide +kernel
  exact ⟨⟨hfilled, hindex⟩, replace_lawful r hfilled hindex x y⟩

end Rung

end RelayLadder
