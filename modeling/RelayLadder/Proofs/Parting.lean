/-
  Of two areas in a drawing, the first ends before the second begins, unless it stands in an upper
  leg of a branch around both.

  * `LegPath.Above`: the one way takes an upper leg of a branch where the other takes a lower one;
  * `seriesRoomy`: the legs of a branch are far enough from each other that the areas in each end
    above the middles of those in the legs below it.  The distance of legs is fixed, so there are
    series that are not: boxes and nested branches may be higher than that;
  * `Parted`: what separates two areas.  `apart_drawSeries` says that it does in every drawn series,
    and `parted_layout` the same of the numbered areas of a rung;
  * `seriesRoomy_of_flat`: a rung without nested branches, and with few operands, is roomy.
-/
import RelayLadder.Proofs.Extents
import RelayLadder.Proofs.Places

namespace RelayLadder

/-! ## Upper and lower legs -/

/-- Where the ways part, it is in a branch, and the first takes an upper leg there. -/
def LegPath.Above : LegPath → LegPath → Prop
  | (i, p) :: a, (j, q) :: b => i = j ∧ (p < q ∨ p = q ∧ LegPath.Above a b)
  | _, _ => False

namespace LegPath

theorem Above.not_above {a b : LegPath} (h : Above a b) : ¬ Above b a := by
  fun_induction Above a b with
  | case1 i p a j q b ih =>
    obtain ⟨rfl, h⟩ := h
    rintro ⟨-, hback⟩
    rcases h with hlt | ⟨rfl, hab⟩
    · omega
    · exact ih hab (by simpa using hback)
  | case2 => exact h.elim

theorem above_append_left (front a b : LegPath) : Above (front ++ a) (front ++ b) ↔ Above a b := by
  induction front with
  | nil => rfl
  | cons step front ih => simp [Above, ih]

theorem above_of_lt (front : LegPath) (position : Nat) {p q : Nat} (h : p < q) (a b : LegPath) :
    Above (front ++ (position, p) :: a) (front ++ (position, q) :: b) := by
  rw [above_append_left]
  exact ⟨rfl, .inl h⟩

end LegPath

mutual
/-- The places of a series lie on ways that go on from the one that leads to it. -/
theorem Series.exists_path_eq (path : LegPath) (position : Nat) {place : Place} : (es : Series) →
    place ∈ Series.places path position es → ∃ rest, place.path = path ++ rest
  | [], h => by
    rw [Series.places] at h
    cases h
  | .instr i :: es, h => by
    rw [Series.places, List.mem_cons] at h
    rcases h with rfl | h
    · exact ⟨[], (List.append_nil path).symm⟩
    · exact Series.exists_path_eq path (position + 1) es h
  | .branch legs :: es, h => by
    rw [Series.places, List.mem_append] at h
    rcases h with h | h
    · obtain ⟨q, rest, -, hrest⟩ := Legs.exists_path_eq path position 0 legs h
      exact ⟨(position, q) :: rest, hrest⟩
    · exact Series.exists_path_eq path (position + 1) es h
termination_by es => sizeOf es

/-- The places of legs lie on ways that go on into one of them. -/
theorem Legs.exists_path_eq (path : LegPath) (position leg : Nat) {place : Place} :
    (legs : Legs) → place ∈ Legs.places path position leg legs →
      ∃ q rest, leg ≤ q ∧ place.path = path ++ (position, q) :: rest
  | [], h => by
    rw [Legs.places] at h
    cases h
  | es :: legs, h => by
    rw [Legs.places, List.mem_append] at h
    rcases h with h | h
    · obtain ⟨rest, hrest⟩ := Series.exists_path_eq (path ++ [(position, leg)]) 0 es h
      exact ⟨leg, rest, Nat.le_refl leg, by rw [hrest, List.append_assoc]; rfl⟩
    · obtain ⟨q, rest, hq, hrest⟩ := Legs.exists_path_eq path position (leg + 1) legs h
      exact ⟨q, rest, Nat.le_of_succ_le hq, hrest⟩
termination_by legs => sizeOf legs
end

/-- What stands in a leg stands above what stands in the legs after it. -/
theorem Legs.above_of_mem_places {es : Series} {legs : Legs} {path : LegPath} {position leg : Nat}
    {a b : Place} (ha : a ∈ Series.places (path ++ [(position, leg)]) 0 es)
    (hb : b ∈ Legs.places path position (leg + 1) legs) : a.path.Above b.path := by
  obtain ⟨rest, hrest⟩ := Series.exists_path_eq (path ++ [(position, leg)]) 0 es ha
  obtain ⟨q, rest', hq, hrest'⟩ := Legs.exists_path_eq path position (leg + 1) legs hb
  rw [hrest, hrest', List.append_assoc]
  exact LegPath.above_of_lt path position hq rest rest'

namespace Layout

/-! ## Room between legs -/

/-- Every area in these legs, from number `leg` on, has its middle below the offset `y` from the
    rail of their branch. -/
def legsLieBelow (c : Config Rat) (offset : Nat → Rat) (y : Rat) (leg : Nat) : Legs → Bool
  | [] => true
  | es :: legs => y < offset leg - seriesLift c es && legsLieBelow c offset y (leg + 1) legs

mutual
/-- In every branch of the series, the areas in each leg end above the middles of those in the legs
    below it. -/
def seriesRoomy (c : Config Rat) : Series → Bool
  | [] => true
  | .instr _ :: es => seriesRoomy c es
  | .branch legs :: es => legsRoomy c (legY c 0 legs.length) 0 legs && seriesRoomy c es

/-- The same for the legs of a branch, from number `leg` on, that run at an offset from its rail. -/
def legsRoomy (c : Config Rat) (offset : Nat → Rat) (leg : Nat) : Legs → Bool
  | [] => true
  | es :: legs =>
    seriesRoomy c es && legsLieBelow c offset (offset leg + seriesFall c es) (leg + 1) legs &&
      legsRoomy c offset (leg + 1) legs
end

theorem lt_centerY_placeLegs {ctx : Context Rat} {offset : Nat → Rat} {bottom : Rat} {legs : Legs}
    {leg : Nat} (h : legsLieBelow ctx.config offset bottom leg legs) (entryX y : Rat)
    (index : Nat) :
    ∀ p ∈ placeLegs ctx entryX (fun leg => y + offset leg) leg index legs, ∀ r ∈ p.1.regions,
      y + bottom < r.bounds.centerY := by
  induction legs generalizing leg index with
  | nil =>
    intro p hp
    rw [placeLegs] at hp
    cases hp
  | cons es legs ih =>
    intro p hp r hr
    simp only [legsLieBelow, Bool.and_eq_true, decide_eq_true_eq] at h
    rw [placeLegs_cons, List.mem_cons] at hp
    rcases hp with rfl | hp
    · have hmiddle := le_centerY_drawSeries hr
      rw [Context.config_intoLeg] at hmiddle
      linarith [h.1]
    · exact ih h.2 _ p hp r hr

/-! ## Parted areas -/

/-- The first area ends before the second begins, or it stands in an upper leg; if there is `room`,
    it then ends above the middle of the second. -/
def Parted (room : Prop) (a b : HitRegion Rat × Place) : Prop :=
  a.1.bounds.right < b.1.bounds.x ∨
    a.2.path.Above b.2.path ∧ (room → a.1.bounds.bottom < b.1.bounds.centerY)

/-- The regions belong to the places, and their areas are parted. -/
structure Apart (room : Prop) (rs : List (HitRegion Rat)) (ps : List Place) : Prop where
  length_eq : rs.length = ps.length
  pairwise : (rs.zip ps).Pairwise (Parted room)

namespace Apart

variable {room : Prop} {rs ss : List (HitRegion Rat)} {ps qs : List Place}

theorem nil : Apart room [] [] := ⟨rfl, .nil⟩

theorem singleton (r : HitRegion Rat) (p : Place) : Apart room [r] [p] :=
  ⟨rfl, List.pairwise_singleton _ _⟩

theorem append (hr : Apart room rs ps) (hs : Apart room ss qs)
    (h : ∀ r ∈ rs, ∀ p ∈ ps, ∀ s ∈ ss, ∀ q ∈ qs, Parted room (r, p) (s, q)) :
    Apart room (rs ++ ss) (ps ++ qs) := by
  refine ⟨by simp [hr.length_eq, hs.length_eq], ?_⟩
  rw [List.zip_append hr.length_eq, List.pairwise_append]
  refine ⟨hr.pairwise, hs.pairwise, ?_⟩
  rintro ⟨r, p⟩ ha ⟨s, q⟩ hb
  obtain ⟨hr, hp⟩ := List.of_mem_zip ha
  obtain ⟨hs, hq⟩ := List.of_mem_zip hb
  exact h r hr p hp s hs q hq

/-- What is drawn behind a drawing is parted from it. -/
theorem append_drawing {c : Config Rat} (hc : c.Ample) {left : Rat} {d d' : Drawing Rat}
    (hd : Spans c left d) (hd' : Spans c d.x d') (ha : Apart room d.regions ps)
    (hb : Apart room d'.regions qs) : Apart room (d.append d').regions (ps ++ qs) := by
  refine ha.append hb fun r hr _ _ s hs _ _ => .inl ?_
  exact ((hd.inCell r hr).right_le hc).trans_lt ((hd'.inCell s hs).lt_x hc)

end Apart

/-- **The areas of a drawn series are parted**, with room between legs if the series is roomy. -/
theorem apart_drawSeries {room : Prop} (es : Series) :
    ∀ (ctx : Context Rat) (path : LegPath) (x y : Rat) (index position : Nat),
      ctx.config.Ample → (room → seriesRoomy ctx.config es) →
      Apart room (drawSeries ctx x y index es).regions (Series.places path position es) := by
  refine Series.induction
    (P := fun es => ∀ (ctx : Context Rat) (path : LegPath) (x y : Rat) (index position : Nat),
      ctx.config.Ample → (room → seriesRoomy ctx.config es) →
      Apart room (drawSeries ctx x y index es).regions (Series.places path position es))
    (Q := fun legs => ∀ (ctx : Context Rat) (path : LegPath) (entryX y : Rat)
      (offset : Nat → Rat) (leg index position : Nat),
      ctx.config.Ample → (room → legsRoomy ctx.config offset leg legs) →
      Apart room ((placeLegs ctx entryX (fun leg => y + offset leg) leg index legs).flatMap
        (·.1.regions)) (Legs.places path position leg legs))
    ?nil ?instr ?branch ?noLegs ?leg es
  case nil =>
    intro ctx path x y index position _ _
    rw [drawSeries, placeSeries, Series.places]
    exact .nil
  case instr =>
    intro i es ih ctx path x y index position hc hroom
    rw [(drawSeries_cons ctx x y index (.instr i) es).regions, Series.places,
      ← List.singleton_append]
    refine Apart.append_drawing hc (spans_drawElement hc x y index (.instr i))
      (spans_drawSeries es ctx _ y _ hc) (.singleton _ _) (ih ctx path _ y _ _ hc ?_)
    simpa [seriesRoomy] using hroom
  case branch =>
    intro legs es ihl ih ctx path x y index position hc hroom
    simp only [seriesRoomy, Bool.and_eq_true] at hroom
    have hlegs := ihl ctx path (x + ctx.config.fanWidth) y _ 0 index position hc
      fun h => (hroom h).1
    rw [← funext (legY_eq_add ctx.config y legs.length), ← regions_joinLegs ctx x y index] at hlegs
    rw [(drawSeries_cons ctx x y index (.branch legs) es).regions, Series.places]
    exact Apart.append_drawing hc (spans_drawElement hc x y index (.branch legs))
      (spans_drawSeries es ctx _ y _ hc) hlegs (ih ctx path _ y _ _ hc fun h => (hroom h).2)
  case noLegs =>
    intro ctx path entryX y offset leg index position _ _
    rw [placeLegs, Legs.places]
    exact .nil
  case leg =>
    intro es legs ih ihl ctx path entryX y offset leg index position hc hroom
    simp only [legsRoomy, Bool.and_eq_true] at hroom
    rw [placeLegs_cons, Legs.places, List.flatMap_cons]
    refine (ih (ctx.intoLeg leg) _ entryX _ index 0 hc fun h => (hroom h).1.1).append
      (ihl ctx path entryX y offset (leg + 1) _ position hc fun h => (hroom h).2) ?_
    intro r hr p hp s hs q hq
    refine .inr ⟨Legs.above_of_mem_places hp hq, fun h => ?_⟩
    obtain ⟨placed, hplaced, hs⟩ := List.mem_flatMap.1 hs
    have hbottom := bottom_le_drawSeries hr
    have hcenter := lt_centerY_placeLegs (hroom h).1.2 entryX y _ placed hplaced s hs
    rw [Context.config_intoLeg] at hbottom
    linarith

/-- Two areas of a rung are parted, in the order of their numbers. -/
theorem parted_layout {room : Prop} {c : Config Rat} (hc : c.Ample) {es : Series}
    (hroom : room → seriesRoomy c es) {rung : Int} {k n : Nat} (hkn : k < n) {s r : HitRegion Rat}
    (hs : (layout es rung c).regions[k]? = some s) (hr : (layout es rung c).regions[n]? = some r)
    {a b : Place} (ha : Series.Stands es k a) (hb : Series.Stands es n b) :
    Parted room (s, a) (r, b) := by
  have h := (apart_drawSeries es ⟨c, rung, []⟩ [] c.startX c.railY 0 0 hc hroom).pairwise
  obtain ⟨hk, rfl⟩ := List.getElem?_eq_some_iff.1 hs
  obtain ⟨hn, rfl⟩ := List.getElem?_eq_some_iff.1 hr
  obtain ⟨hk', rfl⟩ := List.getElem?_eq_some_iff.1 ha.getElem?_places
  obtain ⟨hn', rfl⟩ := List.getElem?_eq_some_iff.1 hb.getElem?_places
  have hparted := List.pairwise_iff_getElem.1 h k n (by simpa using ⟨hk, hk'⟩)
    (by simpa using ⟨hn, hn'⟩) hkn
  rwa [List.getElem_zip, List.getElem_zip] at hparted

/-! ## Rungs without nested branches

The standard distance of legs is 60.  Above a rail the middle of an area is at most 10 away, so the
areas on the rail above may reach down by less than 50: boxes with up to five operands do. -/

theorem fallOf_le {i : Instruction} (h : i.values.length ≤ 5) : fallOf i ≤ 87 / 2 := by
  have hcast : (i.values.length : Rat) ≤ 5 := by exact_mod_cast h
  have hbox : boxHeight i.values.length ≤ (87 : Rat) :=
    greatest_le (by norm_num) (by linarith)
  unfold fallOf drawInstruction
  cases glyphOf i <;>
    simp only [drawContact, drawCoil, drawBox, drawGeneric, Rect.bottom] <;> linarith

theorem liftOf_le (i : Instruction) : liftOf i ≤ 10 := by
  unfold liftOf drawInstruction
  cases glyphOf i <;>
    simp only [drawContact, drawCoil, drawBox, drawGeneric, Rect.centerY] <;> linarith

theorem seriesReach_le {c : Config Rat} {sign bound : Rat} {measure : Instruction → Rat}
    (hbound : 0 ≤ bound) {es : Series} (hflat : Series.depth es = 0)
    (h : ∀ i ∈ Series.instructions es, measure i ≤ bound) :
    seriesReach c sign measure es ≤ bound := by
  induction es with
  | nil => simpa [seriesReach] using hbound
  | cons e es ih =>
    cases e with
    | instr i =>
      rw [Series.instructions, List.forall_mem_cons] at h
      rw [Series.depth] at hflat
      rw [seriesReach]
      exact greatest_le h.1 (ih hflat h.2)
    | branch legs =>
      rw [Series.depth] at hflat
      omega

theorem legsLieBelow_of_flat {offset : Nat → Rat} (hoffset : ∀ n, offset (n + 1) = offset n + 60)
    {y : Rat} {legs : Legs} (hflat : Legs.depth legs = 0) {leg : Nat} (hy : y + 10 < offset leg) :
    legsLieBelow .standard offset y leg legs := by
  induction legs generalizing leg with
  | nil => rfl
  | cons es legs ih =>
    rw [Legs.depth, Nat.max_eq_zero_iff] at hflat
    have hlift : seriesLift .standard es ≤ 10 :=
      seriesReach_le (by norm_num) hflat.1 fun i _ => liftOf_le i
    simp only [legsLieBelow, Bool.and_eq_true, decide_eq_true_eq]
    refine ⟨by linarith, ih hflat.2 ?_⟩
    rw [hoffset]
    linarith

theorem seriesRoomy_of_depth_eq_zero {c : Config Rat} {es : Series} (h : Series.depth es = 0) :
    seriesRoomy c es := by
  induction es with
  | nil => simp [seriesRoomy]
  | cons e es ih =>
    cases e with
    | instr i =>
      rw [seriesRoomy]
      exact ih (by rwa [Series.depth] at h)
    | branch legs =>
      rw [Series.depth] at h
      omega

theorem legsRoomy_of_flat {offset : Nat → Rat} (hoffset : ∀ n, offset (n + 1) = offset n + 60)
    {legs : Legs} (hflat : Legs.depth legs = 0)
    (h : ∀ i ∈ Legs.instructions legs, i.values.length ≤ 5) (leg : Nat) :
    legsRoomy .standard offset leg legs := by
  induction legs generalizing leg with
  | nil => simp [legsRoomy]
  | cons es legs ih =>
    rw [Legs.depth, Nat.max_eq_zero_iff] at hflat
    rw [Legs.instructions, List.forall_mem_append] at h
    have hfall : seriesFall .standard es ≤ 87 / 2 :=
      seriesReach_le (by norm_num) hflat.1 fun i hi => fallOf_le (h.1 i hi)
    simp only [legsRoomy, Bool.and_eq_true]
    refine ⟨⟨seriesRoomy_of_depth_eq_zero hflat.1, ?_⟩, ih hflat.2 h.2 (leg + 1)⟩
    refine legsLieBelow_of_flat hoffset hflat.2 ?_
    rw [hoffset]
    linarith

/-- There is room in a rung whose branches are not nested and whose instructions have at most five
    operands. -/
theorem seriesRoomy_of_flat {es : Series} (hflat : Series.depth es ≤ 1)
    (h : ∀ i ∈ Series.instructions es, i.values.length ≤ 5) : seriesRoomy .standard es := by
  induction es with
  | nil => simp [seriesRoomy]
  | cons e es ih =>
    cases e with
    | instr i =>
      rw [Series.depth] at hflat
      rw [Series.instructions, List.forall_mem_cons] at h
      rw [seriesRoomy]
      exact ih hflat h.2
    | branch legs =>
      rw [Series.depth] at hflat
      rw [Series.instructions, List.forall_mem_append] at h
      have hspacing (n : Nat) : legY .standard 0 legs.length (n + 1) =
          legY .standard 0 legs.length n + (60 : Rat) := by
        simp only [legY, Config.standard]
        push_cast
        linarith
      simp only [seriesRoomy, Bool.and_eq_true]
      exact ⟨legsRoomy_of_flat hspacing (by omega) h.1 0, ih (by omega) h.2⟩

end Layout

end RelayLadder
