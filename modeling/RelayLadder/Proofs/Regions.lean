/-
  The regions of a drawing name the instructions as a walk through the series does.

  * `Addressed`: regions have the numbers, legs and instructions of some places, in their order;
    what is put together from such parts is so again (`Addressed.append`);
  * `addressed_drawSeries`: the regions of a drawn series have the addresses of its places;
  * `regions_layout_eq_walk`: so those of a rung are those of its locations, and the region of a
    number is the one that stands at this position.
-/
import RelayLadder.Proofs.Drawing
import RelayLadder.Proofs.Places

namespace RelayLadder.Layout

variable {α : Type}

/-! ## Addresses -/

/-- What a diagram says of an instruction, its area apart: the rung, its number, the legs around it,
    its mnemonic, its values, in order and under their names, and itself. -/
structure Address where
  rung : Int
  index : Nat
  branchPath : List Nat
  mnemonic : String
  values : List String
  fields : Labels
  instruction : Instruction

/-- The address of an instruction with this number inside these legs. -/
def Address.of (rung : Int) (index : Nat) (branchPath : List Nat) (i : Instruction) : Address :=
  ⟨rung, index, branchPath, i.mnemonic, i.values, i.labels, i⟩

/-- The address that a region gives for its area. -/
def HitRegion.address (r : HitRegion α) : Address :=
  ⟨r.rung, r.index, r.branchPath, r.mnemonic, r.values, r.fields, r.instruction⟩

/-- The address of the instruction at a location. -/
def Location.address (rung : Int) (l : Location) : Address :=
  .of rung l.index l.branchPath l.instruction

/-- The addresses of the instructions at some places, numbered from `index` on. -/
def addresses (rung : Int) (index : Nat) (places : List Place) : List Address :=
  places.mapIdx fun k place =>
    .of rung (index + k) (place.path.map Prod.snd) place.instruction

theorem addresses_append (rung : Int) (index : Nat) (a b : List Place) :
    addresses rung index (a ++ b) =
      addresses rung index a ++ addresses rung (index + a.length) b := by
  simp [addresses, List.mapIdx_append, Nat.add_assoc, Nat.add_comm a.length]

/-- The regions have the addresses of the places, numbered from `index` to before `next`. -/
structure Addressed (rung : Int) (index next : Nat) (regions : List (HitRegion α))
    (places : List Place) : Prop where
  addresses : regions.map HitRegion.address = addresses rung index places
  next : next = index + places.length

namespace Addressed

variable {rung : Int}

theorem nil (index : Nat) : Addressed rung index index ([] : List (HitRegion α)) [] := ⟨rfl, rfl⟩

theorem append {index middle next : Nat} {rs ss : List (HitRegion α)} {ps qs : List Place}
    (hr : Addressed rung index middle rs ps) (hs : Addressed rung middle next ss qs) :
    Addressed rung index next (rs ++ ss) (ps ++ qs) := by
  refine ⟨?_, ?_⟩
  · rw [List.map_append, hr.addresses, hs.addresses, addresses_append, ← hr.next]
  · rw [hs.next, hr.next, List.length_append, Nat.add_assoc]

end Addressed

/-! ## Drawings -/

variable [Scalar α]

/-- **The regions of a drawn series have the addresses of its places.** -/
theorem addressed_drawSeries (es : Series) :
    ∀ (ctx : Context α) (path : LegPath) (x y : α) (index position : Nat),
      ctx.branchPath = path.map Prod.snd →
      Addressed ctx.rung index (drawSeries ctx x y index es).index
        (drawSeries ctx x y index es).regions (Series.places path position es) := by
  refine Series.induction
    (P := fun es => ∀ (ctx : Context α) (path : LegPath) (x y : α) (index position : Nat),
      ctx.branchPath = path.map Prod.snd →
      Addressed ctx.rung index (drawSeries ctx x y index es).index
        (drawSeries ctx x y index es).regions (Series.places path position es))
    (Q := fun legs => ∀ (ctx : Context α) (path : LegPath) (entryX : α) (legY : Nat → α)
      (leg index position : Nat), ctx.branchPath = path.map Prod.snd →
      let placed := placeLegs ctx entryX legY leg index legs
      Addressed ctx.rung index (placed.foldl (fun _ leg => leg.1.index) index)
        (placed.flatMap (·.1.regions)) (Legs.places path position leg legs))
    ?nil ?instr ?branch ?noLegs ?leg es
  case nil =>
    intro ctx path x y index position _
    rw [drawSeries, placeSeries, Series.places]
    exact .nil index
  case instr =>
    intro i es ih ctx path x y index position hpath
    have hcons := drawSeries_cons ctx x y index (.instr i) es
    have hfirst : Addressed ctx.rung index (index + 1)
        (drawElement ctx x y index (.instr i)).regions [⟨path, position, i⟩] := by
      refine ⟨?_, rfl⟩
      simp [drawElement, placeInstruction, HitRegion.address, Address.of, addresses, hpath]
    rw [hcons.index, hcons.regions, Series.places, ← List.singleton_append]
    exact hfirst.append (ih ctx path _ y (index + 1) (position + 1) hpath)
  case branch =>
    intro legs es ihl ih ctx path x y index position hpath
    have hcons := drawSeries_cons ctx x y index (.branch legs) es
    have hlegs := ihl ctx path (x + ctx.config.fanWidth) (legY ctx.config y legs.length) 0 index
      position hpath
    rw [hcons.index, hcons.regions, Series.places]
    refine Addressed.append ?_ (ih ctx path _ y _ (position + 1) hpath)
    rw [drawElement, regions_joinLegs, index_joinLegs]
    exact hlegs
  case noLegs =>
    intro ctx path entryX legY leg index position _
    rw [placeLegs, Legs.places]
    exact .nil index
  case leg =>
    intro es legs ih ihl ctx path entryX legY leg index position hpath
    have hpath' : (ctx.intoLeg leg).branchPath = (path ++ [(position, leg)]).map Prod.snd := by
      simp [Context.intoLeg, hpath]
    have hleg := ih (ctx.intoLeg leg) (path ++ [(position, leg)]) entryX (legY leg) index 0 hpath'
    have hlegs := ihl ctx path entryX legY (leg + 1)
      (drawSeries (ctx.intoLeg leg) entryX (legY leg) index es).index position hpath
    rw [placeLegs_cons, Legs.places]
    exact hleg.append hlegs

/-- A drawn series counts on by its instructions. -/
theorem index_drawSeries (ctx : Context α) (x y : α) (index : Nat) (es : Series) :
    (drawSeries ctx x y index es).index = index + (Series.instructions es).length := by
  have hpath : ctx.branchPath = (ctx.branchPath.map fun leg => (0, leg)).map Prod.snd := by
    simp [Function.comp_def]
  have h := (addressed_drawSeries es ctx _ x y index 0 hpath).next
  rwa [Series.length_places] at h

/-- **The regions of a rung have the addresses of its locations**, in the same order. -/
theorem map_address_regions_layout (es : Series) (rung : Int) (c : Config α) :
    (layout es rung c).regions.map HitRegion.address =
      (Series.walk es).map (Location.address rung) := by
  have h := (addressed_drawSeries es ⟨c, rung, []⟩ [] c.startX c.railY 0 0 rfl).addresses
  refine h.trans (List.ext_getElem? fun k => ?_)
  simp [addresses, Series.walk, Location.branchPath, Location.address, Function.comp_def]

theorem getElem?_regions_layout (es : Series) (rung : Int) (c : Config α) (k : Nat) :
    (layout es rung c).regions[k]?.map HitRegion.address =
      (Series.walk es)[k]?.map (Location.address rung) := by
  rw [← List.getElem?_map, map_address_regions_layout, List.getElem?_map]

/-- A region of a rung has the rung's number and says of its instruction what the instruction
    is. -/
theorem address_of_mem_regions_layout {es : Series} {rung : Int} {c : Config α} {r : HitRegion α}
    (hr : r ∈ (layout es rung c).regions) :
    r.address = .of rung r.index r.branchPath r.instruction := by
  have h : r.address ∈ (layout es rung c).regions.map HitRegion.address := List.mem_map_of_mem hr
  rw [map_address_regions_layout] at h
  obtain ⟨l, -, hl⟩ := List.mem_map.1 h
  have hindex : l.index = r.index := congrArg Address.index hl
  have hpath : l.branchPath = r.branchPath := congrArg Address.branchPath hl
  have hinstr : l.instruction = r.instruction := congrArg Address.instruction hl
  rw [← hl, Location.address, hindex, hpath, hinstr]

/-! ## Regions by number -/

theorem map_index_regions_layout (es : Series) (rung : Int) (c : Config α) :
    (layout es rung c).regions.map HitRegion.index = List.range (Series.count es) := by
  have h := congrArg (List.map Address.index) (map_address_regions_layout es rung c)
  rw [List.map_map, List.map_map] at h
  exact h.trans (Series.map_index_walk es)

theorem index_of_getElem?_regions {es : Series} {rung : Int} {c : Config α} {k : Nat}
    {r : HitRegion α} (h : (layout es rung c).regions[k]? = some r) : r.index = k := by
  have hk := congrArg (·[k]?) (map_index_regions_layout es rung c)
  simp only [List.getElem?_map, h, Option.map_some] at hk
  exact (List.getElem?_eq_some_iff.1 hk.symm).2.symm.trans (List.getElem_range _)

/-- **The region of a number is the one at this position of the list.** -/
theorem region_layout_eq_ok_iff {es : Series} {rung : Int} {c : Config α} {index : Int}
    {r : HitRegion α} :
    (layout es rung c).region index = .ok r ↔
      ∃ k : Nat, index = k ∧ (layout es rung c).regions[k]? = some r := by
  have hfound {r : HitRegion α}
      (h : (layout es rung c).regions.find? (fun r => (r.index : Int) == index) = some r) :
      ∃ k : Nat, index = k ∧ (layout es rung c).regions[k]? = some r := by
    obtain ⟨k, hk⟩ := List.mem_iff_getElem?.1 (List.mem_of_find?_eq_some h)
    have hindex := List.find?_some h
    rw [beq_iff_eq, index_of_getElem?_regions hk] at hindex
    exact ⟨k, hindex.symm, hk⟩
  unfold Diagram.region
  split
  · rename_i found h
    rw [Except.ok.injEq]
    constructor
    · rintro rfl
      exact hfound h
    · rintro ⟨k, hk, hr⟩
      -- both stand at the position that the number is
      obtain ⟨m, hm, hr'⟩ := hfound h
      obtain rfl : k = m := Int.ofNat_inj.1 (hk.symm.trans hm)
      exact Option.some.inj (hr'.symm.trans hr)
  · rename_i h
    refine ⟨nofun, ?_⟩
    rintro ⟨k, rfl, hr⟩
    have hne := List.find?_eq_none.1 h r (List.mem_of_getElem? hr)
    exact absurd (beq_iff_eq.2 (congrArg Int.ofNat (index_of_getElem?_regions hr))) hne

/-- A location has its region, with the same instruction. -/
theorem exists_region_of_locate {es : Series} {index : Int} {l : Location}
    (h : Series.locate es index = some l) (rung : Int) (c : Config α) :
    ∃ r, (layout es rung c).region index = .ok r ∧ r.instruction = l.instruction := by
  obtain ⟨k, hindex, hl⟩ := Series.locate_eq_some_iff_getElem?.1 h
  have hk := getElem?_regions_layout es rung c k
  rw [hl, Option.map_some] at hk
  obtain ⟨r, hr, haddress⟩ := Option.map_eq_some_iff.1 hk
  exact ⟨r, region_layout_eq_ok_iff.2 ⟨k, hindex, hr⟩,
    congrArg Address.instruction haddress⟩

/-- A region has its location. -/
theorem exists_locate_of_region {es : Series} {rung index : Int} {c : Config α} {r : HitRegion α}
    (h : (layout es rung c).region index = .ok r) : ∃ l, Series.locate es index = some l := by
  obtain ⟨k, hindex, hr⟩ := region_layout_eq_ok_iff.1 h
  have hk := getElem?_regions_layout es rung c k
  rw [hr, Option.map_some] at hk
  obtain ⟨l, hl, -⟩ := Option.map_eq_some_iff.1 hk.symm
  exact ⟨l, Series.locate_eq_some_iff_getElem?.2 ⟨k, hindex, hl⟩⟩

/-- The numbers that have a region are those that have a location. -/
theorem exists_region_iff {es : Series} {rung : Int} {c : Config α} {index : Int} :
    (∃ r, (layout es rung c).region index = .ok r) ↔ Series.locate es index ≠ none := by
  rw [Option.ne_none_iff_exists']
  constructor
  · rintro ⟨r, hr⟩
    exact exists_locate_of_region hr
  · rintro ⟨l, hl⟩
    obtain ⟨r, hr, -⟩ := exists_region_of_locate hl rung c
    exact ⟨r, hr⟩

/-- **Regions and locations name the instructions in the same way**: one by one in the lists of
    both, and by number. -/
theorem regions_layout_eq_walk (es : Series) (rung : Int) (c : Config α) :
    (layout es rung c).regions.map (fun r =>
        (r.index, r.branchPath, r.mnemonic, r.values, r.instruction)) =
      (Series.walk es).map (fun l =>
        (l.index, l.branchPath, l.instruction.mnemonic, l.instruction.values, l.instruction)) ∧
    (∀ r ∈ (layout es rung c).regions, r.rung = rung) ∧
    (layout es rung c).regions.map HitRegion.index = List.range (Series.count es) ∧
    ∀ index : Int,
      ((∃ r, (layout es rung c).region index = .ok r) ↔ Series.locate es index ≠ none) ∧
      ∀ l, Series.locate es index = some l →
        ∃ r, (layout es rung c).region index = .ok r ∧ r.instruction = l.instruction := by
  refine ⟨?_, fun r hr => congrArg Address.rung (address_of_mem_regions_layout hr), map_index_regions_layout es rung c,
    fun index => ⟨exists_region_iff, fun l hl => exists_region_of_locate hl rung c⟩⟩
  have h := congrArg (List.map fun a : Address =>
    (a.index, a.branchPath, a.mnemonic, a.values, a.instruction))
    (map_address_regions_layout es rung c)
  rwa [List.map_map, List.map_map] at h

end RelayLadder.Layout
