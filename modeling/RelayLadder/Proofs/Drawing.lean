/-
  A drawing is put together from the drawings of its parts.

  `drawElement` and `drawSeries` draw an element or a series by itself.  Going on with a drawing
  by a series appends the drawing of the series (`placeSeries_alike`); so a series is drawn element
  by element (`drawSeries_cons`), and the drawing of a branch holds what the drawings of its legs
  hold (`regions_joinLegs`, `index_joinLegs`).

  `Drawing.Alike` leaves out how far drawings reach up and down: putting drawings together is
  associative there only for coordinates that are ordered.
-/
import RelayLadder.Layout.Placement

namespace RelayLadder.Layout

variable {α : Type}

/-- The drawings are the same, but for how far up and down they reach. -/
structure Drawing.Alike (a b : Drawing α) : Prop where
  x : a.x = b.x
  index : a.index = b.index
  primitives : a.primitives = b.primitives
  regions : a.regions = b.regions
  branches : a.branches = b.branches

namespace Drawing.Alike

variable {a b c : Drawing α}

theorem symm (hab : a.Alike b) : b.Alike a :=
  ⟨hab.x.symm, hab.index.symm, hab.primitives.symm, hab.regions.symm, hab.branches.symm⟩

theorem trans (hab : a.Alike b) (hbc : b.Alike c) : a.Alike c :=
  ⟨hab.x.trans hbc.x, hab.index.trans hbc.index, hab.primitives.trans hbc.primitives,
    hab.regions.trans hbc.regions, hab.branches.trans hbc.branches⟩

end Drawing.Alike

namespace Drawing

@[simp]
theorem start_x (x y : α) (index : Nat) : (start x y index).x = x := rfl

@[simp]
theorem start_index (x y : α) (index : Nat) : (start x y index).index = index := rfl

variable [Scalar α]

@[simp]
theorem append_x (a b : Drawing α) : (a.append b).x = b.x := rfl

@[simp]
theorem append_index (a b : Drawing α) : (a.append b).index = b.index := rfl

@[simp]
theorem append_primitives (a b : Drawing α) :
    (a.append b).primitives = a.primitives ++ b.primitives := rfl

@[simp]
theorem append_regions (a b : Drawing α) : (a.append b).regions = a.regions ++ b.regions := rfl

@[simp]
theorem append_branches (a b : Drawing α) :
    (a.append b).branches = a.branches ++ b.branches := rfl

theorem Alike.append_left {a b : Drawing α} (hab : a.Alike b) (d : Drawing α) :
    (d.append a).Alike (d.append b) :=
  ⟨hab.x, hab.index, congrArg (d.primitives ++ ·) hab.primitives,
    congrArg (d.regions ++ ·) hab.regions, congrArg (d.branches ++ ·) hab.branches⟩

theorem append_assoc (a b c : Drawing α) : ((a.append b).append c).Alike (a.append (b.append c)) :=
  ⟨rfl, rfl, List.append_assoc .., List.append_assoc .., List.append_assoc ..⟩

theorem start_append (x y : α) (index : Nat) (a : Drawing α) :
    ((start x y index).append a).Alike a :=
  ⟨rfl, rfl, rfl, rfl, rfl⟩

theorem append_start (a : Drawing α) (y : α) : (a.append (start a.x y a.index)).Alike a :=
  ⟨rfl, rfl, List.append_nil _, List.append_nil _, List.append_nil _⟩

end Drawing

@[simp]
theorem Context.config_intoLeg (ctx : Context α) (leg : Nat) :
    (ctx.intoLeg leg).config = ctx.config := rfl

variable [Scalar α]

/-! ## Series -/

/-- The drawing of an element by itself, whose left end is at `(x, y)`. -/
def drawElement (ctx : Context α) (x y : α) (index : Nat) : Element → Drawing α
  | .instr i => placeInstruction ctx i x y index
  | .branch legs =>
    joinLegs ctx x y index
      (placeLegs ctx (x + ctx.config.fanWidth) (legY ctx.config y legs.length) 0 index legs)

/-- The drawing of a series by itself, whose left end is at `(x, y)`. -/
def drawSeries (ctx : Context α) (x y : α) (index : Nat) (es : Series) : Drawing α :=
  placeSeries ctx y (.start x y index) es

theorem placeSeries_cons (ctx : Context α) (y : α) (d : Drawing α) (e : Element) (es : Series) :
    placeSeries ctx y d (e :: es) =
      placeSeries ctx y (d.append (drawElement ctx d.x y d.index e)) es := by
  cases e <;> simp only [placeSeries, drawElement]

/-- **Going on with a drawing by a series appends the drawing of the series.** -/
theorem placeSeries_alike (ctx : Context α) (y : α) (d : Drawing α) (es : Series) :
    (placeSeries ctx y d es).Alike (d.append (drawSeries ctx d.x y d.index es)) := by
  induction es generalizing d with
  | nil =>
    rw [drawSeries, placeSeries, placeSeries]
    exact (d.append_start y).symm
  | cons e es ih =>
    rw [drawSeries, placeSeries_cons, placeSeries_cons, Drawing.start_x, Drawing.start_index]
    generalize drawElement ctx d.x y d.index e = first
    -- behind the element both drawings go on alike, by what is drawn there by itself
    have hwith := ih (d.append first)
    have hself := (ih ((Drawing.start d.x y d.index).append first)).trans
      ((Drawing.append_assoc _ _ _).trans (Drawing.start_append _ _ _ _))
    exact hwith.trans ((Drawing.append_assoc _ _ _).trans (hself.symm.append_left d))

/-- A series is drawn element by element. -/
theorem drawSeries_cons (ctx : Context α) (x y : α) (index : Nat) (e : Element) (es : Series) :
    (drawSeries ctx x y index (e :: es)).Alike
      ((drawElement ctx x y index e).append
        (drawSeries ctx (drawElement ctx x y index e).x y (drawElement ctx x y index e).index
          es)) := by
  rw [drawSeries, placeSeries_cons, Drawing.start_x, Drawing.start_index]
  exact (placeSeries_alike ctx y _ es).trans
    ((Drawing.append_assoc _ _ _).trans (Drawing.start_append _ _ _ _))

theorem drawSeries_singleton (ctx : Context α) (x y : α) (index : Nat) (e : Element) :
    (drawSeries ctx x y index [e]).Alike (drawElement ctx x y index e) := by
  rw [drawSeries, placeSeries_cons, placeSeries]
  exact Drawing.start_append _ _ _ _

/-! ## Branches -/

theorem placeLegs_cons (ctx : Context α) (entryX : α) (legY : Nat → α) (leg index : Nat)
    (es : Series) (legs : Legs) :
    placeLegs ctx entryX legY leg index (es :: legs) =
      (drawSeries (ctx.intoLeg leg) entryX (legY leg) index es, legY leg) ::
        placeLegs ctx entryX legY (leg + 1)
          (drawSeries (ctx.intoLeg leg) entryX (legY leg) index es).index legs := by
  rw [placeLegs]
  rfl

/-- Each leg is drawn at the y of its number. -/
theorem map_snd_placeLegs (ctx : Context α) (entryX : α) (legY : Nat → α) (leg index : Nat)
    (legs : Legs) :
    (placeLegs ctx entryX legY leg index legs).map Prod.snd =
      (List.range' leg legs.length).map legY := by
  induction legs generalizing leg index with
  | nil => rw [placeLegs, List.map_nil, List.length_nil, List.range'_zero, List.map_nil]
  | cons es legs ih =>
    rw [placeLegs_cons, List.map_cons, List.length_cons, List.range'_succ, List.map_cons, ih]

theorem length_placeLegs (ctx : Context α) (entryX : α) (legY : Nat → α) (leg index : Nat)
    (legs : Legs) : (placeLegs ctx entryX legY leg index legs).length = legs.length := by
  have h := congrArg List.length (map_snd_placeLegs ctx entryX legY leg index legs)
  rwa [List.length_map, List.length_map, List.length_range'] at h

theorem placeLegs_ne_nil (ctx : Context α) (entryX : α) (legY : Nat → α) (leg index : Nat)
    {legs : Legs} (h : legs ≠ []) : placeLegs ctx entryX legY leg index legs ≠ [] := by
  cases legs with
  | nil => exact absurd rfl h
  | cons es legs =>
    rw [placeLegs_cons]
    exact List.cons_ne_nil _ _

theorem regions_foldl_append (d : Drawing α) (legs : List (Drawing α × α)) :
    (legs.foldl (fun d leg => d.append leg.1) d).regions =
      d.regions ++ legs.flatMap (·.1.regions) := by
  induction legs generalizing d with
  | nil => simp
  | cons leg legs ih => simp [ih]

theorem index_foldl_append (d : Drawing α) (legs : List (Drawing α × α)) :
    (legs.foldl (fun d leg => d.append leg.1) d).index =
      legs.foldl (fun _ leg => leg.1.index) d.index := by
  induction legs generalizing d with
  | nil => rfl
  | cons leg legs ih => exact ih _

theorem primitives_foldl_append (d : Drawing α) (legs : List (Drawing α × α)) :
    (legs.foldl (fun d leg => d.append leg.1) d).primitives =
      d.primitives ++ legs.flatMap (·.1.primitives) := by
  induction legs generalizing d with
  | nil => simp
  | cons leg legs ih => simp [ih]

theorem branches_foldl_append (d : Drawing α) (legs : List (Drawing α × α)) :
    (legs.foldl (fun d leg => d.append leg.1) d).branches =
      d.branches ++ legs.flatMap (·.1.branches) := by
  induction legs generalizing d with
  | nil => simp
  | cons leg legs ih => simp [ih]

/-- Where the legs of a branch rejoin: at the end of the widest one. -/
def mergeX (entryX : α) : List (Drawing α × α) → α
  | [] => entryX
  | first :: rest =>
    entryX + Scalar.greatestOf (first.1.x - entryX) (rest.map fun leg => leg.1.x - entryX)

/-- Where legs rejoin depends on where they end, and on nothing else of them. -/
theorem mergeX_congr (entryX : α) {legs legs' : List (Drawing α × α)}
    (h : legs'.map (·.1.x) = legs.map (·.1.x)) : mergeX entryX legs' = mergeX entryX legs := by
  match legs, legs' with
  | [], [] => rfl
  | [], _ :: _ | _ :: _, [] => simp at h
  | first :: rest, first' :: rest' =>
    rw [List.map_cons, List.map_cons, List.cons.injEq] at h
    have hrest := congrArg (List.map (· - entryX)) h.2
    rw [List.map_map, List.map_map] at hrest
    rw [mergeX, mergeX, h.1]
    exact congrArg (fun widths => entryX + Scalar.greatestOf (first.1.x - entryX) widths) hrest

/-- The lines of a branch itself: from the rail to its legs, and from these back to the rail. -/
def branchLines (c : Config α) (x y : α) (legs : List (Drawing α × α)) : List (Primitive α) :=
  [connector x y (x + c.fanWidth) y] ++
    legs.flatMap (fun leg =>
      legConnectors y (x + c.fanWidth) (mergeX (x + c.fanWidth) legs) leg.1 leg.2) ++
    [connector (mergeX (x + c.fanWidth) legs) y (mergeX (x + c.fanWidth) legs + c.fanWidth) y]

/-- Where a branch itself is drawn. -/
def branchGeometry (ctx : Context α) (x y : α) (legs : List (Drawing α × α)) :
    BranchGeometry α where
  startX := x
  entryX := x + ctx.config.fanWidth
  mergeX := mergeX (x + ctx.config.fanWidth) legs
  endX := mergeX (x + ctx.config.fanWidth) legs + ctx.config.fanWidth
  mainY := y
  legYs := legs.map (·.2)
  legEndXs := legs.map (·.1.x)
  depth := ctx.branchPath.length

section
variable (ctx : Context α) (x y : α) (index : Nat) {legs : List (Drawing α × α)}

/-- A branch ends one fan behind the point where its legs rejoin. -/
theorem x_joinLegs (h : legs ≠ []) :
    (joinLegs ctx x y index legs).x =
      mergeX (x + ctx.config.fanWidth) legs + ctx.config.fanWidth := by
  cases legs with
  | nil => exact absurd rfl h
  | cons first rest => rfl

/-- A branch is drawn by its own lines and by its legs. -/
theorem primitives_joinLegs (h : legs ≠ []) :
    (joinLegs ctx x y index legs).primitives =
      branchLines ctx.config x y legs ++ legs.flatMap (·.1.primitives) := by
  cases legs with
  | nil => exact absurd rfl h
  | cons first rest => exact primitives_foldl_append _ _

theorem branches_joinLegs (h : legs ≠ []) :
    (joinLegs ctx x y index legs).branches =
      branchGeometry ctx x y legs :: legs.flatMap (·.1.branches) := by
  cases legs with
  | nil => exact absurd rfl h
  | cons first rest => exact branches_foldl_append _ _

end

/-- The regions of a branch are those of its legs. -/
theorem regions_joinLegs (ctx : Context α) (x y : α) (index : Nat) (legs : List (Drawing α × α)) :
    (joinLegs ctx x y index legs).regions = legs.flatMap (·.1.regions) := by
  cases legs with
  | nil => rfl
  | cons first rest => exact regions_foldl_append _ _

/-- The number behind a branch is the one behind its last leg. -/
theorem index_joinLegs (ctx : Context α) (x y : α) (index : Nat) (legs : List (Drawing α × α)) :
    (joinLegs ctx x y index legs).index = legs.foldl (fun _ leg => leg.1.index) index := by
  cases legs with
  | nil => rfl
  | cons first rest => exact index_foldl_append _ _

/-! ## Invariants -/

/-- **What holds of every part of a drawing holds of the whole**: what is true before anything is
    drawn, of each instruction, of a branch if it is of its legs, each at its own y, and of two
    drawings one behind the other if it is of both. -/
theorem drawSeries_invariant {c : Config α} (Fits : α → α → Drawing α → Prop)
    (start : ∀ x y index, Fits x y (.start x y index))
    (append : ∀ x y a b, Fits x y a → Fits a.x y b → Fits x y (a.append b))
    (instr : ∀ ctx i x y index, ctx.config = c → Fits x y (placeInstruction ctx i x y index))
    (join : ∀ ctx x y index legs, ctx.config = c →
      legs.map Prod.snd = (List.range legs.length).map (legY c y legs.length) →
      (∀ leg ∈ legs, Fits (x + c.fanWidth) leg.2 leg.1) → Fits x y (joinLegs ctx x y index legs))
    (es : Series) (ctx : Context α) (x y : α) (index : Nat) (hctx : ctx.config = c) :
    Fits x y (drawSeries ctx x y index es) := by
  -- a series goes on with any drawing that fits
  suffices h : ∀ (ctx : Context α) (x y : α) (d : Drawing α), ctx.config = c → Fits x y d →
      Fits x y (placeSeries ctx y d es) from h ctx x y _ hctx (start x y index)
  refine Series.induction
    (P := fun es => ∀ (ctx : Context α) (x y : α) (d : Drawing α), ctx.config = c → Fits x y d →
      Fits x y (placeSeries ctx y d es))
    (Q := fun legs => ∀ (ctx : Context α) (entryX : α) (legY : Nat → α) (leg index : Nat),
      ctx.config = c → ∀ p ∈ placeLegs ctx entryX legY leg index legs, Fits entryX p.2 p.1)
    ?nil ?instr ?branch ?noLegs ?leg es
  case nil =>
    intro ctx x y d _ hd
    rwa [placeSeries]
  case instr =>
    intro i es ih ctx x y d hc hd
    rw [placeSeries]
    exact ih ctx x y _ hc (append x y d _ hd (instr ctx i d.x y d.index hc))
  case branch =>
    intro legs es ihl ih ctx x y d hc hd
    have hlegs := ihl ctx (d.x + ctx.config.fanWidth) (legY ctx.config y legs.length) 0 d.index hc
    rw [placeSeries]
    refine ih ctx x y _ hc (append x y d _ hd (join ctx d.x y d.index _ hc ?_ (hc ▸ hlegs)))
    rw [length_placeLegs, map_snd_placeLegs, List.range_eq_range', hc]
  case noLegs =>
    intro ctx entryX legY leg index _ p hp
    rw [placeLegs] at hp
    cases hp
  case leg =>
    intro es legs ih ihl ctx entryX legY leg index hc p hp
    rw [placeLegs_cons, List.mem_cons] at hp
    rcases hp with rfl | hp
    · exact ih (ctx.intoLeg leg) entryX (legY leg) _ hc (start entryX (legY leg) index)
    · exact ihl ctx entryX legY (leg + 1) _ hc p hp

end RelayLadder.Layout
