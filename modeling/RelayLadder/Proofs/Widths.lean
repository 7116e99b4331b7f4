/-
  The width of a series does not depend on where it is drawn, in exact coordinates.

  * `fannedWidth` is the width of a branch, given those of its legs;
  * `x_drawSeries`: a series ends its width to the right of where it starts, on whatever rail and
    inside whatever branches it is drawn.  So the width of a series is the sum of the widths of its
    elements (`seriesWidth_append`, `seriesWidth_instr`, `seriesWidth_branch`);
  * `BranchGeometry.Measures`: the geometry of a branch tells its width and those of its legs;
  * `widths_layout`: the width of a rung and of everything in it, in its diagram.
-/
import RelayLadder.Proofs.BranchTree
import RelayLadder.Proofs.Extents

namespace RelayLadder.Layout

open Scalar

/-! ## Branches -/

/-- The width of a branch whose legs have these widths: the widest leg between two fans.  A branch
    without legs takes no width. -/
def fannedWidth (c : Config Rat) : List Rat → Rat
  | [] => 0
  | w :: ws => c.fanWidth + greatestOf w ws + c.fanWidth

/-- A branch ends its width to the right of where it starts. -/
theorem x_joinLegs_eq_add (ctx : Context Rat) (x y : Rat) (index : Nat)
    (legs : List (Drawing Rat × Rat)) :
    (joinLegs ctx x y index legs).x =
      x + fannedWidth ctx.config (legs.map fun leg => leg.1.x - (x + ctx.config.fanWidth)) := by
  cases legs with
  | nil => exact (add_zero x).symm
  | cons first rest =>
    rw [x_joinLegs ctx x y index (List.cons_ne_nil first rest), mergeX, List.map_cons, fannedWidth]
    linarith

/-! ## Series -/

/-- The width of a series is where it ends, drawn by itself from 0 on. -/
theorem seriesWidth_eq (c : Config Rat) (es : Series) :
    seriesWidth c es = (drawSeries ⟨c, 0, []⟩ 0 c.railY 0 es).x := rfl

@[simp]
theorem seriesWidth_nil (c : Config Rat) : seriesWidth c [] = 0 := by
  rw [seriesWidth_eq, drawSeries, placeSeries, Drawing.start_x]

/-- The widths of drawn legs are those of their series, if each series takes its width wherever it
    is drawn. -/
theorem map_width_placeLegs {legs : Legs}
    (h : ∀ leg ∈ legs, ∀ (ctx : Context Rat) (x y : Rat) (index : Nat),
      (drawSeries ctx x y index leg).x = x + seriesWidth ctx.config leg)
    (ctx : Context Rat) (entryX : Rat) (legY : Nat → Rat) (number index : Nat) :
    ((placeLegs ctx entryX legY number index legs).map fun p => p.1.x - entryX) =
      legs.map (seriesWidth ctx.config) := by
  induction legs generalizing number index with
  | nil => rw [placeLegs, List.map_nil, List.map_nil]
  | cons leg legs ih =>
    rw [List.forall_mem_cons] at h
    rw [placeLegs_cons, List.map_cons, List.map_cons, ih h.2, h.1, Context.config_intoLeg,
      add_sub_cancel_left]

/-- A series takes its width wherever it is drawn, if its first element always takes the same width
    and what is drawn behind it takes its own. -/
theorem x_drawSeries_cons {e : Element} {es : Series} (width : Config Rat → Rat)
    (hfirst : ∀ (ctx : Context Rat) (x y : Rat) (index : Nat),
      (drawElement ctx x y index e).x = x + width ctx.config)
    (hrest : ∀ (ctx : Context Rat) (x y : Rat) (index : Nat),
      (drawSeries ctx x y index es).x = x + seriesWidth ctx.config es)
    (ctx : Context Rat) (x y : Rat) (index : Nat) :
    (drawSeries ctx x y index (e :: es)).x = x + seriesWidth ctx.config (e :: es) := by
  have hends (ctx : Context Rat) (x y : Rat) (index : Nat) :
      (drawSeries ctx x y index (e :: es)).x =
        x + width ctx.config + seriesWidth ctx.config es := by
    rw [(drawSeries_cons ctx x y index e es).x, Drawing.append_x, hrest, hfirst]
  rw [hends, seriesWidth_eq _ (e :: es), hends, zero_add, add_assoc]

/-- **A series ends its width to the right of where it starts**, wherever it is drawn. -/
theorem x_drawSeries (es : Series) : ∀ (ctx : Context Rat) (x y : Rat) (index : Nat),
    (drawSeries ctx x y index es).x = x + seriesWidth ctx.config es := by
  refine Series.induction
    (P := fun es => ∀ (ctx : Context Rat) (x y : Rat) (index : Nat),
      (drawSeries ctx x y index es).x = x + seriesWidth ctx.config es)
    (Q := fun legs => ∀ leg ∈ legs, ∀ (ctx : Context Rat) (x y : Rat) (index : Nat),
      (drawSeries ctx x y index leg).x = x + seriesWidth ctx.config leg)
    ?nil ?instr ?branch ?noLegs ?leg es
  case nil =>
    intro ctx x y index
    rw [drawSeries, placeSeries, Drawing.start_x, seriesWidth_nil, add_zero]
  case instr =>
    intro i es ih
    exact x_drawSeries_cons (fun c => cellWidth c i) (fun _ _ _ _ => rfl) ih
  case branch =>
    intro legs es ihl ih
    -- wherever it is drawn, the branch is as wide as the widths of its legs make it
    refine x_drawSeries_cons (fun c => fannedWidth c (legs.map (seriesWidth c)))
      (fun ctx x y index => ?_) ih
    rw [drawElement, x_joinLegs_eq_add, map_width_placeLegs ihl]
  case noLegs =>
    intro leg hleg
    exact absurd hleg List.not_mem_nil
  case leg =>
    intro leg legs ih ihl
    exact List.forall_mem_cons.2 ⟨ih, ihl⟩

/-- The widths of drawn legs are those of their series. -/
theorem legWidths_placeLegs (ctx : Context Rat) (entryX : Rat) (legY : Nat → Rat)
    (number index : Nat) (legs : Legs) :
    ((placeLegs ctx entryX legY number index legs).map fun p => p.1.x - entryX) =
      legs.map (seriesWidth ctx.config) :=
  map_width_placeLegs (fun leg _ => x_drawSeries leg) ctx entryX legY number index

theorem x_drawElement (ctx : Context Rat) (x y : Rat) (index : Nat) (e : Element) :
    (drawElement ctx x y index e).x = x + seriesWidth ctx.config [e] :=
  (drawSeries_singleton ctx x y index e).x.symm.trans (x_drawSeries [e] ctx x y index)

/-- **A series is as wide as its parts together.** -/
theorem seriesWidth_append (c : Config Rat) (a b : Series) :
    seriesWidth c (a ++ b) = seriesWidth c a + seriesWidth c b := by
  rw [seriesWidth_eq, drawSeries, placeSeries_append, (placeSeries_alike ⟨c, 0, []⟩ _ _ b).x,
    Drawing.append_x, x_drawSeries b]
  rfl

theorem seriesWidth_cons (c : Config Rat) (e : Element) (es : Series) :
    seriesWidth c (e :: es) = seriesWidth c [e] + seriesWidth c es :=
  seriesWidth_append c [e] es

/-- An instruction is as wide as its cell. -/
theorem seriesWidth_instr (c : Config Rat) (i : Instruction) :
    seriesWidth c [.instr i] = cellWidth c i := by
  have h := x_drawElement ⟨c, 0, []⟩ 0 c.railY 0 (.instr i)
  rw [zero_add] at h
  exact h.symm.trans (zero_add _)

/-- A branch is as wide as the widths of its legs make it. -/
theorem seriesWidth_branch (c : Config Rat) (legs : Legs) :
    seriesWidth c [.branch legs] = fannedWidth c (legs.map (seriesWidth c)) := by
  have h := x_drawElement ⟨c, 0, []⟩ 0 c.railY 0 (.branch legs)
  rw [zero_add, drawElement, x_joinLegs_eq_add, legWidths_placeLegs, zero_add] at h
  exact h.symm

/-! ## Geometries -/

/-- The geometry is that of a branch with this depth and these legs, and tells how wide the legs and
    the branch are. -/
structure BranchGeometry.Measures (c : Config Rat) (fork : Nat × Legs) (g : BranchGeometry Rat) :
    Prop extends g.IsOf fork where
  legWidths : g.legWidths = fork.2.map (seriesWidth c)
  width : g.width = seriesWidth c [.branch fork.2]

theorem measures_branchGeometry (ctx : Context Rat) (x y : Rat) (index : Nat) {legs : Legs}
    (hne : legs ≠ []) :
    (branchGeometry ctx x y (placeLegs ctx (x + ctx.config.fanWidth)
      (legY ctx.config y legs.length) 0 index legs)).Measures ctx.config
        (ctx.branchPath.length, legs) := by
  have hend := x_drawElement ctx x y index (.branch legs)
  rw [drawElement, x_joinLegs ctx x y index (placeLegs_ne_nil ctx _ _ 0 index hne)] at hend
  refine ⟨isOf_branchGeometry ctx x y (length_placeLegs ..), ?_, ?_⟩
  · rw [BranchGeometry.legWidths, branchGeometry, List.map_map]
    exact legWidths_placeLegs ctx _ _ 0 index legs
  · rw [BranchGeometry.width, branchGeometry, hend, add_sub_cancel_left]

/-- **The geometries of a drawn series tell the widths of its branches.** -/
theorem measures_drawSeries (es : Series) : ∀ (ctx : Context Rat) (x y : Rat) (index : Nat),
    List.Forall₂ (BranchGeometry.Measures ctx.config) (Series.forks ctx.branchPath.length es)
      (drawSeries ctx x y index es).branches := by
  refine Series.induction
    (P := fun es => ∀ (ctx : Context Rat) (x y : Rat) (index : Nat),
      List.Forall₂ (BranchGeometry.Measures ctx.config) (Series.forks ctx.branchPath.length es)
        (drawSeries ctx x y index es).branches)
    (Q := fun legs => ∀ (ctx : Context Rat) (entryX : Rat) (legY : Nat → Rat)
      (number index : Nat), List.Forall₂ (BranchGeometry.Measures ctx.config)
        (Legs.forks (ctx.branchPath.length + 1) legs)
        ((placeLegs ctx entryX legY number index legs).flatMap (·.1.branches)))
    ?nil ?instr ?branch ?noLegs ?leg es
  case nil =>
    intro ctx x y index
    rw [drawSeries, placeSeries, Series.forks]
    exact .nil
  case instr =>
    intro i es ih ctx x y index
    rw [(drawSeries_cons ctx x y index (.instr i) es).branches, Series.forks]
    exact ih ctx _ y _
  case branch =>
    intro legs es ihl ih ctx x y index
    rw [(drawSeries_cons ctx x y index (.branch legs) es).branches, Drawing.append_branches,
      Series.forks]
    refine List.rel_append ?_ (ih ctx _ y _)
    rw [drawElement]
    by_cases hne : legs = []
    · subst hne
      rw [if_pos rfl, placeLegs]
      exact .nil
    · rw [if_neg hne, branches_joinLegs ctx x y index (placeLegs_ne_nil ctx _ _ 0 index hne)]
      exact .cons (measures_branchGeometry ctx x y index hne) (ihl ctx _ _ 0 index)
  case noLegs =>
    intro ctx entryX legY number index
    rw [placeLegs, Legs.forks]
    exact .nil
  case leg =>
    intro leg legs ih ihl ctx entryX legY number index
    have hleg := ih (ctx.intoLeg number) entryX (legY number) index
    rw [Context.config_intoLeg, Context.intoLeg, List.length_append] at hleg
    rw [placeLegs_cons, List.flatMap_cons, Legs.forks]
    exact List.rel_append hleg (ihl ctx entryX legY (number + 1) _)

/-! ## Diagrams -/

theorem railEndX_layout (es : Series) (rung : Int) (c : Config Rat) :
    (layout es rung c).railEndX = c.startX + seriesWidth c es :=
  x_drawSeries es ⟨c, rung, []⟩ c.startX c.railY 0

theorem width_layout (es : Series) (rung : Int) (c : Config Rat) :
    (layout es rung c).width = c.startX + seriesWidth c es + c.rightMargin := by
  rw [← railEndX_layout es rung c]
  rfl

/-- **Widths do not depend on where a series is drawn**: the main rail of a diagram is as long as
    its series is wide, a series is as wide as its parts together, and the geometry of each branch
    tells the width that the branch has by itself, and those that its legs have by themselves. -/
theorem widths_layout (es : Series) (rung : Int) (c : Config Rat) :
    let d := layout es rung c
    d.railEndX = c.startX + seriesWidth c es ∧
    d.width = d.railEndX + c.rightMargin ∧
    (∀ a b : Series, seriesWidth c (a ++ b) = seriesWidth c a + seriesWidth c b) ∧
    List.Forall₂ (BranchGeometry.Measures c) (Series.forks 0 es) d.branches :=
  ⟨railEndX_layout es rung c, rfl, seriesWidth_append c,
    measures_drawSeries es ⟨c, rung, []⟩ c.startX c.railY 0⟩

end RelayLadder.Layout
