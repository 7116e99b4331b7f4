/-
  Nothing is drawn outside of the diagram, in exact coordinates.

  A drawing keeps track of how far it goes to the right and how far up and down it reaches.  It does
  so from the areas of the instructions and the bands of the branches only; here these are shown to
  hold every line, shape and text.

  * `reaches_drawSeries`: the upward and downward reach of a drawn series holds all that is in it;
  * `goesAcross_drawSeries`: all lines, shapes and texts of it lie between its left and right end;
  * `coordinates_layout`: so everything in the diagram of a rung lies within its width and height.
-/
import Mathlib.Tactic.CasesM
import Mathlib.Tactic.Positivity
import RelayLadder.Proofs.Extents
import RelayLadder.RungText.Parser

namespace RelayLadder.Layout

open Scalar

/-! ## Coordinates -/

section
variable {α : Type} [Scalar α]

/-- The x of the left and the right edge. -/
def Rect.xs (r : Rect α) : List α := [r.x, r.right]

/-- The y of the upper and the lower edge. -/
def Rect.ys (r : Rect α) : List α := [r.y, r.bottom]

/-- How far something drawn goes to the left and to the right: the ends of a line, the edges of a
    rectangle, the outermost points of a circle, the point of a text. -/
def Primitive.xs : Primitive α → List α
  | .line l => [l.x1, l.x2]
  | .rect r _ => r.xs
  | .circle c _ => [c.cx - c.r, c.cx + c.r]
  | .label t => [t.x]

/-- How far something drawn goes up and down. -/
def Primitive.ys : Primitive α → List α
  | .line l => [l.y1, l.y2]
  | .rect r _ => r.ys
  | .circle c _ => [c.cy - c.r, c.cy + c.r]
  | .label t => [t.y]

end

/-- All numbers of the list lie between the two. -/
def Between (lo hi : Rat) (vs : List Rat) : Prop := ∀ v ∈ vs, lo ≤ v ∧ v ≤ hi

section
variable {lo hi : Rat}

@[simp]
theorem between_nil : Between lo hi [] := nofun

@[simp]
theorem between_cons {v : Rat} {vs : List Rat} :
    Between lo hi (v :: vs) ↔ (lo ≤ v ∧ v ≤ hi) ∧ Between lo hi vs :=
  List.forall_mem_cons

@[simp]
theorem between_append {vs ws : List Rat} :
    Between lo hi (vs ++ ws) ↔ Between lo hi vs ∧ Between lo hi ws :=
  List.forall_mem_append

theorem between_flatMap {β : Type} {f : β → List Rat} {bs : List β} :
    Between lo hi (bs.flatMap f) ↔ ∀ b ∈ bs, Between lo hi (f b) := by
  simp only [Between, List.mem_flatMap]
  exact ⟨fun h b hb v hv => h v ⟨b, hb, hv⟩, fun h v ⟨b, hb, hv⟩ => h b hb v hv⟩

theorem Between.mono {vs : List Rat} (h : Between lo hi vs) {lo' hi' : Rat} (hlo : lo' ≤ lo)
    (hhi : hi ≤ hi') : Between lo' hi' vs :=
  fun v hv => ⟨hlo.trans (h v hv).1, (h v hv).2.trans hhi⟩

end

theorem least_le_left (a b : Rat) : least a b ≤ a := by
  unfold least
  split <;> linarith

theorem least_le_right (a b : Rat) : least a b ≤ b := by
  unfold least
  split <;> linarith

/-! ## Single instructions -/

/-- All that is drawn, and the rail at `y`, lies between the upper and the lower edge of the
    area. -/
def Sketch.Upright (s : Sketch Rat) (y : Rat) : Prop :=
  Between s.bounds.y s.bounds.bottom (y :: s.primitives.flatMap Primitive.ys)

/-- All that is drawn, and the point where the wire goes on, lies between the two ends. -/
def Sketch.Across (s : Sketch Rat) (left right : Rat) : Prop :=
  Between left right (s.railOut :: s.primitives.flatMap Primitive.xs)

theorem upright_drawContact (i : Instruction) (closed : Bool) (x y : Rat) :
    (drawContact i closed x y).Upright y := by
  cases closed <;>
    simp only [Sketch.Upright, drawContact, wire, stroke, operandLabel, Rect.bottom,
      Bool.false_eq_true, if_false, if_true, List.cons_append, List.nil_append, List.flatMap_cons,
      List.flatMap_nil, Primitive.ys, between_cons, between_nil, and_true] <;>
    constructorm* _ ∧ _ <;> linarith

theorem across_drawContact (i : Instruction) (closed : Bool) (x y : Rat) :
    (drawContact i closed x y).Across x (x + 50) := by
  cases closed <;>
    simp only [Sketch.Across, drawContact, wire, stroke, operandLabel, Bool.false_eq_true,
      if_false, if_true, List.cons_append, List.nil_append, List.flatMap_cons, List.flatMap_nil,
      Primitive.xs, between_cons, between_nil, and_true] <;>
    constructorm* _ ∧ _ <;> linarith

theorem upright_drawCoil (i : Instruction) (glyph : Glyph) (x y : Rat) :
    (drawCoil i glyph x y).Upright y := by
  rcases hletter : coilLetter glyph with _ | letter <;>
    simp only [Sketch.Upright, drawCoil, hletter, wire, stroke, operandLabel, titleLabel,
      Rect.bottom, Option.toList_none, Option.toList_some, List.map_nil, List.map_cons,
      List.cons_append, List.nil_append, List.flatMap_cons, List.flatMap_nil, Primitive.ys,
      between_cons, between_nil, and_true] <;>
    constructorm* _ ∧ _ <;> linarith

theorem across_drawCoil (i : Instruction) (glyph : Glyph) (x y : Rat) :
    (drawCoil i glyph x y).Across x (x + 50) := by
  rcases hletter : coilLetter glyph with _ | letter <;>
    simp only [Sketch.Across, drawCoil, hletter, wire, stroke, operandLabel, titleLabel,
      Option.toList_none, Option.toList_some, List.map_nil, List.map_cons, List.cons_append,
      List.nil_append, List.flatMap_cons, List.flatMap_nil, Primitive.xs, between_cons,
      between_nil, and_true] <;>
    constructorm* _ ∧ _ <;> linarith

theorem upright_drawGeneric (i : Instruction) (x y : Rat) : (drawGeneric i x y).Upright y := by
  rcases hempty : i.values.isEmpty with _ | _ <;>
    simp only [Sketch.Upright, drawGeneric, hempty, wire, operandLabel, titleLabel,
      Bool.false_eq_true, if_false, if_true, List.cons_append, List.nil_append, List.flatMap_cons,
      List.flatMap_nil, Primitive.ys, Rect.ys, Rect.bottom, between_cons, between_nil,
      and_true] <;>
    constructorm* _ ∧ _ <;> linarith

theorem across_drawGeneric (i : Instruction) (x y : Rat) :
    (drawGeneric i x y).Across x (x + 90) := by
  rcases hempty : i.values.isEmpty with _ | _ <;>
    simp only [Sketch.Across, drawGeneric, hempty, wire, operandLabel, titleLabel,
      Bool.false_eq_true, if_false, if_true, List.cons_append, List.nil_append, List.flatMap_cons,
      List.flatMap_nil, Primitive.xs, Rect.xs, Rect.right, between_cons, between_nil,
      and_true] <;>
    constructorm* _ ∧ _ <;> linarith

/-- The operands of a box stay in it, since it grows with their number. -/
theorem upright_drawBox (i : Instruction) (x y cell : Rat) : (drawBox i x y cell).Upright y := by
  have hmin := le_greatest_left (50 : Rat) (22 + 13 * (i.values.length : Rat))
  have hgrow := le_greatest_right (50 : Rat) (22 + 13 * (i.values.length : Rat))
  rw [← boxHeight] at hmin hgrow
  simp only [Sketch.Upright, drawBox, Rect.bottom, List.flatMap_append, between_cons,
    between_append]
  refine ⟨by constructor <;> linarith, ?_, between_flatMap.2 fun p hp => ?_⟩
  · simp only [wire, titleLabel, List.flatMap_cons, List.flatMap_nil, List.cons_append,
      List.nil_append, Primitive.ys, Rect.ys, Rect.bottom, between_cons, between_nil, and_true]
    constructorm* _ ∧ _ <;> linarith
  · obtain ⟨k, hk, rfl⟩ := List.mem_mapIdx.1 hp
    have hk0 : (0 : Rat) ≤ k := by positivity
    have hk1 : (k : Rat) + 1 ≤ i.values.length := by exact_mod_cast hk
    simp only [operandLabel, Primitive.ys, between_cons, between_nil, and_true]
    constructor <;> linarith

theorem across_drawBox (i : Instruction) (x y : Rat) {cell : Rat} (hcell : 40 ≤ cell) :
    (drawBox i x y cell).Across x (x + cell) := by
  simp only [Sketch.Across, drawBox, List.flatMap_append, between_cons, between_append]
  refine ⟨by constructor <;> linarith, ?_, between_flatMap.2 fun p hp => ?_⟩
  · simp only [wire, titleLabel, List.flatMap_cons, List.flatMap_nil, List.cons_append,
      List.nil_append, Primitive.xs, Rect.xs, Rect.right, between_cons, between_nil, and_true]
    constructorm* _ ∧ _ <;> linarith
  · obtain ⟨k, -, rfl⟩ := List.mem_mapIdx.1 hp
    simp only [operandLabel, Primitive.xs, between_cons, between_nil, and_true]
    constructor <;> linarith

/-- All that is drawn for an instruction is as high as its area. -/
theorem upright_drawInstruction (c : Config Rat) (i : Instruction) (x y : Rat) :
    (drawInstruction c i x y).Upright y := by
  unfold drawInstruction
  split
  · exact upright_drawContact i false x y
  · exact upright_drawContact i true x y
  · exact upright_drawCoil i .coil x y
  · exact upright_drawCoil i .coilLatch x y
  · exact upright_drawCoil i .coilUnlatch x y
  · exact upright_drawBox i x y _
  · exact upright_drawGeneric i x y

theorem Sketch.Across.mono {s : Sketch Rat} {left right right' : Rat} (h : s.Across left right)
    (hright : right ≤ right') : s.Across left right' :=
  Between.mono h (le_refl left) hright

/-- All that is drawn for an instruction lies in its cell. -/
theorem across_drawInstruction {c : Config Rat} (hc : c.Ample) (i : Instruction) (x y : Rat) :
    (drawInstruction c i x y).Across x (x + cellWidth c i) := by
  obtain ⟨hcontact, hbox, hgeneric, -⟩ := hc
  unfold drawInstruction cellWidth
  split
  · exact (across_drawContact i false x y).mono (by linarith)
  · exact (across_drawContact i true x y).mono (by linarith)
  · exact (across_drawCoil i .coil x y).mono (by linarith)
  · exact (across_drawCoil i .coilLatch x y).mono (by linarith)
  · exact (across_drawCoil i .coilUnlatch x y).mono (by linarith)
  · exact across_drawBox i x y hbox
  · exact (across_drawGeneric i x y).mono (by linarith)

/-! ## Up and down -/

section
variable (own : Drawing Rat) (legs : List (Drawing Rat × Rat))

/-- A drawing with legs appended to it reaches as far up and down as its parts. -/
theorem reach_foldl_append :
    let whole := legs.foldl (fun d leg => d.append leg.1) own
    (whole.minY ≤ own.minY ∧ own.maxY ≤ whole.maxY) ∧
      ∀ leg ∈ legs, whole.minY ≤ leg.1.minY ∧ leg.1.maxY ≤ whole.maxY := by
  induction legs generalizing own with
  | nil => simp
  | cons leg legs ih =>
    obtain ⟨⟨hmin, hmax⟩, hrest⟩ := ih (own.append leg.1)
    have hown : (own.append leg.1).minY ≤ own.minY ∧ own.maxY ≤ (own.append leg.1).maxY :=
      ⟨least_le_left _ _, le_greatest_left _ _⟩
    have hleg : (own.append leg.1).minY ≤ leg.1.minY ∧ leg.1.maxY ≤ (own.append leg.1).maxY :=
      ⟨least_le_right _ _, le_greatest_right _ _⟩
    refine ⟨⟨hmin.trans hown.1, hown.2.trans hmax⟩, fun other hother => ?_⟩
    rcases List.mem_cons.1 hother with rfl | hother
    · exact ⟨hmin.trans hleg.1, hleg.2.trans hmax⟩
    · exact hrest other hother

end

/-- The upward and downward reach of the drawing holds the rail at `y` and all that is drawn. -/
structure Reaches (y : Rat) (d : Drawing Rat) : Prop where
  minY_le : d.minY ≤ y
  le_maxY : y ≤ d.maxY
  primitives : Between d.minY d.maxY (d.primitives.flatMap Primitive.ys)
  regions : Between d.minY d.maxY (d.regions.flatMap (·.bounds.ys))

theorem Reaches.append {y : Rat} {a b : Drawing Rat} (ha : Reaches y a) (hb : Reaches y b) :
    Reaches y (a.append b) := by
  have hmin := least_le_left a.minY b.minY
  have hmin' := least_le_right a.minY b.minY
  have hmax := le_greatest_left a.maxY b.maxY
  have hmax' := le_greatest_right a.maxY b.maxY
  refine ⟨hmin.trans ha.minY_le, ha.le_maxY.trans hmax, ?_, ?_⟩
  · rw [Drawing.append_primitives, List.flatMap_append, between_append]
    exact ⟨ha.primitives.mono hmin hmax, hb.primitives.mono hmin' hmax'⟩
  · rw [Drawing.append_regions, List.flatMap_append, between_append]
    exact ⟨ha.regions.mono hmin hmax, hb.regions.mono hmin' hmax'⟩

theorem reaches_placeInstruction (ctx : Context Rat) (i : Instruction) (x y : Rat) (index : Nat) :
    Reaches y (placeInstruction ctx i x y index) := by
  obtain ⟨⟨htop, hbottom⟩, hdrawn⟩ := between_cons.1 (upright_drawInstruction ctx.config i x y)
  have hmin := least_le_left (drawInstruction ctx.config i x y).bounds.y y
  have hmax := le_greatest_left (drawInstruction ctx.config i x y).bounds.bottom y
  refine ⟨hmin.trans htop, hbottom.trans hmax, ?_, ?_⟩
  · simp only [placeInstruction, wire, List.flatMap_append, List.flatMap_cons, List.flatMap_nil,
      Primitive.ys, between_append, between_cons, between_nil, and_true]
    exact ⟨hdrawn.mono hmin hmax, ⟨hmin.trans htop, hbottom.trans hmax⟩,
      hmin.trans htop, hbottom.trans hmax⟩
  · simp only [placeInstruction, List.flatMap_cons, List.flatMap_nil, Rect.ys, between_append,
      between_cons, between_nil, and_true]
    exact ⟨⟨hmin, (htop.trans hbottom).trans hmax⟩, hmin.trans (htop.trans hbottom), hmax⟩

theorem bandHeight_nonneg {c : Config Rat} (hc : 0 ≤ c.legSpacing) (n : Nat) :
    0 ≤ bandHeight c n := by
  unfold bandHeight
  have hn : (0 : Rat) ≤ n := by positivity
  exact mul_nonneg hn hc

/-- A branch reaches as far up and down as its band and its legs. -/
theorem reach_joinLegs (ctx : Context Rat) (x y : Rat) (index : Nat)
    {legs : List (Drawing Rat × Rat)} (h : legs ≠ []) :
    let d := joinLegs ctx x y index legs
    let band := bandHeight ctx.config legs.length
    (d.minY ≤ y - band / 2 ∧ y + band / 2 ≤ d.maxY) ∧
      ∀ leg ∈ legs, d.minY ≤ leg.1.minY ∧ leg.1.maxY ≤ d.maxY := by
  cases legs with
  | nil => exact absurd rfl h
  | cons first rest => exact reach_foldl_append _ _

theorem ys_legConnectors {lo hi y legY : Rat} (hy : lo ≤ y ∧ y ≤ hi) (hleg : lo ≤ legY ∧ legY ≤ hi)
    (entryX mergeX : Rat) (leg : Drawing Rat) :
    Between lo hi ((legConnectors y entryX mergeX leg legY).flatMap Primitive.ys) := by
  unfold legConnectors
  split <;> simp [connector, Primitive.ys, hy, hleg]

theorem reaches_joinLegs {ctx : Context Rat} (hc : 0 ≤ ctx.config.legSpacing) (x y : Rat)
    (index : Nat) {legs : List (Drawing Rat × Rat)} (h : ∀ leg ∈ legs, Reaches leg.2 leg.1) :
    Reaches y (joinLegs ctx x y index legs) := by
  by_cases hne : legs = []
  · subst hne
    exact ⟨le_refl y, le_refl y, between_nil, between_nil⟩
  have hband := bandHeight_nonneg hc legs.length
  obtain ⟨⟨hmin, hmax⟩, hlegs⟩ := reach_joinLegs ctx x y index hne
  have hy : (joinLegs ctx x y index legs).minY ≤ y ∧ y ≤ (joinLegs ctx x y index legs).maxY :=
    ⟨by linarith, by linarith⟩
  refine ⟨hy.1, hy.2, ?_, ?_⟩
  · rw [primitives_joinLegs ctx x y index hne, List.flatMap_append, between_append]
    constructor
    · simp only [branchLines, List.flatMap_append, between_append, List.flatMap_assoc]
      refine ⟨⟨by simp [connector, Primitive.ys, hy], between_flatMap.2 fun leg hleg => ?_⟩,
        by simp [connector, Primitive.ys, hy]⟩
      -- the rail of a leg is within the reach of the leg
      have hreach := hlegs leg hleg
      exact ys_legConnectors hy ⟨hreach.1.trans (h leg hleg).minY_le,
        (h leg hleg).le_maxY.trans hreach.2⟩ _ _ _
    · rw [List.flatMap_assoc]
      exact between_flatMap.2 fun leg hleg =>
        (h leg hleg).primitives.mono (hlegs leg hleg).1 (hlegs leg hleg).2
  · rw [regions_joinLegs, List.flatMap_assoc]
    exact between_flatMap.2 fun leg hleg =>
      (h leg hleg).regions.mono (hlegs leg hleg).1 (hlegs leg hleg).2

/-- **All that is in a drawn series is within its upward and downward reach.** -/
theorem reaches_drawSeries (ctx : Context Rat) (hc : 0 ≤ ctx.config.legSpacing) (es : Series)
    (x y : Rat) (index : Nat) : Reaches y (drawSeries ctx x y index es) := by
  refine drawSeries_invariant (fun _ y d => Reaches y d) (fun x y index => ?_)
    (fun x y a b ha hb => ha.append hb) (fun ctx i x y index _ => ?_)
    (fun ctx' x y index legs hctx _ h => ?_) es ctx x y index rfl
  · exact ⟨le_refl y, le_refl y, between_nil, between_nil⟩
  · exact reaches_placeInstruction ctx i x y index
  · exact reaches_joinLegs (hctx ▸ hc) x y index h

/-! ## From the left end to the right end -/

/-- The drawing goes to the right from `left`, and all lines, shapes and texts of it lie between
    its ends. -/
structure GoesAcross (left : Rat) (d : Drawing Rat) : Prop where
  le : left ≤ d.x
  primitives : Between left d.x (d.primitives.flatMap Primitive.xs)

theorem GoesAcross.append {left : Rat} {a b : Drawing Rat} (ha : GoesAcross left a)
    (hb : GoesAcross a.x b) : GoesAcross left (a.append b) := by
  refine ⟨ha.le.trans hb.le, ?_⟩
  rw [Drawing.append_primitives, List.flatMap_append, between_append]
  exact ⟨ha.primitives.mono (le_refl left) hb.le, hb.primitives.mono ha.le (le_refl b.x)⟩

theorem goesAcross_placeInstruction {ctx : Context Rat} (hc : ctx.config.Ample) (i : Instruction)
    (x y : Rat) (index : Nat) : GoesAcross x (placeInstruction ctx i x y index) := by
  obtain ⟨hout, hdrawn⟩ := between_cons.1 (across_drawInstruction hc i x y)
  have hle := hout.1.trans hout.2
  refine ⟨hle, ?_⟩
  simp only [placeInstruction, wire, List.flatMap_append, List.flatMap_cons, List.flatMap_nil,
    Primitive.xs, between_append, between_cons, between_nil, and_true]
  exact ⟨hdrawn, hout, hle, le_refl _⟩

theorem xs_legConnectors {entryX mergeX : Rat} {leg : Drawing Rat} (hentry : entryX ≤ leg.x)
    (hmerge : leg.x ≤ mergeX) (y legY : Rat) :
    Between entryX mergeX ((legConnectors y entryX mergeX leg legY).flatMap Primitive.xs) := by
  have hle := hentry.trans hmerge
  unfold legConnectors
  split <;> simp [connector, Primitive.xs, hentry, hmerge, hle]

theorem goesAcross_joinLegs {ctx : Context Rat} (hc : 0 ≤ ctx.config.fanWidth) (x y : Rat)
    (index : Nat) {legs : List (Drawing Rat × Rat)}
    (h : ∀ leg ∈ legs, GoesAcross (x + ctx.config.fanWidth) leg.1) :
    GoesAcross x (joinLegs ctx x y index legs) := by
  by_cases hne : legs = []
  · subst hne
    exact ⟨le_refl x, between_nil⟩
  have hmerge := le_mergeX (x + ctx.config.fanWidth) legs
  have hentry : x + ctx.config.fanWidth ≤ mergeX (x + ctx.config.fanWidth) legs := by
    obtain ⟨leg, hleg⟩ := List.exists_mem_of_ne_nil legs hne
    exact (h leg hleg).le.trans (hmerge leg hleg)
  have hin {vs : List Rat} (hvs : Between (x + ctx.config.fanWidth)
      (mergeX (x + ctx.config.fanWidth) legs) vs) :
      Between x (joinLegs ctx x y index legs).x vs := by
    rw [x_joinLegs ctx x y index hne]
    exact hvs.mono (by linarith) (by linarith)
  refine ⟨by rw [x_joinLegs ctx x y index hne]; linarith, ?_⟩
  rw [primitives_joinLegs ctx x y index hne, List.flatMap_append, between_append]
  constructor
  · simp only [branchLines, List.flatMap_append, between_append, List.flatMap_assoc]
    refine ⟨⟨?_, between_flatMap.2 fun leg hleg => ?_⟩, ?_⟩
    · simp only [connector, List.flatMap_cons, List.flatMap_nil, Primitive.xs, between_append,
        between_cons, between_nil, and_true, x_joinLegs ctx x y index hne]
      constructorm* _ ∧ _ <;> linarith
    · exact hin (xs_legConnectors (h leg hleg).le (hmerge leg hleg) y leg.2)
    · simp only [connector, List.flatMap_cons, List.flatMap_nil, Primitive.xs, between_append,
        between_cons, between_nil, and_true, x_joinLegs ctx x y index hne]
      constructorm* _ ∧ _ <;> linarith
  · rw [List.flatMap_assoc]
    exact between_flatMap.2 fun leg hleg =>
      hin ((h leg hleg).primitives.mono (le_refl _) (hmerge leg hleg))

/-- **All lines, shapes and texts of a drawn series lie between its ends.** -/
theorem goesAcross_drawSeries (ctx : Context Rat) (hc : ctx.config.Ample) (es : Series)
    (x y : Rat) (index : Nat) : GoesAcross x (drawSeries ctx x y index es) := by
  refine drawSeries_invariant (fun x _ d => GoesAcross x d) (fun x y index => ?_)
    (fun x y a b ha hb => ha.append hb) (fun ctx' i x y index hctx => ?_)
    (fun ctx' x y index legs hctx _ h => ?_) es ctx x y index rfl
  · exact ⟨le_refl x, between_nil⟩
  · exact goesAcross_placeInstruction (hctx ▸ hc) i x y index
  · exact goesAcross_joinLegs (hctx ▸ hc.fan.le) x y index (hctx ▸ h)

/-! ## Diagrams -/

theorem placeRung_eq (c : Config Rat) (rung : Int) (es : Series) :
    placeRung c rung es = drawSeries ⟨c, rung, []⟩ c.startX c.railY 0 es := rfl

theorem bottom_layout (es : Series) (rung : Int) (c : Config Rat) :
    (layout es rung c).top + (layout es rung c).height =
      greatest ((placeRung c rung es).maxY + c.bottomMargin) c.minHeight := by
  simp only [layout]
  linarith

/-- A diagram holds its power rails, the wires from these to the elements, and the elements. -/
theorem primitives_layout (es : Series) (rung : Int) (c : Config Rat) :
    let d := layout es rung c
    let right := d.width - c.leftRailX
    d.primitives =
      [powerRail c.leftRailX (d.top + c.railInset) (d.top + d.height - c.railInset),
       powerRail right (d.top + c.railInset) (d.top + d.height - c.railInset),
       wire c.leftRailX c.railY c.startX c.railY,
       wire (placeRung c rung es).x c.railY right c.railY] ++ (placeRung c rung es).primitives := by
  intro d right
  rw [bottom_layout]
  rfl

/-- All that is drawn lies between the top and the bottom of the diagram. -/
theorem ys_layout (es : Series) (rung : Int) {c : Config Rat} (hspacing : 0 ≤ c.legSpacing)
    (hinset : 0 ≤ c.railInset) (hmargin : 0 ≤ c.bottomMargin) :
    let d := layout es rung c
    Between d.top (d.top + d.height) (d.primitives.flatMap Primitive.ys) ∧
      Between d.top (d.top + d.height) (d.regions.flatMap (·.bounds.ys)) := by
  intro d
  obtain ⟨hmin, hmax, hprimitives, hregions⟩ :=
    reaches_drawSeries ⟨c, rung, []⟩ hspacing es c.startX c.railY 0
  rw [← placeRung_eq] at *
  have htop : d.top ≤ (placeRung c rung es).minY - c.railInset := least_le_right _ _
  have hbottom : (placeRung c rung es).maxY + c.bottomMargin ≤ d.top + d.height :=
    (le_greatest_left _ _).trans (bottom_layout es rung c).ge
  have hin {vs : List Rat}
      (hvs : Between (placeRung c rung es).minY (placeRung c rung es).maxY vs) :
      Between d.top (d.top + d.height) vs := hvs.mono (by linarith) (by linarith)
  refine ⟨?_, hin hregions⟩
  rw [primitives_layout, List.flatMap_append, between_append]
  refine ⟨?_, hin hprimitives⟩
  simp only [powerRail, wire, List.flatMap_cons, List.flatMap_nil, List.cons_append,
    List.nil_append, Primitive.ys, between_cons, between_nil, and_true]
  constructorm* _ ∧ _ <;> linarith

/-- The distances at the sides of a diagram leave room for its power rails. -/
structure Config.Sided (c : Config Rat) : Prop where
  rail_nonneg : 0 ≤ c.leftRailX
  rail_le_start : c.leftRailX ≤ c.startX
  rail_le_margin : c.leftRailX ≤ c.rightMargin

/-- All that is drawn lies between the left and the right side of the diagram. -/
theorem xs_layout (es : Series) (rung : Int) {c : Config Rat} (hc : c.Ample) (hsides : c.Sided) :
    let d := layout es rung c
    Between 0 d.width (d.primitives.flatMap Primitive.xs) ∧
      Between 0 d.width (d.regions.flatMap (·.bounds.xs)) := by
  intro d
  obtain ⟨hrail, hstart, hmargin⟩ := hsides
  obtain ⟨hle, hprimitives⟩ := goesAcross_drawSeries ⟨c, rung, []⟩ hc es c.startX c.railY 0
  have hspans := spans_drawSeries es ⟨c, rung, []⟩ c.startX c.railY 0 hc
  rw [← placeRung_eq] at *
  have hwidth : d.width = (placeRung c rung es).x + c.rightMargin := rfl
  refine ⟨?_, between_flatMap.2 fun r hr => ?_⟩
  · rw [primitives_layout, List.flatMap_append, between_append]
    refine ⟨?_, hprimitives.mono (by linarith) (by linarith)⟩
    simp only [powerRail, wire, List.flatMap_cons, List.flatMap_nil, List.cons_append,
      List.nil_append, Primitive.xs, between_cons, between_nil, and_true]
    constructorm* _ ∧ _ <;> linarith
  · have hcell := hspans.inCell r hr
    have hleft := hcell.lt_x hc
    have hright := hcell.right_le hc
    have hsize := (hcell.size_nonneg hc).1
    simp only [Rect.xs, Rect.right, between_cons, between_nil, and_true] at hright ⊢
    constructorm* _ ∧ _ <;> linarith

/-- **Nothing is drawn outside of the diagram**: every line, shape, text and area lies within its
    width, and between its top and its bottom. -/
theorem coordinates_layout (es : Series) (rung : Int) {c : Config Rat} (hc : c.Ample)
    (hspacing : 0 < c.legSpacing) (hsides : c.Sided) (hinset : 0 ≤ c.railInset)
    (hmargin : 0 ≤ c.bottomMargin) :
    let d := layout es rung c
    (∀ p ∈ d.primitives, Between 0 d.width p.xs ∧ Between d.top (d.top + d.height) p.ys) ∧
    ∀ r ∈ d.regions,
      Between 0 d.width r.bounds.xs ∧ Between d.top (d.top + d.height) r.bounds.ys := by
  obtain ⟨hxs, hxs'⟩ := xs_layout es rung hc hsides
  obtain ⟨hys, hys'⟩ := ys_layout es rung hspacing.le hinset hmargin
  exact ⟨fun p hp => ⟨between_flatMap.1 hxs p hp, between_flatMap.1 hys p hp⟩,
    fun r hr => ⟨between_flatMap.1 hxs' r hr, between_flatMap.1 hys' r hr⟩⟩

/-- The upper legs of this rung rise above the rail, and its box has so many operands that it is
    higher than the least one. -/
theorem coordinates_layout_raised :
    let c : Config Rat := .standard
    let d := layout (RungText.elements "[[XIC(A),,XIO(B)],XIC(C)]BTD(D,1,E,2,3)") 0 c
    (c.Ample ∧ 0 < c.legSpacing ∧ c.Sided ∧ 0 ≤ c.railInset ∧ 0 ≤ c.bottomMargin) ∧ d.top < 0 ∧
    (∃ r ∈ d.regions, glyphOf r.instruction = .box ∧ boxHeight 0 < r.bounds.height) ∧
    (∀ p ∈ d.primitives, Between 0 d.width p.xs ∧ Between d.top (d.top + d.height) p.ys) ∧
    ∀ r ∈ d.regions,
      Between 0 d.width r.bounds.xs ∧ Between d.top (d.top + d.height) r.bounds.ys := by
  intro c d
  have hsides : c.Sided := by constructor <;> decide
  have hspacing : 0 < c.legSpacing := by decide
  have hinset : 0 ≤ c.railInset := by decide
  have hmargin : 0 ≤ c.bottomMargin := by decide
  exact ⟨⟨Config.ample_standard, hspacing, hsides, hinset, hmargin⟩, by decide +kernel,
    by decide +kernel, coordinates_layout _ 0 Config.ample_standard hspacing hsides hinset hmargin⟩

end RelayLadder.Layout
