/-
  How far the areas of drawn instructions reach, in exact coordinates.

  * `spans_drawSeries`: every area of a drawn series is that of an instruction drawn in a cell
    between the left and the right end of the series;
  * `seriesFall` and `seriesLift`: how far the areas of a series reach below its rail, and how far
    above it the middle of one can be (`bottom_le_drawSeries`, `le_centerY_drawSeries`).  Both are
    the reach of a measure of its instructions (`measure_le_drawSeries`).
-/
import Mathlib.Tactic.Linarith
import RelayLadder.Proofs.Drawing

namespace RelayLadder.Layout

open Scalar

/-! ## The largest of some numbers -/

theorem le_greatest_left (a b : Rat) : a ≤ greatest a b := by
  unfold greatest
  split <;> linarith

theorem le_greatest_right (a b : Rat) : b ≤ greatest a b := by
  unfold greatest
  split <;> linarith

theorem greatest_le {a b bound : Rat} (ha : a ≤ bound) (hb : b ≤ bound) :
    greatest a b ≤ bound := by
  unfold greatest
  split <;> assumption

theorem le_greatestOf (a : Rat) (as : List Rat) : ∀ b ∈ a :: as, b ≤ greatestOf a as := by
  unfold greatestOf
  induction as generalizing a with
  | nil => simp
  | cons b as ih =>
    intro d hd
    simp only [List.mem_cons] at hd ih
    rw [List.foldl_cons]
    have hfirst := ih (greatest a b) (greatest a b) (.inl rfl)
    rcases hd with rfl | rfl | hd
    · exact (le_greatest_left _ _).trans hfirst
    · exact (le_greatest_right _ _).trans hfirst
    · exact ih _ d (.inr hd)

/-! ## Single instructions -/

section
variable {α : Type} [Scalar α]

/-- The x of the middle of a rectangle. -/
def Rect.centerX (r : Rect α) : α := r.x + r.width / 2

/-- The y of the middle of a rectangle. -/
def Rect.centerY (r : Rect α) : α := r.y + r.height / 2

end

theorem Rect.contains_iff {a : Rect Rat} {x y : Rat} :
    a.contains x y = true ↔ a.x ≤ x ∧ x ≤ a.right ∧ a.y ≤ y ∧ y ≤ a.bottom := by
  simp [contains, and_assoc]

/-- The cells hold the areas of the instructions drawn in them, and fans take some width. -/
structure Config.Ample (c : Config Rat) : Prop where
  contact : 50 ≤ c.contactCell
  box : 40 ≤ c.boxCell
  generic : 90 ≤ c.genericCell
  fan : 0 < c.fanWidth

theorem Config.ample_standard : (Config.standard : Config Rat).Ample := by
  constructor <;> decide

theorem boxHeight_pos (n : Nat) : (0 : Rat) < boxHeight n := by
  have := le_greatest_left (50 : Rat) (22 + 13 * (n : Rat))
  unfold boxHeight
  linarith

/-- The area of an instruction lies in its cell, and does not touch the left end of the cell. -/
theorem bounds_drawInstruction {c : Config Rat} (hc : c.Ample) (i : Instruction) (x y : Rat) :
    x < (drawInstruction c i x y).bounds.x ∧
      (drawInstruction c i x y).bounds.right ≤ x + cellWidth c i ∧
      0 ≤ (drawInstruction c i x y).bounds.width ∧
      0 ≤ (drawInstruction c i x y).bounds.height := by
  obtain ⟨hcontact, hbox, hgeneric, -⟩ := hc
  have hheight := boxHeight_pos i.values.length
  unfold drawInstruction cellWidth
  cases glyphOf i <;>
    simp only [drawContact, drawCoil, drawBox, drawGeneric, Rect.right] <;>
    refine ⟨?_, ?_, ?_, ?_⟩ <;> linarith

/-! ## From the left end to the right end -/

/-- The area is that of an instruction drawn in a cell between the two ends. -/
def InCell (c : Config Rat) (left right : Rat) (r : HitRegion Rat) : Prop :=
  ∃ x y, left ≤ x ∧ x + cellWidth c r.instruction ≤ right ∧
    r.bounds = (drawInstruction c r.instruction x y).bounds

namespace InCell

variable {c : Config Rat} {left right : Rat} {r : HitRegion Rat}

theorem mono {left' right' : Rat} (h : InCell c left right r) (hleft : left' ≤ left)
    (hright : right ≤ right') : InCell c left' right' r := by
  obtain ⟨x, y, hx, hcell, hbounds⟩ := h
  exact ⟨x, y, hleft.trans hx, hcell.trans hright, hbounds⟩

theorem lt_x (h : InCell c left right r) (hc : c.Ample) : left < r.bounds.x := by
  obtain ⟨x, y, hx, -, hbounds⟩ := h
  rw [hbounds]
  exact hx.trans_lt (bounds_drawInstruction hc r.instruction x y).1

theorem right_le (h : InCell c left right r) (hc : c.Ample) : r.bounds.right ≤ right := by
  obtain ⟨x, y, -, hcell, hbounds⟩ := h
  rw [hbounds]
  exact (bounds_drawInstruction hc r.instruction x y).2.1.trans hcell

theorem size_nonneg (h : InCell c left right r) (hc : c.Ample) :
    0 ≤ r.bounds.width ∧ 0 ≤ r.bounds.height := by
  obtain ⟨x, y, -, -, hbounds⟩ := h
  rw [hbounds]
  exact (bounds_drawInstruction hc r.instruction x y).2.2

end InCell

/-- The drawing goes to the right from `left`, and its areas lie in cells on the way. -/
structure Spans (c : Config Rat) (left : Rat) (d : Drawing Rat) : Prop where
  le : left ≤ d.x
  inCell : ∀ r ∈ d.regions, InCell c left d.x r

namespace Spans

variable {c : Config Rat} {left : Rat}

theorem of_alike {a b : Drawing Rat} (h : Spans c left b) (hab : a.Alike b) : Spans c left a := by
  refine ⟨hab.x ▸ h.le, fun r hr => ?_⟩
  rw [hab.x]
  exact h.inCell r (hab.regions ▸ hr)

theorem append {a b : Drawing Rat} (ha : Spans c left a) (hb : Spans c a.x b) :
    Spans c left (a.append b) := by
  refine ⟨ha.le.trans hb.le, fun r hr => ?_⟩
  rcases List.mem_append.1 hr with hr | hr
  · exact (ha.inCell r hr).mono (le_refl left) hb.le
  · exact (hb.inCell r hr).mono ha.le (le_refl b.x)

end Spans

theorem spans_placeInstruction {ctx : Context Rat} (hc : ctx.config.Ample) (i : Instruction)
    (x y : Rat) (index : Nat) : Spans ctx.config x (placeInstruction ctx i x y index) := by
  obtain ⟨hleft, hright, hwidth, -⟩ := bounds_drawInstruction hc i x y
  refine ⟨?_, fun r hr => ?_⟩
  · simp only [Rect.right] at hright
    simp only [placeInstruction]
    linarith
  · obtain rfl := List.mem_singleton.1 hr
    exact ⟨x, y, le_refl x, le_refl _, rfl⟩

/-- The legs of a branch rejoin behind the end of each. -/
theorem le_mergeX (entryX : Rat) (legs : List (Drawing Rat × Rat)) :
    ∀ leg ∈ legs, leg.1.x ≤ mergeX entryX legs := by
  intro leg h
  cases legs with
  | nil => cases h
  | cons first rest =>
    have hwidest := le_greatestOf (first.1.x - entryX) (rest.map fun leg => leg.1.x - entryX)
      (leg.1.x - entryX) (List.mem_map_of_mem (f := fun leg => leg.1.x - entryX) h)
    unfold mergeX
    linarith

/-- A branch ends behind each of its legs. -/
theorem x_add_le_joinLegs (ctx : Context Rat) (x y : Rat) (index : Nat)
    (legs : List (Drawing Rat × Rat)) :
    ∀ leg ∈ legs, leg.1.x + ctx.config.fanWidth ≤ (joinLegs ctx x y index legs).x := by
  intro leg h
  cases legs with
  | nil => cases h
  | cons first rest =>
    let width (leg : Drawing Rat × Rat) : Rat := leg.1.x - (x + ctx.config.fanWidth)
    have hwidest := le_greatestOf (width first) (rest.map width) (width leg)
      (List.mem_map_of_mem h)
    simp only [joinLegs]
    simp only [width] at hwidest
    linarith

theorem spans_joinLegs {ctx : Context Rat} (hc : ctx.config.Ample) {x y : Rat} {index : Nat}
    {legs : List (Drawing Rat × Rat)}
    (h : ∀ leg ∈ legs, Spans ctx.config (x + ctx.config.fanWidth) leg.1) :
    Spans ctx.config x (joinLegs ctx x y index legs) := by
  have hfan := hc.fan
  have hend := x_add_le_joinLegs ctx x y index legs
  refine ⟨?_, fun r hr => ?_⟩
  · cases legs with
    | nil => exact le_refl x
    | cons first rest =>
      have hle := (h first List.mem_cons_self).le
      have := hend first List.mem_cons_self
      linarith
  · rw [regions_joinLegs] at hr
    obtain ⟨leg, hleg, hr⟩ := List.mem_flatMap.1 hr
    have := hend leg hleg
    exact ((h leg hleg).inCell r hr).mono (by linarith) (by linarith)

/-- **A drawn series goes from left to right, and its areas lie in cells on the way.** -/
theorem spans_drawSeries (es : Series) : ∀ (ctx : Context Rat) (x y : Rat) (index : Nat),
    ctx.config.Ample → Spans ctx.config x (drawSeries ctx x y index es) := by
  refine Series.induction
    (P := fun es => ∀ (ctx : Context Rat) (x y : Rat) (index : Nat),
      ctx.config.Ample → Spans ctx.config x (drawSeries ctx x y index es))
    (Q := fun legs => ∀ (ctx : Context Rat) (entryX : Rat) (legY : Nat → Rat) (leg index : Nat),
      ctx.config.Ample → ∀ p ∈ placeLegs ctx entryX legY leg index legs,
        Spans ctx.config entryX p.1)
    ?nil ?instr ?branch ?noLegs ?leg es
  case nil =>
    intro ctx x y index _
    rw [drawSeries, placeSeries]
    refine ⟨le_refl x, fun r hr => ?_⟩
    cases hr
  case instr =>
    intro i es ih ctx x y index hc
    refine Spans.of_alike ?_ (drawSeries_cons ctx x y index (.instr i) es)
    exact (spans_placeInstruction hc i x y index).append (ih ctx _ y _ hc)
  case branch =>
    intro legs es ihl ih ctx x y index hc
    refine Spans.of_alike ?_ (drawSeries_cons ctx x y index (.branch legs) es)
    exact (spans_joinLegs hc (ihl ctx _ _ 0 index hc)).append (ih ctx _ y _ hc)
  case noLegs =>
    intro ctx entryX legY leg index _ p hp
    rw [placeLegs] at hp
    cases hp
  case leg =>
    intro es legs ih ihl ctx entryX legY leg index hc p hp
    rw [placeLegs_cons, List.mem_cons] at hp
    rcases hp with rfl | hp
    · exact ih (ctx.intoLeg leg) entryX (legY leg) index hc
    · exact ihl ctx entryX legY (leg + 1) _ hc p hp

theorem spans_drawElement {ctx : Context Rat} (hc : ctx.config.Ample) (x y : Rat) (index : Nat)
    (e : Element) : Spans ctx.config x (drawElement ctx x y index e) :=
  (spans_drawSeries [e] ctx x y index hc).of_alike (drawSeries_singleton ctx x y index e).symm

/-! ## Above and below the rail -/

mutual
/-- How far some measure of the instructions of a series reaches on one side of its rail: upward
    if `sign` is -1, downward if it is 1. -/
def seriesReach (c : Config Rat) (sign : Rat) (measure : Instruction → Rat) : Series → Rat
  | [] => 0
  | .instr i :: es => greatest (measure i) (seriesReach c sign measure es)
  | .branch legs :: es =>
    greatest (legsReach c sign measure (legY c 0 legs.length) 0 legs)
      (seriesReach c sign measure es)

/-- The same for the legs of a branch, from leg number `leg` on, that run at an offset from its
    rail. -/
def legsReach (c : Config Rat) (sign : Rat) (measure : Instruction → Rat) (offset : Nat → Rat)
    (leg : Nat) : Legs → Rat
  | [] => 0
  | es :: legs =>
    greatest (sign * offset leg + seriesReach c sign measure es)
      (legsReach c sign measure offset (leg + 1) legs)
end

theorem legY_eq_add (c : Config Rat) (y : Rat) (n leg : Nat) :
    legY c y n leg = y + legY c 0 n leg := by
  simp only [legY]
  linarith

/-- **No area of a drawn series goes beyond the reach of the series.** -/
theorem measure_le_drawSeries {c : Config Rat} {sign : Rat} {measure : Instruction → Rat}
    (extent : Rect Rat → Rat)
    (h : ∀ i x y, extent (drawInstruction c i x y).bounds = sign * y + measure i) (es : Series) :
    ∀ (ctx : Context Rat) (x y : Rat) (index : Nat), ctx.config = c →
      ∀ r ∈ (drawSeries ctx x y index es).regions,
        extent r.bounds ≤ sign * y + seriesReach c sign measure es := by
  refine Series.induction
    (P := fun es => ∀ (ctx : Context Rat) (x y : Rat) (index : Nat), ctx.config = c →
      ∀ r ∈ (drawSeries ctx x y index es).regions,
        extent r.bounds ≤ sign * y + seriesReach c sign measure es)
    (Q := fun legs => ∀ (ctx : Context Rat) (entryX y : Rat) (offset : Nat → Rat)
      (leg index : Nat), ctx.config = c →
      ∀ p ∈ placeLegs ctx entryX (fun leg => y + offset leg) leg index legs, ∀ r ∈ p.1.regions,
        extent r.bounds ≤ sign * y + legsReach c sign measure offset leg legs)
    ?nil ?instr ?branch ?noLegs ?leg es
  case nil =>
    intro ctx x y index _ r hr
    rw [drawSeries, placeSeries] at hr
    cases hr
  case instr =>
    intro i es ih ctx x y index hc r hr
    rw [(drawSeries_cons ctx x y index (.instr i) es).regions] at hr
    rw [seriesReach]
    rcases List.mem_append.1 hr with hr | hr
    · obtain rfl := List.mem_singleton.1 hr
      subst hc
      have := le_greatest_left (measure i) (seriesReach ctx.config sign measure es)
      refine (h i x y).le.trans ?_
      linarith
    · have := ih ctx _ y _ hc r hr
      have := le_greatest_right (measure i) (seriesReach c sign measure es)
      linarith
  case branch =>
    intro legs es ihl ih ctx x y index hc r hr
    rw [(drawSeries_cons ctx x y index (.branch legs) es).regions] at hr
    rw [seriesReach]
    rcases List.mem_append.1 hr with hr | hr
    · subst hc
      rw [drawElement, regions_joinLegs, funext (legY_eq_add ctx.config y legs.length)] at hr
      obtain ⟨p, hp, hr⟩ := List.mem_flatMap.1 hr
      have := ihl ctx _ y _ 0 index rfl p hp r hr
      have := le_greatest_left
        (legsReach ctx.config sign measure (legY ctx.config 0 legs.length) 0 legs)
        (seriesReach ctx.config sign measure es)
      linarith
    · have := ih ctx _ y _ hc r hr
      have := le_greatest_right (legsReach c sign measure (legY c 0 legs.length) 0 legs)
        (seriesReach c sign measure es)
      linarith
  case noLegs =>
    intro ctx entryX y offset leg index _ p hp
    rw [placeLegs] at hp
    cases hp
  case leg =>
    intro es legs ih ihl ctx entryX y offset leg index hc p hp r hr
    rw [placeLegs_cons, List.mem_cons] at hp
    rw [legsReach]
    rcases hp with rfl | hp
    · have := ih (ctx.intoLeg leg) entryX (y + offset leg) index hc r hr
      have := le_greatest_left (sign * offset leg + seriesReach c sign measure es)
        (legsReach c sign measure offset (leg + 1) legs)
      rw [mul_add] at *
      linarith
    · have := ihl ctx entryX y offset (leg + 1) _ hc p hp r hr
      have := le_greatest_right (sign * offset leg + seriesReach c sign measure es)
        (legsReach c sign measure offset (leg + 1) legs)
      linarith

/-- How far the area of an instruction reaches below its rail. -/
def fallOf (i : Instruction) : Rat := (drawInstruction .standard i 0 0).bounds.bottom

/-- How far above its rail the middle of the area of an instruction is. -/
def liftOf (i : Instruction) : Rat := -(drawInstruction .standard i 0 0).bounds.centerY

theorem bottom_drawInstruction (c : Config Rat) (i : Instruction) (x y : Rat) :
    (drawInstruction c i x y).bounds.bottom = 1 * y + fallOf i := by
  unfold fallOf drawInstruction
  cases glyphOf i <;>
    simp only [drawContact, drawCoil, drawBox, drawGeneric, Rect.bottom] <;> linarith

theorem neg_centerY_drawInstruction (c : Config Rat) (i : Instruction) (x y : Rat) :
    -(drawInstruction c i x y).bounds.centerY = -1 * y + liftOf i := by
  unfold liftOf drawInstruction
  cases glyphOf i <;>
    simp only [drawContact, drawCoil, drawBox, drawGeneric, Rect.centerY] <;> linarith

/-- How far the areas of a series reach below its rail. -/
def seriesFall (c : Config Rat) : Series → Rat := seriesReach c 1 fallOf

/-- How far above its rail the middle of an area of a series can be. -/
def seriesLift (c : Config Rat) : Series → Rat := seriesReach c (-1) liftOf

theorem bottom_le_drawSeries {ctx : Context Rat} {x y : Rat} {index : Nat} {es : Series}
    {r : HitRegion Rat} (hr : r ∈ (drawSeries ctx x y index es).regions) :
    r.bounds.bottom ≤ y + seriesFall ctx.config es := by
  have := measure_le_drawSeries Rect.bottom (bottom_drawInstruction ctx.config) es ctx x y index
    rfl r hr
  rwa [one_mul] at this

theorem le_centerY_drawSeries {ctx : Context Rat} {x y : Rat} {index : Nat} {es : Series}
    {r : HitRegion Rat} (hr : r ∈ (drawSeries ctx x y index es).regions) :
    y - seriesLift ctx.config es ≤ r.bounds.centerY := by
  have := measure_le_drawSeries (fun b => -b.centerY)
    (neg_centerY_drawInstruction ctx.config) es ctx x y index rfl r hr
  unfold seriesLift
  linarith

end RelayLadder.Layout
