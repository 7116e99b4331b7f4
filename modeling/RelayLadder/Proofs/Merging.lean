/-
  Where the legs of a branch run and where they merge, in exact coordinates.

  * `BranchGeometry.Merges`: the legs start one fan behind the left end of their branch, merge where
    the widest one ends, one fan before the right end, and are evenly spaced around the rail;
  * `BranchGeometry.lines`: the lines that a branch with this geometry is drawn with;
  * `Merged` is what a drawing keeps: its branches merge in this way, and the lines of its branches
    are all that it has of branch lines;
  * `merges_layout`: so does the diagram of a rung, for every branch in it.
-/
import Mathlib.Algebra.BigOperators.Group.List.Basic
import Mathlib.Algebra.Order.Field.Rat
import Mathlib.Data.List.Range
import Mathlib.Order.Bounds.Defs
import Mathlib.Tactic.Ring
import RelayLadder.Proofs.Conduction

namespace RelayLadder.Layout

open Scalar

/-! ## The geometry of a branch -/

namespace BranchGeometry

/-- The lines of a leg that runs at `y` and whose elements reach `endX`: from the rail to the leg,
    on to the point where the legs merge, if the leg ends before it, and back to the rail. -/
def legLines (g : BranchGeometry Rat) (y endX : Rat) : List (Line Rat) :=
  [⟨g.entryX, g.mainY, g.entryX, y, .branch, 2⟩] ++
    (if endX < g.mergeX then [⟨endX, y, g.mergeX, y, .branch, 2⟩] else []) ++
    [⟨g.mergeX, y, g.mergeX, g.mainY, .branch, 2⟩]

/-- The lines of a branch: a fan on its rail, those of each leg, and a fan on its rail again. -/
def lines (g : BranchGeometry Rat) : List (Line Rat) :=
  [⟨g.startX, g.mainY, g.entryX, g.mainY, .branch, 2⟩] ++
    (g.legYs.zip g.legEndXs).flatMap (fun leg => g.legLines leg.1 leg.2) ++
    [⟨g.mergeX, g.mainY, g.endX, g.mainY, .branch, 2⟩]

/-- The legs fan out, run evenly spaced around the rail, and merge where the widest one ends. -/
structure Merges (c : Config Rat) (g : BranchGeometry Rat) : Prop where
  entry : g.entryX = g.startX + c.fanWidth
  merge : IsGreatest {x | x ∈ g.legEndXs} g.mergeX
  width : ∃ widest, IsGreatest {w | w ∈ g.legWidths} widest ∧ g.mergeX = g.entryX + widest
  entry_le : g.entryX ≤ g.mergeX
  finish : g.endX = g.mergeX + c.fanWidth
  legs : g.legYs.length = g.legEndXs.length
  increasing : g.legYs.Pairwise (· < ·)
  spaced : g.legYs.IsChain fun y next => next = y + c.legSpacing
  average : g.legYs.sum / g.legYs.length = g.mainY

end BranchGeometry

/-! ## Where legs merge -/

theorem greatestOf_mem (a : Rat) (as : List Rat) : greatestOf a as ∈ a :: as := by
  unfold greatestOf
  induction as generalizing a with
  | nil => simp
  | cons b as ih =>
    rw [List.foldl_cons]
    rcases List.mem_cons.1 (ih (greatest a b)) with h | h
    · rw [h]
      unfold greatest
      split <;> simp
    · simp [h]

/-- The legs of a branch rejoin where the widest one ends. -/
theorem isGreatest_mergeX (entryX : Rat) {legs : List (Drawing Rat × Rat)} (h : legs ≠ []) :
    IsGreatest {x | x ∈ legs.map (·.1.x)} (mergeX entryX legs) := by
  constructor
  · cases legs with
    | nil => exact absurd rfl h
    | cons first rest =>
      have hwidest : greatestOf (first.1.x - entryX) (rest.map fun leg => leg.1.x - entryX) ∈
          (first :: rest).map fun leg => leg.1.x - entryX := greatestOf_mem _ _
      obtain ⟨leg, hleg, hwidth⟩ := List.mem_map.1 hwidest
      refine List.mem_map.2 ⟨leg, hleg, ?_⟩
      unfold mergeX
      linarith
  · intro x hx
    obtain ⟨leg, hleg, rfl⟩ := List.mem_map.1 hx
    exact le_mergeX entryX legs leg hleg

/-- The widths of some legs are greatest where their ends are. -/
theorem isGreatest_legWidths {g : BranchGeometry Rat}
    (h : IsGreatest {x | x ∈ g.legEndXs} g.mergeX) :
    IsGreatest {w | w ∈ g.legWidths} (g.mergeX - g.entryX) := by
  refine ⟨List.mem_map.2 ⟨g.mergeX, h.1, rfl⟩, fun w hw => ?_⟩
  obtain ⟨x, hx, rfl⟩ := List.mem_map.1 hw
  exact sub_le_sub_right (h.2 hx) g.entryX

/-! ## Where legs run -/

section
variable (c : Config Rat) (y : Rat) (n : Nat)

theorem legY_succ (leg : Nat) : legY c y n (leg + 1) = legY c y n leg + c.legSpacing := by
  simp only [legY]
  push_cast
  ring

theorem legY_lt_legY (hc : 0 < c.legSpacing) {a b : Nat} (h : a < b) :
    legY c y n a < legY c y n b := by
  have hab : (a : Rat) < b := by exact_mod_cast h
  have hmul := mul_lt_mul_of_pos_right hab hc
  simp only [legY]
  linarith

/-- The first `m` of `n` legs run, on the average, above the rail by half of the band of the legs
    that are left out. -/
theorem sum_legY (m : Nat) :
    ((List.range m).map (legY c y n)).sum = m * (y + (m - n) * c.legSpacing / 2) := by
  induction m with
  | zero => simp
  | succ m ih =>
    rw [List.range_succ, List.map_append, List.sum_append, ih]
    simp only [List.map_cons, List.map_nil, List.sum_cons, List.sum_nil, legY, bandHeight]
    push_cast
    ring

theorem spaced_legYs (m : Nat) :
    ((List.range m).map (legY c y n)).IsChain fun y next => next = y + c.legSpacing := by
  rw [List.isChain_map, List.isChain_range]
  intro leg _
  exact legY_succ c y n leg

theorem increasing_legYs (hc : 0 < c.legSpacing) (m : Nat) :
    ((List.range m).map (legY c y n)).Pairwise (· < ·) := by
  rw [List.pairwise_map]
  exact List.pairwise_lt_range.imp fun h => legY_lt_legY c y n hc h

theorem average_legYs (hn : n ≠ 0) : ((List.range n).map (legY c y n)).sum / n = y := by
  have hn' : (n : Rat) ≠ 0 := by exact_mod_cast hn
  rw [sum_legY, sub_self, zero_mul, zero_div, add_zero, mul_div_cancel_left₀ y hn']

end

/-! ## What a drawing keeps -/

theorem cellWidth_pos {c : Config Rat} (h : c.Valid) (i : Instruction) : 0 < cellWidth c i := by
  obtain ⟨⟨hcontact, hbox, hgeneric⟩, -⟩ := h.pos
  unfold cellWidth
  split <;> assumption

/-- The drawing goes to the right from `left`, its branches merge, and their lines are its branch
    lines. -/
structure Merged (c : Config Rat) (left : Rat) (d : Drawing Rat) : Prop where
  le : left ≤ d.x
  merges : ∀ g ∈ d.branches, g.Merges c
  lines : linesOf (· == .branch) d.primitives = d.branches.flatMap BranchGeometry.lines

theorem merged_start (c : Config Rat) (x y : Rat) (index : Nat) :
    Merged c x (.start x y index) :=
  ⟨le_refl x, nofun, rfl⟩

theorem Merged.append {c : Config Rat} {left : Rat} {a b : Drawing Rat} (ha : Merged c left a)
    (hb : Merged c a.x b) : Merged c left (a.append b) := by
  refine ⟨ha.le.trans hb.le, fun g hg => ?_, ?_⟩
  · rcases List.mem_append.1 hg with hg | hg
    · exact ha.merges g hg
    · exact hb.merges g hg
  · rw [Drawing.append_primitives, Drawing.append_branches, linesOf_append, ha.lines, hb.lines,
      List.flatMap_append]

/-- No line of an instruction is a branch line. -/
theorem linesOf_drawInstruction (c : Config Rat) (i : Instruction) (x y : Rat) :
    linesOf (· == .branch) (drawInstruction c i x y).primitives = [] := by
  unfold drawInstruction
  split
  case h_6 =>
    simp only [drawBox, linesOf_append, linesOf_operandLabels]
    rfl
  case h_7 =>
    simp only [drawGeneric]
    split <;> rfl
  all_goals rfl

theorem merged_placeInstruction {ctx : Context Rat} (hc : ctx.config.Valid) (i : Instruction)
    (x y : Rat) (index : Nat) : Merged ctx.config x (placeInstruction ctx i x y index) := by
  refine ⟨?_, nofun, ?_⟩
  · have := cellWidth_pos hc i
    simp only [placeInstruction]
    linarith
  · simp only [placeInstruction, linesOf_append, linesOf_drawInstruction]
    rfl

theorem linesOf_legConnectors (g : BranchGeometry Rat) (leg : Drawing Rat) (y : Rat) :
    linesOf (· == .branch) (legConnectors g.mainY g.entryX g.mergeX leg y) =
      g.legLines y leg.x := by
  unfold legConnectors BranchGeometry.legLines
  by_cases h : leg.x < g.mergeX
  · rw [if_pos h, if_pos h]
    rfl
  · rw [if_neg h, if_neg h]
    rfl

section
variable (ctx : Context Rat) (x y : Rat) {legs : List (Drawing Rat × Rat)}

/-- The connectors of a branch are the lines of its geometry. -/
theorem linesOf_branchLines :
    linesOf (· == .branch) (branchLines ctx.config x y legs) =
      (branchGeometry ctx x y legs).lines := by
  have hlegs : (branchGeometry ctx x y legs).legYs.zip (branchGeometry ctx x y legs).legEndXs =
      legs.map fun leg => (leg.2, leg.1.x) := List.zip_map'
  have hleg (leg : Drawing Rat × Rat) :
      linesOf (· == .branch) (legConnectors y (x + ctx.config.fanWidth)
        (mergeX (x + ctx.config.fanWidth) legs) leg.1 leg.2) =
      (branchGeometry ctx x y legs).legLines leg.2 leg.1.x :=
    linesOf_legConnectors (branchGeometry ctx x y legs) leg.1 leg.2
  rw [BranchGeometry.lines, hlegs, List.flatMap_map, branchLines, linesOf_append, linesOf_append,
    linesOf_flatMap]
  simp only [hleg]
  rfl

/-- A branch merges as it should, if its legs run at their places and go to the right. -/
theorem merges_branchGeometry (hc : ctx.config.Valid) (hne : legs ≠ [])
    (hys : legs.map Prod.snd = (List.range legs.length).map (legY ctx.config y legs.length))
    (hle : ∀ leg ∈ legs, x + ctx.config.fanWidth ≤ leg.1.x) :
    (branchGeometry ctx x y legs).Merges ctx.config := by
  have hmerge := isGreatest_mergeX (x + ctx.config.fanWidth) hne
  have hlength : legs.length ≠ 0 := fun h => hne (List.length_eq_zero_iff.1 h)
  have hlegYs : (branchGeometry ctx x y legs).legYs =
      (List.range legs.length).map (legY ctx.config y legs.length) := hys
  refine ⟨rfl, hmerge, ⟨_, isGreatest_legWidths hmerge, (add_sub_cancel _ _).symm⟩, ?_, rfl, ?_,
    ?_, ?_, ?_⟩
  · obtain ⟨leg, hleg⟩ := List.exists_mem_of_ne_nil legs hne
    exact (hle leg hleg).trans (le_mergeX _ legs leg hleg)
  · simp only [branchGeometry, List.length_map]
  · rw [hlegYs]
    exact increasing_legYs _ _ _ hc.pos.2.1 _
  · rw [hlegYs]
    exact spaced_legYs _ _ _ _
  · rw [hlegYs, List.length_map, List.length_range]
    exact average_legYs _ _ _ hlength

theorem merged_joinLegs (hc : ctx.config.Valid) (index : Nat)
    (hys : legs.map Prod.snd = (List.range legs.length).map (legY ctx.config y legs.length))
    (h : ∀ leg ∈ legs, Merged ctx.config (x + ctx.config.fanWidth) leg.1) :
    Merged ctx.config x (joinLegs ctx x y index legs) := by
  by_cases hne : legs = []
  · subst hne
    exact merged_start _ x y index
  have hfan := fanWidth_pos hc
  have hmerges := merges_branchGeometry ctx x y hc hne hys fun leg hleg => (h leg hleg).le
  refine ⟨?_, fun g hg => ?_, ?_⟩
  · have hentry : x + ctx.config.fanWidth ≤ mergeX (x + ctx.config.fanWidth) legs :=
      hmerges.entry_le
    rw [x_joinLegs ctx x y index hne]
    linarith
  · rw [branches_joinLegs ctx x y index hne] at hg
    rcases List.mem_cons.1 hg with rfl | hg
    · exact hmerges
    · obtain ⟨leg, hleg, hg⟩ := List.mem_flatMap.1 hg
      exact (h leg hleg).merges g hg
  · rw [primitives_joinLegs ctx x y index hne, branches_joinLegs ctx x y index hne, linesOf_append,
      linesOf_branchLines, List.flatMap_cons, linesOf_flatMap, List.flatMap_assoc]
    exact congrArg _ (List.flatMap_congr fun leg hleg => (h leg hleg).lines)

end

/-- **The branches of a drawn series merge, and their lines are its branch lines.** -/
theorem merged_drawSeries (ctx : Context Rat) (hc : ctx.config.Valid) (es : Series) (x y : Rat)
    (index : Nat) : Merged ctx.config x (drawSeries ctx x y index es) := by
  refine drawSeries_invariant (fun x _ d => Merged ctx.config x d) (merged_start ctx.config)
    (fun x y a b ha hb => ha.append hb) (fun ctx' i x y index hctx => ?_)
    (fun ctx' x y index legs hctx hys h => ?_) es ctx x y index rfl
  · rw [← hctx] at hc ⊢
    exact merged_placeInstruction hc i x y index
  · rw [← hctx] at hc hys h ⊢
    exact merged_joinLegs ctx' x y hc index hys h

/-! ## Diagrams -/

/-- **Every branch of a rung is drawn, with all of its legs; these run evenly spaced around the
    rail, fan out and merge where the widest one ends, and the branch lines of the diagram are the
    lines of its branches**, in order. -/
theorem merges_layout (es : Series) (rung : Int) {c : Config Rat} (hc : c.Valid) :
    let d := layout es rung c
    d.branches.map (·.legYs.length) = Series.legCounts es ∧
    (∀ g ∈ d.branches, g.Merges c) ∧
    d.lines (· == .branch) = d.branches.flatMap BranchGeometry.lines := by
  intro d
  have hbody : Merged c c.startX (placeRung c rung es) :=
    merged_drawSeries ⟨c, rung, []⟩ hc es c.startX c.railY 0
  refine ⟨?_, hbody.merges, ?_⟩
  · exact legCounts_drawSeries es ⟨c, rung, []⟩ c.startX c.railY 0
  · rw [lines_eq_linesOf]
    exact hbody.lines

/-- The legs of the outer branch are a contact with a branch behind it, and an empty one. -/
theorem merges_layout_nested :
    let c : Config Rat := { Config.standard with legSpacing := 7, fanWidth := 1 / 2 }
    let es : Series := [.branch [[.instr ⟨"XIC", .unary "A", by decide⟩,
      .branch [[.instr ⟨"OTE", .unary "B", by decide⟩], [.instr ⟨"OTL", .unary "C", by decide⟩],
        [.instr ⟨"MOV", .binary "D" "E", by decide⟩]]], []]]
    let d := layout es 0 c
    c.Valid ∧ d.branches.map (·.legYs.length) = [2, 3] ∧ (∀ g ∈ d.branches, g.Merges c) ∧
      d.lines (· == .branch) = d.branches.flatMap BranchGeometry.lines := by
  intro c es d
  have hvalid : c.Valid := by decide +kernel
  obtain ⟨hcounts, hmerges, hlines⟩ := merges_layout es 0 hvalid
  exact ⟨hvalid, hcounts.trans (by decide +kernel), hmerges, hlines⟩

end RelayLadder.Layout
