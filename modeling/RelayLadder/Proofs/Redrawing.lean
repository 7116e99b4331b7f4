/-
  Drawing a rung again after instructions in it were exchanged for others with cells of the same
  width.

  * `KeepsCells`: a function of numbered instructions keeps the widths of their cells;
  * `Drawing.Redrawn` relates two drawings: they go as far to the right and have the same branches,
    and the areas of instructions that stay what they are stay where they are;
  * `redrawn_drawSeries`: so is a series drawn again, with such a function applied to it;
  * `replace_moves_nothing_else`: replacing an instruction of a rung by one with a cell of the same
    width moves neither the branches nor any other instruction.

  How far the drawing reaches up and down may change, since boxes grow with their operands.
-/
import Mathlib.Data.List.Forall2
import RelayLadder.Proofs.Regions
import RelayLadder.Proofs.Replacement

namespace RelayLadder.Layout

variable {α : Type}

/-! ## Cells that stay as wide as they are -/

/-- The function keeps the widths of the cells of these instructions, the first of which has the
    number `k`. -/
def KeepsCells (c : Config α) (f : Nat → Instruction → Instruction) (k : Nat)
    (is : List Instruction) : Prop :=
  ∀ n i, is[n]? = some i → cellWidth c (f (k + n) i) = cellWidth c i

namespace KeepsCells

variable {c : Config α} {f : Nat → Instruction → Instruction} {k : Nat}

theorem head {i : Instruction} {is : List Instruction} (h : KeepsCells c f k (i :: is)) :
    cellWidth c (f k i) = cellWidth c i :=
  h 0 i rfl

theorem tail {i : Instruction} {is : List Instruction} (h : KeepsCells c f k (i :: is)) :
    KeepsCells c f (k + 1) is := by
  intro n j hj
  rw [Nat.add_assoc, Nat.add_comm 1]
  exact h (n + 1) j hj

theorem left {is js : List Instruction} (h : KeepsCells c f k (is ++ js)) :
    KeepsCells c f k is := by
  intro n i hi
  obtain ⟨hn, -⟩ := List.getElem?_eq_some_iff.1 hi
  exact h n i ((List.getElem?_append_left hn).trans hi)

theorem right {is js : List Instruction} (h : KeepsCells c f k (is ++ js)) :
    KeepsCells c f (k + is.length) js := by
  intro n i hi
  rw [Nat.add_assoc]
  refine h (is.length + n) i ?_
  rw [List.getElem?_append_right (Nat.le_add_right _ _), Nat.add_sub_cancel_left, hi]

end KeepsCells

/-- Exchanging one instruction for one with a cell of the same width keeps the widths of all
    cells. -/
theorem keepsCells_exchangeAt {c : Config α} {is : List Instruction} {target : Nat}
    {old x : Instruction} (hold : is[target]? = some old)
    (hcell : cellWidth c x = cellWidth c old) : KeepsCells c (exchangeAt target x) 0 is := by
  intro n i hi
  rw [Nat.zero_add]
  by_cases hn : n = target
  · subst hn
    obtain rfl := Option.some.inj (hold.symm.trans hi)
    rw [exchangeAt_self, hcell]
  · rw [exchangeAt_of_ne hn]

/-! ## Drawings of the same shape -/

/-- The area of the second region is that of the same number, and has not moved if the function
    leaves its instruction as it is. -/
def HitRegion.Redrawn (f : Nat → Instruction → Instruction) (r s : HitRegion α) : Prop :=
  s.index = r.index ∧ (f r.index r.instruction = r.instruction → s = r)

/-- Both drawings end at the same x and have the same branches, and the areas of instructions that
    the function leaves as they are have not moved. -/
structure Drawing.Redrawn (f : Nat → Instruction → Instruction) (a b : Drawing α) : Prop where
  x : b.x = a.x
  index : b.index = a.index
  branches : b.branches = a.branches
  regions : List.Forall₂ (HitRegion.Redrawn f) a.regions b.regions

section
variable {f : Nat → Instruction → Instruction}

theorem Drawing.redrawn_start (x y : α) (index : Nat) :
    (Drawing.start x y index).Redrawn f (Drawing.start x y index) :=
  ⟨rfl, rfl, rfl, .nil⟩

theorem Drawing.Redrawn.of_alike {a a' b b' : Drawing α} (h : a.Redrawn f b) (ha : a'.Alike a)
    (hb : b'.Alike b) : a'.Redrawn f b' := by
  refine ⟨?_, ?_, ?_, ?_⟩
  · rw [hb.x, h.x, ha.x]
  · rw [hb.index, h.index, ha.index]
  · rw [hb.branches, h.branches, ha.branches]
  · rw [hb.regions, ha.regions]
    exact h.regions

/-- Of regions drawn again, those of the numbers at which nothing is changed are found as before. -/
theorem find?_index_of_redrawn {rs ss : List (HitRegion α)}
    (h : List.Forall₂ (HitRegion.Redrawn f) rs ss) {j : Int}
    (hf : ∀ (n : Nat) i, (n : Int) = j → f n i = i) :
    (ss.find? fun r => (r.index : Int) == j) = rs.find? fun r => (r.index : Int) == j := by
  induction h with
  | nil => rfl
  | @cons r s rs ss hrs _ ih =>
    rw [List.find?_cons, List.find?_cons, hrs.1, ih]
    by_cases hj : (r.index : Int) = j
    · rw [hrs.2 (hf r.index r.instruction hj)]
    · rw [beq_eq_false_iff_ne.2 hj]

/-- The legs are drawn again one by one, each at its y. -/
def RedrawnLegs (f : Nat → Instruction → Instruction) :
    List (Drawing α × α) → List (Drawing α × α) → Prop :=
  List.Forall₂ fun p q => p.1.Redrawn f q.1 ∧ q.2 = p.2

namespace RedrawnLegs

variable {legs legs' : List (Drawing α × α)}

/-- What is the same for each leg drawn again is the same for all of them. -/
theorem map_eq {β : Type} (h : RedrawnLegs f legs legs') (g : Drawing α × α → β)
    (hg : ∀ p q : Drawing α × α, p.1.Redrawn f q.1 → q.2 = p.2 → g q = g p) :
    legs'.map g = legs.map g := by
  induction h with
  | nil => rfl
  | cons hleg _ ih => rw [List.map_cons, List.map_cons, hg _ _ hleg.1 hleg.2, ih]

theorem ys_eq (h : RedrawnLegs f legs legs') : legs'.map (·.2) = legs.map (·.2) :=
  h.map_eq _ fun _ _ _ hy => hy

theorem ends_eq (h : RedrawnLegs f legs legs') : legs'.map (·.1.x) = legs.map (·.1.x) :=
  h.map_eq _ fun _ _ hleg _ => hleg.x

theorem index_eq (h : RedrawnLegs f legs legs') (index : Nat) :
    legs'.foldl (fun _ leg => leg.1.index) index = legs.foldl (fun _ leg => leg.1.index) index := by
  have hmap := h.map_eq (·.1.index) fun _ _ hleg _ => hleg.index
  have hfold := congrArg (List.foldl (fun _ next => next) index) hmap
  rwa [List.foldl_map, List.foldl_map] at hfold

theorem branches_eq (h : RedrawnLegs f legs legs') :
    legs'.flatMap (·.1.branches) = legs.flatMap (·.1.branches) := by
  rw [List.flatMap_def, List.flatMap_def, h.map_eq (·.1.branches) fun _ _ hleg _ => hleg.branches]

theorem regions (h : RedrawnLegs f legs legs') : List.Forall₂ (HitRegion.Redrawn f)
    (legs.flatMap (·.1.regions)) (legs'.flatMap (·.1.regions)) :=
  List.rel_flatMap h fun _ _ hleg => hleg.1.regions

end RedrawnLegs

variable [Scalar α]

/-! ## Instructions and branches drawn again -/

theorem Drawing.Redrawn.append {a a' b b' : Drawing α} (ha : a.Redrawn f a') (hb : b.Redrawn f b') :
    (a.append b).Redrawn f (a'.append b') := by
  refine ⟨hb.x, hb.index, ?_, List.rel_append ha.regions hb.regions⟩
  rw [append_branches, append_branches, ha.branches, hb.branches]

theorem redrawn_placeInstruction (ctx : Context α) (i : Instruction) (x y : α) (index : Nat)
    (hcell : cellWidth ctx.config (f index i) = cellWidth ctx.config i) :
    (placeInstruction ctx i x y index).Redrawn f (placeInstruction ctx (f index i) x y index) := by
  refine ⟨?_, rfl, rfl, .cons ⟨rfl, fun hsame => ?_⟩ .nil⟩
  · simp only [placeInstruction, hcell]
  · have hsame : f index i = i := hsame
    rw [hsame]

theorem RedrawnLegs.joinLegs {legs legs' : List (Drawing α × α)} (h : RedrawnLegs f legs legs')
    (ctx : Context α) (x y : α) (index : Nat) :
    (joinLegs ctx x y index legs).Redrawn f (joinLegs ctx x y index legs') := by
  by_cases hne : legs = []
  · subst hne
    cases h
    exact Drawing.redrawn_start x y index
  have hne' : legs' ≠ [] := fun h' => hne (by subst h'; cases h; rfl)
  have hmerge := mergeX_congr (x + ctx.config.fanWidth) h.ends_eq
  refine ⟨?_, ?_, ?_, ?_⟩
  · rw [x_joinLegs ctx x y index hne', x_joinLegs ctx x y index hne, hmerge]
  · rw [index_joinLegs, index_joinLegs, h.index_eq]
  · rw [branches_joinLegs ctx x y index hne', branches_joinLegs ctx x y index hne, h.branches_eq,
      branchGeometry, branchGeometry, hmerge, h.ys_eq, h.ends_eq]
  · rw [regions_joinLegs, regions_joinLegs]
    exact h.regions

/-! ## Series drawn again -/

/-- **A series is drawn again element by element**: if its first element and what is drawn behind it
    are. -/
theorem Drawing.Redrawn.cons {ctx : Context α} {x y : α} {index : Nat} {e e' : Element}
    {es es' : Series}
    (hfirst : (drawElement ctx x y index e).Redrawn f (drawElement ctx x y index e'))
    (hrest : (drawSeries ctx (drawElement ctx x y index e).x y (drawElement ctx x y index e).index
      es).Redrawn f (drawSeries ctx (drawElement ctx x y index e).x y
        (drawElement ctx x y index e).index es')) :
    (drawSeries ctx x y index (e :: es)).Redrawn f (drawSeries ctx x y index (e' :: es')) := by
  have hcons := drawSeries_cons ctx x y index e' es'
  rw [hfirst.x, hfirst.index] at hcons
  exact (hfirst.append hrest).of_alike (drawSeries_cons ctx x y index e es) hcons

/-- **A series is drawn again** with a function applied to its instructions, if that keeps the
    widths of their cells. -/
theorem redrawn_drawSeries (es : Series) : ∀ (ctx : Context α) (x y : α) (k : Nat),
    KeepsCells ctx.config f k (Series.instructions es) →
    (drawSeries ctx x y k es).Redrawn f (drawSeries ctx x y k (Series.mapNumbered f k es)) := by
  refine Series.induction
    (P := fun es => ∀ (ctx : Context α) (x y : α) (k : Nat),
      KeepsCells ctx.config f k (Series.instructions es) →
      (drawSeries ctx x y k es).Redrawn f (drawSeries ctx x y k (Series.mapNumbered f k es)))
    (Q := fun legs => ∀ (ctx : Context α) (entryX : α) (legY : Nat → α) (number k : Nat),
      KeepsCells ctx.config f k (Legs.instructions legs) →
      RedrawnLegs f (placeLegs ctx entryX legY number k legs)
        (placeLegs ctx entryX legY number k (Legs.mapNumbered f k legs)))
    ?nil ?instr ?branch ?noLegs ?leg es
  case nil =>
    intro ctx x y k _
    rw [Series.mapNumbered, drawSeries, placeSeries]
    exact Drawing.redrawn_start x y k
  case instr =>
    intro i es ih ctx x y k h
    rw [Series.instructions] at h
    rw [Series.mapNumbered]
    exact .cons (redrawn_placeInstruction ctx i x y k h.head) (ih ctx _ y (k + 1) h.tail)
  case branch =>
    intro legs es ihl ih ctx x y k h
    rw [Series.instructions] at h
    have hindex : (drawElement ctx x y k (.branch legs)).index =
        k + (Legs.instructions legs).length := by
      have hseries := index_drawSeries ctx x y k [.branch legs]
      rw [(drawSeries_singleton ctx x y k _).index, Series.instructions, Series.instructions,
        List.append_nil] at hseries
      exact hseries
    rw [Series.mapNumbered]
    refine .cons ?_ ?_
    · rw [drawElement, drawElement, Legs.length_mapNumbered]
      exact (ihl ctx _ _ 0 k h.left).joinLegs ctx x y k
    · rw [hindex]
      exact ih ctx _ y _ h.right
  case noLegs =>
    intro ctx entryX legY number k _
    rw [Legs.mapNumbered, placeLegs]
    exact .nil
  case leg =>
    intro leg legs ih ihl ctx entryX legY number k h
    rw [Legs.instructions] at h
    have hleg := ih (ctx.intoLeg number) entryX (legY number) k h.left
    rw [Legs.mapNumbered, placeLegs_cons, placeLegs_cons, hleg.index, index_drawSeries]
    exact .cons ⟨hleg, rfl⟩ (ihl ctx entryX legY (number + 1) _ h.right)

end

/-! ## Replacing an instruction -/

variable [Scalar α]

/-- **Replacing an instruction by one with a cell of the same width moves nothing else**: in a rung
    without empty legs the diagram keeps its width and the length of its main rail, all branches
    stay where they are, and so do the areas of all other instructions. -/
theorem replace_moves_nothing_else (r : Rung) (hfilled : Series.isFilled r.elements = true)
    {index : Int} {old x : Instruction} (hold : r.instructionAt index = .ok old) (rung : Int)
    {c : Config α} (hcell : cellWidth c x = cellWidth c old) :
    ∃ new, r.replace index x = .ok new ∧
      let before := layout r.elements rung c
      let after := layout new.elements rung c
      after.width = before.width ∧ after.railEndX = before.railEndX ∧
        after.branches = before.branches ∧
        ∀ j : Int, j ≠ index → after.region j = before.region j := by
  obtain ⟨hindex, hmem⟩ := Rung.getElem?_of_instructionAt hold
  refine ⟨_, Rung.replace_eq_ok hfilled hindex x, ?_⟩
  intro before after
  have hbody : (placeRung c rung r.elements).Redrawn (exchangeAt index.toNat x)
      (placeRung c rung (r.elements.replaceAt index.toNat x)) :=
    redrawn_drawSeries r.elements ⟨c, rung, []⟩ c.startX c.railY 0
      (keepsCells_exchangeAt hmem hcell)
  have hrail : after.railEndX = before.railEndX := hbody.x
  refine ⟨congrArg (· + c.rightMargin) hrail, hrail, hbody.branches, fun j hj => ?_⟩
  have hfind : (after.regions.find? fun r => (r.index : Int) == j) =
      before.regions.find? fun r => (r.index : Int) == j :=
    find?_index_of_redrawn hbody.regions fun n i hn => exchangeAt_of_ne (by omega) i
  unfold Diagram.region
  rw [hfind]
  rfl

/-- The box, two branches deep, grows by four operands, and the diagram with it. -/
theorem replace_moves_nothing_else_grown :
    let c : Config Rat := .standard
    let old : Instruction := ⟨"MOV", .binary "1" "N", by decide⟩
    let x : Instruction := ⟨"CTU", .nary ["a", "b", "c", "d", "e", "f"], by decide⟩
    let r : Rung := .ofElements 0 [.instr ⟨"XIC", .unary "A", by decide⟩,
      .branch [[.branch [[.instr old], [.instr ⟨"OTE", .unary "B", by decide⟩]]],
        [.instr ⟨"NOP", .nullary, by decide⟩]]]
    (Series.isFilled r.elements = true ∧ r.instructionAt 1 = .ok old ∧
      cellWidth c x = cellWidth c old) ∧
      ∃ new, r.replace 1 x = .ok new ∧
        let before := layout r.elements 0 c
        let after := layout new.elements 0 c
        after.width = before.width ∧ after.railEndX = before.railEndX ∧
          after.branches = before.branches ∧
          ∀ j : Int, j ≠ 1 → after.region j = before.region j := by
  intro c old x r
  have hfilled : Series.isFilled r.elements = true := by decide +kernel
  have hold : r.instructionAt 1 = .ok old :=
    Rung.instructionAt_eq_ok_iff.2 ⟨⟨⟨[(1, 0), (0, 0)], 0, old⟩, 1⟩, by decide +kernel, rfl⟩
  have hcell : cellWidth c x = cellWidth c old := by decide +kernel
  exact ⟨⟨hfilled, hold, hcell⟩, replace_moves_nothing_else r hfilled hold 0 hcell⟩

end RelayLadder.Layout
