/-
  Diagrams one below another do not overlap, and none of them is cut off, in exact coordinates.

  * `bandTop`: where the band of a diagram starts, by the heights and gaps in front of it;
  * `stackFrom_eq`: diagrams are moved so that their bands start there;
  * `Stack.Stands`: so each diagram stays in its band, two bands share at most the point where the
    one ends and the other starts, and all bands lie in the frame of the stack;
  * `Stack.Shows`: the document has the size of this frame, and a group for each diagram that is
    moved to its band;
  * `stands_stack`: both hold of every stack.
-/
import Mathlib.Algebra.Order.BigOperators.Group.List
import RelayLadder.Layout.Stack
import RelayLadder.Proofs.Containment
import RelayLadder.Proofs.Merging
import RelayLadder.Proofs.SvgTags

namespace RelayLadder.Layout

open Markup Scalar

/-! ## Bands -/

/-- The diagram of some rung, with margins that do not reach into it. -/
def Diagram.IsDrawn (d : Diagram Rat) : Prop :=
  ∃ (es : Series) (rung : Int) (c : Config Rat),
    c.Valid ∧ 0 ≤ c.railInset ∧ 0 ≤ c.bottomMargin ∧ d = layout es rung c

/-- How far up and down all that is in a diagram goes, its areas included. -/
def Diagram.ys (d : Diagram Rat) : List Rat :=
  d.primitives.flatMap Primitive.ys ++ d.regions.flatMap (·.bounds.ys)

/-- Where the band of diagram number `k` starts. -/
def bandTop (gap : Rat) (ds : List (Diagram Rat)) (k : Nat) : Rat :=
  ((ds.take k).map fun d => d.height + gap).sum

/-- The stack holds these diagrams, each in a band of its own. -/
structure Stack.Stands (s : Stack Rat) (gap : Rat) (ds : List (Diagram Rat)) : Prop where
  diagrams : s.placed.map Prod.snd = ds
  first : bandTop gap ds 0 = 0
  next : ∀ k d, ds[k]? = some d → bandTop gap ds (k + 1) = bandTop gap ds k + d.height + gap
  /-- A diagram is moved so that its upper end comes to the start of its band. -/
  lands : ∀ k shift d, s.placed[k]? = some (shift, d) → d.top + shift = bandTop gap ds k
  /-- All that is in a diagram comes into its band. -/
  holds : ∀ k shift d, s.placed[k]? = some (shift, d) →
    Between (bandTop gap ds k) (bandTop gap ds k + d.height) (d.ys.map (· + shift))
  /-- A point in two bands is the end of the upper and the start of the lower one. -/
  apart : ∀ j k upper lower, j < k → ds[j]? = some upper → ds[k]? = some lower →
    ∀ y, y ≤ bandTop gap ds j + upper.height → bandTop gap ds k ≤ y →
      y = bandTop gap ds j + upper.height ∧ y = bandTop gap ds k
  inside : ∀ k d, ds[k]? = some d →
    0 ≤ bandTop gap ds k ∧ 0 ≤ d.height ∧ bandTop gap ds k + d.height ≤ s.height
  height : s.height = (ds.map Diagram.height).sum + (ds.length - 1 : Nat) * gap
  width : ds = [] ∧ s.width = 0 ∨ IsGreatest {w | w ∈ ds.map Diagram.width} s.width

theorem Diagram.IsDrawn.between_ys {d : Diagram Rat} (h : d.IsDrawn) :
    Between d.top (d.top + d.height) d.ys := by
  obtain ⟨es, rung, c, hc, hinset, hmargin, rfl⟩ := h
  exact between_append.2 (ys_layout es rung hc.pos.2.1.le hinset hmargin)

theorem Diagram.IsDrawn.height_nonneg {d : Diagram Rat} (h : d.IsDrawn) : 0 ≤ d.height := by
  have hys := h.between_ys
  obtain ⟨es, rung, c, -, -, -, rfl⟩ := h
  -- the power rail is drawn between the two ends
  rw [ys, primitives_layout, List.flatMap_append, between_append, between_append] at hys
  obtain ⟨hlo, hhi⟩ := (between_cons.1 hys.1.1).1
  linarith

section
variable {gap : Rat} {ds : List (Diagram Rat)}

@[simp]
theorem bandTop_zero (gap : Rat) (ds : List (Diagram Rat)) : bandTop gap ds 0 = 0 := rfl

theorem bandTop_cons (gap : Rat) (d : Diagram Rat) (ds : List (Diagram Rat)) (k : Nat) :
    bandTop gap (d :: ds) (k + 1) = d.height + gap + bandTop gap ds k := by
  rw [bandTop, List.take_succ_cons, List.map_cons, List.sum_cons]
  rfl

theorem bandTop_succ {k : Nat} {d : Diagram Rat} (h : ds[k]? = some d) :
    bandTop gap ds (k + 1) = bandTop gap ds k + d.height + gap := by
  rw [bandTop, List.take_add_one, h, Option.toList_some, List.map_append, List.sum_append,
    List.map_cons, List.map_nil, List.sum_singleton, ← add_assoc]
  rfl

/-- Bands start one below another. -/
theorem bandTop_le_bandTop (h : ∀ d ∈ ds, 0 ≤ d.height + gap) {j k : Nat} (hjk : j ≤ k) :
    bandTop gap ds j ≤ bandTop gap ds k := by
  obtain ⟨n, rfl⟩ := Nat.exists_eq_add_of_le hjk
  have hrest : 0 ≤ (((ds.drop j).take n).map fun d => d.height + gap).sum := by
    refine List.sum_nonneg (List.forall_mem_map.2 fun d hd => h d ?_)
    exact List.mem_of_mem_drop (List.mem_of_mem_take hd)
  rw [bandTop, bandTop, List.take_add, List.map_append, List.sum_append]
  linarith

theorem bandTop_length (gap : Rat) (ds : List (Diagram Rat)) :
    bandTop gap ds ds.length = (ds.map Diagram.height).sum + ds.length * gap := by
  rw [bandTop, List.take_length, List.sum_map_add, List.map_const', List.sum_replicate,
    nsmul_eq_mul]

end

/-! ## Stacks -/

/-- **Diagrams are moved to where their bands start.** -/
theorem stackFrom_eq (gap offset : Rat) (ds : List (Diagram Rat)) :
    (stackFrom gap offset ds).2 = offset + bandTop gap ds ds.length ∧
      ∀ k, (stackFrom gap offset ds).1[k]? =
        ds[k]?.map fun d => (offset + bandTop gap ds k - d.top, d) := by
  induction ds generalizing offset with
  | nil => exact ⟨(add_zero offset).symm, fun k => rfl⟩
  | cons d ds ih =>
    obtain ⟨hlast, hplaced⟩ := ih (offset + (d.height + gap))
    refine ⟨?_, fun k => ?_⟩
    · rw [List.length_cons, bandTop_cons, ← add_assoc]
      exact hlast
    · cases k with
      | zero => simp [stackFrom]
      | succ k =>
        rw [List.getElem?_cons_succ, bandTop_cons, ← add_assoc offset]
        exact hplaced k

theorem getElem?_placed_stack (gap : Rat) (ds : List (Diagram Rat)) (k : Nat) :
    (stack gap ds).placed[k]? = ds[k]?.map fun d => (bandTop gap ds k - d.top, d) := by
  have h := (stackFrom_eq gap 0 ds).2 k
  rw [zero_add] at h
  exact h

theorem height_stack_eq_greatest (gap : Rat) (ds : List (Diagram Rat)) :
    (stack gap ds).height = greatest (bandTop gap ds ds.length - gap) 0 := by
  rw [← zero_add (bandTop gap ds ds.length), ← (stackFrom_eq gap 0 ds).1]
  rfl

theorem height_stack {gap : Rat} (hgap : 0 ≤ gap) {ds : List (Diagram Rat)}
    (hds : ∀ d ∈ ds, 0 ≤ d.height) :
    (stack gap ds).height = (ds.map Diagram.height).sum + (ds.length - 1 : Nat) * gap := by
  have hsum : 0 ≤ (ds.map Diagram.height).sum := List.sum_nonneg (List.forall_mem_map.2 hds)
  rw [height_stack_eq_greatest, bandTop_length, greatest]
  cases ds with
  | nil =>
    -- the gap that is taken away was never added
    split
    · simp
    · rename_i h
      simp only [List.map_nil, List.sum_nil, List.length_nil, Nat.zero_sub, Nat.cast_zero,
        zero_mul] at h ⊢
      linarith
  | cons d ds =>
    have hgaps : 0 ≤ (ds.length : Rat) * gap := mul_nonneg (Nat.cast_nonneg _) hgap
    rw [List.length_cons, Nat.add_sub_cancel, Nat.cast_succ, if_neg (by linarith)]
    ring

theorem width_stack (gap : Rat) (ds : List (Diagram Rat)) :
    ds = [] ∧ (stack gap ds).width = 0 ∨
      IsGreatest {w | w ∈ ds.map Diagram.width} (stack gap ds).width := by
  cases ds with
  | nil => exact .inl ⟨rfl, rfl⟩
  | cons d ds => exact .inr ⟨greatestOf_mem _ _, fun w hw => le_greatestOf _ _ w hw⟩

theorem Stack.stands {gap : Rat} (hgap : 0 ≤ gap) {ds : List (Diagram Rat)}
    (hds : ∀ d ∈ ds, d.IsDrawn) : (stack gap ds).Stands gap ds := by
  have hheight : ∀ d ∈ ds, 0 ≤ d.height := fun d hd => (hds d hd).height_nonneg
  have hstep : ∀ d ∈ ds, 0 ≤ d.height + gap := fun d hd => add_nonneg (hheight d hd) hgap
  have hplaced {k : Nat} {shift : Rat} {d : Diagram Rat}
      (h : (stack gap ds).placed[k]? = some (shift, d)) :
      ds[k]? = some d ∧ shift = bandTop gap ds k - d.top := by
    rw [getElem?_placed_stack, Option.map_eq_some_iff] at h
    obtain ⟨d, hd, heq⟩ := h
    cases heq
    exact ⟨hd, rfl⟩
  refine
    { diagrams := ?_, first := bandTop_zero gap ds, next := fun k d hd => bandTop_succ hd,
      lands := ?_, holds := ?_, apart := ?_, inside := ?_,
      height := height_stack hgap hheight, width := width_stack gap ds }
  · refine List.ext_getElem? fun k => ?_
    rw [List.getElem?_map, getElem?_placed_stack, Option.map_map]
    exact Option.map_id'
  · intro k shift d h
    obtain ⟨-, rfl⟩ := hplaced h
    ring
  · intro k shift d h v hv
    obtain ⟨hd, rfl⟩ := hplaced h
    obtain ⟨y, hy, rfl⟩ := List.mem_map.1 hv
    have hband := (hds d (List.mem_of_getElem? hd)).between_ys y hy
    constructor <;> linarith
  · intro j k upper lower hjk hupper hlower y hy hy'
    have hnext := bandTop_le_bandTop hstep (Nat.succ_le_of_lt hjk)
    rw [bandTop_succ hupper] at hnext
    constructor <;> linarith
  · intro k d hd
    have hmem := List.mem_of_getElem? hd
    obtain ⟨hk, -⟩ := List.getElem?_eq_some_iff.1 hd
    have hlast := bandTop_le_bandTop hstep (Nat.succ_le_of_lt hk)
    rw [bandTop_succ hd] at hlast
    have hframe : bandTop gap ds ds.length - gap ≤ (stack gap ds).height := by
      rw [height_stack_eq_greatest]
      exact le_greatest_left _ _
    exact ⟨bandTop_le_bandTop hstep (Nat.zero_le k), hheight d hmem, by linarith⟩

/-! ## Documents -/

/-- How groups are moved in a document, in their order. -/
def transforms (ps : List Piece) : List String :=
  ps.filterMap (·.tag.attribute? "transform")

theorem transforms_append (ps qs : List Piece) :
    transforms (ps ++ qs) = transforms ps ++ transforms qs :=
  List.filterMap_append

/-- The document of the stack has its size, and one group for each diagram, which is moved to its
    band; nothing else in it is moved. -/
structure Stack.Shows (s : Stack Rat) (gap : Rat) (ds : List (Diagram Rat)) : Prop where
  reads : readMarkup s.svg = some (s.pieces, "\n")
  pieces : s.pieces =
    headPieces (written s.width) (written s.height) "0" ++
      (ds.mapIdx fun k d => d.groupPieces (bandTop gap ds k - d.top)).flatten ++ [endPiece]
  transforms : transforms s.pieces =
    ds.mapIdx fun k d => "translate(0 " ++ written (bandTop gap ds k - d.top) ++ ")"

section
variable {α : Type} [Written α]

theorem transforms_primitive (margin : String) (p : Primitive α) :
    transforms (p.pieces margin) = [] := by
  cases p with
  | label t =>
    cases hb : t.bold <;>
      simp [transforms, Primitive.pieces, textPieces, Tag.attribute?, List.lookup_cons, hb,
        -List.lookup_eq_none_iff]
  | _ =>
    simp [transforms, Primitive.pieces, Tag.attribute?, List.lookup_cons,
      -List.lookup_eq_none_iff]

variable [Scalar α]

/-- Nothing that is in a diagram is moved by itself. -/
theorem transforms_contentPieces (d : Diagram α) (margin : String) (numbered : Bool) :
    transforms (d.contentPieces margin numbered) = [] := by
  have hprimitives : transforms (d.primitives.flatMap (·.pieces margin)) = [] := by
    rw [transforms, List.filterMap_flatMap]
    exact List.flatMap_eq_nil_iff.2 fun p _ => transforms_primitive margin p
  have hregions : transforms (d.regions.map (·.piece margin (toString d.rung))) = [] := by
    rw [transforms, List.filterMap_map]
    exact List.filterMap_eq_nil_iff.2 fun r _ => by
      simp [HitRegion.piece, Tag.attribute?, List.lookup_cons, -List.lookup_eq_none_iff]
  rw [Diagram.contentPieces]
  simp only [transforms_append, hprimitives, hregions]
  cases numbered <;>
    simp [transforms, Diagram.titlePieces, textPieces, Tag.attribute?, List.lookup_cons,
      -List.lookup_eq_none_iff]

theorem transforms_groupPieces (d : Diagram α) (shift : α) :
    transforms (d.groupPieces shift) = [translation shift] := by
  rw [Diagram.groupPieces, transforms_append, transforms_append, transforms_contentPieces]
  simp [transforms, Tag.attribute?]

theorem transforms_pieces (s : Stack α) :
    transforms s.pieces = s.placed.map fun (shift, _) => translation shift := by
  have hgroups : transforms (s.placed.flatMap fun (shift, d) => d.groupPieces shift) =
      s.placed.map fun (shift, _) => translation shift := by
    rw [transforms, List.filterMap_flatMap, List.map_eq_flatMap]
    exact List.flatMap_congr fun (shift, d) _ => transforms_groupPieces d shift
  rw [Stack.pieces, transforms_append, transforms_append, hgroups]
  simp [transforms, headPieces, stylePieces, endPiece, Tag.attribute?, List.filterMap_cons,
    List.lookup_cons]

end

theorem map_placed_stack {β : Type} (f : Rat × Diagram Rat → β) (gap : Rat)
    (ds : List (Diagram Rat)) :
    (stack gap ds).placed.map f = ds.mapIdx fun k d => f (bandTop gap ds k - d.top, d) := by
  refine List.ext_getElem? fun k => ?_
  rw [List.getElem?_map, getElem?_placed_stack, List.getElem?_mapIdx, Option.map_map]
  rfl

theorem Stack.shows (gap : Rat) (ds : List (Diagram Rat)) : (stack gap ds).Shows gap ds where
  reads := readMarkup_svg_stack _
  pieces := by
    rw [Stack.pieces, List.flatMap_def, map_placed_stack]
  transforms := by
    rw [transforms_pieces, map_placed_stack]
    rfl

/-- **Stacked diagrams stand apart and in the frame of the stack, and so its document shows
    them.** -/
theorem stands_stack {gap : Rat} (hgap : 0 ≤ gap) {ds : List (Diagram Rat)}
    (hds : ∀ d ∈ ds, d.IsDrawn) :
    (stack gap ds).Stands gap ds ∧ (stack gap ds).Shows gap ds :=
  ⟨Stack.stands hgap hds, Stack.shows gap ds⟩

/-- The upper legs of the second rung rise above its rail; the others are plain. -/
theorem stands_stack_raised :
    let rungs : List String := ["XIC(A)OTE(B)", "[[XIC(A),XIC(B)],[XIC(C),XIC(D)]]OTE(E)", ""]
    let ds : List (Diagram Rat) := rungs.map fun text => layout (RungText.elements text) 0 .standard
    (∀ d ∈ ds, d.IsDrawn) ∧ ds.map Diagram.top = [0, -60, 0] ∧
      (stack 10 ds).Stands 10 ds ∧ (stack 10 ds).Shows 10 ds := by
  intro rungs ds
  have hvalid : (Config.standard : Config Rat).Valid := by decide
  have hds : ∀ d ∈ ds, d.IsDrawn := List.forall_mem_map.2 fun text _ =>
    ⟨RungText.elements text, 0, .standard, hvalid, by decide, by decide, rfl⟩
  exact ⟨hds, by decide +kernel, stands_stack (by decide) hds⟩

end RelayLadder.Layout
