/-
  Appending to a rung does not move what is drawn of it.

  * `Drawing.Extends`: a drawing has all that another has, value for value, and more behind it.
    Going on with a drawing extends it (`extends_placeSeries`);
  * `Scalar.Ordered`: what the order of coordinates has to do with arithmetic, as far as it takes to
    see that going on with a drawing never lowers its upper end (`minY_placeSeries`);
  * `layout_append_extends`: the diagram of a rung extends to that of any longer one.
-/
import Mathlib.Algebra.Order.Field.Rat
import RelayLadder.Proofs.Drawing

namespace RelayLadder

/-! ## Ordered coordinates -/

namespace Scalar

/-- Laws of order that hold of the rationals, and of the binary64 numbers too: there nothing is less
    or greater than what is no number, and a difference that is rounded keeps the order. -/
structure Ordered (α : Type) [Scalar α] : Prop where
  zero_le_zero : (0 : α) ≤ 0
  le_self_of_lt {a b : α} : a < b → a ≤ a
  le_of_lt {a b : α} : a < b → a ≤ b
  lt_trans {a b c : α} : a < b → b < c → a < c
  sub_lt_or_eq {a b c : α} : a < b → b - c < 0 → a - c < b - c ∨ a - c = b - c

theorem ordered_rat : Ordered Rat where
  zero_le_zero := le_refl (0 : Rat)
  le_self_of_lt _ := le_refl _
  le_of_lt h := h.le
  lt_trans hab hbc := hab.trans hbc
  sub_lt_or_eq hab _ := .inl (sub_lt_sub_right hab _)

variable {α : Type} [Scalar α] {a b : α}

theorem least_cases (a b : α) : least a b < a ∨ least a b = a := by
  unfold least
  split
  · exact .inl ‹_›
  · exact .inr rfl

/-- What is drawn further up by the same distance ends further up, but not below 0. -/
theorem Ordered.least_sub_le (h : Ordered α) (hab : a < b ∨ a = b) (c : α) :
    least 0 (a - c) ≤ least 0 (b - c) := by
  have hself (x : α) : least 0 x ≤ least 0 x := by
    unfold least
    split
    · exact h.le_self_of_lt ‹_›
    · exact h.zero_le_zero
  rcases hab with hab | rfl
  · by_cases hb : b - c < 0
    · rcases h.sub_lt_or_eq hab hb with hlt | heq
      · rw [least, if_pos (h.lt_trans hlt hb), least, if_pos hb]
        exact h.le_of_lt hlt
      · rw [heq]
        exact hself _
    · have hzero : least 0 (b - c) = 0 := if_neg hb
      rw [hzero]
      rcases least_cases 0 (a - c) with hlt | heq
      · exact h.le_of_lt hlt
      · rw [heq]
        exact h.zero_le_zero
  · exact hself _

end Scalar

namespace Layout

open Scalar

variable {α : Type}

/-! ## Drawings that extend others -/

/-- The second drawing has all that the first has, and what is new in it comes behind. -/
structure Drawing.Extends (a b : Drawing α) : Prop where
  primitives : a.primitives <+: b.primitives
  regions : a.regions <+: b.regions
  branches : a.branches <+: b.branches

variable [Scalar α]

/-- **Going on with a drawing extends it.** -/
theorem extends_placeSeries (ctx : Context α) (y : α) (d : Drawing α) (es : Series) :
    d.Extends (placeSeries ctx y d es) := by
  have h := placeSeries_alike ctx y d es
  refine ⟨?_, ?_, ?_⟩
  · rw [h.primitives, Drawing.append_primitives]
    exact List.prefix_append _ _
  · rw [h.regions, Drawing.append_regions]
    exact List.prefix_append _ _
  · rw [h.branches, Drawing.append_branches]
    exact List.prefix_append _ _

/-- **Going on with a drawing leaves its upper end where it is, or moves it up.** -/
theorem minY_placeSeries (h : Ordered α) (ctx : Context α) (y : α) (d : Drawing α) (es : Series) :
    (placeSeries ctx y d es).minY < d.minY ∨ (placeSeries ctx y d es).minY = d.minY := by
  induction es generalizing d with
  | nil =>
    rw [placeSeries]
    exact .inr rfl
  | cons e es ih =>
    rw [placeSeries_cons]
    generalize drawElement ctx d.x y d.index e = first
    have hfirst : (d.append first).minY < d.minY ∨ (d.append first).minY = d.minY :=
      least_cases d.minY first.minY
    rcases ih (d.append first) with hlt | heq
    · rcases hfirst with hlt' | heq'
      · exact .inl (h.lt_trans hlt hlt')
      · exact .inl (heq' ▸ hlt)
    · rwa [heq]

/-! ## Diagrams -/

theorem placeRung_append (c : Config α) (rung : Int) (a b : Series) :
    placeRung c rung (a ++ b) =
      placeSeries ⟨c, rung, []⟩ c.railY (placeRung c rung a) b :=
  placeSeries_append _ _ _ a b

/-- **Appending does not move what is drawn**: the areas, the branches and all that is drawn but the
    four lines around it stay, value for value, and what is new comes behind them; the upper edge
    does not move down. -/
theorem layout_append_extends (a b : Series) (rung : Int) (c : Config α) :
    let d := layout a rung c
    let longer := layout (a ++ b) rung c
    d.regions <+: longer.regions ∧
    d.branches <+: longer.branches ∧
    d.primitives.drop 4 <+: longer.primitives.drop 4 ∧
    (Ordered α → longer.top ≤ d.top) := by
  intro d longer
  have hbody : (placeRung c rung a).Extends (placeRung c rung (a ++ b)) := by
    rw [placeRung_append]
    exact extends_placeSeries _ _ _ b
  refine ⟨hbody.regions, hbody.branches, hbody.primitives, fun h => ?_⟩
  show least 0 ((placeRung c rung (a ++ b)).minY - c.railInset) ≤
    least 0 ((placeRung c rung a).minY - c.railInset)
  rw [placeRung_append]
  exact h.least_sub_le (minY_placeSeries h _ _ _ b) _

/-- The upper legs of the branch rise above the upper edge of what is there before. -/
theorem layout_append_extends_raised :
    let c : Config Rat := .standard
    let a : Series := [.instr ⟨"XIC", .unary "A", by decide⟩]
    let b : Series := [.branch [[], [.instr ⟨"MOV", .binary "1" "N", by decide⟩], [], []]]
    let d := layout a 0 c
    let longer := layout (a ++ b) 0 c
    Ordered Rat ∧ longer.top < 0 ∧
      d.regions <+: longer.regions ∧ d.branches <+: longer.branches ∧
      d.primitives.drop 4 <+: longer.primitives.drop 4 ∧ longer.top ≤ d.top := by
  intro c a b d longer
  obtain ⟨hregions, hbranches, hprimitives, htop⟩ := layout_append_extends a b 0 c
  exact ⟨ordered_rat, by decide +kernel, hregions, hbranches, hprimitives, htop ordered_rat⟩

end Layout

end RelayLadder
