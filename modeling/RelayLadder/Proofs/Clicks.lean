/-
  Which instruction a click into the middle of an area selects.

  * `hitTest_layout_eq_some_iff`: a hit test selects the area with the lowest number around the
    point;
  * `hitTest_center_iff`: a click into the middle of an area selects this area, unless the area of
    an instruction in an upper leg covers the point;
  * `hitTest_center_eq_some_iff`: and no area does, if there is room between the legs.
-/
import RelayLadder.Proofs.Parting
import RelayLadder.Proofs.Regions
import RelayLadder.RungText.Parser

namespace RelayLadder

/-! ## Upper and lower instructions -/

/-- The instruction with number `k` stands in an upper leg of a branch in which the one with number
    `n` stands in a lower leg. -/
def Series.StandsAbove (es : Series) (k n : Nat) : Prop :=
  ∃ a b, Series.locate es k = some a ∧ Series.locate es n = some b ∧ a.path.Above b.path

theorem Series.standsAbove_iff {es : Series} {k n : Nat} :
    Series.StandsAbove es k n ↔
      ∃ a b, Series.Stands es k a ∧ Series.Stands es n b ∧ a.path.Above b.path := by
  constructor
  · rintro ⟨a, b, ha, hb, h⟩
    obtain ⟨hk, hstands⟩ := Series.locate_eq_some_iff.1 ha
    obtain ⟨hn, hstands'⟩ := Series.locate_eq_some_iff.1 hb
    rw [Int.ofNat_inj.1 hk, Int.ofNat_inj.1 hn]
    exact ⟨a.toPlace, b.toPlace, hstands, hstands', h⟩
  · rintro ⟨a, b, ha, hb, h⟩
    exact ⟨⟨a, k⟩, ⟨b, n⟩, Series.locate_eq_some_iff.2 ⟨rfl, ha⟩,
      Series.locate_eq_some_iff.2 ⟨rfl, hb⟩, h⟩

namespace Layout

/-! ## Points in rectangles -/

namespace Rect

variable {a b : Rect Rat}

theorem contains_center (hwidth : 0 ≤ a.width) (hheight : 0 ≤ a.height) :
    a.contains a.centerX a.centerY = true := by
  simp only [contains_iff, centerX, centerY, right, bottom]
  refine ⟨?_, ?_, ?_, ?_⟩ <;> linarith

theorem not_contains_of_right_lt (h : a.right < b.x) (hb : 0 ≤ b.width) (y : Rat) :
    ¬ a.contains b.centerX y = true := by
  simp only [contains_iff, centerX]
  intro hin
  linarith [hin.2.1]

theorem not_contains_of_lt_x (h : a.right < b.x) (ha : 0 ≤ a.width) (y : Rat) :
    ¬ b.contains a.centerX y = true := by
  simp only [right] at h
  simp only [contains_iff, centerX]
  intro hin
  linarith [hin.1]

theorem not_contains_of_bottom_lt {y : Rat} (h : a.bottom < y) (x : Rat) :
    ¬ a.contains x y = true := by
  rw [contains_iff]
  intro hin
  linarith [hin.2.2.2]

end Rect

/-! ## Hit tests -/

/-- A hit test selects the area with the lowest number around the point. -/
theorem hitTest_layout_eq_some_iff {α : Type} [Scalar α] {es : Series} {rung : Int} {c : Config α}
    {x y : α} {r : HitRegion α} :
    (layout es rung c).hitTest x y = some r ↔
      (layout es rung c).regions[r.index]? = some r ∧ r.bounds.contains x y ∧
        ∀ k < r.index, ∀ s, (layout es rung c).regions[k]? = some s →
          ¬ s.bounds.contains x y := by
  unfold Diagram.hitTest
  rw [List.find?_eq_some_iff_getElem]
  constructor
  · rintro ⟨hin, n, hn, rfl, hbefore⟩
    have hr := List.getElem?_eq_getElem hn
    rw [index_of_getElem?_regions hr]
    refine ⟨hr, hin, fun k hk s hs => ?_⟩
    obtain ⟨-, rfl⟩ := List.getElem?_eq_some_iff.1 hs
    simpa using hbefore k hk
  · rintro ⟨hr, hin, hbefore⟩
    obtain ⟨hn, hr⟩ := List.getElem?_eq_some_iff.1 hr
    refine ⟨hin, r.index, hn, hr, fun k hk => ?_⟩
    simpa using hbefore k hk _ (List.getElem?_eq_getElem (hk.trans hn))

theorem size_nonneg_of_mem_layout {c : Config Rat} (hc : c.Ample) {es : Series} {rung : Int}
    {r : HitRegion Rat} (hr : r ∈ (layout es rung c).regions) :
    0 ≤ r.bounds.width ∧ 0 ≤ r.bounds.height :=
  ((spans_drawSeries es ⟨c, rung, []⟩ c.startX c.railY 0 hc).inCell r hr).size_nonneg hc

theorem exists_stands_of_getElem? {α : Type} [Scalar α] {c : Config α} {es : Series} {rung : Int}
    {k : Nat} {r : HitRegion α} (hr : (layout es rung c).regions[k]? = some r) :
    ∃ a, Series.Stands es k a := by
  obtain ⟨hk, -⟩ := List.getElem?_eq_some_iff.1 hr
  have hlen := congrArg List.length (map_index_regions_layout es rung c)
  rw [List.length_map, List.length_range] at hlen
  exact Series.exists_stands (hlen ▸ hk)

section
variable {c : Config Rat} (hc : c.Ample) {es : Series} {rung : Int} {r : HitRegion Rat}
include hc

/-- A click into the middle of an area selects it, if no area in an upper leg covers the point. -/
theorem hitTest_center_of_uncovered {room : Prop} (hroom : room → seriesRoomy c es) {n : Nat}
    (hr : (layout es rung c).regions[n]? = some r)
    (h : ∀ s ∈ (layout es rung c).regions, Series.StandsAbove es s.index r.index →
      (room → s.bounds.bottom < r.bounds.centerY) →
        ¬ s.bounds.contains r.bounds.centerX r.bounds.centerY) :
    (layout es rung c).hitTest r.bounds.centerX r.bounds.centerY = some r := by
  have hsize := size_nonneg_of_mem_layout hc (List.mem_of_getElem? hr)
  obtain rfl := index_of_getElem?_regions hr
  obtain ⟨b, hb⟩ := exists_stands_of_getElem? hr
  refine hitTest_layout_eq_some_iff.2
    ⟨hr, Rect.contains_center hsize.1 hsize.2, fun k hk s hs => ?_⟩
  obtain rfl := index_of_getElem?_regions hs
  obtain ⟨a, ha⟩ := exists_stands_of_getElem? hs
  rcases parted_layout hc hroom hk hs hr ha hb with hright | ⟨habove, hbottom⟩
  · exact Rect.not_contains_of_right_lt hright hsize.1 _
  · exact h s (List.mem_of_getElem? hs) (Series.standsAbove_iff.2 ⟨a, b, ha, hb, habove⟩) hbottom

/-- **A click into the middle of an area selects it, unless the area of an instruction in an upper
    leg covers the point.** -/
theorem hitTest_center_iff {n : Nat} (hr : (layout es rung c).regions[n]? = some r) :
    (layout es rung c).hitTest r.bounds.centerX r.bounds.centerY = some r ↔
      ∀ s ∈ (layout es rung c).regions, Series.StandsAbove es s.index r.index →
        ¬ s.bounds.contains r.bounds.centerX r.bounds.centerY := by
  constructor
  · intro hit s hs habove
    obtain ⟨-, -, hbefore⟩ := hitTest_layout_eq_some_iff.1 hit
    obtain ⟨k, hs⟩ := List.mem_iff_getElem?.1 hs
    obtain rfl := index_of_getElem?_regions hs
    obtain rfl := index_of_getElem?_regions hr
    obtain ⟨a, b, ha, hb, habove⟩ := Series.standsAbove_iff.1 habove
    rcases Nat.lt_trichotomy s.index r.index with hlt | heq | hgt
    · exact hbefore s.index hlt s hs
    · rw [heq] at ha
      obtain rfl := ha.unique hb
      exact absurd habove habove.not_above
    · -- an area that comes later begins behind this one, or stands below it
      rcases parted_layout hc False.elim hgt hr hs hb ha with hright | ⟨hbelow, -⟩
      · have hsize := size_nonneg_of_mem_layout hc (List.mem_of_getElem? hr)
        exact Rect.not_contains_of_lt_x hright hsize.1 _
      · exact absurd habove hbelow.not_above
  · intro h
    exact hitTest_center_of_uncovered hc False.elim hr fun s hs habove _ => h s hs habove

/-- **If there is room between legs, a click into the middle of an area selects it.** -/
theorem hitTest_center_of_roomy (hroomy : seriesRoomy c es) {n : Nat}
    (hr : (layout es rung c).regions[n]? = some r) :
    (layout es rung c).hitTest r.bounds.centerX r.bounds.centerY = some r := by
  refine hitTest_center_of_uncovered hc (fun _ : True => hroomy) hr fun s _ _ hbottom => ?_
  exact Rect.not_contains_of_bottom_lt (hbottom trivial) _

end

/-- **A click into the middle of an area selects it** exactly if no area in an upper leg covers the
    point.  None does where there is room between the legs, and so none in a rung whose branches are
    not nested and whose instructions have at most five operands. -/
theorem hitTest_center_eq_some_iff (es : Series) (rung : Int) {index : Int} {r : HitRegion Rat}
    (h : (layout es rung .standard).region index = .ok r) :
    ((layout es rung .standard).hitTest r.bounds.centerX r.bounds.centerY = some r ↔
      ∀ s ∈ (layout es rung .standard).regions, Series.StandsAbove es s.index r.index →
        ¬ s.bounds.contains r.bounds.centerX r.bounds.centerY) ∧
    (seriesRoomy .standard es →
      (layout es rung .standard).hitTest r.bounds.centerX r.bounds.centerY = some r) ∧
    (Series.depth es ≤ 1 → (∀ i ∈ Series.instructions es, i.values.length ≤ 5) →
      (layout es rung .standard).hitTest r.bounds.centerX r.bounds.centerY = some r) := by
  obtain ⟨n, -, hr⟩ := region_layout_eq_ok_iff.1 h
  have hroomy (h : seriesRoomy .standard es) := hitTest_center_of_roomy Config.ample_standard h hr
  exact ⟨hitTest_center_iff Config.ample_standard hr, hroomy,
    fun hflat hfew => hroomy (seriesRoomy_of_flat hflat hfew)⟩

/-- The rung has nested branches and there is room between their legs. -/
theorem hitTest_center_nested : ∃ r : HitRegion Rat,
    (layout (RungText.elements "[[XIC(A),XIC(B)],XIC(C)]") 0 .standard).region 2 = .ok r ∧
    seriesRoomy .standard (RungText.elements "[[XIC(A),XIC(B)],XIC(C)]") ∧
    (layout (RungText.elements "[[XIC(A),XIC(B)],XIC(C)]") 0 .standard).hitTest
      r.bounds.centerX r.bounds.centerY = some r := by
  have hregion : (layout (RungText.elements "[[XIC(A),XIC(B)],XIC(C)]") 0 .standard).region 2 =
      .ok (⟨0, 2, "XIC", ["C"], [("tag", "C")], ⟨85, 40, 25, 55⟩, [1],
        ⟨"XIC", .unary "C", by decide⟩⟩ : HitRegion Rat) := by
    decide +kernel
  have hroomy : seriesRoomy .standard (RungText.elements "[[XIC(A),XIC(B)],XIC(C)]") := by
    decide +kernel
  exact ⟨_, hregion, hroomy, (hitTest_center_eq_some_iff _ 0 hregion).2.1 hroomy⟩

/-- The lowest leg of the nested branch runs on the rail of `ONS(D)`, so that a click into the
    middle of the area of `ONS(D)` selects `XIC(C)`. -/
theorem exists_hitTest_center_ne : ∃ r s : HitRegion Float,
    (layout (RungText.elements "[[XIC(A),XIC(B),XIC(C)],ONS(D)]") 0 .standard).region 3 = .ok r ∧
    (layout (RungText.elements "[[XIC(A),XIC(B),XIC(C)],ONS(D)]") 0 .standard).hitTest
      r.bounds.centerX r.bounds.centerY = some s ∧ s.index = 2 ∧ s ≠ r := by
  refine ⟨⟨0, 3, "ONS", ["D"], [("storage", "D")], ⟨80, 40, 70, 50⟩, [1],
      ⟨"ONS", .unary "D", by decide⟩⟩,
    ⟨0, 2, "XIC", ["C"], [("tag", "C")], ⟨105, 40, 25, 55⟩, [0, 2],
      ⟨"XIC", .unary "C", by decide⟩⟩, ?_, ?_, rfl, ?_⟩ <;>
    decide +kernel

end Layout

end RelayLadder
