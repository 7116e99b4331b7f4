/-
  Instructions in series stand side by side, in the order in which they are read.

  Two instructions are in series (`Place.InSeries`) if the ways to them part in a series: they are,
  or stand inside, different elements of it.  Otherwise the ways part in a branch, where one takes
  an upper and the other a lower leg.  `right_lt_of_inSeries` says that of two instructions in series
  the area of the first ends before that of the second begins, at whatever depth each of them is.
-/
import RelayLadder.Proofs.Parting
import RelayLadder.Proofs.Regions
import RelayLadder.RungText.Parser

namespace RelayLadder

/-! ## Ways that part in a series -/

/-- The way to the place goes through the element at this position of the series that `front` leads
    to: the place is that of the element itself, or lies in one of its legs. -/
def Place.GoesThrough (place : Place) (front : LegPath) (position : Nat) : Prop :=
  (place.path = front ∧ place.position = position) ∨
    ∃ leg rest, place.path = front ++ (position, leg) :: rest

/-- The ways to the places part in a series, where they go through different elements. -/
def Place.InSeries (a b : Place) : Prop :=
  ∃ front p q, p ≠ q ∧ a.GoesThrough front p ∧ b.GoesThrough front q

namespace Place

theorem GoesThrough.exists_path_eq {place : Place} {front : LegPath} {position : Nat}
    (h : place.GoesThrough front position) :
    ∃ rest, place.path = front ++ rest ∧ ∀ step ∈ rest.head?, step.1 = position := by
  rcases h with ⟨hpath, -⟩ | ⟨leg, rest, hpath⟩
  · exact ⟨[], by rw [hpath, List.append_nil], by simp⟩
  · exact ⟨(position, leg) :: rest, hpath, by simp⟩

/-- Ways that part in a series do not part in a branch. -/
theorem InSeries.not_above {a b : Place} (h : a.InSeries b) : ¬ a.path.Above b.path := by
  obtain ⟨front, p, q, hne, ha, hb⟩ := h
  obtain ⟨resta, hpatha, hheada⟩ := ha.exists_path_eq
  obtain ⟨restb, hpathb, hheadb⟩ := hb.exists_path_eq
  rw [hpatha, hpathb, LegPath.above_append_left]
  intro habove
  -- to part in a branch, both ways would have to go into the same element behind `front`
  match resta, restb with
  | [], _ => exact habove
  | _ :: _, [] => exact habove
  | (i, _) :: _, (j, _) :: _ =>
    have hi : i = p := hheada _ rfl
    have hj : j = q := hheadb _ rfl
    exact hne (hi.symm.trans (habove.1.trans hj))

end Place

namespace Layout

/-! ## Areas of instructions in series -/

/-- **Instructions in series keep their order on the page, and never overlap**: the area of the one
    that is read first ends before that of the other begins. -/
theorem right_lt_of_inSeries (es : Series) (rung : Int) {c : Config Rat} (hc : c.Ample)
    {i j : Int} {a b : Location} (ha : Series.locate es i = some a)
    (hb : Series.locate es j = some b) (hlt : i < j) (h : a.InSeries b.toPlace) :
    ∃ r s, (layout es rung c).region i = .ok r ∧ (layout es rung c).region j = .ok s ∧
      r.bounds.right < s.bounds.x := by
  obtain ⟨r, hr, -⟩ := exists_region_of_locate ha rung c
  obtain ⟨s, hs, -⟩ := exists_region_of_locate hb rung c
  refine ⟨r, s, hr, hs, ?_⟩
  obtain ⟨k, hk, hr⟩ := region_layout_eq_ok_iff.1 hr
  obtain ⟨n, hn, hs⟩ := region_layout_eq_ok_iff.1 hs
  obtain ⟨hi, hstands⟩ := Series.locate_eq_some_iff.1 ha
  obtain ⟨hj, hstands'⟩ := Series.locate_eq_some_iff.1 hb
  obtain rfl : k = a.index := by omega
  obtain rfl : n = b.index := by omega
  rcases parted_layout hc False.elim (by omega) hr hs hstands hstands' with hright | ⟨habove, -⟩
  · exact hright
  · exact absurd habove h.not_above

/-- `XIO(B)` stands in a branch inside a leg of the first branch, and `OTE(D)` in a leg of the
    second one. -/
theorem right_lt_of_inSeries_nested :
    let es := RungText.elements "[XIC(A)[XIO(B),NOP()],MOV(1,2)][TON(C,1,0),OTE(D)]"
    let c : Config Rat :=
      { Config.standard with contactCell := 50, boxCell := 40, genericCell := 90 }
    ∃ a b, c.Ample ∧ Series.locate es 1 = some a ∧ Series.locate es 5 = some b ∧
      a.InSeries b.toPlace ∧
      ∃ r s, (layout es 0 c).region 1 = .ok r ∧ (layout es 0 c).region 5 = .ok s ∧
        r.bounds.right < s.bounds.x := by
  intro es c
  have hc : c.Ample := by constructor <;> decide
  have ha : Series.locate es 1 =
      some ⟨⟨[(0, 0), (1, 0)], 0, ⟨"XIO", .unary "B", by decide⟩⟩, 1⟩ := by decide +kernel
  have hb : Series.locate es 5 =
      some ⟨⟨[(1, 1)], 0, ⟨"OTE", .unary "D", by decide⟩⟩, 5⟩ := by decide +kernel
  have hseries : Place.InSeries ⟨[(0, 0), (1, 0)], 0, ⟨"XIO", .unary "B", by decide⟩⟩
      ⟨[(1, 1)], 0, ⟨"OTE", .unary "D", by decide⟩⟩ :=
    ⟨[], 0, 1, by decide, .inr ⟨0, [(1, 0)], rfl⟩, .inr ⟨1, [], rfl⟩⟩
  exact ⟨_, _, hc, ha, hb, hseries,
    right_lt_of_inSeries es 0 hc ha hb (by decide) hseries⟩

end Layout

end RelayLadder
