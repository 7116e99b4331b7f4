/-
  Edits of a rung without empty legs.

  Where no leg is empty, an edit changes the series around one instruction and leaves the branches
  around it as they are: nothing vanishes on the way.

  * `Leads.exists_hole`: the series at the end of a way can be exchanged for any other that is not
    empty, and that is what an edit there does;
  * `Rung.remove_insert`: removing what was inserted gives the old tree.
-/
import RelayLadder.Proofs.RungEdits

namespace RelayLadder

/-! ## Series without empty legs -/

mutual
/-- No leg in the series is empty. -/
def Series.isFilled : Series → Bool
  | [] => true
  | .instr _ :: es => Series.isFilled es
  | .branch legs :: es => Legs.isFilled legs && Series.isFilled es

/-- None of the legs is empty, and no leg in them. -/
def Legs.isFilled : Legs → Bool
  | [] => true
  | leg :: legs => !leg.isEmpty && Series.isFilled leg && Legs.isFilled legs
end

theorem Series.isFilled_append (a b : Series) :
    Series.isFilled (a ++ b) = (Series.isFilled a && Series.isFilled b) := by
  induction a with
  | nil => simp [Series.isFilled]
  | cons e a ih => cases e <;> simp [Series.isFilled, ih, Bool.and_assoc]

theorem Legs.isFilled_iff {legs : Legs} :
    Legs.isFilled legs = true ↔ ∀ leg ∈ legs, leg ≠ [] ∧ Series.isFilled leg = true := by
  induction legs with
  | nil => simp [Legs.isFilled]
  | cons leg legs ih => simp [Legs.isFilled, ih, and_assoc]

/-- A branch without empty legs is put together again as it was. -/
theorem Legs.prune_of_ne_nil {legs : Legs} (hne : legs ≠ []) (h : ∀ leg ∈ legs, leg ≠ []) :
    Legs.prune legs = [.branch legs] := by
  have hfilter : legs.filter (!·.isEmpty) = legs := by
    rw [List.filter_eq_self]
    intro leg hleg
    simpa using h leg hleg
  unfold Legs.prune
  rw [hfilter]
  split
  · exact absurd rfl hne
  · rfl

namespace Series

section
variable {left right : Series} {above below : Legs} {leg : Series}

theorem isFilled_into (h : isFilled (left ++ .branch (above ++ leg :: below) :: right) = true) :
    isFilled leg = true ∧ leg ≠ [] ∧ (∀ other ∈ above, other ≠ []) ∧ ∀ other ∈ below, other ≠ [] := by
  simp only [isFilled_append, isFilled, Bool.and_eq_true, Legs.isFilled_iff,
    List.forall_mem_append, List.forall_mem_cons] at h
  obtain ⟨-, ⟨habove, ⟨hne, hleg⟩, hbelow⟩, -⟩ := h
  exact ⟨hleg, hne, fun other h => (habove other h).1, fun other h => (hbelow other h).1⟩

/-- Between legs that are not empty, an edit of a leg that leaves it elements changes this leg
    only. -/
theorem editAt_into_of_ne_nil {change : Series → Series} {path : LegPath}
    (habove : ∀ other ∈ above, other ≠ []) (hbelow : ∀ other ∈ below, other ≠ [])
    (hne : editAt change path leg ≠ []) :
    editAt change ((left.length, above.length) :: path)
        (left ++ .branch (above ++ leg :: below) :: right) =
      left ++ .branch (above ++ editAt change path leg :: below) :: right := by
  have hlegs : ∀ other ∈ above ++ editAt change path leg :: below, other ≠ [] :=
    List.forall_mem_append.2 ⟨habove, List.forall_mem_cons.2 ⟨hne, hbelow⟩⟩
  rw [editAt_into, Legs.prune_of_ne_nil (by simp) hlegs, List.append_assoc,
    List.singleton_append]

end

theorem Leads.ne_nil {path : LegPath} {es inner : Series} {before after : List Instruction}
    (h : Leads path es before inner after) (hne : inner ≠ []) : es ≠ [] := by
  cases h with
  | here => exact hne
  | into _ => simp

/-- **The end of a way is a hole that holds any series**: `hole new` is the tree with `new` there.
    An edit of the series there that leaves it elements does nothing else. -/
theorem Leads.exists_hole {path : LegPath} {es inner : Series} {before after : List Instruction}
    (h : Leads path es before inner after) (hfilled : isFilled es = true) :
    ∃ hole : Series → Series, hole inner = es ∧ ∀ new, Leads path (hole new) before new after ∧
      ∀ change : Series → Series, change new ≠ [] →
        editAt change path (hole new) = hole (change new) := by
  induction h with
  | here => exact ⟨id, rfl, fun new => ⟨.here, fun change _ => rfl⟩⟩
  | @into left right above below leg path before after inner _ ih =>
    obtain ⟨hleg, -, habove, hbelow⟩ := isFilled_into hfilled
    obtain ⟨hole, hhole, hedit⟩ := ih hleg
    refine ⟨fun new => left ++ .branch (above ++ hole new :: below) :: right,
      by simp only [hhole], fun new => ⟨.into (hedit new).1, fun change hchange => ?_⟩⟩
    have hnew := (hedit new).2 change hchange
    have hne : editAt change path (hole new) ≠ [] :=
      hnew ▸ (hedit (change new)).1.ne_nil hchange
    rw [editAt_into_of_ne_nil habove hbelow hne, hnew]

end Series

/-! ## Removing what was inserted -/

namespace Rung

/-- **Removing what was inserted gives the old tree.** -/
theorem remove_insert (r : Rung) (hfilled : Series.isFilled r.elements = true) {index : Int}
    (hindex : 0 ≤ index ∧ index ≤ r.count) (x : Instruction) :
    ∃ longer back, r.insert index x = .ok longer ∧ longer.remove index = .ok back ∧
      back.elements = r.elements := by
  by_cases hend : index = r.count
  · have hlast : Series.locate (r.elements ++ [.instr x]) index =
        some ⟨⟨[], r.elements.length, x⟩, r.count⟩ := by
      refine Series.locate_eq_some_iff.2 ⟨hend, [], r.elements, [], [], .here, rfl, rfl⟩
    refine ⟨r.withElements (r.elements ++ [.instr x]), _, ?_, editAround_eq_ok hlast _, ?_⟩
    · rw [insert, if_pos hend]
      rfl
    · show Series.splice (r.elements ++ [.instr x]) r.elements.length [] = r.elements
      rw [Series.splice_append_cons, List.append_nil, List.append_nil]
  · have hbelow : 0 ≤ index ∧ index < r.count := by omega
    obtain ⟨l, hl⟩ := exists_locate hbelow
    obtain ⟨hnumber, before, left, right, after, hlead, hpos, hbefore⟩ :=
      Series.locate_eq_some_iff.1 hl
    obtain ⟨hole, hhole, hedit⟩ := hlead.exists_hole hfilled
    have hlonger : r.insert index x =
        .ok (r.withElements (hole (left ++ .instr x :: .instr l.instruction :: right))) := by
      rw [insert, if_neg hend, editAround_eq_ok hl, ← hhole, (hedit _).2]
      · simp [← hpos]
      · simp
    have hnew : Series.locate
        (hole (left ++ .instr x :: .instr l.instruction :: right)) index =
        some ⟨⟨l.path, l.position, x⟩, l.index⟩ := by
      exact Series.locate_eq_some_iff.2
        ⟨hnumber, before, left, .instr l.instruction :: right, after, (hedit _).1, hpos, hbefore⟩
    refine ⟨_, _, hlonger, editAround_eq_ok hnew _, ?_⟩
    show Series.editAt (fun es => Series.splice es l.position []) l.path
      (hole (left ++ .instr x :: .instr l.instruction :: right)) = r.elements
    rw [(hedit _).2]
    · rw [← hpos, Series.splice_append_cons, List.append_nil, hhole]
    · simp [← hpos]

/-- The instruction is inserted before the last one, two branches deep. -/
theorem remove_insert_nested :
    let r : Rung := .ofText 0 "XIC(A)[XIO(B)[OTE(C),OTL(D)],NOP()]"
    let x : Instruction := ⟨"TON", .unary "T", by decide⟩
    (Series.isFilled r.elements = true ∧ 0 ≤ (3 : Int) ∧ (3 : Int) ≤ r.count) ∧
      ∃ longer back, r.insert 3 x = .ok longer ∧ longer.remove 3 = .ok back ∧
        back.elements = r.elements := by
  intro r x
  have hfilled : Series.isFilled r.elements = true := by decide +kernel
  have hindex : 0 ≤ (3 : Int) ∧ (3 : Int) ≤ r.count := by decide +kernel
  exact ⟨⟨hfilled, hindex⟩, remove_insert r hfilled hindex x⟩

end Rung

end RelayLadder
