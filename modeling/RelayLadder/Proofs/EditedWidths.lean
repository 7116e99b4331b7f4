/-
  Edits move the width of a rung in one direction only, in exact coordinates.

  * `seriesWidth_branch_le`: a branch is at most as wide as another if each of its legs is at most
    as wide as some leg of the other.  So the empty legs that an edit drops do not count, as long as
    a leg is left (`seriesWidth_prune`);
  * `seriesWidth_le_editAt`, `seriesWidth_editAt_le`: an edit that does not narrow (does
    not widen) the series at the end of a way does the same to the whole;
  * `Rung.width_edit`: inserting does not narrow a rung and appending widens it, while removing does
    not widen it.
-/
import RelayLadder.Proofs.Merging
import RelayLadder.Proofs.RungEdits
import RelayLadder.Proofs.Widths

namespace RelayLadder

namespace Layout

open Scalar

/-! ## Branches and their legs -/

/-- A branch with legs is as wide as its widest leg between two fans. -/
theorem exists_widest (c : Config Rat) {legs : Legs} (hne : legs ≠ []) :
    ∃ widest ∈ legs, (∀ leg ∈ legs, seriesWidth c leg ≤ seriesWidth c widest) ∧
      seriesWidth c [.branch legs] = c.fanWidth + seriesWidth c widest + c.fanWidth := by
  cases legs with
  | nil => exact absurd rfl hne
  | cons leg legs =>
    have hmem : greatestOf (seriesWidth c leg) (legs.map (seriesWidth c)) ∈
        (leg :: legs).map (seriesWidth c) := greatestOf_mem _ _
    obtain ⟨widest, hwidest, heq⟩ := List.mem_map.1 hmem
    refine ⟨widest, hwidest, fun other hother => ?_, ?_⟩
    · rw [heq]
      exact le_greatestOf _ (legs.map (seriesWidth c)) _
        (List.mem_map_of_mem (f := seriesWidth c) hother)
    · rw [seriesWidth_branch, List.map_cons, fannedWidth, heq]

section
variable {c : Config Rat} (hc : c.Valid)
include hc

theorem seriesWidth_nonneg (es : Series) : 0 ≤ seriesWidth c es :=
  (merged_drawSeries ⟨c, 0, []⟩ hc es 0 c.railY 0).le

theorem seriesWidth_branch_pos {legs : Legs} (hne : legs ≠ []) :
    0 < seriesWidth c [.branch legs] := by
  have hfan := fanWidth_pos hc
  obtain ⟨widest, -, -, heq⟩ := exists_widest c hne
  have hwidest := seriesWidth_nonneg hc widest
  rw [heq]
  linarith

/-- A series with an instruction more is wider. -/
theorem seriesWidth_lt_insert (i : Instruction) (left right : Series) :
    seriesWidth c (left ++ right) < seriesWidth c (left ++ .instr i :: right) := by
  have hcell := cellWidth_pos hc i
  rw [seriesWidth_append, seriesWidth_append, seriesWidth_cons c (.instr i), seriesWidth_instr]
  linarith

/-- A branch is at most as wide as another if each of its legs is at most as wide as some leg of the
    other. -/
theorem seriesWidth_branch_le {legs others : Legs}
    (h : ∀ leg ∈ legs, ∃ other ∈ others, seriesWidth c leg ≤ seriesWidth c other) :
    seriesWidth c [.branch legs] ≤ seriesWidth c [.branch others] := by
  by_cases hne : legs = []
  · subst hne
    exact (seriesWidth_branch c []).trans_le (seriesWidth_nonneg hc _)
  · obtain ⟨widest, hmem, -, heq⟩ := exists_widest c hne
    obtain ⟨other, hother, hle⟩ := h widest hmem
    obtain ⟨widest', -, hwidest', heq'⟩ := exists_widest c (List.ne_nil_of_mem hother)
    have := hwidest' other hother
    rw [heq, heq']
    linarith

theorem seriesWidth_branch_mono {a b : Series} (h : seriesWidth c a ≤ seriesWidth c b)
    (above below : Legs) :
    seriesWidth c [.branch (above ++ a :: below)] ≤
      seriesWidth c [.branch (above ++ b :: below)] := by
  refine seriesWidth_branch_le hc fun leg hleg => ?_
  rcases List.mem_append.1 hleg with habove | hleg
  · exact ⟨leg, List.mem_append_left _ habove, le_refl _⟩
  · rcases List.mem_cons.1 hleg with rfl | hbelow
    · exact ⟨b, List.mem_append_right _ List.mem_cons_self, h⟩
    · exact ⟨leg, List.mem_append_right _ (List.mem_cons_of_mem _ hbelow), le_refl _⟩

/-! ## Empty legs -/

omit hc in
/-- What is left of a branch without its empty legs is as wide as a branch of the other legs, also
    if there are none. -/
theorem seriesWidth_prune_eq (legs : Legs) :
    seriesWidth c (Legs.prune legs) = seriesWidth c [.branch (legs.filter (!·.isEmpty))] := by
  unfold Legs.prune
  split
  · rename_i hnone
    rw [hnone, seriesWidth_branch, seriesWidth_nil]
    rfl
  · rfl

theorem seriesWidth_prune_le (legs : Legs) :
    seriesWidth c (Legs.prune legs) ≤ seriesWidth c [.branch legs] := by
  rw [seriesWidth_prune_eq]
  exact seriesWidth_branch_le hc fun leg hleg => ⟨leg, List.mem_of_mem_filter hleg, le_refl _⟩

/-- The empty legs of a branch do not count for its width, if it has another leg. -/
theorem seriesWidth_prune {legs : Legs} {leg : Series} (hleg : leg ∈ legs) (hne : leg ≠ []) :
    seriesWidth c (Legs.prune legs) = seriesWidth c [.branch legs] := by
  refine le_antisymm (seriesWidth_prune_le hc legs) ?_
  have hkept {other : Series} (hother : other ∈ legs) (hne : other ≠ []) :
      other ∈ legs.filter (!·.isEmpty) :=
    List.mem_filter.2 ⟨hother, by simpa using hne⟩
  rw [seriesWidth_prune_eq]
  refine seriesWidth_branch_le hc fun other hother => ?_
  by_cases hempty : other = []
  · subst hempty
    exact ⟨leg, hkept hleg hne, (seriesWidth_nil c).trans_le (seriesWidth_nonneg hc leg)⟩
  · exact ⟨other, hkept hother hempty, le_refl _⟩

end

/-! ## Edits at the end of a way -/

section
variable {c : Config Rat} {path : LegPath} {es inner : Series} {before after : List Instruction}

/-- An edit that does not widen the series at the end of a way does not widen the whole. -/
theorem seriesWidth_editAt_le (hc : c.Valid) (h : Series.Leads path es before inner after)
    (change : Series → Series) (hchange : seriesWidth c (change inner) ≤ seriesWidth c inner) :
    seriesWidth c (Series.editAt change path es) ≤ seriesWidth c es := by
  induction h with
  | here => exact hchange
  | @into left right above below leg path before after inner h ih =>
    have hbranch := calc
      seriesWidth c (Legs.prune (above ++ Series.editAt change path leg :: below))
        ≤ seriesWidth c [.branch (above ++ Series.editAt change path leg :: below)] :=
          seriesWidth_prune_le hc _
      _ ≤ seriesWidth c [.branch (above ++ leg :: below)] :=
          seriesWidth_branch_mono hc (ih hchange) above below
    rw [Series.editAt_into, seriesWidth_append, seriesWidth_append, seriesWidth_append,
      seriesWidth_cons]
    linarith

/-- An edit that leaves instructions at the end of a way, and does not narrow the series there, does
    not narrow the whole. -/
theorem seriesWidth_le_editAt (hc : c.Valid) (h : Series.Leads path es before inner after)
    (change : Series → Series) (hne : Series.instructions (change inner) ≠ [])
    (hchange : seriesWidth c inner ≤ seriesWidth c (change inner)) :
    seriesWidth c es ≤ seriesWidth c (Series.editAt change path es) := by
  induction h with
  | here => exact hchange
  | @into left right above below leg path before after inner h ih =>
    -- the edited leg holds these instructions, so it is not among those that are dropped
    have hedited : Series.editAt change path leg ≠ [] := by
      intro hempty
      have hinstructions := h.instructions_editAt change
      rw [hempty, Series.instructions] at hinstructions
      simp [hne] at hinstructions
    have hbranch := calc
      seriesWidth c [.branch (above ++ leg :: below)]
        ≤ seriesWidth c [.branch (above ++ Series.editAt change path leg :: below)] :=
          seriesWidth_branch_mono hc (ih hne hchange) above below
      _ = seriesWidth c (Legs.prune (above ++ Series.editAt change path leg :: below)) :=
          (seriesWidth_prune hc (List.mem_append_right _ List.mem_cons_self) hedited).symm
    rw [Series.editAt_into, seriesWidth_append, seriesWidth_append, seriesWidth_append,
      seriesWidth_cons]
    linarith

end

end Layout

/-! ## Edits of a rung -/

namespace Rung

open Layout

/-- The width of the diagram of a rung. -/
def width (r : Rung) (c : Config Rat) : Rat := (layout r.elements r.number c).width

theorem width_eq (r : Rung) (c : Config Rat) :
    r.width c = c.startX + seriesWidth c r.elements + c.rightMargin :=
  width_layout r.elements r.number c

section
variable {c : Config Rat} (hc : c.Valid) {r new : Rung} {index : Int}
include hc

theorem width_append_lt_iff (r : Rung) (e : Element) :
    r.width c < (r.withElements (r.elements ++ [e])).width c ↔ e ≠ .branch [] := by
  have hpos : 0 < seriesWidth c [e] ↔ e ≠ .branch [] := by
    cases e with
    | instr i => simpa [seriesWidth_instr] using cellWidth_pos hc i
    | branch legs =>
      by_cases hne : legs = []
      · subst hne
        simp [seriesWidth_branch, fannedWidth]
      · simpa [hne] using seriesWidth_branch_pos hc hne
  rw [← hpos, width_eq, width_eq, withElements, seriesWidth_append]
  constructor <;> intro h <;> linarith

theorem width_le_insert {x : Instruction} (h : r.insert index x = .ok new) :
    r.width c ≤ new.width c ∧ (index = r.count → r.width c < new.width c) := by
  by_cases hend : index = r.count
  · rw [insert, if_pos hend] at h
    obtain rfl := Except.ok.inj h
    have hlt := (width_append_lt_iff hc r (.instr x)).2 Element.noConfusion
    exact ⟨hlt.le, fun _ => hlt⟩
  · rw [insert, if_neg hend] at h
    obtain ⟨path, before, left, i, right, after, hlead, hnew⟩ := exists_leads_of_editAround h
    have hwider := (seriesWidth_lt_insert hc x left (.instr i :: right)).le
    have hle := seriesWidth_le_editAt hc hlead
      (fun es => es.take left.length ++ .instr x :: es.drop left.length)
      (by simp [Series.instructions_append, Series.instructions]) (by simpa using hwider)
    rw [width_eq, width_eq, hnew]
    exact ⟨by linarith, fun h => absurd h hend⟩

theorem width_remove_le (h : r.remove index = .ok new) : new.width c ≤ r.width c := by
  obtain ⟨path, before, left, i, right, after, hlead, hnew⟩ := exists_leads_of_editAround h
  have hnarrower := (seriesWidth_lt_insert hc i left right).le
  have hle := seriesWidth_editAt_le hc hlead (fun es => Series.splice es left.length [])
    (by simpa using hnarrower)
  rw [width_eq, width_eq, hnew]
  linarith

end

/-- **Edits move the width of a rung in one direction only**: where an instruction may be inserted,
    the rung does not become narrower, and wider if that is at its end; where one may be removed, it
    does not become wider.  An element at the end of the rung makes it wider unless it is a branch
    without legs. -/
theorem width_edit (r : Rung) {c : Config Rat} (hc : c.Valid) :
    (∀ (index : Int) (x : Instruction),
      ((∃ new, r.insert index x = .ok new) ↔ 0 ≤ index ∧ index ≤ r.count) ∧
      ∀ new, r.insert index x = .ok new →
        r.width c ≤ new.width c ∧ (index = r.count → r.width c < new.width c)) ∧
    (∀ index : Int, ((∃ new, r.remove index = .ok new) ↔ 0 ≤ index ∧ index < r.count) ∧
      ∀ new, r.remove index = .ok new → new.width c ≤ r.width c) ∧
    ∀ e : Element,
      r.width c < (r.withElements (r.elements ++ [e])).width c ↔ e ≠ .branch [] :=
  ⟨fun index x => ⟨(r.yields_insert index x).exists_ok_iff, fun _ h => width_le_insert hc h⟩,
    fun index => ⟨(r.yields_remove index).exists_ok_iff, fun _ h => width_remove_le hc h⟩,
    width_append_lt_iff hc r⟩

/-- Inserting in front of `XIC(A)` drops the empty legs around it, and removing `XIC(A)` takes both
    branches with it. -/
theorem width_edit_vanishing :
    let c : Config Rat := .standard
    let a : Instruction := ⟨"XIC", .unary "A", by decide⟩
    let b : Instruction := ⟨"OTE", .unary "B", by decide⟩
    let r : Rung := .ofElements 0 [.branch [[], [.branch [[.instr a]]], []], .instr b]
    c.Valid ∧ ∃ longer last shorter,
      (r.insert 0 b = .ok longer ∧ r.width c ≤ longer.width c) ∧
      (r.insert 2 a = .ok last ∧ r.width c < last.width c) ∧
      (r.remove 0 = .ok shorter ∧ shorter.width c ≤ r.width c) ∧
      r.width c < (r.withElements (r.elements ++ [.branch [[]]])).width c := by
  intro c a b r
  have hvalid : c.Valid := by decide +kernel
  obtain ⟨hinsert, hremove, happend⟩ := width_edit r hvalid
  obtain ⟨longer, hlonger⟩ := (hinsert 0 b).1.2 (by decide +kernel)
  obtain ⟨last, hlast⟩ := (hinsert 2 a).1.2 (by decide +kernel)
  obtain ⟨shorter, hshorter⟩ := (hremove 0).1.2 (by decide +kernel)
  exact ⟨hvalid, longer, last, shorter, ⟨hlonger, ((hinsert 0 b).2 longer hlonger).1⟩,
    ⟨hlast, ((hinsert 2 a).2 last hlast).2 (by decide +kernel)⟩,
    ⟨hshorter, (hremove 0).2 shorter hshorter⟩, (happend _).2 nofun⟩

end Rung

end RelayLadder
