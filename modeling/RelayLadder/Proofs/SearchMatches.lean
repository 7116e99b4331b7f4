/-
  A search finds the addresses of the instructions that are about the query.

  * `occursIn_iff`, `mentions_searchNeedle_iff`: what makes an instruction a match;
  * `rung_eq_ok_iff`, `position_of_getElem?`: where rung numbers are distinct, each one stands for
    the rung that has it, at the position of this rung;
  * `mem_matchesOf_iff`: a match of a routine is a location in one of its rungs;
  * `finds_search`: so the matches of a routine lead back to their instructions, are those at all
    addresses whose instructions are about the query, and come once and in order.
-/
import Mathlib.Data.List.Forall2
import Mathlib.Data.List.Nodup
import RelayLadder.Proofs.RoutineEdits
import RelayLadder.Proofs.RungEdits
import RelayLadder.Search

namespace RelayLadder

/-! ## What an instruction mentions -/

theorem Text.occursIn_iff (needle cs : List Char) :
    Text.occursIn needle cs = true ↔ needle <:+: cs := by
  induction cs with
  | nil => simp [Text.occursIn]
  | cons c cs ih =>
    rw [Text.occursIn, Bool.or_eq_true, ih, List.isPrefixOf_iff_prefix, List.infix_cons_iff]

namespace Instruction

/-- The query, without the blanks around it, is part of the mnemonic or of an operand, with all in
    lower case. -/
def IsAbout (i : Instruction) (query : String) : Prop :=
  ∃ s ∈ i.mnemonic :: i.values, (Text.lower (Text.strip query)).toList <:+: (Text.lower s).toList

theorem mentions_searchNeedle_iff {i : Instruction} {query : String} :
    i.mentions (searchNeedle query) = true ↔ i.IsAbout query := by
  simp only [mentions, List.any_eq_true, Text.occursIn_iff, IsAbout, searchNeedle]

end Instruction

/-! ## Locations -/

namespace Series

theorem mem_walk_iff {es : Series} {l : Location} : l ∈ walk es ↔ locate es l.index = some l := by
  constructor
  · intro h
    obtain ⟨k, hk⟩ := List.mem_iff_getElem?.1 h
    have hlocate : locate es k = some l := locate_eq_some_iff_getElem?.2 ⟨k, rfl, hk⟩
    rwa [(locate_eq_some_iff.1 hlocate).1] at hlocate
  · intro h
    obtain ⟨k, -, hk⟩ := locate_eq_some_iff_getElem?.1 h
    exact List.mem_of_getElem? hk

theorem pairwise_index_walk (es : Series) : (walk es).Pairwise fun a b => a.index < b.index := by
  rw [← List.pairwise_map, map_index_walk]
  exact List.pairwise_lt_range

end Series

/-! ## Rungs by number -/

namespace Routine

/-- Where numbers are distinct, each stands for the rung that has it. -/
theorem rung_eq_ok_iff {r : Routine} (hnodup : r.numbers.Nodup) {n : Int} {x : Rung} :
    r.rung (.integer n) = .ok x ↔ x ∈ r.rungs ∧ (x.number : Int) = n := by
  have hfound : r.rung (.integer n) = .ok x ↔ findRung r.rungs n = some x := by
    rw [rung_eq]
    cases findRung r.rungs n with
    | none => simp
    | some y => simp
  rw [hfound, findRung]
  constructor
  · intro h
    have hnumber := List.find?_some h
    exact ⟨List.mem_of_find?_eq_some h, (of_decide_eq_true hnumber).symm⟩
  · rintro ⟨hx, rfl⟩
    obtain ⟨y, hy⟩ : ∃ y, r.rungs.find? (fun y => (x.number : Int) = y.number) = some y :=
      Option.isSome_iff_exists.1 (List.find?_isSome.2 ⟨x, hx, by simp⟩)
    have hnumber : x.number = y.number := by simpa [Int.ofNat_inj] using List.find?_some hy
    rw [hy, List.inj_on_of_nodup_map hnodup hx (List.mem_of_find?_eq_some hy) hnumber]

theorem position_of_getElem? {r : Routine} (hnodup : r.numbers.Nodup) {k : Nat} {x : Rung}
    (h : r.rungs[k]? = some x) : r.position (.integer x.number) = .ok k := by
  obtain ⟨hk, rfl⟩ := List.getElem?_eq_some_iff.1 h
  have hfirst : r.rungs.findIdx? (fun y => (FieldValue.integer r.rungs[k].number).isNumber
      y.number) = some k := by
    refine List.findIdx?_eq_some_iff_getElem.2 ⟨hk, by simp, fun j hj => ?_⟩
    -- an earlier rung with this number would be another one
    have hne := List.pairwise_iff_getElem.1 (List.pairwise_map.1 hnodup) j k
      (Nat.lt_trans hj hk) hk hj
    simpa using hne.symm
  rw [position, hfirst]

/-! ## Matches -/

/-- The first match stands in an earlier rung than the second, or earlier in the same rung. -/
def Precedes (r : Routine) (a b : Match) : Prop :=
  ∃ j k, r.position (.integer a.rung) = .ok j ∧ r.position (.integer b.rung) = .ok k ∧
    (j < k ∨ j = k ∧ a.location.index < b.location.index)

/-- The matches are what a search for the query finds in the routine. -/
structure Finds (r : Routine) (query : String) (ms : List Match) : Prop where
  /-- Rung number and index of a match lead to its instruction and location. -/
  leads : ∀ m ∈ ms, m.routine = r.name ∧ ∃ x, r.rung (.integer m.rung) = .ok x ∧
    x.instructionAt m.location.index = .ok m.location.instruction ∧
    Series.locate x.elements m.location.index = some m.location
  /-- The addresses of the matches are those that lead to an instruction about the query; a blank
      query has none. -/
  addresses : ∀ n index : Int,
    (∃ m ∈ ms, (m.rung : Int) = n ∧ (m.location.index : Int) = index) ↔
      Text.lower (Text.strip query) ≠ "" ∧ ∃ x i, r.rung (.integer n) = .ok x ∧
        x.instructionAt index = .ok i ∧ i.IsAbout query
  once : (ms.map fun m => (m.rung, m.location.index)).Nodup
  ordered : ms.Pairwise r.Precedes

/-- The matches of one routine. -/
def matchesOf (r : Routine) (query : String) : List Match :=
  if (searchNeedle query).isEmpty then []
  else r.rungs.flatMap (·.search r.name (searchNeedle query))

theorem isEmpty_searchNeedle {query : String} :
    (searchNeedle query).isEmpty = true ↔ Text.lower (Text.strip query) = "" := by
  rw [List.isEmpty_iff, searchNeedle, String.toList_eq_nil_iff]

/-- A match of a routine is a location in one of its rungs, of an instruction about the query. -/
theorem mem_matchesOf_iff {r : Routine} {query : String} {m : Match} :
    m ∈ r.matchesOf query ↔
      Text.lower (Text.strip query) ≠ "" ∧ ∃ x ∈ r.rungs, ∃ l,
        Series.locate x.elements l.index = some l ∧ l.instruction.IsAbout query ∧
        m = ⟨r.name, x.number, l⟩ := by
  unfold matchesOf
  split
  · rename_i hblank
    have := isEmpty_searchNeedle.1 hblank
    simp [this]
  · rename_i hblank
    have hne : Text.lower (Text.strip query) ≠ "" := isEmpty_searchNeedle.not.1 hblank
    simp only [Rung.search, List.mem_flatMap, List.mem_map, List.mem_filter, Series.mem_walk_iff,
      Instruction.mentions_searchNeedle_iff, and_assoc]
    constructor
    · rintro ⟨x, hx, l, hl, habout, rfl⟩
      exact ⟨hne, x, hx, l, hl, habout, rfl⟩
    · rintro ⟨-, x, hx, l, hl, habout, rfl⟩
      exact ⟨x, hx, l, hl, habout, rfl⟩

/-- The matches of a routine come in the order of its rungs and of the instructions in each. -/
theorem pairwise_matchesOf {r : Routine} (hnodup : r.numbers.Nodup) (query : String) :
    (r.matchesOf query).Pairwise r.Precedes := by
  unfold matchesOf
  split
  · exact .nil
  refine List.pairwise_flatMap.2 ⟨fun x hx => ?_, ?_⟩
  · -- in one rung, locations come by index
    obtain ⟨k, hk⟩ := List.mem_iff_getElem?.1 hx
    have hposition := position_of_getElem? hnodup hk
    refine List.pairwise_map.2 (((Series.pairwise_index_walk x.elements).filter _).imp ?_)
    intro a b hab
    exact ⟨k, k, hposition, hposition, .inr ⟨rfl, hab⟩⟩
  · refine List.pairwise_iff_getElem.2 fun j k hj hk hjk a ha b hb => ?_
    obtain ⟨l, -, rfl⟩ := List.mem_map.1 ha
    obtain ⟨l', -, rfl⟩ := List.mem_map.1 hb
    exact ⟨j, k, position_of_getElem? hnodup (List.getElem?_eq_getElem hj),
      position_of_getElem? hnodup (List.getElem?_eq_getElem hk), .inl hjk⟩

theorem Precedes.ne {r : Routine} {a b : Match} (h : r.Precedes a b) :
    (a.rung, a.location.index) ≠ (b.rung, b.location.index) := by
  obtain ⟨j, k, hj, hk, horder⟩ := h
  intro heq
  obtain ⟨hrung, hindex⟩ := Prod.mk.injEq .. ▸ heq
  rw [hrung, hk, Except.ok.injEq] at hj
  omega

/-- **What a search finds in a routine leads back to it**, if its rung numbers are distinct. -/
theorem finds_matchesOf {r : Routine} (hnodup : r.numbers.Nodup) (query : String) :
    r.Finds query (r.matchesOf query) := by
  have hordered := pairwise_matchesOf hnodup query
  refine ⟨fun m hm => ?_, fun n index => ⟨?_, ?_⟩, ?_, hordered⟩
  · obtain ⟨-, x, hx, l, hl, -, rfl⟩ := mem_matchesOf_iff.1 hm
    exact ⟨rfl, x, (rung_eq_ok_iff hnodup).2 ⟨hx, rfl⟩,
      Rung.instructionAt_eq_ok_iff.2 ⟨l, hl, rfl⟩, hl⟩
  · rintro ⟨m, hm, rfl, rfl⟩
    obtain ⟨hne, x, hx, l, hl, habout, rfl⟩ := mem_matchesOf_iff.1 hm
    exact ⟨hne, x, l.instruction, (rung_eq_ok_iff hnodup).2 ⟨hx, rfl⟩,
      Rung.instructionAt_eq_ok_iff.2 ⟨l, hl, rfl⟩, habout⟩
  · rintro ⟨hne, x, i, hx, hi, habout⟩
    obtain ⟨hmem, rfl⟩ := (rung_eq_ok_iff hnodup).1 hx
    obtain ⟨l, hl, rfl⟩ := Rung.instructionAt_eq_ok_iff.1 hi
    have hindex := (Series.locate_eq_some_iff.1 hl).1
    subst hindex
    exact ⟨⟨r.name, x.number, l⟩, mem_matchesOf_iff.2 ⟨hne, x, hmem, l, hl, habout, rfl⟩, rfl, rfl⟩
  · exact List.pairwise_map.2 (hordered.imp Precedes.ne)

end Routine

theorem search_eq_flatMap (routines : List Routine) (query : String) :
    search routines query = routines.flatMap (·.matchesOf query) := by
  unfold search Routine.matchesOf
  by_cases hblank : (searchNeedle query).isEmpty = true
  · simp only [if_pos hblank]
    exact (List.flatMap_eq_nil_iff.2 fun _ _ => rfl).symm
  · simp only [if_neg hblank]

/-- **A search finds, routine by routine, the addresses of the instructions that are about the
    query**, each once and in order, and each leads to the instruction that was found. -/
theorem finds_search (routines : List Routine) (query : String)
    (h : ∀ r ∈ routines, r.numbers.Nodup) :
    ∃ parts, search routines query = parts.flatten ∧
      List.Forall₂ (fun r ms => r.Finds query ms) routines parts := by
  refine ⟨routines.map (·.matchesOf query), ?_, ?_⟩
  · rw [search_eq_flatMap, List.flatMap_def]
  · rw [List.forall₂_map_right_iff, List.forall₂_same]
    exact fun r hr => Routine.finds_matchesOf (h r hr) query

/-- The rung numbers are out of order and occur in both routines. -/
theorem finds_search_nested :
    let routines : List Routine :=
      [⟨"Main/Start", [.ofText 7 "XIC(Run)[OTE(b),[MOV(1,RUN.2)]]", .ofText 2 "OTE(rerun)"]⟩,
       ⟨"Main/Stop", [.ofText 7 "XIO(run)"]⟩]
    (∀ r ∈ routines, r.numbers.Nodup) ∧
    ∃ parts, search routines " rUn " = parts.flatten ∧
      List.Forall₂ (fun r ms => r.Finds " rUn " ms) routines parts := by
  intro routines
  have h : ∀ r ∈ routines, r.numbers.Nodup := by decide +kernel
  exact ⟨h, finds_search routines " rUn " h⟩

end RelayLadder
