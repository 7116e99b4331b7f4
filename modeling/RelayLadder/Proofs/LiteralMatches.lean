/-
  Which of the texts that have the query as it is are found.

  A search compares lower-cased texts.  The query is lower-cased alone, and a text with all that
  stands around the query there, so a capital sigma at an end of the query may become another letter
  in the text.

  * `Instruction.HasLiterally`, `Instruction.HasKept`: the query is part of the mnemonic or of an
    operand as it is, and so at a place where its sigmas end words as they do in the query;
  * `searchFinds_iff`: a search finds all instructions with a property if and only if they are about
    the query;
  * `search_finds_literals`: it finds an instruction that has the query at such a place, and it
    finds all that have the query anywhere if and only if the query is settled;
  * `exists_literal_missed`: so there are instructions that it does not find.
-/
import RelayLadder.Proofs.LowerCasing
import RelayLadder.Proofs.SearchMatches

namespace RelayLadder

namespace Instruction

/-- The query, without the blanks around it, is part of the mnemonic or of an operand as it is. -/
def HasLiterally (i : Instruction) (query : String) : Prop :=
  ∃ s ∈ i.mnemonic :: i.values, (Text.strip query).toList <:+: s.toList

/-- The query, without the blanks around it, is part of the mnemonic or of an operand as it is, at a
    place where its capital sigmas end words as they do in the query. -/
def HasKept (i : Instruction) (query : String) : Prop :=
  ∃ s ∈ i.mnemonic :: i.values, ∃ before after,
    s.toList = before ++ (Text.strip query).toList ++ after ∧
      Text.KeepsWordEnds before (Text.strip query).toList after

theorem HasKept.isAbout {i : Instruction} {query : String} (h : i.HasKept query) :
    i.IsAbout query := by
  obtain ⟨s, hs, before, after, hparts, hkeeps⟩ := h
  refine ⟨s, hs, ?_⟩
  rw [Text.toList_lower, Text.toList_lower, hparts]
  exact hkeeps.infix

/-- **All instructions that have the query as it is are about it if and only if it is settled.** -/
theorem isAbout_of_hasLiterally_iff {query : String} (h : Text.strip query ≠ "") :
    (∀ i : Instruction, i.HasLiterally query → i.IsAbout query) ↔
      Text.isSettled (Text.strip query).toList = true := by
  rw [Text.isSettled_iff]
  constructor
  · intro hall before after
    -- a mnemonic may be any text that is not empty
    have hne : String.ofList (before ++ (Text.strip query).toList ++ after) ≠ "" := by
      rw [Ne, ← String.toList_eq_nil_iff, String.toList_ofList]
      simp [String.toList_eq_nil_iff.not.2 h]
    obtain ⟨s, hs, hinfix⟩ := hall ⟨_, .nullary, hne⟩
      ⟨_, List.mem_cons_self, by rw [String.toList_ofList]; exact List.infix_append ..⟩
    obtain rfl := List.mem_singleton.1 hs
    rwa [Text.toList_lower, Text.toList_lower, String.toList_ofList] at hinfix
  · rintro hall i ⟨s, hs, before, after, hparts⟩
    refine ⟨s, hs, ?_⟩
    rw [Text.toList_lower, Text.toList_lower, ← hparts]
    exact hall before after

end Instruction

/-! ## Searches -/

/-- A search for the query finds all instructions with the property, in whatever routines. -/
def SearchFinds (query : String) (P : Instruction → Prop) : Prop :=
  ∀ routines : List Routine, ∀ r ∈ routines, ∀ x ∈ r.rungs, ∀ l ∈ Series.walk x.elements,
    P l.instruction → ⟨r.name, x.number, l⟩ ∈ search routines query

theorem searchFinds_iff {query : String} (h : Text.strip query ≠ "") {P : Instruction → Prop} :
    SearchFinds query P ↔ ∀ i, P i → i.IsAbout query := by
  constructor
  · intro hfinds i hi
    -- a rung with no other instruction
    have hl : (⟨⟨[], 0, i⟩, 0⟩ : Location) ∈ Series.walk [.instr i] := by
      simp [Series.walk, Series.places]
    have hfound := hfinds [⟨"", [.ofElements 0 [.instr i]]⟩] _ List.mem_cons_self _
      List.mem_cons_self _ hl hi
    rw [search_eq_flatMap] at hfound
    obtain ⟨r, -, hmatch⟩ := List.mem_flatMap.1 hfound
    obtain ⟨-, x, -, l, -, habout, heq⟩ := Routine.mem_matchesOf_iff.1 hmatch
    have hsame : i = l.instruction := congrArg (fun m : Match => m.location.instruction) heq
    rwa [hsame]
  · intro hall routines r hr x hx l hl hi
    rw [search_eq_flatMap]
    exact List.mem_flatMap.2 ⟨r, hr, Routine.mem_matchesOf_iff.2
      ⟨Text.lower_eq_empty_iff.not.2 h, x, hx, l, Series.mem_walk_iff.1 hl, hall _ hi, rfl⟩⟩

/-- **A search finds the query as it is** in each instruction that has it at a place where its
    capital sigmas end words as they do in the query.  It finds all instructions that have the
    query, at whatever place, if and only if the query settles for each of its capital sigmas
    whether it ends a word. -/
theorem search_finds_literals (query : String) (h : Text.strip query ≠ "") :
    SearchFinds query (·.HasKept query) ∧
      (SearchFinds query (·.HasLiterally query) ↔
        Text.isSettled (Text.strip query).toList = true) := by
  rw [searchFinds_iff h, searchFinds_iff h]
  exact ⟨fun i hi => hi.isAbout, Instruction.isAbout_of_hasLiterally_iff h⟩

/-- A query that has a sigma within a word, and one at the start of a word. -/
theorem search_finds_literals_settled :
    Text.strip " ΘΕΣΗ_ΣΤ " ≠ "" ∧ SearchFinds " ΘΕΣΗ_ΣΤ " (·.HasKept " ΘΕΣΗ_ΣΤ ") ∧
      SearchFinds " ΘΕΣΗ_ΣΤ " (·.HasLiterally " ΘΕΣΗ_ΣΤ ") := by
  have hstrip : Text.strip " ΘΕΣΗ_ΣΤ " ≠ "" := by decide +kernel
  have hsettled : Text.isSettled (Text.strip " ΘΕΣΗ_ΣΤ ").toList = true := by decide +kernel
  obtain ⟨hkept, hall⟩ := search_finds_literals " ΘΕΣΗ_ΣΤ " hstrip
  exact ⟨hstrip, hkept, hall.2 hsettled⟩

/-- The sigma ends a word in the query, and none in the operand. -/
theorem exists_literal_missed :
    let routines : List Routine := [⟨"Main/Routine", [.ofText 0 "XIC(ΘΕΣΗ)"]⟩]
    Text.strip "ΘΕΣ" ≠ "" ∧ ∃ r ∈ routines, ∃ x ∈ r.rungs, ∃ l ∈ Series.walk x.elements,
      l.instruction.HasLiterally "ΘΕΣ" ∧ ⟨r.name, x.number, l⟩ ∉ search routines "ΘΕΣ" := by
  intro routines
  have hwalk : Series.walk (Rung.ofText 0 "XIC(ΘΕΣΗ)").elements =
      [⟨⟨[], 0, ⟨"XIC", .unary "ΘΕΣΗ", by decide⟩⟩, 0⟩] := by decide +kernel
  have hsearch : search routines "ΘΕΣ" = [] := by decide +kernel
  refine ⟨by decide +kernel, _, List.mem_cons_self, _, List.mem_cons_self, _,
    hwalk ▸ List.mem_cons_self, ?_, by rw [hsearch]; exact List.not_mem_nil⟩
  exact ⟨"ΘΕΣΗ", by decide +kernel, [], ['Η'], by decide +kernel⟩

end RelayLadder
