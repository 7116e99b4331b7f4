/-
  The reading is clean exactly on the grammar.

  * Completeness (`DerivesSeries.readsTo`): on a text that derives a series, the machine adds this
    series and tells nothing.  What stands before a text matters to bare names only; `Fresh` is
    what every derivation keeps of it;
  * soundness (`Reached.foldl_step`): a machine that has told nothing, and holds no leg without
    elements, has derived from the text so far what it holds;
  * `parse_eq_iff_derives`: a text is read as a series without diagnostics exactly if it derives
    this series.
-/
import RelayLadder.Proofs.Lexing
import RelayLadder.Proofs.Machine

namespace RelayLadder.RungText

open Text

/-- The state after the machine has read the text `cs`, which starts at `pos` and has `before` in
    front of it. -/
def State.run (s : State) (before : Option Char) (pos : Nat) (cs : List Char) : State :=
  (lexemesFrom before pos 0 cs).foldl State.step s

/-! ## What the grammar derives is read -/

/-- A name at the start of the text continues no word. -/
def Fresh (before : Option Char) (cs : List Char) : Prop :=
  before.any isWordChar = true → ∀ c ∈ cs.head?, isNameChar c = false

theorem fresh_of_not_isWordChar {before : Char} (h : isWordChar before = false) (cs : List Char) :
    Fresh (some before) cs := by
  intro hw
  simp [h] at hw

section
variable {depth : Nat} {cs rest : List Char} {i : Instruction} {before : Option Char}

/-- An instruction of the grammar is read as such, and what follows is fresh again. -/
theorem exists_instructionAt_of_derives (h : DerivesElement depth cs (.instr i) rest)
    (hf : Fresh before cs) :
    ∃ r, InstructionAt before cs r ∧ r.instruction = i ∧ r.closed = true ∧
      cs.drop r.length = rest ∧ Fresh (cs.take r.length).getLast? rest := by
  cases h with
  | @listed _ _ blanks params _ hname hblank hbal ho =>
    have hlen : (OperandList.read 0 (params ++ ')' :: rest)).length = params.length + 1 := by
      rw [OperandList.read_append_close hbal]
    have hcl : (OperandList.read 0 (params ++ ')' :: rest)).closed = true := by
      rw [OperandList.read_append_close hbal]
    have htaken : (i.mnemonic.toList ++ blanks ++ '(' :: params ++ [')']).length =
        i.mnemonic.toList.length + blanks.length + 1 + (params.length + 1) := by
      simp only [List.length_append, List.length_cons, List.length_nil]; omega
    refine ⟨⟨i, i.mnemonic.toList.length + blanks.length + 1 + (params.length + 1), true⟩,
      .listed blanks (params ++ ')' :: rest) hname hblank ?_ ?_ ?_ hcl.symm, rfl, rfl, ?_, ?_⟩
    · simp
    · rw [OperandList.values_read_append_close hbal]; exact ho
    · rw [hlen]
    · rw [List.append_cons]
      exact List.drop_left' htaken
    · rw [List.append_cons, List.take_left' htaken, List.getLast?_concat]
      exact fresh_of_not_isWordChar (by decide +kernel) rest
  | bare hname ho hends hparen =>
    have hb : before.any isWordChar = false := by
      obtain ⟨c, name, hm⟩ := i.exists_toList_eq_cons
      rw [Bool.eq_false_iff]
      intro hw
      have hc := hf hw c (by simp [hm])
      rw [hm, List.all_cons, hc] at hname
      cases hname
    exact ⟨⟨i, i.mnemonic.toList.length, true⟩, .bare rest hname rfl ho hends hparen hb rfl rfl,
      rfl, rfl, by simp, fun _ => isNameChar_of_endsName hends⟩

end

/-- Reading `cs` in the state `s` comes down to reading `rest` in the state `s'`, wherever `cs`
    stands. -/
def ReadsTo (s : State) (cs : List Char) (s' : State) (rest : List Char) : Prop :=
  ∀ before pos, Fresh before cs →
    ∃ before' pos', Fresh before' rest ∧ s.run before pos cs = s'.run before' pos' rest

namespace ReadsTo

variable {s s' s'' : State} {cs mid rest : List Char}

theorem refl (s : State) (cs : List Char) : ReadsTo s cs s cs :=
  fun before pos hf => ⟨before, pos, hf, rfl⟩

theorem trans (h : ReadsTo s cs s' mid) (h' : ReadsTo s' mid s'' rest) :
    ReadsTo s cs s'' rest := by
  intro before pos hf
  obtain ⟨before', pos', hf', hr⟩ := h before pos hf
  obtain ⟨before'', pos'', hf'', hr'⟩ := h' before' pos' hf'
  exact ⟨before'', pos'', hf'', hr.trans hr'⟩

theorem blank {c : Char} (hb : isBlank c = true) : ReadsTo s (c :: cs) s cs := by
  intro before pos _
  refine ⟨some c, pos + 1, fresh_of_not_isWordChar (isWordChar_of_isBlank hb) cs, ?_⟩
  rw [State.run, lexemesFrom_blank hb]
  rfl

/-- A bracket or comma is read by one step, at whatever position it stands. -/
theorem mark {c : Char} {t : Token} (hm : mark? c = some t)
    (h : ∀ pos, ReadsTo (s.step ⟨t, pos, pos + 1⟩) cs s' rest) : ReadsTo s (c :: cs) s' rest := by
  intro before pos _
  have hf := fresh_of_not_isWordChar (isWordChar_of_mark? hm) cs
  obtain ⟨before', pos', hf', hr⟩ := h pos (some c) (pos + 1) hf
  refine ⟨before', pos', hf', ?_⟩
  rw [← hr, State.run, lexemesFrom_mark hm]
  rfl

theorem instruction {depth : Nat} {i : Instruction}
    (h : DerivesElement depth cs (.instr i) rest) : ReadsTo s cs (s.add [.instr i]) rest := by
  intro before pos hf
  obtain ⟨r, hi, rfl, hcl, rfl, hf'⟩ := exists_instructionAt_of_derives h hf
  refine ⟨_, pos + r.length, hf', ?_⟩
  rw [State.run, lexemesFrom_instruction hi, hcl]
  rfl

end ReadsTo

/-- A leg with elements ends, wherever the comma stands. -/
theorem step_comma {s : State} {f : Frame} {frames : List Frame} (hs : s.frames = f :: frames)
    (hl : f.leg ≠ []) (start stop : Nat) :
    s.step ⟨.comma, start, stop⟩ =
      { s with frames := { f with legs := f.legs ++ [f.leg], leg := [] } :: frames } := by
  simp [State.step, hs, Frame.closeLeg, hl]

/-- A branch of which all legs have elements ends, wherever the bracket stands. -/
theorem step_closeBranch {s : State} {f : Frame} {frames : List Frame}
    (hs : s.frames = f :: frames) (hl : f.leg ≠ []) (he : f.emptyLegs = []) (start stop : Nat) :
    s.step ⟨.closeBranch, start, stop⟩ =
      { s with frames }.add [.branch (f.legs ++ [f.leg])] := by
  simp [State.step, hs, Frame.closeLeg, hl, Frame.findings, he, Frame.elements]

-- The induction is on the derivation; a branch hands its legs over with the frame that they fill.
mutual
theorem DerivesElement.readsTo {depth : Nat} {cs rest : List Char} {e : Element} :
    DerivesElement depth cs e rest → ∀ s : State, s.frames.length = depth →
      ReadsTo s cs (s.add [e]) rest
  | h@(.listed _ _ _ _), _, _ => .instruction h
  | h@(.bare _ _ _ _), _, _ => .instruction h
  | .branch hd hl, s, hs => by
    refine .mark (t := .openBranch) rfl fun pos => ?_
    have hopen : s.step ⟨.openBranch, pos, pos + 1⟩ =
        { s with frames := { start := pos } :: s.frames } := by
      simp [State.step, hs, hd]
    rw [hopen]
    exact hl.readsTo s s.frames pos [] (by rw [hs])

/-- **On a text that derives a series the machine adds this series, and tells nothing.** -/
theorem DerivesSeries.readsTo {depth : Nat} {cs rest : List Char} {es : Series} :
    DerivesSeries depth cs es rest → ∀ s : State, s.frames.length = depth →
      ReadsTo s cs (s.add es) rest
  | .nil, s, _ => by
    rw [State.add_nil]
    exact .refl s _
  | .blank hb h, s, hs => (ReadsTo.blank hb).trans (h.readsTo s hs)
  | .cons he h, s, hs => by
    rw [← List.singleton_append, State.add_append]
    exact (he.readsTo s hs).trans (h.readsTo _ (by rw [State.length_frames_add, hs]))

theorem DerivesLegs.readsTo {depth : Nat} {cs rest : List Char} {legs : Legs} :
    DerivesLegs depth cs legs rest →
      ∀ (s : State) (frames : List Frame) (start : Nat) (finished : Legs),
      frames.length + 1 = depth →
      ReadsTo { s with frames := { start, legs := finished } :: frames } cs
        ({ s with frames }.add [.branch (finished ++ legs)]) rest
  | .last hne h, s, frames, start, finished, hd => by
    refine (h.readsTo _ (by simpa using hd)).trans ?_
    refine .mark (t := .closeBranch) rfl fun pos => ?_
    rw [State.add_of_frames_cons rfl, step_closeBranch rfl hne rfl]
    exact .refl _ _
  | @DerivesLegs.next _ _ _ _ es _ hne h hl, s, frames, start, finished, hd => by
    refine (h.readsTo _ (by simpa using hd)).trans ?_
    refine .mark (t := .comma) rfl fun pos => ?_
    have hrest := hl.readsTo s frames start (finished ++ [es]) hd
    rw [List.append_assoc] at hrest
    rw [State.add_of_frames_cons rfl, step_comma rfl hne]
    exact hrest
end

/-! ## What is read cleanly is derived -/

theorem DerivesSeries.append {depth : Nat} {cs mid rest : List Char} {a b : Series} :
    DerivesSeries depth cs a mid → DerivesSeries depth mid b rest →
      DerivesSeries depth cs (a ++ b) rest
  | .nil, hb => hb
  | .blank hc ha, hb => .blank hc (ha.append hb)
  | .cons he ha, hb => .cons he (ha.append hb)

/-- The text derives legs inside `depth` branches, each with the comma that ends it, up to the
    rest. -/
inductive DerivesEndedLegs : Nat → List Char → Legs → List Char → Prop
  | nil {depth : Nat} {cs : List Char} : DerivesEndedLegs depth cs [] cs
  | cons {depth : Nat} {cs mid rest : List Char} {es : Series} {legs : Legs} :
      es ≠ [] → DerivesSeries depth cs es (',' :: mid) → DerivesEndedLegs depth mid legs rest →
      DerivesEndedLegs depth cs (es :: legs) rest

namespace DerivesEndedLegs

variable {depth : Nat} {cs mid rest : List Char} {legs : Legs} {es : Series}

theorem concat (h : DerivesEndedLegs depth cs legs mid) (hne : es ≠ [])
    (hes : DerivesSeries depth mid es (',' :: rest)) :
    DerivesEndedLegs depth cs (legs ++ [es]) rest := by
  induction h with
  | nil => exact .cons hne hes .nil
  | cons hne' hes' _ ih => exact .cons hne' hes' (ih hes)

theorem close (h : DerivesEndedLegs depth cs legs mid) (hne : es ≠ [])
    (hes : DerivesSeries depth mid es (']' :: rest)) :
    DerivesLegs depth cs (legs ++ [es]) rest := by
  induction h with
  | nil => exact .last hne hes
  | cons hne' hes' _ ih => exact .next hne' hes' (ih hes)

end DerivesEndedLegs

/-- Reading the text `whole` up to `cs` has derived the main rail and the open branches, innermost
    first: for each of them the text around it up to its bracket, its ended legs and its current
    leg. -/
def Reached (whole : List Char) (rail : Series) : List Frame → List Char → Prop
  | [], cs => DerivesSeries 0 whole rail cs
  | f :: frames, cs => frames.length < maxDepth ∧ ∃ start mid,
      Reached whole rail frames ('[' :: start) ∧
        DerivesEndedLegs (frames.length + 1) start f.legs mid ∧
          DerivesSeries (frames.length + 1) mid f.leg cs

/-- Nothing was told, and nothing will have to be told of a leg without elements. -/
structure Clean (s : State) : Prop where
  found_eq : s.found = []
  emptyLegs_eq : ∀ f ∈ s.frames, f.emptyLegs = []

theorem clean_report_iff {s : State} {spans : List Span} :
    Clean (s.report spans) ↔ spans = [] ∧ Clean s := by
  constructor
  · rintro ⟨hf, he⟩
    simp only [State.report_found, List.append_eq_nil_iff, List.reverse_eq_nil_iff] at hf
    exact ⟨hf.1, hf.2, he⟩
  · rintro ⟨rfl, h⟩
    exact h

theorem clean_add_iff {s : State} {es : Series} : Clean (s.add es) ↔ Clean s := by
  rcases h : s.frames with _ | ⟨f, frames⟩
  · rw [State.add_of_frames_nil h]
    exact ⟨fun ⟨hf, he⟩ => ⟨hf, he⟩, fun ⟨hf, he⟩ => ⟨hf, he⟩⟩
  · rw [State.add_of_frames_cons h]
    constructor
    · rintro ⟨hf, he⟩
      refine ⟨hf, ?_⟩
      rw [h]
      simpa [Frame.add] using he
    · rintro ⟨hf, he⟩
      refine ⟨hf, ?_⟩
      rw [h] at he
      simpa [Frame.add] using he

theorem not_clean_skip (s : State) (finding : Finding) (pos : Nat) :
    ¬ Clean (s.skip finding pos) := by
  obtain ⟨found, hne, h⟩ := s.exists_skip_eq finding pos
  rw [h]
  exact fun hc => hne hc.found_eq

theorem Frame.emptyLegs_closeLeg_eq_nil_iff {f : Frame} {pos : Nat} :
    (f.closeLeg pos).emptyLegs = [] ↔ f.leg ≠ [] ∧ f.emptyLegs = [] := by
  unfold Frame.closeLeg
  split <;> simp_all

/-- Nothing is told of a branch exactly if all its legs have elements. -/
theorem Frame.findings_closeLeg_eq_nil_iff {f : Frame} {pos stop : Nat} :
    (f.closeLeg pos).findings stop = [] ↔ f.leg ≠ [] ∧ f.emptyLegs = [] := by
  unfold Frame.findings Frame.closeLeg
  split <;> split <;> simp_all

/-- **A state from which a clean one is reached is clean.** -/
theorem clean_of_clean_step {s : State} {l : Lexeme} (h : Clean (s.step l)) : Clean s := by
  have hs := stepOf_step s l
  generalize s.step l = s' at hs h
  cases hs with
  | instruction _ => exact (clean_report_iff.1 (clean_add_iff.1 h)).2
  | openBranch _ _ => exact ⟨h.found_eq, fun f hf => h.emptyLegs_eq f (by simp [hf])⟩
  | tooDeep _ _ => exact absurd h (not_clean_skip s _ _)
  | comma _ hf =>
    refine ⟨h.found_eq, ?_⟩
    have he := h.emptyLegs_eq
    rw [hf]
    simp only [List.forall_mem_cons, Frame.emptyLegs_closeLeg_eq_nil_iff] at he ⊢
    exact ⟨he.1.2, he.2⟩
  | closeBranch _ hf =>
    obtain ⟨hfind, hc⟩ := clean_report_iff.1 (clean_add_iff.1 h)
    refine ⟨hc.found_eq, ?_⟩
    rw [hf, List.forall_mem_cons]
    exact ⟨(Frame.findings_closeLeg_eq_nil_iff.1 hfind).2, hc.emptyLegs_eq⟩
  | stray _ => exact absurd h (not_clean_skip s _ _)

theorem clean_of_clean_foldl_step {ls : List Lexeme} {s : State}
    (h : Clean (ls.foldl State.step s)) : Clean s := by
  induction ls generalizing s with
  | nil => exact h
  | cons l ls ih => exact clean_of_clean_step (ih h)

namespace Reached

variable {whole cs rest : List Char} {s : State}

theorem add {es : Series} (h : Reached whole s.rail s.frames cs)
    (hes : DerivesSeries s.frames.length cs es rest) :
    Reached whole (s.add es).rail (s.add es).frames rest := by
  rcases hf : s.frames with _ | ⟨f, frames⟩
  · rw [hf] at h hes
    rw [State.add_of_frames_nil hf]
    simp only [hf]
    exact h.append hes
  · rw [hf] at h hes
    rw [State.add_of_frames_cons hf]
    obtain ⟨hd, start, mid, hr, hl, hleg⟩ := h
    exact ⟨hd, start, mid, hr, hl, hleg.append hes⟩

theorem blank {c : Char} (h : Reached whole s.rail s.frames (c :: cs)) (hb : isBlank c = true) :
    Reached whole s.rail s.frames cs := by
  have := h.add (.blank hb .nil)
  rwa [State.add_nil] at this

/-- A clean step by a bracket or comma goes on with the derivation. -/
theorem step_mark {c : Char} {t : Token} {start stop : Nat} (hm : mark? c = some t)
    (h : Reached whole s.rail s.frames (c :: cs)) (hc : Clean (s.step ⟨t, start, stop⟩)) :
    Reached whole (s.step ⟨t, start, stop⟩).rail (s.step ⟨t, start, stop⟩).frames cs := by
  have hs := stepOf_step s ⟨t, start, stop⟩
  generalize s.step ⟨t, start, stop⟩ = s' at hs hc
  have hchar := mark?_eq_some_iff.1 hm
  cases hs with
  | @instruction i closed ht =>
    obtain rfl : t = .instruction i closed := ht
    simp at hchar
  | openBranch ht hd =>
    obtain rfl : t = .openBranch := ht
    obtain rfl : c = '[' := by simpa using hchar
    exact ⟨hd, cs, cs, h, .nil, .nil⟩
  | tooDeep _ _ => exact absurd hc (not_clean_skip s _ _)
  | @comma f frames ht hf =>
    obtain rfl : t = .comma := ht
    obtain rfl : c = ',' := by simpa using hchar
    rw [hf] at h
    obtain ⟨hd, a, b, hr, hl, hleg⟩ := h
    have he := hc.emptyLegs_eq (f.closeLeg start) (by simp)
    have hne := (Frame.emptyLegs_closeLeg_eq_nil_iff.1 he).1
    refine ⟨hd, a, cs, hr, ?_, ?_⟩
    · simpa [Frame.closeLeg, hne] using hl.concat hne hleg
    · simpa [Frame.closeLeg, hne] using DerivesSeries.nil
  | @closeBranch f frames ht hf =>
    obtain rfl : t = .closeBranch := ht
    obtain rfl : c = ']' := by simpa using hchar
    rw [hf] at h
    obtain ⟨hd, a, b, hr, hl, hleg⟩ := h
    obtain ⟨hfind, -⟩ := clean_report_iff.1 (clean_add_iff.1 hc)
    have hne := (Frame.findings_closeLeg_eq_nil_iff.1 hfind).1
    refine Reached.add hr ?_
    have hbr : (f.closeLeg start).elements = [.branch (f.legs ++ [f.leg])] := by
      simp [Frame.elements, Frame.closeLeg, hne]
    rw [hbr]
    exact .cons (.branch hd (hl.close hne hleg)) .nil
  | stray _ => exact absurd hc (not_clean_skip s _ _)

/-- A clean step by an instruction goes on with the derivation. -/
theorem step_instruction {before : Option Char} {r : Reading} {start stop : Nat}
    (hi : InstructionAt before cs r) (h : Reached whole s.rail s.frames cs)
    (hc : Clean (s.step ⟨.instruction r.instruction r.closed, start, stop⟩)) :
    Reached whole (s.step ⟨.instruction r.instruction r.closed, start, stop⟩).rail
      (s.step ⟨.instruction r.instruction r.closed, start, stop⟩).frames (cs.drop r.length) := by
  simp only [State.step] at hc ⊢
  have hcl : r.closed = true := by
    by_contra hcl
    simpa [hcl] using (clean_report_iff.1 (clean_add_iff.1 hc)).1
  simp only [hcl, if_true, State.report_nil]
  exact h.add (.cons (hi.derives hcl _) .nil)

/-- **What a machine holds that has come to the end cleanly is derived from the text.** -/
theorem foldl_step {before : Option Char} {pos : Nat} {ls : List Lexeme}
    (hl : Lexes before pos cs ls) (h : Reached whole s.rail s.frames cs)
    (hc : Clean (ls.foldl State.step s)) :
    Reached whole (ls.foldl State.step s).rail (ls.foldl State.step s).frames [] := by
  induction hl generalizing s with
  | nil => exact h
  | blank hb _ ih => exact ih (h.blank hb) hc
  | mark hm _ ih => exact ih (h.step_mark hm (clean_of_clean_foldl_step hc)) hc
  | instruction hi _ ih => exact ih (h.step_instruction hi (clean_of_clean_foldl_step hc)) hc
  | @junk before pos c cs ls =>
    have hstep : Clean (s.step ⟨.junk, pos, pos + 1⟩) := clean_of_clean_foldl_step hc
    exact absurd hstep (not_clean_skip s .skipped pos)

end Reached

/-! ## The whole text -/

theorem derives_of_readBody {cs : List Char} (h : (readBody cs).found = []) :
    DerivesSeries 0 cs (readBody cs).rail [] := by
  obtain ⟨hfound, hframes⟩ := (finish_found_eq_nil_iff _ _).1 h
  have hclean : Clean ((lexemes cs).foldl State.step {}) := ⟨hfound, by simp [hframes]⟩
  have hr := Reached.foldl_step (lexes_lexemesFrom none 0 cs) (s := {}) .nil hclean
  have hrail : (readBody cs).rail = ((lexemes cs).foldl State.step {}).rail := by
    rw [readBody, finish_rail, hframes]
    exact List.append_nil _
  rw [hrail]
  rw [lexemes] at hframes ⊢
  rwa [hframes] at hr

theorem readBody_of_derives {cs : List Char} {es : Series} (h : DerivesSeries 0 cs es []) :
    readBody cs = { rail := es } := by
  obtain ⟨before, pos, -, hr⟩ := h.readsTo {} rfl none 0 (fun hw => by simp at hw)
  have hrun : (lexemes cs).foldl State.step {} = { rail := es } := hr
  rw [readBody, hrun]
  simp [State.finish, State.closeAll]

theorem parse_of_derives {text : String} {es : Series} (h : Derives text es) :
    parse text = ⟨es, []⟩ := by
  simp [parse, readBody_of_derives h]

theorem derives_of_parse {text : String} {es : Series} (h : parse text = ⟨es, []⟩) :
    Derives text es := by
  have hfound : (readBody (body text.toList)).found = [] := by
    simpa [parse] using congrArg ParseResult.diagnostics h
  have hrail : (readBody (body text.toList)).rail = es := congrArg ParseResult.elements h
  rw [Derives, ← hrail]
  exact derives_of_readBody hfound

/-- **The reading is clean exactly on the grammar**: a text is read as a series without any
    diagnostic exactly if its body derives this series. -/
theorem parse_eq_iff_derives (text : String) (es : Series) :
    parse text = ⟨es, []⟩ ↔ Derives text es :=
  ⟨derives_of_parse, parse_of_derives⟩

end RelayLadder.RungText
