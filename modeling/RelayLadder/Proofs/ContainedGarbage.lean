/-
  Garbage between the elements of a text is contained.

  * `State.Shadows`: beside a clean run, one over the same tokens elsewhere tells nothing more,
    whatever was told before it (`State.Shadows.foldl_step`);
  * `Standalone`: texts that are cut into the same tokens whatever stands around them.  The text of
    a canonical series is put together from such texts, so that it comes apart into two of them at
    any boundary between elements (`Series.Cut.standalone`);
  * `parse_insert`: with garbage put there the text holds the same, and the garbage is all that is
    told of.
-/
import RelayLadder.Proofs.GarbageRuns
import RelayLadder.Proofs.RoundTrip
import RelayLadder.Proofs.Surroundings
import RelayLadder.Proofs.TokenRuns

namespace RelayLadder.RungText

open Text

/-! ## Clean runs, wherever they stand -/

/-- A step that tells nothing, and leaves nothing to be told, is by a closed instruction, by a
    bracket that opens a branch where there is room for it, or ends a leg with elements. -/
theorem clean_step_cases {s : State} {l : Lexeme} (h : Clean (s.step l)) :
    (∃ i, l.token = .instruction i true) ∨
      (l.token = .openBranch ∧ s.frames.length < maxDepth) ∨
        ((l.token = .comma ∨ l.token = .closeBranch) ∧
          ∃ f frames, s.frames = f :: frames ∧ f.leg ≠ []) := by
  have hs := stepOf_step s l
  generalize s.step l = s' at hs h
  cases hs with
  | @instruction i closed ht =>
    cases closed with
    | true => exact .inl ⟨i, ht⟩
    | false => simpa using (clean_report_iff.1 (clean_add_iff.1 h)).1
  | openBranch ht hd => exact .inr (.inl ⟨ht, hd⟩)
  | tooDeep _ _ => exact absurd h (not_clean_skip s _ _)
  | @comma f frames ht hf =>
    have he := h.emptyLegs_eq (f.closeLeg l.start) (by simp)
    exact .inr (.inr ⟨.inl ht, f, frames, hf, (Frame.emptyLegs_closeLeg_eq_nil_iff.1 he).1⟩)
  | @closeBranch f frames ht hf =>
    obtain ⟨hfind, -⟩ := clean_report_iff.1 (clean_add_iff.1 h)
    exact .inr (.inr ⟨.inr ht, f, frames, hf, (Frame.findings_closeLeg_eq_nil_iff.1 hfind).1⟩)
  | stray _ => exact absurd h (not_clean_skip s _ _)

/-- The state `t` holds the same as `s`, has told `found`, and will not have to tell of a leg
    without elements. -/
structure State.Shadows (found : List Span) (s t : State) : Prop where
  alike : s.Alike t
  found_eq : t.found = found
  emptyLegs_eq : ∀ f ∈ t.frames, f.emptyLegs = []

theorem emptyLegs_add {s : State} (h : ∀ f ∈ s.frames, f.emptyLegs = []) (es : Series) :
    ∀ f ∈ (s.add es).frames, f.emptyLegs = [] := by
  rcases hf : s.frames with _ | ⟨f, frames⟩
  · rw [State.add_of_frames_nil hf]
    exact h
  · rw [hf] at h
    rw [State.add_of_frames_cons hf]
    simpa [Frame.add] using h

namespace State.Shadows

variable {found : List Span} {s t : State}

/-- **Where a step tells nothing, it tells nothing more where something was told before.** -/
theorem step (h : s.Shadows found t) {l k : Lexeme} (hl : l.token = k.token)
    (hc : Clean (s.step l)) : (s.step l).Shadows found (t.step k) := by
  obtain ⟨token, start, stop⟩ := k
  have halike := h.alike.step (k := ⟨token, start, stop⟩) (congrArg Token.close hl)
  have he := h.emptyLegs_eq
  rcases clean_step_cases hc with ⟨i, ht⟩ | ⟨ht, hd⟩ | ⟨ht, f, frames, hf, hleg⟩
  · obtain rfl : token = .instruction i true := hl.symm.trans ht
    have hstep : t.step ⟨.instruction i true, start, stop⟩ = t.add [.instr i] := rfl
    refine ⟨halike, ?_, ?_⟩ <;> rw [hstep]
    · rw [State.found_add, h.found_eq]
    · exact emptyLegs_add he _
  · obtain rfl : token = .openBranch := hl.symm.trans ht
    have hstep : t.step ⟨.openBranch, start, stop⟩ =
        { t with frames := { start } :: t.frames } := by
      simp only [State.step, ← h.alike.length_frames, if_pos hd]
    refine ⟨halike, ?_, ?_⟩ <;> rw [hstep]
    · exact h.found_eq
    · exact List.forall_mem_cons.2 ⟨rfl, he⟩
  · have hframes := h.alike.frames
    rw [hf] at hframes
    obtain ⟨g, frames', hfg, -, hg⟩ := List.forall₂_cons_left_iff.1 hframes
    have hleg' : g.leg ≠ [] := hfg.leg ▸ hleg
    rw [hg, List.forall_mem_cons] at he
    rcases ht with ht | ht
    · obtain rfl : token = .comma := hl.symm.trans ht
      refine ⟨halike, ?_, ?_⟩ <;> rw [step_comma hg hleg']
      · exact h.found_eq
      · exact List.forall_mem_cons.2 he
    · obtain rfl : token = .closeBranch := hl.symm.trans ht
      refine ⟨halike, ?_, ?_⟩ <;> rw [step_closeBranch hg hleg' he.1]
      · rw [State.found_add, h.found_eq]
      · exact emptyLegs_add he.2 _

theorem foldl_step (h : s.Shadows found t) {ls ks : List Lexeme}
    (hl : ls.map (·.token) = ks.map (·.token)) (hc : Clean (ls.foldl State.step s)) :
    (ls.foldl State.step s).Shadows found (ks.foldl State.step t) := by
  induction ls generalizing s t ks with
  | nil =>
    obtain rfl : ks = [] := by simpa using hl.symm
    exact h
  | cons l ls ih =>
    obtain ⟨k, ks, rfl, hk, hks⟩ := List.map_eq_cons_iff.1 hl.symm
    exact ih (h.step hk.symm (clean_of_clean_foldl_step hc)) hks.symm hc

end State.Shadows

/-! ## Texts that stand by themselves -/

/-- The text is cut into the same tokens whatever stands around it, and what follows is cut apart
    from it. -/
def Standalone (cs : List Char) : Prop :=
  ∃ ts : List Token, ∀ before pos rest, ∃ before' ls, ls.map (·.token) = ts ∧
    lexemesFrom before pos 0 (cs ++ rest) = ls ++ lexemesFrom before' (pos + cs.length) 0 rest

namespace Standalone

theorem nil : Standalone [] := ⟨[], fun before _ _ => ⟨before, [], rfl, rfl⟩⟩

theorem append {a b : List Char} (ha : Standalone a) (hb : Standalone b) :
    Standalone (a ++ b) := by
  obtain ⟨ts, ha⟩ := ha
  obtain ⟨us, hb⟩ := hb
  refine ⟨ts ++ us, fun before pos rest => ?_⟩
  obtain ⟨mid, ls, rfl, hls⟩ := ha before pos (b ++ rest)
  obtain ⟨before', ks, rfl, hks⟩ := hb mid (pos + a.length) rest
  refine ⟨before', ls ++ ks, List.map_append, ?_⟩
  rw [List.append_assoc, hls, hks, List.length_append, Nat.add_assoc, List.append_assoc]

theorem flatMap {α : Type} {l : List α} {f : α → List Char} (h : ∀ x ∈ l, Standalone (f x)) :
    Standalone (l.flatMap f) := by
  induction l with
  | nil => exact nil
  | cons x l ih =>
    rw [List.forall_mem_cons] at h
    exact h.1.append (ih h.2)

theorem mark {c : Char} {t : Token} (h : mark? c = some t) : Standalone [c] :=
  ⟨[t], fun before pos rest =>
    ⟨some c, [⟨t, pos, pos + 1⟩], rfl, lexemesFrom_mark h before pos rest⟩⟩

/-- The text of a canonical instruction has parentheses, so that nothing around it matters. -/
theorem instruction {i : Instruction} (h : i.isCanonical = true) : Standalone i.spell := by
  obtain ⟨hm, ho, hne, hv⟩ := Instruction.isCanonical_iff.1 h
  have hbal : isBalanced 0 (commaSeparated (i.values.map String.toList)) = true :=
    isBalanced_commaSeparated (List.forall_mem_map.2 fun v hm => (isOperandText_iff.1 (hv v hm)).2)
  refine ⟨[.instruction i true], fun before pos rest => ?_⟩
  have hread := OperandList.read_append_close hbal rest
  have hi : InstructionAt before (i.spell ++ rest) ⟨i, i.spell.length, true⟩ := by
    refine .listed [] (commaSeparated (i.values.map String.toList) ++ ')' :: rest) hm rfl
      (by simp [Instruction.spell]) ?_ ?_ ?_
    · rw [OperandList.values_read_append_close hbal, listedValues_commaSeparated hv hne]
      exact ho
    · rw [hread]
      simp only [Instruction.spell, List.length_append, List.length_cons, List.length_nil]
      omega
    · rw [hread]
  refine ⟨i.spell.getLast?, [⟨.instruction i true, pos, pos + i.spell.length⟩], rfl, ?_⟩
  rw [lexemesFrom_instruction hi, List.take_left' rfl, List.drop_left' rfl]
  rfl

end Standalone

/-- **Beside a clean run over a text that stands by itself, a run over the same text elsewhere tells
    nothing more.** -/
theorem Standalone.exists_run_shadows {cs : List Char} (hcs : Standalone cs) {found : List Span}
    {s t : State} (h : s.Shadows found t) {before : Option Char} {pos : Nat} {rest : List Char}
    (hc : Clean (s.run before pos (cs ++ rest))) (before' : Option Char) (pos' : Nat)
    (rest' : List Char) :
    ∃ (b b' : Option Char) (s' t' : State),
      s.run before pos (cs ++ rest) = s'.run b (pos + cs.length) rest ∧
        t.run before' pos' (cs ++ rest') = t'.run b' (pos' + cs.length) rest' ∧
          s'.Shadows found t' := by
  obtain ⟨ts, hcs⟩ := hcs
  obtain ⟨b, ls, hl, hls⟩ := hcs before pos rest
  obtain ⟨b', ks, hk, hks⟩ := hcs before' pos' rest'
  rw [State.run, hls, List.foldl_append] at hc
  refine ⟨b, b', ls.foldl State.step s, ks.foldl State.step t, ?_, ?_,
    h.foldl_step (hl.trans hk.symm) (clean_of_clean_foldl_step hc)⟩
  · rw [State.run, hls, List.foldl_append, State.run]
  · rw [State.run, hks, List.foldl_append, State.run]

/-- A state that shadows one with no open branches is that state but for what was told. -/
theorem State.Shadows.eq {found : List Span} {rail : Series} {t : State}
    (h : State.Shadows found { rail } t) : t = { rail, found } := by
  obtain ⟨rail', frames, found'⟩ := t
  obtain ⟨⟨hrail, hframes⟩, hfound, -⟩ := h
  obtain rfl : rail = rail' := hrail
  obtain rfl : frames = [] := List.forall₂_nil_left_iff.1 hframes
  obtain rfl : found' = found := hfound
  rfl

end RelayLadder.RungText

namespace RelayLadder

open Text RungText

/-- The legs, each with a comma behind it. -/
def Legs.spellBefore (legs : Legs) : List Char := legs.flatMap fun leg => Series.spell leg ++ [',']

/-- The legs, each with a comma in front of it. -/
def Legs.spellAfter (legs : Legs) : List Char := legs.flatMap fun leg => ',' :: Series.spell leg

theorem Legs.spell_cons (leg : Series) (legs : Legs) :
    Legs.spell (leg :: legs) = Series.spell leg ++ Legs.spellAfter legs := by
  induction legs generalizing leg with
  | nil => simp [Legs.spell, Legs.spellAfter]
  | cons next legs ih =>
    rw [Legs.spell, ih]
    simp [Legs.spellAfter]

theorem Legs.spell_append_cons (before : Legs) (leg : Series) (after : Legs) :
    Legs.spell (before ++ leg :: after) =
      Legs.spellBefore before ++ Series.spell leg ++ Legs.spellAfter after := by
  induction before with
  | nil => exact Legs.spell_cons leg after
  | cons first before ih =>
    obtain ⟨next, legs, hlegs⟩ : ∃ next legs, before ++ leg :: after = next :: legs :=
      List.exists_cons_of_ne_nil (by simp)
    rw [List.cons_append, hlegs, Legs.spell, ← hlegs, ih]
    simp [Legs.spellBefore]

/-- The text of a series, cut at a boundary between elements: before an element or behind the last
    one, on the series itself or on a leg anywhere in it. -/
inductive Series.Cut : Series → List Char → List Char → Prop
  | here (left right : Series) : Cut (left ++ right) (Series.spell left) (Series.spell right)
  | into (left : Series) (before : Legs) {leg : Series} (after : Legs) (right : Series)
      {pre post : List Char} : Cut leg pre post →
      Cut (left ++ .branch (before ++ leg :: after) :: right)
        (Series.spell left ++ '[' :: Legs.spellBefore before ++ pre)
        (post ++ Legs.spellAfter after ++ ']' :: Series.spell right)

theorem Series.Cut.append_eq {es : Series} {pre post : List Char} (h : Series.Cut es pre post) :
    pre ++ post = Series.spell es := by
  induction h with
  | here left right => rw [Series.spell_append]
  | into left before after right _ ih =>
    rw [Series.spell_append, Series.spell, Legs.spell_append_cons, ← ih]
    simp

theorem Legs.standalone_spellBefore {legs : Legs}
    (h : ∀ leg ∈ legs, Standalone (Series.spell leg)) : Standalone (Legs.spellBefore legs) :=
  .flatMap fun leg hleg => (h leg hleg).append (.mark rfl)

theorem Legs.standalone_spellAfter {legs : Legs}
    (h : ∀ leg ∈ legs, Standalone (Series.spell leg)) : Standalone (Legs.spellAfter legs) :=
  .flatMap fun leg hleg => (Standalone.mark rfl).append (h leg hleg)

/-- The text of a series whose instructions are canonical stands by itself. -/
theorem Series.standalone_spell (es : Series) :
    Series.isProper es = true → Standalone (Series.spell es) := by
  refine Series.induction
    (P := fun es => Series.isProper es = true → Standalone (Series.spell es))
    (Q := fun legs => Legs.isProper legs = true → ∀ leg ∈ legs, Standalone (Series.spell leg))
    ?nil ?instr ?branch ?noLegs ?leg es
  case nil =>
    intro _
    rw [Series.spell]
    exact .nil
  case instr =>
    intro i es ih h
    rw [Series.isProper, Bool.and_eq_true] at h
    rw [Series.spell]
    exact (Standalone.instruction h.1).append (ih h.2)
  case branch =>
    intro legs es ihl ih h
    rw [Series.isProper, Bool.and_eq_true, Bool.and_eq_true] at h
    have hlegs := ihl h.1.2
    have hspell : Standalone (Legs.spell legs) := by
      cases legs with
      | nil =>
        rw [Legs.spell]
        exact .nil
      | cons leg legs =>
        rw [List.forall_mem_cons] at hlegs
        rw [Legs.spell_cons]
        exact hlegs.1.append (Legs.standalone_spellAfter hlegs.2)
    have hclose : Standalone (']' :: Series.spell es) := (Standalone.mark rfl).append (ih h.2)
    rw [Series.spell]
    exact ((Standalone.mark rfl).append hspell).append hclose
  case noLegs => exact fun _ => List.forall_mem_nil _
  case leg =>
    intro leg legs ih ihl h
    rw [Legs.isProper, Bool.and_eq_true, Bool.and_eq_true] at h
    exact List.forall_mem_cons.2 ⟨ih h.1.2, ihl h.2⟩

/-- **Cut at a boundary between elements, both parts stand by themselves.** -/
theorem Series.Cut.standalone {es : Series} {pre post : List Char} (h : Series.Cut es pre post)
    (hes : Series.isProper es = true) : Standalone pre ∧ Standalone post := by
  induction h with
  | here left right =>
    rw [Series.isProper_append, Bool.and_eq_true] at hes
    exact ⟨Series.standalone_spell left hes.1, Series.standalone_spell right hes.2⟩
  | @into left before leg after right pre post _ ih =>
    rw [Series.isProper_append, Bool.and_eq_true, Series.isProper, Bool.and_eq_true,
      Bool.and_eq_true, Legs.isProper_iff] at hes
    obtain ⟨hleft, ⟨-, hlegs⟩, hright⟩ := hes
    have hstand := fun l hl => Series.standalone_spell l (hlegs l hl).2
    simp only [List.mem_append, List.mem_cons] at hstand hlegs
    obtain ⟨hpre, hpost⟩ := ih (hlegs leg (.inr (.inl rfl))).2
    have hopen : Standalone ('[' :: Legs.spellBefore before) :=
      (Standalone.mark rfl).append
        (Legs.standalone_spellBefore fun l hl => hstand l (.inl hl))
    have hafter := Legs.standalone_spellAfter fun l hl => hstand l (.inr (.inr hl))
    have hclose : Standalone (']' :: Series.spell right) :=
      (Standalone.mark rfl).append (Series.standalone_spell right hright)
    exact ⟨((Series.standalone_spell left hleft).append hopen).append hpre,
      (hpost.append hafter).append hclose⟩

/-! ## The whole text -/

/-- The machine comes to a canonical series by its text, and has told nothing. -/
theorem foldl_lexemes_spell {es : Series} (h : Series.Canonical es) :
    (lexemes (Series.spell es)).foldl State.step {} = { rail := es } := by
  have hder := derivesSeries_spell es 0 [] (Series.canonicalIn_zero_iff.2 h)
  rw [List.append_nil] at hder
  have hread := readBody_of_derives hder
  obtain ⟨hfound, hframes⟩ := (finish_found_eq_nil_iff _ _).1 (congrArg State.found hread)
  have hrail := congrArg State.rail hread
  rw [readBody, finish_rail, hframes] at hrail
  generalize (lexemes (Series.spell es)).foldl State.step {} = s at *
  obtain ⟨rail, frames, found⟩ := s
  subst hfound hframes
  simpa [closing] using hrail

/-- **Garbage between elements is told of, and changes nothing else.** -/
theorem readBody_insert {es : Series} (h : Series.Canonical es) {pre post : List Char}
    (hcut : Series.Cut es pre post) {g : List Char} {runs : List Run}
    (hg : ∀ c ∈ g, isNameChar c = false ∧ mark? c = none) (hruns : HasRuns pre.length g runs) :
    readBody (pre ++ (g ++ post)) = { rail := es, found := (runs.map Run.span).reverse } := by
  obtain ⟨hpre, hpost⟩ := hcut.standalone h.1
  have hrun : State.run {} none 0 (pre ++ post) = { rail := es } := by
    rw [hcut.append_eq]
    exact foldl_lexemes_spell h
  have hclean : Clean (State.run {} none 0 (pre ++ post)) := by
    rw [hrun]
    exact ⟨rfl, List.forall_mem_nil _⟩
  have hstart : State.Shadows [] {} {} := ⟨.refl {}, rfl, List.forall_mem_nil _⟩
  obtain ⟨before₁, before₂, s, t, hs, ht, hst⟩ :=
    hpre.exists_run_shadows hstart hclean none 0 (g ++ post)
  rw [hs] at hclean hrun
  obtain ⟨before₃, hgarbage⟩ := hruns.exists_run hg (s := t) (by simp [hst.found_eq]) before₂ post
  have htold : s.Shadows (runs.map Run.span).reverse
      { t with found := (runs.map Run.span).reverse ++ t.found } :=
    ⟨⟨hst.alike.rail, hst.alike.frames⟩, by simp [hst.found_eq], hst.emptyLegs_eq⟩
  rw [← List.append_nil post] at hclean hrun
  obtain ⟨before₄, before₅, s', t', hs', ht', hst'⟩ :=
    hpost.exists_run_shadows htold hclean before₃ (pre.length + g.length) []
  rw [hs'] at hrun
  obtain rfl : s' = { rail := es } := hrun
  have hlexemes : (lexemes (pre ++ (g ++ post))).foldl State.step {} =
      { rail := es, found := (runs.map Run.span).reverse } := by
    rw [List.append_nil] at ht'
    rw [Nat.zero_add] at ht
    rw [← hst'.eq]
    exact ht.trans (hgarbage.trans ht')
  rw [readBody, hlexemes]
  simp [State.finish, State.closeAll]

/-- The blanks at the start of the garbage stand in front of the body if nothing else does. -/
theorem exists_lead {es : Series} (h : Series.isProper es = true) {pre post : List Char}
    (hcut : Series.Cut es pre post) (g : List Char) :
    ∃ lead g', g = lead ++ g' ∧ lead.all isBlank = true ∧ pre ++ lead = lead ++ pre ∧
      ∀ c ∈ (pre ++ (g' ++ post)).head?, isBlank c = false := by
  have hhead := head?_spell h
  rw [← hcut.append_eq] at hhead
  cases pre with
  | nil =>
    refine ⟨g.takeWhile isBlank, trimLeft g, ?_, List.all_takeWhile, by simp, ?_⟩
    · rw [trimLeft, List.takeWhile_append_dropWhile]
    · rw [List.nil_append] at hhead
      rw [List.nil_append, trimLeft, ← dropWhile_append_left hhead, ← trimLeft]
      exact trimLeft_eq_self_iff.1 (List.dropWhile_idempotent isBlank _)
  | cons c pre => exact ⟨[], g, rfl, rfl, by simp, hhead⟩

/-- **Garbage is contained**: characters of no name, no brackets and no commas, put between elements
    of a text anywhere but at its end, leave what it holds as it is, and one diagnostic for each run
    of them is all that is told. -/
theorem parse_insert {es : Series} (h : elements (Series.text es) = es) {pre post : List Char}
    (hcut : Series.Cut es pre post) (hpost : post ≠ []) {g : List Char}
    (hg : ∀ c ∈ g, isNameChar c = false ∧ c ≠ '[' ∧ c ≠ ',' ∧ c ≠ ']') :
    ∃ runs, HasRuns pre.length g runs ∧
      parse (String.ofList (pre ++ g ++ post)) = ⟨es, runs.map Run.diagnostic⟩ := by
  have hes : Series.Canonical es := h ▸ canonical_elements (Series.text es)
  obtain ⟨lead, g', rfl, hlead, hswap, hhead⟩ := exists_lead hes.1 hcut g
  have hg' : ∀ c ∈ g', isNameChar c = false ∧ mark? c = none := by
    intro c hc
    obtain ⟨hname, hmark⟩ := hg c (List.mem_append_right lead hc)
    exact ⟨hname, mark?_eq_none_iff.2 hmark⟩
  obtain ⟨runs, hruns⟩ := exists_hasRuns pre.length g'
  refine ⟨runs.map fun run => ⟨run.start + lead.length, run.chars⟩,
    .blanks_append hlead (hruns.shift lead.length), ?_⟩
  have hlast : ∀ c ∈ (pre ++ (g' ++ post)).getLast?, isBlank c = false ∧ c ≠ ';' := by
    intro c hc
    rw [List.getLast?_append_of_ne_nil _ (by simp [hpost]),
      List.getLast?_append_of_ne_nil _ hpost] at hc
    have hspell : c ∈ (Series.spell es).getLast? := by
      rw [← hcut.append_eq]
      exact List.mem_getLast?_append_of_mem_getLast? hc
    rcases getLast?_spell es c hspell with rfl | rfl <;> decide
  have htext : pre ++ (lead ++ g') ++ post = lead ++ (pre ++ (g' ++ post)) := by
    rw [← List.append_assoc pre lead, hswap]
    simp
  obtain ⟨hbody, hstart⟩ := body_blanks_append hlead (by simp [hpost]) hhead hlast
  simp only [parse, String.toList_ofList, htext, hbody, hstart,
    readBody_insert hes hcut hg' hruns, List.reverse_reverse, List.map_map]
  congr 1
  refine List.map_congr_left fun run hrun => ?_
  have hslice := hruns.slice_eq rfl post run hrun
  simp only [Function.comp_apply, Span.toDiagnostic, Run.span, Run.diagnostic, hslice,
    Nat.add_right_comm]

/-- Two runs of garbage inside a leg, between `XIO(B)` and `NOP()`. -/
theorem parse_insert_leg :
    let a : Element := .instr ⟨"XIC", .unary "A", by decide⟩
    let b : Element := .instr ⟨"XIO", .unary "B", by decide⟩
    let c : Element := .instr ⟨"NOP", .nullary, by decide⟩
    let d : Element := .instr ⟨"OTE", .unary "C", by decide⟩
    let es : Series := [.branch [[a], [b, c]], d]
    let pre := "[XIC(A),XIO(B)".toList
    let post := "NOP()]OTE(C)".toList
    let g := " (a); b".toList
    elements (Series.text es) = es ∧ Series.Cut es pre post ∧ post ≠ [] ∧
      (∀ c ∈ g, isNameChar c = false ∧ c ≠ '[' ∧ c ≠ ',' ∧ c ≠ ']') ∧
      ∃ runs, HasRuns pre.length g runs ∧
        parse (String.ofList (pre ++ g ++ post)) = ⟨es, runs.map Run.diagnostic⟩ := by
  intro a b c d es pre post g
  have hes : elements (Series.text es) = es := by
    rw [elements, parse_text_of_canonical (by decide +kernel)]
  have hpre : Series.spell [] ++ '[' :: Legs.spellBefore [[a]] ++ Series.spell [b] = pre := by
    decide +kernel
  have hpost : Series.spell [c] ++ Legs.spellAfter [] ++ ']' :: Series.spell [d] = post := by
    decide +kernel
  have hcut : Series.Cut es pre post := by
    rw [← hpre, ← hpost]
    exact .into [] [[a]] [] [d] (.here [b] [c])
  have hne : post ≠ [] := by decide +kernel
  have hg : ∀ c ∈ g, isNameChar c = false ∧ c ≠ '[' ∧ c ≠ ',' ∧ c ≠ ']' := by
    simp [g, isNameChar]
  exact ⟨hes, hcut, hne, hg, parse_insert hes hcut hne hg⟩

end RelayLadder
