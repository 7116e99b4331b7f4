/-
  Runs of the machine over tokens, wherever these stand in a text.

  * `State.Alike`: states that hold the same elements.  Equal tokens keep states alike, whatever
    their positions are and whether operand lists were closed (`Alike.foldl_step`), and alike states
    come to the same series in the end (`Alike.rail_finish`);
  * `State.passesOver`: the tokens that the machine passes over, and tells of.  They change nothing
    that it holds (`State.Alike.step_of_passesOver`);
  * `State.tally`: how often a kind of finding was told.  `tally_step` and `tally_finish` say when
    this number grows.
-/
import Mathlib.Data.List.Forall2
import RelayLadder.Proofs.Lexing
import RelayLadder.Proofs.Machine

namespace RelayLadder.RungText

open Text

/-! ## Tokens, wherever they stand -/

theorem readInstruction_congr {before before' : Option Char}
    (h : before.any isWordChar = before'.any isWordChar) (cs : List Char) :
    readInstruction before cs = readInstruction before' cs := by
  cases cs with
  | nil => rfl
  | cons c cs => simp only [readInstruction, h]

/-- The tokens of a text do not depend on where it stands, but on whether a word is before it. -/
theorem map_token_lexemesFrom_congr {before before' : Option Char}
    (h : before.any isWordChar = before'.any isWordChar) (pos pos' pending : Nat)
    (cs : List Char) :
    (lexemesFrom before pos pending cs).map (·.token) =
      (lexemesFrom before' pos' pending cs).map (·.token) := by
  induction cs generalizing before before' pos pos' pending with
  | nil => rfl
  | cons c cs ih =>
    cases pending with
    | succ pending => exact ih rfl _ _ _
    | zero =>
      simp only [lexemesFrom]
      split
      · exact ih rfl _ _ _
      · have ht : tokenAt before c cs = tokenAt before' c cs := by
          simp only [tokenAt, readInstruction_congr h]
        rw [ht, List.map_cons, List.map_cons, ih rfl]

/-- Blanks in front of a text change none of its tokens. -/
theorem map_token_lexemesFrom_trimLeft {before : Option Char}
    (h : before.any isWordChar = false) (pos : Nat) (cs : List Char) :
    (lexemesFrom before pos 0 (trimLeft cs)).map (·.token) =
      (lexemesFrom before pos 0 cs).map (·.token) := by
  induction cs generalizing pos with
  | nil => rfl
  | cons c cs ih =>
    rcases hb : isBlank c with _ | _
    · rw [trimLeft, List.dropWhile_cons_of_neg (by simp [hb])]
    · rw [trimLeft, List.dropWhile_cons_of_pos hb, ← trimLeft, ih, lexemesFrom_blank hb]
      refine map_token_lexemesFrom_congr ?_ _ _ _ _
      rw [h, Option.any_some, isWordChar_of_isBlank hb]

/-! ## States that hold the same -/

/-- Open branches with the same elements in them, wherever they were opened and wherever legs
    without elements ended. -/
structure Frame.Alike (f g : Frame) : Prop where
  legs : f.legs = g.legs
  leg : f.leg = g.leg

namespace Frame.Alike

variable {f g : Frame}

theorem add (h : f.Alike g) (es : Series) : (f.add es).Alike (g.add es) :=
  ⟨h.legs, congrArg (· ++ es) h.leg⟩

theorem closeLeg (h : f.Alike g) (m n : Nat) : (f.closeLeg m).Alike (g.closeLeg n) := by
  unfold Frame.closeLeg
  rw [h.leg]
  split
  · exact ⟨h.legs, rfl⟩
  · exact ⟨congrArg (· ++ [g.leg]) h.legs, rfl⟩

theorem elements_eq (h : f.Alike g) : f.elements = g.elements := by
  simp only [Frame.elements, h.legs]

end Frame.Alike

/-- States that hold the same elements, whatever they have told. -/
structure State.Alike (s t : State) : Prop where
  rail : s.rail = t.rail
  frames : List.Forall₂ Frame.Alike s.frames t.frames

/-- The token, with its operand list closed. -/
def Token.close : Token → Token
  | .instruction i _ => .instruction i true
  | t => t

namespace State.Alike

variable {s t u : State}

theorem refl (s : State) : s.Alike s :=
  ⟨rfl, List.forall₂_same.2 fun _ _ => ⟨rfl, rfl⟩⟩

theorem symm (h : s.Alike t) : t.Alike s :=
  ⟨h.rail.symm, h.frames.flip.imp fun _ _ hf => ⟨hf.legs.symm, hf.leg.symm⟩⟩

theorem length_frames (h : s.Alike t) : s.frames.length = t.frames.length := h.frames.length_eq

theorem add (h : s.Alike t) (es : Series) : (s.add es).Alike (t.add es) := by
  obtain ⟨rail, frames, found⟩ := s
  obtain ⟨rail', frames', found'⟩ := t
  obtain ⟨hrail, hframes⟩ := h
  cases hframes with
  | nil => exact ⟨congrArg (· ++ es) hrail, .nil⟩
  | cons hf hframes => exact ⟨hrail, .cons (hf.add es) hframes⟩

/-- What is told is not held. -/
theorem report (h : s.Alike t) (spans spans' : List Span) :
    (s.report spans).Alike (t.report spans') :=
  ⟨h.rail, h.frames⟩

theorem skip_left (h : s.Alike t) (finding : Finding) (pos : Nat) :
    (s.skip finding pos).Alike t := by
  obtain ⟨found, -, hs⟩ := s.exists_skip_eq finding pos
  rw [hs]
  exact ⟨h.rail, h.frames⟩

theorem skip (h : s.Alike t) (finding finding' : Finding) (m n : Nat) :
    (s.skip finding m).Alike (t.skip finding' n) :=
  ((h.skip_left finding m).symm.skip_left finding' n).symm

/-- **Equal tokens keep states alike**, wherever they stand. -/
theorem step (h : s.Alike t) {l k : Lexeme} (hl : l.token.close = k.token.close) :
    (s.step l).Alike (t.step k) := by
  obtain ⟨tl, start, stop⟩ := l
  obtain ⟨tk, start', stop'⟩ := k
  cases tl <;> cases tk <;> simp only [Token.close, reduceCtorEq, Token.instruction.injEq,
    and_true] at hl
  case instruction.instruction i _ j _ =>
    subst hl
    exact (h.report _ _).add [.instr i]
  case openBranch.openBranch =>
    simp only [State.step, h.length_frames]
    split
    · exact ⟨h.rail, .cons ⟨rfl, rfl⟩ h.frames⟩
    · exact h.skip _ _ _ _
  case comma.comma =>
    obtain ⟨rail, frames, found⟩ := s
    obtain ⟨rail', frames', found'⟩ := t
    cases h.frames with
    | nil => exact h.skip _ _ _ _
    | cons hf hframes => exact ⟨h.rail, .cons (hf.closeLeg _ _) hframes⟩
  case closeBranch.closeBranch =>
    obtain ⟨rail, frames, found⟩ := s
    obtain ⟨rail', frames', found'⟩ := t
    cases h.frames with
    | nil => exact h.skip _ _ _ _
    | @cons _ _ frames frames' hf hframes =>
      have hpop : State.Alike ⟨rail, frames, found⟩ ⟨rail', frames', found'⟩ := ⟨h.rail, hframes⟩
      have helements := (hf.closeLeg start start').elements_eq
      simp only [State.step, helements]
      exact (hpop.report _ _).add _
  case junk.junk => exact h.skip _ _ _ _

theorem foldl_step (h : s.Alike t) {ls ks : List Lexeme}
    (hl : ls.map (·.token.close) = ks.map (·.token.close)) :
    (ls.foldl State.step s).Alike (ks.foldl State.step t) := by
  induction ls generalizing s t ks with
  | nil =>
    obtain rfl : ks = [] := by simpa using hl.symm
    exact h
  | cons l ls ih =>
    cases ks with
    | nil => simp at hl
    | cons k ks =>
      obtain ⟨hhead, htail⟩ := List.cons.inj hl
      exact ih (h.step hhead) htail

end State.Alike

theorem closing_congr {fs gs : List Frame} (h : List.Forall₂ Frame.Alike fs gs) (m n : Nat)
    (inner : Series) : closing m inner fs = closing n inner gs := by
  induction h generalizing inner with
  | nil => rfl
  | cons hf _ ih =>
    simp only [closing, List.foldl_cons, ((hf.add inner).closeLeg m n).elements_eq]
    exact ih _

/-- **Alike states come to the same series in the end.** -/
theorem State.Alike.rail_finish {s t : State} (h : s.Alike t) (m n : Nat) :
    (s.finish m).rail = (t.finish n).rail := by
  rw [RungText.finish_rail, RungText.finish_rail, h.rail, closing_congr h.frames m n []]

/-! ## Tokens passed over -/

/-- The finding tells of a character that was passed over. -/
def Finding.isOmission : Finding → Bool
  | .skipped | .tooDeep => true
  | _ => false

/-- The token fits nowhere, or not where it stands. -/
def State.passesOver (s : State) : Token → Bool
  | .instruction _ _ => false
  | .openBranch => maxDepth ≤ s.frames.length
  | .comma | .closeBranch => s.frames.isEmpty
  | .junk => true

theorem State.Alike.passesOver_eq {s t : State} (h : s.Alike t) (token : Token) :
    s.passesOver token = t.passesOver token := by
  obtain ⟨rail, frames, found⟩ := s
  obtain ⟨rail', frames', found'⟩ := t
  cases token with
  | openBranch => simp only [State.passesOver, h.length_frames]
  | comma | closeBranch => cases h.frames <;> rfl
  | instruction | junk => rfl

/-- What is passed over is told, and nothing else happens. -/
theorem exists_step_eq_skip {s : State} {l : Lexeme} (h : s.passesOver l.token = true) :
    ∃ finding, finding.isOmission = true ∧ s.step l = s.skip finding l.start := by
  obtain ⟨token, start, stop⟩ := l
  cases token with
  | instruction => cases h
  | openBranch =>
    have hdeep : ¬ s.frames.length < maxDepth := Nat.not_lt.2 (of_decide_eq_true h)
    exact ⟨.tooDeep, rfl, by simp only [State.step, if_neg hdeep]⟩
  | comma | closeBranch =>
    have hnone : s.frames = [] := List.isEmpty_iff.1 h
    exact ⟨.skipped, rfl, by simp only [State.step, hnone]⟩
  | junk => exact ⟨.skipped, rfl, rfl⟩

/-- **Passing over changes nothing that is held.** -/
theorem State.Alike.step_of_passesOver {s t : State} (h : s.Alike t) {l : Lexeme}
    (hover : s.passesOver l.token = true) : (s.step l).Alike t := by
  obtain ⟨finding, -, hskip⟩ := exists_step_eq_skip hover
  rw [hskip]
  exact h.skip_left finding l.start

/-! ## How often a kind of finding is told -/

/-- The finding tells of a leg or branch without elements. -/
def Finding.isVoid : Finding → Bool
  | .emptyLeg | .emptyBranch => true
  | _ => false

theorem Finding.isOmission_of_isVoid {kind : Finding} (h : kind.isVoid = true) :
    kind.isOmission = false := by
  cases kind <;> simp_all [Finding.isVoid, Finding.isOmission]

theorem Finding.isVoid_of_isOmission {kind : Finding} (h : kind.isOmission = true) :
    kind.isVoid = false := by
  cases kind <;> simp_all [Finding.isVoid, Finding.isOmission]

theorem Finding.ne_of_isOmission {kind : Finding} (h : kind.isOmission = true) :
    kind ≠ .unterminatedInstruction ∧ kind ≠ .unterminatedBranch := by
  constructor <;> rintro rfl <;> cases h

theorem Frame.isVoid_of_mem_findings {f : Frame} {stop : Nat} {span : Span}
    (h : span ∈ f.findings stop) : span.finding.isVoid = true := by
  unfold Frame.findings at h
  split at h
  · rw [List.mem_singleton.1 h]
    rfl
  · obtain ⟨pos, -, rfl⟩ := List.mem_map.1 h
    rfl

/-- How often a kind of finding was told. -/
def State.tally (s : State) (kind : Finding) : Nat := s.found.countP (·.finding == kind)

namespace State

variable (s : State) {kind : Finding}

theorem tally_report (spans : List Span) :
    (s.report spans).tally kind = spans.countP (·.finding == kind) + s.tally kind := by
  simp [tally, List.countP_append]

theorem tally_add (es : Series) : (s.add es).tally kind = s.tally kind := by
  rw [tally, found_add, tally]

theorem tally_skip {finding : Finding} (h : finding ≠ kind) (pos : Nat) :
    (s.skip finding pos).tally kind = s.tally kind := by
  have hnew : (finding == kind) = false := by simpa using h
  obtain ⟨start, found, hfound, hskip⟩ | ⟨-, hskip⟩ := s.skip_cases finding pos
  · simp [hskip, tally, hfound, hnew]
  · simp [hskip, tally, hnew]

end State

theorem Frame.countP_findings (f : Frame) (stop : Nat) {kind : Finding}
    (hk : kind.isVoid = false) : (f.findings stop).countP (·.finding == kind) = 0 := by
  rw [List.countP_eq_zero]
  intro span hspan
  have hvoid := Frame.isVoid_of_mem_findings hspan
  rw [beq_iff_eq]
  rintro rfl
  rw [hvoid] at hk
  cases hk

/-- The token is an instruction whose operand list is open. -/
def Token.isOpen : Token → Bool
  | .instruction _ closed => !closed
  | _ => false

theorem Token.isOpen_close (t : Token) : t.close.isOpen = false := by
  cases t <;> rfl

theorem Token.close_close (t : Token) : t.close.close = t.close := by
  cases t <;> rfl

/-- **An open operand list is told of once, at its instruction.**  What else a token tells is of
    characters passed over, or of legs and branches without elements. -/
theorem tally_step {s : State} {l : Lexeme} {kind : Finding} (hvoid : kind.isVoid = false)
    (h : kind.isOmission = true → s.passesOver l.token = false) :
    (s.step l).tally kind =
      s.tally kind + if l.token.isOpen && kind == .unterminatedInstruction then 1 else 0 := by
  have hskip : ∀ finding : Finding, finding.isOmission = true → s.passesOver l.token = true →
      (s.skip finding l.start).tally kind = s.tally kind := by
    intro finding hf hover
    refine s.tally_skip ?_ l.start
    rintro rfl
    rw [h hf] at hover
    cases hover
  have hs := stepOf_step s l
  generalize s.step l = s' at hs
  cases hs with
  | @instruction i closed ht =>
    rw [State.tally_add, State.tally_report, ht, Nat.add_comm]
    cases closed
    · cases kind <;> rfl
    · rfl
  | openBranch ht _ =>
    rw [ht]
    rfl
  | tooDeep ht hd =>
    rw [hskip .tooDeep rfl (by rw [ht]; exact decide_eq_true hd), ht]
    rfl
  | comma ht _ =>
    rw [ht]
    rfl
  | closeBranch ht _ =>
    rw [State.tally_add, State.tally_report, Frame.countP_findings _ _ hvoid, ht, Nat.zero_add]
    rfl
  | stray ht =>
    rcases ht with ht | ⟨hnone, ht | ht⟩ <;>
      rw [hskip .skipped rfl (by simp [State.passesOver, *]), ht] <;> rfl

theorem tally_foldl_step {ls : List Lexeme} {s : State} {kind : Finding}
    (hvoid : kind.isVoid = false) (ho : kind.isOmission = false) :
    (ls.foldl State.step s).tally kind =
      s.tally kind + ls.countP fun l => l.token.isOpen && kind == .unterminatedInstruction := by
  induction ls generalizing s with
  | nil => rfl
  | cons l ls ih =>
    rw [List.foldl_cons, ih, tally_step hvoid (by simp [ho]), List.countP_cons]
    omega

theorem tally_closeAll (stop : Nat) (inner : Series) (frames : List Frame) (s : State)
    {kind : Finding} (hvoid : kind.isVoid = false) :
    (State.closeAll stop inner frames s).tally kind =
      s.tally kind + if kind == .unterminatedBranch then frames.length else 0 := by
  induction frames generalizing inner s with
  | nil => cases kind <;> rfl
  | cons f frames ih =>
    rw [State.closeAll, ih, State.tally_report, List.countP_cons, Frame.countP_findings _ _ hvoid]
    cases kind <;> simp
    omega

/-- At the end each open branch is told of once. -/
theorem tally_finish (s : State) (stop : Nat) {kind : Finding} (hvoid : kind.isVoid = false) :
    (s.finish stop).tally kind =
      s.tally kind + if kind == .unterminatedBranch then s.frames.length else 0 :=
  tally_closeAll stop [] s.frames s hvoid

/-- The diagnostics of a text are what the machine tells. -/
theorem countP_diagnostics (text : String) (kind : Finding) :
    (parse text).diagnostics.countP (·.finding == kind) =
      (readBody (body text.toList)).tally kind := by
  simp only [parse, List.countP_map, List.countP_reverse]
  rfl

theorem forall_finding_ne_iff (text : String) (kind : Finding) :
    (∀ d ∈ (parse text).diagnostics, d.finding ≠ kind) ↔
      (readBody (body text.toList)).tally kind = 0 := by
  rw [← countP_diagnostics, List.countP_eq_zero]
  simp

end RelayLadder.RungText
