/-
  Branches never cost an instruction.

  Whatever the reading of a text does with brackets and commas (drop empty legs and branches, pass
  over branches that are too deep, close those that are open at the end), the instructions of the
  result are those that a flat reading finds, which knows nothing of branches.

  * `instructions_step`: a lexeme adds its own instruction, if it is one, to those held by the
    machine, and loses none;
  * `instructions_closing`: closing the open branches at the end keeps what they hold;
  * `flatInstructions_eq_flatMap`: the flat reading finds the instructions among the lexemes.
-/
import RelayLadder.Proofs.Lexing
import RelayLadder.Proofs.Machine

namespace RelayLadder

namespace RungText

open Text

/-! ## Instructions held by the machine -/

/-- The instructions of an open branch so far. -/
def Frame.instructions (f : Frame) : List Instruction :=
  Legs.instructions f.legs ++ Series.instructions f.leg

/-- The instructions of the open branches, given innermost first, in reading order. -/
def framesInstructions : List Frame → List Instruction
  | [] => []
  | f :: frames => framesInstructions frames ++ f.instructions

/-- The instructions read so far. -/
def State.instructions (s : State) : List Instruction :=
  Series.instructions s.rail ++ framesInstructions s.frames

/-- The instruction that a token is, if it is one. -/
def Token.instructions : Token → List Instruction
  | .instruction i _ => [i]
  | _ => []

theorem Frame.instructions_add (f : Frame) (es : Series) :
    (f.add es).instructions = f.instructions ++ Series.instructions es := by
  simp [Frame.instructions, Frame.add, Series.instructions_append]

/-- A leg that is dropped has no instructions. -/
theorem Frame.instructions_closeLeg (f : Frame) (pos : Nat) :
    (f.closeLeg pos).instructions = f.instructions := by
  unfold Frame.closeLeg
  split
  · rfl
  · simp [Frame.instructions, Legs.instructions_append, Legs.instructions, Series.instructions]

/-- A branch that is dropped has no instructions. -/
theorem Frame.instructions_elements_closeLeg (f : Frame) (pos : Nat) :
    Series.instructions (f.closeLeg pos).elements = f.instructions := by
  rw [← f.instructions_closeLeg pos, Frame.instructions, Frame.leg_closeLeg, Frame.elements]
  split
  · rename_i h
    simp [List.isEmpty_iff.1 h, Legs.instructions]
  · simp [Series.instructions]

theorem State.instructions_add (s : State) (es : Series) :
    (s.add es).instructions = s.instructions ++ Series.instructions es := by
  rcases h : s.frames with _ | ⟨f, frames⟩
  · simp [State.add_of_frames_nil h, State.instructions, h, framesInstructions,
      Series.instructions_append]
  · simp [State.add_of_frames_cons h, State.instructions, h, framesInstructions,
      Frame.instructions_add]

@[simp]
theorem State.instructions_report (s : State) (spans : List Span) :
    (s.report spans).instructions = s.instructions := rfl

theorem State.instructions_skip (s : State) (finding : Finding) (pos : Nat) :
    (s.skip finding pos).instructions = s.instructions := by
  obtain ⟨found, -, h⟩ := s.exists_skip_eq finding pos
  rw [h]
  rfl

/-- **A lexeme adds its own instruction and loses none.** -/
theorem instructions_step (s : State) (l : Lexeme) :
    (s.step l).instructions = s.instructions ++ l.token.instructions := by
  have hs := stepOf_step s l
  generalize s.step l = s' at hs
  cases hs with
  | instruction ht =>
    rw [State.instructions_add, State.instructions_report, ht]
    simp [Series.instructions, Token.instructions]
  | openBranch ht _ =>
    rw [ht]
    simp [State.instructions, framesInstructions, Frame.instructions, Token.instructions,
      Legs.instructions, Series.instructions]
  | tooDeep ht _ =>
    rw [State.instructions_skip, ht]
    simp [Token.instructions]
  | comma ht hf =>
    rw [ht]
    simp [State.instructions, hf, framesInstructions, Frame.instructions_closeLeg,
      Token.instructions]
  | closeBranch ht hf =>
    rw [State.instructions_add, State.instructions_report, Frame.instructions_elements_closeLeg, ht]
    simp [State.instructions, hf, framesInstructions, Token.instructions]
  | stray ht =>
    rw [State.instructions_skip]
    rcases ht with ht | ⟨-, ht | ht⟩ <;> simp [ht, Token.instructions]

theorem instructions_foldl_step (ls : List Lexeme) (s : State) :
    (ls.foldl State.step s).instructions =
      s.instructions ++ ls.flatMap fun l => l.token.instructions := by
  induction ls generalizing s with
  | nil => simp
  | cons l ls ih =>
    rw [List.foldl_cons, ih, instructions_step, List.flatMap_cons, List.append_assoc]

/-- Closing the open branches at the end keeps what they hold. -/
theorem instructions_closing (stop : Nat) (inner : Series) (frames : List Frame) :
    Series.instructions (closing stop inner frames) =
      framesInstructions frames ++ Series.instructions inner := by
  induction frames generalizing inner with
  | nil => rfl
  | cons f frames ih =>
    have hf : closing stop inner (f :: frames) =
        closing stop ((f.add inner).closeLeg stop).elements frames := rfl
    rw [hf, ih, Frame.instructions_elements_closeLeg, Frame.instructions_add, framesInstructions,
      List.append_assoc]

/-- A text holds the instructions among its lexemes. -/
theorem instructions_elements (text : String) :
    Series.instructions (elements text) =
      (lexemes (body text.toList)).flatMap fun l => l.token.instructions := by
  have hrun := instructions_foldl_step (lexemes (body text.toList)) {}
  rw [elements_eq_rail_append, Series.instructions_append, instructions_closing]
  simpa [State.instructions, framesInstructions, Series.instructions] using hrun

/-! ## The flat reading -/

theorem readInstruction_eq_none_of_mark? {c : Char} {t : Token} (h : mark? c = some t)
    (before : Option Char) (cs : List Char) : readInstruction before (c :: cs) = none := by
  rw [Option.eq_none_iff_forall_ne_some]
  intro r hr
  have hn := mark?_of_isNameChar (readInstruction_eq_some_iff.1 hr).isNameChar_head
  rw [h] at hn
  cases hn

theorem Token.instructions_of_mark? {c : Char} {t : Token} (h : mark? c = some t) :
    t.instructions = [] := by
  rcases mark?_eq_some_iff.1 h with ⟨-, rfl⟩ | ⟨-, rfl⟩ | ⟨-, rfl⟩ <;> rfl

/-- The flat reading finds the instructions among the lexemes. -/
theorem flatInstructions_eq_flatMap (before : Option Char) (pos pending : Nat) (cs : List Char) :
    flatInstructions before pending cs =
      (lexemesFrom before pos pending cs).flatMap fun l => l.token.instructions := by
  induction cs generalizing before pos pending with
  | nil => simp [flatInstructions, lexemesFrom]
  | cons c cs ih =>
    cases pending with
    | succ pending => rw [flatInstructions, lexemesFrom, ih _ (pos + 1)]
    | zero =>
      rw [flatInstructions, lexemesFrom]
      rcases hb : isBlank c with _ | _
      · rcases hm : mark? c with _ | t
        · rcases hr : readInstruction before (c :: cs) with _ | r
          · simp [tokenAt_of_junk hm hr, Token.instructions, ih _ (pos + 1)]
          · have ht := tokenAt_of_instructionAt (readInstruction_eq_some_iff.1 hr)
            simp [ht, Token.instructions, ih _ (pos + 1)]
        · simp [readInstruction_eq_none_of_mark? hm, tokenAt_of_mark? hm,
            Token.instructions_of_mark? hm, ih _ (pos + 1)]
      · simp [ih _ (pos + 1)]

/-- **No instruction is lost, doubled, moved or changed by the reading of branches**: the
    instructions of what a text holds are those of a flat reading of its body. -/
theorem instructions_elements_eq_flatInstructions (text : String) :
    Series.instructions (elements text) = flatInstructions none 0 (body text.toList) := by
  rw [instructions_elements, lexemes, flatInstructions_eq_flatMap none 0]

end RungText

end RelayLadder
