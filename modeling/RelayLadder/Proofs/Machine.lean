/-
  What the machine that reads lexemes can do.

  `StepOf s l s'` lists everything that a step can be, with the conditions under which it is so;
  `stepOf_step` says that a step is one of these.  What a step keeps is shown once for each of them.
  `finish_rail` and `finish_found_eq_nil_iff` say what closing the open branches at the end does to
  the main rail, and when it tells nothing.
-/
import RelayLadder.RungText.Parser

namespace RelayLadder.RungText

/-! ## Adding, telling and passing over -/

/-- After a leg has ended the next one has no elements yet. -/
@[simp]
theorem Frame.leg_closeLeg (f : Frame) (pos : Nat) : (f.closeLeg pos).leg = [] := by
  unfold Frame.closeLeg
  split
  · rename_i h; simpa using h
  · rfl

namespace State

variable (s : State)

@[simp]
theorem report_found (spans : List Span) : (s.report spans).found = spans.reverse ++ s.found := rfl

@[simp]
theorem report_nil : s.report [] = s := rfl

theorem add_of_frames_nil {s : State} (h : s.frames = []) (es : Series) :
    s.add es = { s with rail := s.rail ++ es } := by
  unfold add; simp [h]

theorem add_of_frames_cons {s : State} {f : Frame} {frames : List Frame}
    (h : s.frames = f :: frames) (es : Series) :
    s.add es = { s with frames := f.add es :: frames } := by
  unfold add; simp [h]

@[simp]
theorem length_frames_add (es : Series) : (s.add es).frames.length = s.frames.length := by
  rcases h : s.frames with _ | ⟨f, frames⟩
  · simp [add_of_frames_nil h, h]
  · simp [add_of_frames_cons h]

@[simp]
theorem found_add (es : Series) : (s.add es).found = s.found := by
  rcases h : s.frames with _ | ⟨f, frames⟩
  · rw [add_of_frames_nil h]
  · rw [add_of_frames_cons h]

theorem add_nil : s.add [] = s := by
  rcases h : s.frames with _ | ⟨f, frames⟩
  · simp [add_of_frames_nil h]
  · simp [add_of_frames_cons h, Frame.add, ← h]

theorem add_append (a b : Series) : s.add (a ++ b) = (s.add a).add b := by
  rcases h : s.frames with _ | ⟨f, frames⟩
  · simp [add, h]
  · simp [add, h, Frame.add]

/-- **Passing over a character makes the run longer that was told last**, if it tells the same and
    ends before the character, and tells of a new run otherwise. -/
theorem skip_cases (finding : Finding) (pos : Nat) :
    (∃ start found, s.found = ⟨finding, start, pos⟩ :: found ∧
      s.skip finding pos = { s with found := ⟨finding, start, pos + 1⟩ :: found }) ∨
    ((∀ last ∈ s.found.head?, last.finding = finding → last.stop ≠ pos) ∧
      s.skip finding pos = { s with found := ⟨finding, pos, pos + 1⟩ :: s.found }) := by
  unfold skip
  split
  · rename_i last found hfound
    split
    · rename_i hlast
      obtain ⟨rfl, rfl⟩ := hlast
      exact .inl ⟨last.start, found, hfound, rfl⟩
    · rename_i hlast
      refine .inr ⟨?_, rfl⟩
      simpa [hfound] using hlast
  · rename_i hfound
    exact .inr ⟨by simp [hfound], rfl⟩

/-- Passing over a character tells something, and changes nothing else. -/
theorem exists_skip_eq (finding : Finding) (pos : Nat) :
    ∃ found, found ≠ [] ∧ s.skip finding pos = { s with found } := by
  obtain ⟨_, _, _, hskip⟩ | ⟨_, hskip⟩ := s.skip_cases finding pos
  · exact ⟨_, List.cons_ne_nil _ _, hskip⟩
  · exact ⟨_, List.cons_ne_nil _ _, hskip⟩

end State

/-! ## Steps -/

/-- What the state `s` can become by the lexeme `l`. -/
inductive StepOf (s : State) (l : Lexeme) : State → Prop
  /-- An instruction is added. -/
  | instruction {i : Instruction} {closed : Bool} : l.token = .instruction i closed →
      StepOf s l
        ((s.report (if closed then [] else [⟨.unterminatedInstruction, l.start, l.stop⟩])).add
          [.instr i])
  /-- A branch is opened. -/
  | openBranch : l.token = .openBranch → s.frames.length < maxDepth →
      StepOf s l { s with frames := { start := l.start } :: s.frames }
  /-- A branch inside too many others is passed over. -/
  | tooDeep : l.token = .openBranch → maxDepth ≤ s.frames.length →
      StepOf s l (s.skip .tooDeep l.start)
  /-- A leg ends. -/
  | comma {f : Frame} {frames : List Frame} : l.token = .comma → s.frames = f :: frames →
      StepOf s l { s with frames := f.closeLeg l.start :: frames }
  /-- A branch ends. -/
  | closeBranch {f : Frame} {frames : List Frame} :
      l.token = .closeBranch → s.frames = f :: frames →
      StepOf s l (({ s with frames }.report ((f.closeLeg l.start).findings l.stop)).add
        (f.closeLeg l.start).elements)
  /-- A character that fits nowhere, or not outside branches, is passed over. -/
  | stray : l.token = .junk ∨ (s.frames = [] ∧ (l.token = .comma ∨ l.token = .closeBranch)) →
      StepOf s l (s.skip .skipped l.start)

/-- **A step is one of those listed.** -/
theorem stepOf_step (s : State) (l : Lexeme) : StepOf s l (s.step l) := by
  obtain ⟨t, start, stop⟩ := l
  cases t with
  | instruction i closed => exact .instruction rfl
  | openBranch =>
    simp only [State.step]
    split
    · exact .openBranch rfl ‹_›
    · exact .tooDeep rfl (Nat.le_of_not_lt ‹_›)
  | comma =>
    rcases h : s.frames with _ | ⟨f, frames⟩
    · simpa [State.step, h] using StepOf.stray (s := s) (l := ⟨.comma, start, stop⟩) (by simp [h])
    · simpa [State.step, h] using StepOf.comma (l := ⟨.comma, start, stop⟩) rfl h
  | closeBranch =>
    rcases h : s.frames with _ | ⟨f, frames⟩
    · simpa [State.step, h] using
        StepOf.stray (s := s) (l := ⟨.closeBranch, start, stop⟩) (by simp [h])
    · simpa [State.step, h] using StepOf.closeBranch (l := ⟨.closeBranch, start, stop⟩) rfl h
  | junk => exact .stray (Or.inl rfl)

/-! ## The end of the text -/

/-- What the branches still open at the end, innermost first, come to when they are closed there;
    `inner` is added to the innermost leg. -/
def closing (stop : Nat) (inner : Series) (frames : List Frame) : Series :=
  frames.foldl (fun inner f => ((f.add inner).closeLeg stop).elements) inner

theorem closeAll_rail (stop : Nat) (inner : Series) (frames : List Frame) (s : State) :
    (State.closeAll stop inner frames s).rail = s.rail ++ closing stop inner frames := by
  induction frames generalizing inner s with
  | nil => rfl
  | cons f frames ih => rw [State.closeAll, ih]; rfl

theorem closeAll_found_eq_nil_iff (stop : Nat) (inner : Series) (frames : List Frame) (s : State) :
    (State.closeAll stop inner frames s).found = [] ↔ s.found = [] ∧ frames = [] := by
  induction frames generalizing inner s with
  | nil => simp [State.closeAll]
  | cons f frames ih => simp [State.closeAll, ih]

theorem finish_rail (s : State) (stop : Nat) :
    (s.finish stop).rail = s.rail ++ closing stop [] s.frames :=
  closeAll_rail stop [] s.frames s

theorem elements_eq_rail (text : String) :
    elements text = (readBody (body text.toList)).rail := rfl

/-- A text holds what is on the main rail after its last lexeme, and what the branches still open
    there come to. -/
theorem elements_eq_rail_append (text : String) :
    elements text =
      ((lexemes (body text.toList)).foldl State.step {}).rail ++
        closing (body text.toList).length []
          ((lexemes (body text.toList)).foldl State.step {}).frames :=
  finish_rail _ _

theorem finish_found_eq_nil_iff (s : State) (stop : Nat) :
    (s.finish stop).found = [] ↔ s.found = [] ∧ s.frames = [] :=
  closeAll_found_eq_nil_iff stop [] s.frames s

end RelayLadder.RungText
