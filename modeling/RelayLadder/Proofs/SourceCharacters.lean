/-
  The characters of what was read.

  Reading makes up no character but the parentheses that it closes at the end of a text, and writing
  adds only the marks between operands and elements: all other characters of the text of elements
  are characters of the text that they were read from.

  * `over_of_instructionAt`, `over_elements`: the instructions that a text holds are made of its
    characters;
  * `forall_mem_spell`: the text of a series is made of its instructions' characters and of marks;
  * `forall_mem_spell_elements`: so a property of the characters of a text and of the marks holds of
    the text of its elements.
-/
import RelayLadder.Proofs.FlatReading

namespace RelayLadder

open Text RungText

/-- The marks that are written between operands and elements. -/
def writtenMarks : List Char := ['(', ')', '[', ']', ',']

/-- The instruction's mnemonic and operands are made of characters with the property. -/
def Instruction.Over (P : Char → Prop) (i : Instruction) : Prop :=
  (∀ c ∈ i.mnemonic.toList, P c) ∧ ∀ v ∈ i.values, ∀ c ∈ v.toList, P c

variable {P : Char → Prop}

/-! ## Reading -/

theorem Text.mem_of_mem_trimRight {c : Char} {cs : List Char} (h : c ∈ trimRight cs) : c ∈ cs := by
  have hstart := trimRight_prefix cs
  exact hstart.subset h

theorem Text.mem_of_mem_trim {c : Char} {cs : List Char} (h : c ∈ trim cs) : c ∈ cs :=
  List.dropWhile_subset isBlank (mem_of_mem_trimRight h)

theorem RungText.mem_of_mem_body {c : Char} {cs : List Char} (h : c ∈ body cs) : c ∈ cs := by
  simp only [body] at h
  split at h
  · exact mem_of_mem_trim (List.dropLast_subset _ (mem_of_mem_trimRight h))
  · exact mem_of_mem_trim h

namespace RungText

/-- The pieces of an operand list are made of its characters and of parentheses that are closed for
    it. -/
theorem OperandList.forall_mem_read (hclose : P ')') (depth : Nat) {cs : List Char}
    (h : ∀ c ∈ cs, P c) :
    ∀ p ∈ (OperandList.read depth cs).first :: (OperandList.read depth cs).rest,
      ∀ c ∈ p, P c := by
  -- Each character read is added to the first piece, which a comma leaves behind.
  have hpush : ∀ {c : Char} {l : OperandList}, P c → (∀ p ∈ l.first :: l.rest, ∀ c ∈ p, P c) →
      ∀ p ∈ (l.push c).first :: (l.push c).rest, ∀ c ∈ p, P c := by
    intro c l hc hl
    rw [List.forall_mem_cons] at hl ⊢
    exact ⟨List.forall_mem_cons.2 ⟨hc, hl.1⟩, hl.2⟩
  fun_induction OperandList.read depth cs with
  | case1 depth =>
    refine List.forall_mem_cons.2 ⟨fun c hc => ?_, by simp⟩
    rw [List.eq_of_mem_replicate hc]
    exact hclose
  | case2 depth cs ih =>
    obtain ⟨hc, hcs⟩ := List.forall_mem_cons.1 h
    exact hpush hc (ih hcs)
  | case3 => simp
  | case4 cs depth _ ih =>
    obtain ⟨hc, hcs⟩ := List.forall_mem_cons.1 h
    exact hpush hc (ih hcs)
  | case5 depth c cs _ _ _ ih =>
    exact List.forall_mem_cons.2 ⟨by simp [OperandList.divide], ih (List.forall_mem_cons.1 h).2⟩
  | case6 depth c cs _ _ _ ih =>
    obtain ⟨hc, hcs⟩ := List.forall_mem_cons.1 h
    exact hpush hc (ih hcs)

/-- An instruction is made of characters of the text that starts with it. -/
theorem over_of_instructionAt (hclose : P ')') {before : Option Char} {cs : List Char} {r : Reading}
    (hr : InstructionAt before cs r) (h : ∀ c ∈ cs, P c) : r.instruction.Over P := by
  cases hr with
  | listed blanks list _ _ hcs hops _ _ =>
    subst hcs
    simp only [List.forall_mem_append, List.forall_mem_cons] at h
    refine ⟨h.1.1, fun v hv => ?_⟩
    rw [Instruction.values, hops, Operands.values_ofValues] at hv
    obtain ⟨p, hp, rfl⟩ := OperandList.exists_of_mem_values hv
    rw [String.toList_ofList]
    exact fun c hc => OperandList.forall_mem_read hclose 0 h.2.2 p hp c (mem_of_mem_trim hc)
  | bare rest _ hcs hops _ _ _ _ _ =>
    subst hcs
    rw [List.forall_mem_append] at h
    exact ⟨h.1, by simp [Instruction.values, hops, Operands.values]⟩

theorem over_of_lexes (hclose : P ')') {before : Option Char} {pos : Nat} {cs : List Char}
    {ls : List Lexeme} (hl : Lexes before pos cs ls) (h : ∀ c ∈ cs, P c) :
    ∀ i ∈ ls.flatMap fun l => l.token.instructions, i.Over P := by
  induction hl with
  | nil => simp
  | blank _ _ ih => exact ih (List.forall_mem_cons.1 h).2
  | mark hm _ ih =>
    rw [List.flatMap_cons, Token.instructions_of_mark? hm]
    exact ih (List.forall_mem_cons.1 h).2
  | instruction hi _ ih =>
    rw [List.flatMap_cons, Token.instructions, List.singleton_append, List.forall_mem_cons]
    exact ⟨over_of_instructionAt hclose hi h, ih fun c hc => h c (List.mem_of_mem_drop hc)⟩
  | junk _ _ _ _ ih => exact ih (List.forall_mem_cons.1 h).2

/-- **The instructions that a text holds are made of its characters.** -/
theorem over_elements (hclose : P ')') {text : String} (h : ∀ c ∈ text.toList, P c) :
    ∀ i ∈ Series.instructions (elements text), i.Over P := by
  rw [instructions_elements]
  exact over_of_lexes hclose (lexes_lexemesFrom none 0 _) fun c hc => h c (mem_of_mem_body hc)

end RungText

/-! ## Writing -/

theorem forall_mem_commaSeparated (hcomma : P ',') {pieces : List (List Char)}
    (h : ∀ p ∈ pieces, ∀ c ∈ p, P c) : ∀ c ∈ commaSeparated pieces, P c := by
  induction pieces using commaSeparated.induct with
  | case1 => simp [commaSeparated]
  | case2 p => simpa [commaSeparated] using h
  | case3 p next rest ih =>
    obtain ⟨hp, hrest⟩ := List.forall_mem_cons.1 h
    rw [commaSeparated, List.forall_mem_append, List.forall_mem_cons]
    exact ⟨hp, hcomma, ih hrest⟩

theorem Instruction.Over.forall_mem_spell (hmarks : ∀ c ∈ writtenMarks, P c) {i : Instruction}
    (h : i.Over P) : ∀ c ∈ i.spell, P c := by
  simp only [writtenMarks, List.forall_mem_cons] at hmarks
  simp only [Instruction.spell, List.forall_mem_append, List.forall_mem_cons]
  refine ⟨⟨h.1, hmarks.1, ?_⟩, hmarks.2.1, by simp⟩
  exact forall_mem_commaSeparated hmarks.2.2.2.2.1 (List.forall_mem_map.2 h.2)

/-- The text of a series is made of its instructions' characters and of marks. -/
theorem forall_mem_spell (hmarks : ∀ c ∈ writtenMarks, P c) (es : Series) :
    (∀ i ∈ Series.instructions es, i.Over P) → ∀ c ∈ Series.spell es, P c := by
  have hopen : P '[' := hmarks '[' (by decide)
  have hclose : P ']' := hmarks ']' (by decide)
  have hcomma : P ',' := hmarks ',' (by decide)
  refine Series.induction
    (P := fun es => (∀ i ∈ Series.instructions es, i.Over P) → ∀ c ∈ Series.spell es, P c)
    (Q := fun legs => (∀ i ∈ Legs.instructions legs, i.Over P) → ∀ c ∈ Legs.spell legs, P c)
    ?nil ?instr ?branch ?noLegs ?leg es
  case nil => simp [Series.spell]
  case instr =>
    intro i es ih h
    rw [Series.instructions, List.forall_mem_cons] at h
    rw [Series.spell, List.forall_mem_append]
    exact ⟨h.1.forall_mem_spell hmarks, ih h.2⟩
  case branch =>
    intro legs es ihl ih h
    rw [Series.instructions, List.forall_mem_append] at h
    simp only [Series.spell, List.forall_mem_append, List.forall_mem_cons]
    exact ⟨⟨hopen, ihl h.1⟩, hclose, ih h.2⟩
  case noLegs => simp [Legs.spell]
  case leg =>
    intro leg legs ih ihl h
    rw [Legs.instructions, List.forall_mem_append] at h
    cases legs with
    | nil =>
      rw [Legs.spell]
      exact ih h.1
    | cons next legs =>
      rw [Legs.spell, List.forall_mem_append, List.forall_mem_cons]
      exact ⟨ih h.1, hcomma, ihl h.2⟩

/-- **What holds of the characters of a text, and of the marks, holds of those of its elements'
    text.** -/
theorem forall_mem_spell_elements (hmarks : ∀ c ∈ writtenMarks, P c) {text : String}
    (h : ∀ c ∈ text.toList, P c) : ∀ c ∈ Series.spell (elements text), P c :=
  forall_mem_spell hmarks _ (over_elements (hmarks ')' (by decide)) h)

end RelayLadder
