/-
  Texts of series, read back.

  * `derivesSeries_spell`: the text of a canonical series derives this series in the grammar;
  * `parse_text_of_canonical`, `parse_rungText_of_canonical`: so it is read back as this series,
    and nothing is told, with or without the semicolon of a rung;
  * `parse_text_elements`: what any text holds survives being written and read back;
  * `elements_text_eq_iff`: no series but the canonical ones do.
-/
import RelayLadder.Proofs.CanonicalReading
import RelayLadder.Proofs.CleanReading

namespace RelayLadder

open Text RungText

/-! ## The text of a canonical series derives it -/

theorem derivesElement_spell {i : Instruction} (h : i.isCanonical = true) (depth : Nat)
    (rest : List Char) : DerivesElement depth (i.spell ++ rest) (.instr i) rest := by
  obtain ⟨hm, ho, hne, hv⟩ := Instruction.isCanonical_iff.1 h
  have hbal : isBalanced 0 (commaSeparated (i.values.map String.toList)) = true :=
    isBalanced_commaSeparated (List.forall_mem_map.2 fun v hm => (isOperandText_iff.1 (hv v hm)).2)
  have hlisted : i.operands =
      .ofValues (listedValues (commaSeparated (i.values.map String.toList))) := by
    rw [listedValues_commaSeparated hv hne]
    exact ho
  have hspell : i.spell ++ rest = i.mnemonic.toList ++ [] ++
      '(' :: commaSeparated (i.values.map String.toList) ++ ')' :: rest := by
    simp [Instruction.spell]
  rw [hspell]
  exact .listed hm rfl hbal hlisted

/-- **The text of a canonical series derives it**, inside as many branches as leave room for it. -/
theorem derivesSeries_spell (es : Series) :
    ∀ depth rest, Series.CanonicalIn depth es →
      DerivesSeries depth (Series.spell es ++ rest) es rest := by
  refine Series.induction
    (P := fun es => ∀ depth rest, Series.CanonicalIn depth es →
      DerivesSeries depth (Series.spell es ++ rest) es rest)
    (Q := fun legs => ∀ depth rest, legs ≠ [] → Legs.CanonicalIn depth legs →
      DerivesLegs depth (Legs.spell legs ++ ']' :: rest) legs rest)
    ?nil ?instr ?branch ?noLegs ?leg es
  case nil =>
    intro depth rest _
    rw [Series.spell]
    exact .nil
  case instr =>
    intro i es ih depth rest h
    obtain ⟨hi, hes⟩ := Series.canonicalIn_cons.1 h
    rw [Series.spell, List.append_assoc]
    exact .cons (derivesElement_spell (Series.canonicalIn_instr.1 hi).1 depth _) (ih depth rest hes)
  case branch =>
    intro legs es ihl ih depth rest h
    obtain ⟨hb, hes⟩ := Series.canonicalIn_cons.1 h
    obtain ⟨hne, hl⟩ := Series.canonicalIn_branch.1 hb
    have hd : depth < maxDepth := by
      obtain ⟨leg, hm⟩ := List.exists_mem_of_ne_nil legs hne
      exact (hl leg hm).2.depth_le
    have hspell : Series.spell (.branch legs :: es) ++ rest =
        '[' :: (Legs.spell legs ++ ']' :: (Series.spell es ++ rest)) := by
      simp [Series.spell]
    rw [hspell]
    exact .cons (.branch hd (ihl (depth + 1) _ hne hl)) (ih depth rest hes)
  case noLegs =>
    intro depth rest hne _
    exact absurd rfl hne
  case leg =>
    intro leg legs ih ihl depth rest _ h
    obtain ⟨⟨hne, hleg⟩, hlegs⟩ := List.forall_mem_cons.1 h
    cases legs with
    | nil =>
      rw [Legs.spell]
      exact .last hne (ih depth _ hleg)
    | cons next legs =>
      rw [Legs.spell, List.append_assoc, List.cons_append]
      exact .next hne (ih depth _ hleg) (ihl depth rest (List.cons_ne_nil next legs) hlegs)

/-! ## Nothing is cut off around the text of a canonical series -/

theorem head?_spell {es : Series} (h : Series.isProper es = true) :
    ∀ c ∈ (Series.spell es).head?, isBlank c = false := by
  intro c hc
  match es with
  | [] => simp [Series.spell] at hc
  | .instr i :: es =>
    simp only [Series.isProper, Bool.and_eq_true] at h
    have hm := (Instruction.isCanonical_iff.1 h.1).1
    obtain ⟨d, name, hd⟩ := i.exists_toList_eq_cons
    rw [hd, List.all_cons, Bool.and_eq_true] at hm
    have hdc : d = c := by simpa [Series.spell, Instruction.spell, hd] using hc
    exact hdc ▸ isBlank_of_isNameChar hm.1
  | .branch legs :: es =>
    have hdc : '[' = c := by simpa [Series.spell] using hc
    exact hdc ▸ by decide

/-- The text of an element ends with the parenthesis or bracket that closes it. -/
theorem getLast?_spell_singleton (e : Element) :
    (Series.spell [e]).getLast? = some ')' ∨ (Series.spell [e]).getLast? = some ']' := by
  cases e with
  | instr i =>
    left
    rw [Series.spell, Series.spell, List.append_nil, Instruction.spell]
    exact List.getLast?_concat
  | branch legs =>
    right
    rw [Series.spell, Series.spell]
    exact List.getLast?_concat

theorem getLast?_spell (es : Series) : ∀ c ∈ (Series.spell es).getLast?, c = ')' ∨ c = ']' := by
  induction es with
  | nil => simp [Series.spell]
  | cons e es ih =>
    intro c hc
    rw [← List.singleton_append, Series.spell_append, List.getLast?_append] at hc
    rcases hl : (Series.spell es).getLast? with _ | d
    · rw [hl] at hc
      rcases getLast?_spell_singleton e with he | he
      · exact Or.inl (by simpa [he] using hc.symm)
      · exact Or.inr (by simpa [he] using hc.symm)
    · rw [hl] at hc
      exact ih c (hl.trans hc)

theorem body_eq_self {cs : List Char} (hh : ∀ c ∈ cs.head?, isBlank c = false)
    (hl : ∀ c ∈ cs.getLast?, isBlank c = false ∧ c ≠ ';') : body cs = cs := by
  have hne : ¬ cs.getLast? = some ';' := fun h => (hl ';' h).2 rfl
  simp only [body, trim_eq_self hh fun c hc => (hl c hc).1, if_neg hne]

theorem body_concat_semicolon {cs : List Char} (hh : ∀ c ∈ cs.head?, isBlank c = false)
    (hl : ∀ c ∈ cs.getLast?, isBlank c = false) : body (cs ++ [';']) = cs := by
  have hhead : ∀ c ∈ (cs ++ [';']).head?, isBlank c = false := by
    cases cs with
    | nil => simp; decide
    | cons d cs => exact hh
  have hlast : ∀ c ∈ (cs ++ [';']).getLast?, isBlank c = false := by
    rw [List.getLast?_concat]
    simp; decide
  simp only [body, trim_eq_self hhead hlast, List.getLast?_concat, if_true, List.dropLast_concat]
  exact trimRight_eq_self_iff.2 hl

/-- The text of a canonical series is read as it is. -/
theorem body_spell {es : Series} (h : Series.Canonical es) :
    body (Series.spell es) = Series.spell es ∧
      body (Series.spell es ++ [';']) = Series.spell es := by
  have hlast : ∀ c ∈ (Series.spell es).getLast?, isBlank c = false ∧ c ≠ ';' := by
    intro c hc
    rcases getLast?_spell es c hc with rfl | rfl <;> decide
  exact ⟨body_eq_self (head?_spell h.1) hlast,
    body_concat_semicolon (head?_spell h.1) fun c hc => (hlast c hc).1⟩

/-! ## The round trip -/

/-- A text whose body is that of a canonical series is read as this series, and nothing is told. -/
theorem parse_of_body_eq_spell {text : String} {es : Series} (h : Series.Canonical es)
    (hb : body text.toList = Series.spell es) : parse text = ⟨es, []⟩ := by
  refine parse_of_derives ?_
  have hder := derivesSeries_spell es 0 [] (Series.canonicalIn_zero_iff.2 h)
  rw [List.append_nil] at hder
  rwa [Derives, hb]

/-- **A canonical series is read back from its text.** -/
theorem parse_text_of_canonical {es : Series} (h : Series.Canonical es) :
    parse (Series.text es) = ⟨es, []⟩ :=
  parse_of_body_eq_spell h (by rw [Series.text, String.toList_ofList, (body_spell h).1])

/-- **A canonical series is read back from its text as a rung.** -/
theorem parse_rungText_of_canonical {es : Series} (h : Series.Canonical es) :
    parse (Series.rungText es) = ⟨es, []⟩ :=
  parse_of_body_eq_spell h (by rw [Series.rungText, String.toList_ofList, (body_spell h).2])

/-- **What a text holds survives being written and read back**, and nothing is told then: whatever
    the text was, with the semicolon of a rung and without. -/
theorem parse_text_elements (text : String) :
    parse (Series.text (elements text)) = ⟨elements text, []⟩ ∧
      parse (Series.rungText (elements text)) = ⟨elements text, []⟩ :=
  ⟨parse_text_of_canonical (canonical_elements text),
    parse_rungText_of_canonical (canonical_elements text)⟩

/-- **Exactly the canonical series are read back from their texts.** -/
theorem elements_text_eq_iff (es : Series) :
    elements (Series.text es) = es ↔ Series.Canonical es := by
  constructor
  · intro h
    rw [← h]
    exact canonical_elements (Series.text es)
  · intro h
    rw [elements, parse_text_of_canonical h]

end RelayLadder
