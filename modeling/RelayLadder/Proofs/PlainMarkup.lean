/-
  What elements are written as, and what is read there.

  * `flatten_sections`, `not_infix_of_mem_sections`: a text that is cut into sections is these
    sections put together, and none of them holds the mark that ends it;
  * `SpelledAs.sound`: so what sound elements are written as is sound markup;
  * `ReadAs`: the nodes have the names, attributes and texts of the elements;
  * `Library.Faithful.exists_read`: a faithful library writes an element, and reads it as such a node.
-/
import RelayLadder.Proofs.Trim
import RelayLadder.Xml.Source

namespace RelayLadder.Xml

open Text

/-! ## Characters that documents keep -/

theorem portable_append {cs ds : List Char} :
    Portable (cs ++ ds) ↔ Portable cs ∧ Portable ds :=
  List.forall_mem_append

theorem portable_cons {c : Char} {cs : List Char} :
    Portable (c :: cs) ↔ (isDocumentChar c = true ∧ c ≠ '\r') ∧ Portable cs :=
  List.forall_mem_cons

theorem portable_flatMap {α : Type} {as : List α} {f : α → List Char}
    (h : ∀ a ∈ as, Portable (f a)) : Portable (as.flatMap f) := by
  intro c hc
  obtain ⟨a, ha, hm⟩ := List.mem_flatMap.1 hc
  exact h a ha c hm

/-- What a test tells apart is different. -/
theorem ne_of_test {α : Type} {p : α → Bool} {a b : α} (ha : p a = true) (hb : p b = false) :
    a ≠ b := by
  rintro rfl
  rw [ha] at hb
  cases hb

theorem isPlainName_iff {name : String} :
    isPlainName name = true ↔
      ∃ c cs, name.toList = c :: cs ∧ isNameStart c = true ∧ ∀ d ∈ cs, isNameChar d = true := by
  unfold isPlainName
  split
  · rename_i c cs h
    simp [h]
  · rename_i h
    simp [h]

theorem isNameChar_of_isNameStart {c : Char} (h : isNameStart c = true) : isNameChar c = true := by
  simp [isNameChar, h]

theorem isDocumentChar_of_isAlphanum {c : Char} (h : c.isAlphanum = true) :
    isDocumentChar c = true := by
  have hc := toNat_of_isAlphanum h
  exact inRanges_iff.2 ⟨(0x20, 0xD7FF), by decide, by simp only; omega⟩

/-- A character in ranges that documents can hold. -/
theorem isDocumentChar_of_inRanges {rs : List CharRange} {c : Char} (h : inRanges rs c = true)
    (hrs : ∀ r ∈ rs, (0x20 ≤ r.1 ∧ r.2 ≤ 0xD7FF) ∨ (0xE000 ≤ r.1 ∧ r.2 ≤ 0xFFFD) ∨
      (0x10000 ≤ r.1 ∧ r.2 ≤ 0x10FFFF)) : isDocumentChar c = true := by
  obtain ⟨r, hr, hlo, hhi⟩ := inRanges_iff.1 h
  rcases hrs r hr with hr | hr | hr
  · exact inRanges_iff.2 ⟨(0x20, 0xD7FF), by decide, by simp only; omega⟩
  · exact inRanges_iff.2 ⟨(0xE000, 0xFFFD), by decide, by simp only; omega⟩
  · exact inRanges_iff.2 ⟨(0x10000, 0x10FFFF), by decide, by simp only; omega⟩

/-- Documents keep the characters of names. -/
theorem keeps_of_isNameChar {c : Char} (h : isNameChar c = true) :
    isDocumentChar c = true ∧ c ≠ '\r' := by
  refine ⟨?_, ne_of_test h (by decide)⟩
  simp only [isNameChar, isNameStart, Bool.or_eq_true, beq_iff_eq] at h
  rcases h with (((((ha | rfl) | hc) | hd) | rfl) | rfl) | hc
  · exact isDocumentChar_of_isAlphanum (by simp [Char.isAlphanum, ha])
  · decide
  · exact isDocumentChar_of_inRanges hc (by decide)
  · exact isDocumentChar_of_isAlphanum (by simp [Char.isAlphanum, hd])
  · decide
  · decide
  · exact isDocumentChar_of_inRanges hc (by decide)

theorem portable_of_isPlainName {name : String} (h : isPlainName name = true) :
    Portable name.toList := by
  obtain ⟨c, cs, hname, hc, hcs⟩ := isPlainName_iff.1 h
  rw [hname, portable_cons]
  exact ⟨keeps_of_isNameChar (isNameChar_of_isNameStart hc), fun d hd =>
    keeps_of_isNameChar (hcs d hd)⟩

/-! ## Sections -/

/-- There is a first section. -/
theorem exists_sections_eq_cons (cs : List Char) : ∃ first rest, sections cs = first :: rest := by
  induction cs using sections.induct with
  | case1 cs _ => exact ⟨_, _, by rw [sections]⟩
  | case2 c cs hmark ih =>
    obtain ⟨first, rest, h⟩ := ih
    exact ⟨c :: first, rest, by rw [sections, h, List.modifyHead_cons]; exact hmark⟩
  | case3 => exact ⟨[], [], rfl⟩

theorem flatten_modifyHead_cons {α : Type} (a : α) {xss : List (List α)} (h : xss ≠ []) :
    (xss.modifyHead (a :: ·)).flatten = a :: xss.flatten := by
  obtain ⟨xs, xss, rfl⟩ := List.exists_cons_of_ne_nil h
  rfl

theorem sections_ne_nil (cs : List Char) : sections cs ≠ [] := by
  obtain ⟨first, rest, h⟩ := exists_sections_eq_cons cs
  rw [h]
  exact List.cons_ne_nil first rest

/-- **The sections of a text, put together, are the text.** -/
theorem flatten_sections (cs : List Char) : (sections cs).flatten = cs := by
  induction cs using sections.induct with
  | case1 cs ih =>
    rw [sections, List.flatten_cons, flatten_modifyHead_cons _ (sections_ne_nil cs), ih]
    rfl
  | case2 c cs hmark ih =>
    rw [sections, flatten_modifyHead_cons _ (sections_ne_nil cs), ih]
    exact hmark
  | case3 => rfl

/-- **No section holds the mark that ends it.** -/
theorem not_infix_of_mem_sections (cs : List Char) :
    ∀ part ∈ sections cs, ¬ sectionEnd <:+: part := by
  induction cs using sections.induct with
  | case1 cs ih =>
    obtain ⟨first, rest, h⟩ := exists_sections_eq_cons cs
    rw [h, List.forall_mem_cons] at ih
    rw [sections, h, List.modifyHead_cons]
    refine List.forall_mem_cons.2 ⟨by decide, List.forall_mem_cons.2 ⟨fun hmark => ?_, ih.2⟩⟩
    rcases List.infix_cons_iff.1 hmark with hprefix | hinfix
    · exact absurd (List.cons_prefix_cons.1 hprefix).1 (by decide)
    · exact ih.1 hinfix
  | case2 c cs hcut ih =>
    obtain ⟨first, rest, h⟩ := exists_sections_eq_cons cs
    -- the first section is a start of the text, which is not cut here
    have hfirst : first <+: cs := ⟨rest.flatten, by rw [← List.flatten_cons, ← h, flatten_sections]⟩
    rw [h, List.forall_mem_cons] at ih
    rw [sections, h, List.modifyHead_cons]
    · refine List.forall_mem_cons.2 ⟨fun hmark => ?_, ih.2⟩
      rcases List.infix_cons_iff.1 hmark with hprefix | hinfix
      · obtain ⟨rfl, hsecond⟩ := List.cons_prefix_cons.1 hprefix
        obtain ⟨back, rfl⟩ := hsecond.trans hfirst
        exact hcut back rfl rfl
      · exact ih.1 hinfix
    · exact hcut
  | case3 => exact List.forall_mem_singleton.2 (by decide)

theorem portable_of_mem_sections {cs : List Char} (h : Portable cs) :
    ∀ part ∈ sections cs, Portable part := fun _ hpart c hc =>
  h c (flatten_sections cs ▸ List.mem_flatten_of_mem hpart hc)

/-! ## Elements -/

/-- **What sound elements are written as is sound markup.** -/
theorem SpelledAs.sound {ds : List Draft} {m : Source} (h : SpelledAs ds m) :
    ∀ {depth : Nat}, Draft.Sound depth ds → m.Sound depth := by
  induction h with
  | nil hblanks => exact fun _ => .done hblanks
  | leaf hblanks _ ih =>
    intro depth hsound
    cases hsound with
    | leaf htag htext hrest =>
      exact .leaf hblanks htag (sections_ne_nil _)
        (fun part hpart => ⟨portable_of_mem_sections htext part hpart,
          not_infix_of_mem_sections _ part hpart⟩) (ih hrest)
  | group hblanks _ _ ihinner ih =>
    intro depth hsound
    cases hsound with
    | group htag hvalues hchildren hrest =>
      exact .group hblanks htag hvalues (ihinner hchildren) (ih hrest)

/-- The nodes have the names, attributes and texts of the elements.  The text of an element with
    others in it may be any. -/
inductive ReadAs : List Draft → List Node → Prop where
  | nil : ReadAs [] []
  | leaf {tag text : String} {ds : List Draft} {ns : List Node} (hrest : ReadAs ds ns) :
    ReadAs (.leaf tag text :: ds) (.node tag [] (some text) [] :: ns)
  | group {tag : String} {attributes : List (String × String)} {children ds : List Draft}
    {text : Option String} {inner ns : List Node} (hinner : ReadAs children inner)
    (hrest : ReadAs ds ns) :
    ReadAs (.group tag attributes children :: ds) (.node tag attributes text inner :: ns)

/-- **The nodes of written markup are those of the elements.** -/
theorem SpelledAs.readAs {ds : List Draft} {m : Source} (h : SpelledAs ds m) :
    ReadAs ds m.nodes := by
  induction h with
  | nil _ => exact .nil
  | leaf _ _ ih =>
    rw [Source.nodes, flatten_sections, String.ofList_toList]
    exact .leaf ih
  | group _ _ _ ihinner ih =>
    rw [Source.nodes]
    exact .group ihinner ih

/-- Elements are sound if each of them is. -/
theorem Draft.sound_of_forall {depth : Nat} {ds : List Draft}
    (h : ∀ d ∈ ds, Draft.Sound depth [d]) : Draft.Sound depth ds := by
  induction ds with
  | nil => exact .nil
  | cons d ds ih =>
    obtain ⟨hd, hds⟩ := List.forall_mem_cons.1 h
    cases hd with
    | leaf htag htext _ => exact .leaf htag htext (ih hds)
    | group htag hvalues hchildren _ => exact .group htag hvalues hchildren (ih hds)

/-- A faithful library writes a sound element, and reads what it wrote as this element. -/
theorem Library.Faithful.exists_read {xml : Library} (h : xml.Faithful) {d : Draft}
    (hd : Draft.Sound maxDepth [d]) :
    ∃ markup n, xml.write d = some markup ∧ xml.read markup.toUTF8 = some n ∧ ReadAs [d] [n] := by
  obtain ⟨m, hm, hwrite⟩ := h.writes d hd
  have hnodes := hm.readAs
  obtain ⟨n, hn⟩ : ∃ n, m.nodes = [n] := by
    generalize m.nodes = ns at hnodes
    cases hnodes with
    | leaf hrest =>
      cases hrest
      exact ⟨_, rfl⟩
    | group _ hrest =>
      cases hrest
      exact ⟨_, rfl⟩
  exact ⟨_, n, hwrite, h.reads m n (hm.sound hd) hn, hn ▸ hnodes⟩

end RelayLadder.Xml
