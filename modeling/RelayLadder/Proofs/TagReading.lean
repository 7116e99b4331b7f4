/-
  Plain markup, cut into events by the stand-in for the XML library.

  Each tag, and each text between the marks of a section, is read as the event that it stands for,
  whatever comes behind it.

  * `attributeValue_flatMap`: the value of an attribute survives being written;
  * `readEvent_openingText`, `readEvent_closingText`: so do tags;
  * `readEvent_section`: a section is read up to its end, if it does not hold the mark that ends it;
  * `events_cons`: one event read is one event more in front.
-/
import RelayLadder.Proofs.Lexing
import RelayLadder.Proofs.PlainMarkup
import RelayLadder.StandIn.Event

namespace RelayLadder.StandIn

open Xml
open RungText (takeWhile_append_of_head dropWhile_append_of_head)

/-! ## Names -/

/-- A name without a label. -/
def QName.plain (name : String) : QName := ⟨none, name, true⟩

/-- The text starts with a character that ends a name, or is empty. -/
def endsWord (cs : List Char) : Prop := ∀ c ∈ cs.head?, (isNameChar c || c == ':') = false

theorem isSpace_of_isNameStart {c : Char} (h : isNameStart c = true) : isSpace c = false := by
  rw [Bool.eq_false_iff]
  intro hs
  simp only [isSpace, Bool.or_eq_true, beq_iff_eq] at hs
  rcases hs with ((rfl | rfl) | rfl) | rfl <;> revert h <;> decide

theorem QName.ofWord_of_isPlainName {name : String} (h : isPlainName name = true) :
    QName.ofWord name.toList = .plain name := by
  obtain ⟨c, cs, hname, hc, hcs⟩ := isPlainName_iff.1 h
  have hcolon : name.toList.dropWhile (· ≠ ':') = [] := by
    rw [List.dropWhile_eq_nil_iff, hname]
    refine List.forall_mem_cons.2 ⟨?_, fun d hd => ?_⟩
    · exact decide_eq_true (ne_of_test hc (by decide))
    · exact decide_eq_true (ne_of_test (hcs d hd) (by decide))
  rw [QName.ofWord, hcolon, String.ofList_toList]
  rfl

theorem readName_append {name : String} {rest : List Char} (h : isPlainName name = true)
    (hr : endsWord rest) : readName (name.toList ++ rest) = some (.plain name, rest) := by
  obtain ⟨c, cs, hname, hc, hcs⟩ := isPlainName_iff.1 h
  have hall : cs.all (fun c => isNameChar c || c == ':') = true := by
    simpa using fun d hd => Or.inl (hcs d hd)
  have hword : readWord (name.toList ++ rest) = some (name.toList, rest) := by
    simp only [hname, List.cons_append, readWord, startsWord, hc, Bool.true_or, if_true,
      takeWhile_append_of_head hall hr, dropWhile_append_of_head hall hr]
  simp only [readName, hword, Option.map_some, QName.ofWord_of_isPlainName h]

/-! ## Attributes -/

/-- The characters that are written as references in attributes, and how. -/
def attributeEscapes : List (Char × List Char) :=
  [('&', "&amp;".toList), ('<', "&lt;".toList), ('>', "&gt;".toList), ('"', "&quot;".toList),
    ('\t', "&#9;".toList), ('\n', "&#10;".toList), ('\r', "&#13;".toList)]

/-- A character of an attribute is written as a reference, or as itself. -/
theorem attributeChar_cases (c : Char) :
    (c, attributeChar c) ∈ attributeEscapes ∨
      attributeChar c = [c] ∧ c ≠ '&' ∧ c ≠ '<' ∧ c ≠ '"' ∧ (isSpace c = true → c = ' ') := by
  unfold attributeChar
  split <;> simp_all [attributeEscapes, isSpace]

/-- What is written can stand between quotes. -/
theorem forall_mem_attributeChar (c : Char) : ∀ d ∈ attributeChar c, d ≠ '<' ∧ d ≠ '"' := by
  have hescapes : ∀ p ∈ attributeEscapes, ∀ d ∈ p.2, d ≠ '<' ∧ d ≠ '"' := by
    simp [attributeEscapes]
  rcases attributeChar_cases c with h | ⟨h, -, hlt, hq, -⟩
  · exact hescapes _ h
  · rw [h]
    simpa using ⟨hlt, hq⟩

/-- The characters of an attribute outside references: blanks become spaces. -/
def spaced (c : Char) : Char := if isSpace c then ' ' else c

/-- A written character is read back. -/
theorem expandFrom_attributeChar (c : Char) (cs : List Char) :
    expandFrom spaced none (attributeChar c ++ cs) = (expandFrom spaced none cs).map (c :: ·) := by
  have hescapes : ∀ p ∈ attributeEscapes,
      expandFrom spaced none (p.2 ++ cs) = (expandFrom spaced none cs).map (p.1 :: ·) := by
    simp only [attributeEscapes, List.forall_mem_cons]
    exact ⟨rfl, rfl, rfl, rfl, rfl, rfl, rfl, by simp⟩
  rcases attributeChar_cases c with h | ⟨h, hamp, -, -, hsp⟩
  · exact hescapes _ h
  · have hc : spaced c = c := by
      unfold spaced
      split
      · exact (hsp ‹_›).symm
      · rfl
    rw [h, List.singleton_append, expandFrom, if_neg hamp, hc]

theorem expandFrom_flatMap (cs : List Char) :
    expandFrom spaced none (cs.flatMap attributeChar) = some cs := by
  induction cs with
  | nil => rfl
  | cons c cs ih =>
    rw [List.flatMap_cons, expandFrom_attributeChar, ih]
    rfl

/-- **The value of an attribute survives being written.** -/
theorem attributeValue_flatMap (cs : List Char) :
    attributeValue (cs.flatMap attributeChar) = some cs := by
  have hlt : (cs.flatMap attributeChar).contains '<' = false := by
    simp only [List.contains_eq_mem, decide_eq_false_iff_not, List.mem_flatMap, not_exists, not_and]
    exact fun c _ hm => (forall_mem_attributeChar c '<' hm).1 rfl
  rw [attributeValue, hlt]
  exact expandFrom_flatMap cs

theorem readQuoted_flatMap (cs rest : List Char) :
    readQuoted ('"' :: (cs.flatMap attributeChar ++ '"' :: rest)) =
      some (cs.flatMap attributeChar, rest) := by
  rw [readQuoted, if_pos (Or.inl rfl)]
  refine splitAtMark_singleton ?_ rest
  intro hm
  obtain ⟨c, -, hc⟩ := List.mem_flatMap.1 hm
  exact (forall_mem_attributeChar c '"' hc).2 rfl

/-- The attribute with this name, which has no label, and value. -/
def plainAttribute (a : String × String) : QName × String := (.plain a.1, a.2)

/-- One attribute in front is one read more. -/
theorem readAttributes_attributeText {fuel : Nat} {a : String × String} {cs rest : List Char}
    {attributes : List (QName × String)} {closed : Bool} (h : isPlainName a.1 = true)
    (hcs : readAttributes fuel cs = some ((attributes, closed), rest)) :
    readAttributes (fuel + 1) (attributeText a ++ cs) =
      some ((plainAttribute a :: attributes, closed), rest) := by
  obtain ⟨c, name, hname, hc, -⟩ := isPlainName_iff.1 h
  have hdrop : (attributeText a ++ cs).dropWhile isSpace = a.1.toList ++
      '=' :: '"' :: (a.2.toList.flatMap attributeChar ++ '"' :: cs) := by
    simp [attributeText, hname, isSpace_of_isNameStart hc, show isSpace ' ' = true from rfl]
  have hequals : readEquals ('=' :: '"' :: (a.2.toList.flatMap attributeChar ++ '"' :: cs)) =
      some ((), '"' :: (a.2.toList.flatMap attributeChar ++ '"' :: cs)) := rfl
  have hlen : (a.1.toList ++ '=' :: '"' :: (a.2.toList.flatMap attributeChar ++ '"' :: cs)).length ≠
      (attributeText a ++ cs).length := by
    simp [attributeText]
  simp only [readAttributes, hdrop]
  split
  · rename_i heq
    simp only [hname, List.cons_append, List.cons.injEq] at heq
    exact absurd heq.1 (ne_of_test hc (by decide))
  · rename_i heq
    simp only [hname, List.cons_append, List.cons.injEq] at heq
    exact absurd heq.1 (ne_of_test hc (by decide))
  · rw [if_neg hlen, readName_append h (by simp [endsWord]; decide)]
    simp [hequals, readQuoted_flatMap, attributeValue_flatMap, hcs, plainAttribute]

theorem readAttributes_flatMap {attributes : List (String × String)}
    (h : ∀ a ∈ attributes, isPlainName a.1 = true) (closed : Bool) (rest : List Char) :
    ∀ fuel, (attributes.flatMap attributeText).length < fuel →
      readAttributes fuel (attributes.flatMap attributeText ++ (tagEnd closed ++ rest)) =
        some ((attributes.map plainAttribute, closed), rest) := by
  induction attributes with
  | nil =>
    rintro (_ | fuel) hf
    · cases hf
    · cases closed <;> rfl
  | cons a attributes ih =>
    rintro (_ | fuel) hf
    · cases hf
    obtain ⟨ha, has⟩ := List.forall_mem_cons.1 h
    have hlt : (attributes.flatMap attributeText).length < fuel := by
      rw [List.flatMap_cons, List.length_append, attributeText] at hf
      simp only [List.cons_append, List.length_cons] at hf
      omega
    rw [List.flatMap_cons, List.append_assoc]
    exact readAttributes_attributeText ha (ih has fuel hlt)

/-! ## Tags -/

theorem readEvent_of_isNameStart {c : Char} (h : isNameStart c = true) (cs : List Char) :
    readEvent ('<' :: c :: cs) = readOpening (c :: cs) := by
  have hslash : c ≠ '/' := ne_of_test h (by decide)
  have hbang : c ≠ '!' := ne_of_test h (by decide)
  have hmark : c ≠ '?' := ne_of_test h (by decide)
  unfold readEvent
  split <;> simp_all

/-- **A written start tag is read back.** -/
theorem readEvent_openingText {name : String} {attributes : List (String × String)}
    (hname : isPlainName name = true) (h : ∀ a ∈ attributes, isPlainName a.1 = true)
    (closed : Bool) (rest : List Char) :
    readEvent (openingText name attributes closed ++ rest) =
      some (.opening (.plain name) (attributes.map plainAttribute) closed, rest) := by
  obtain ⟨c, cs, hcs, hc, -⟩ := isPlainName_iff.1 hname
  have hends : endsWord (attributes.flatMap attributeText ++ (tagEnd closed ++ rest)) := by
    cases attributes with
    | nil => cases closed <;> simp [endsWord, tagEnd] <;> decide
    | cons a attributes => simp [endsWord, attributeText]; decide
  have htext : openingText name attributes closed ++ rest =
      '<' :: (name.toList ++ (attributes.flatMap attributeText ++ (tagEnd closed ++ rest))) := by
    simp [openingText]
  have hattributes := readAttributes_flatMap h closed rest
    ((attributes.flatMap attributeText ++ (tagEnd closed ++ rest)).length + 1)
    (by rw [List.length_append]; omega)
  rw [htext, hcs, List.cons_append, readEvent_of_isNameStart hc, ← List.cons_append, ← hcs,
    readOpening, readName_append hname hends]
  simp only [Option.bind_eq_bind, Option.bind_some, hattributes]

/-- **A written end tag is read back.** -/
theorem readEvent_closingText {name : String} (h : isPlainName name = true) (rest : List Char) :
    readEvent (closingText name ++ rest) = some (.closing (.plain name), rest) := by
  have htext : closingText name ++ rest = '<' :: '/' :: (name.toList ++ '>' :: rest) := by
    simp [closingText]
  rw [htext, readEvent, readClosing, readName_append h (by simp [endsWord]; decide)]
  rfl

/-! ## Text -/

theorem splitAtMark_eq_none_cons {mark : List Char} {c : Char} {cs : List Char} :
    splitAtMark mark (c :: cs) = none ↔
      ¬ mark <+: c :: cs ∧ splitAtMark mark cs = none := by
  rw [splitAtMark]
  split <;> simp_all

theorem splitAtMark_eq_none_of_not_mem {c : Char} {cs mark : List Char} (h : c ∉ cs) :
    splitAtMark (c :: mark) cs = none := by
  induction cs with
  | nil => rfl
  | cons d cs ih =>
    rw [List.mem_cons, not_or] at h
    refine splitAtMark_eq_none_cons.2 ⟨fun hp => h.1 ?_, ih h.2⟩
    exact (List.cons_prefix_cons.1 hp).1

/-- Blanks are a text up to the tag behind them. -/
theorem readEvent_blanks {blanks rest : List Char} (hne : blanks ≠ [])
    (hb : ∀ c ∈ blanks, isSpace c = true) (hr : ∀ c ∈ rest.head?, c = '<') :
    readEvent (blanks ++ rest) = some (.text blanks, rest) := by
  have hlt : blanks.all (· ≠ '<') = true := by
    rw [List.all_eq_true]
    intro c hc
    exact decide_eq_true (ne_of_test (hb c hc) (by decide))
  have hrest : ∀ c ∈ rest.head?, decide (c ≠ '<') = false := by
    intro c hc
    simp [hr c hc]
  have hmark : splitAtMark sectionEnd blanks = none :=
    splitAtMark_eq_none_of_not_mem fun hm => ne_of_test (hb ']' hm) (by decide) rfl
  have htext : readEvent (blanks ++ rest) = readText (blanks ++ rest) := by
    obtain ⟨c, blanks, rfl⟩ := List.exists_cons_of_ne_nil hne
    have hc : c ≠ '<' := ne_of_test (hb c List.mem_cons_self) (by decide)
    rw [List.cons_append]
    unfold readEvent
    split <;> simp_all
  rw [htext, readText, takeWhile_append_of_head hlt hrest, dropWhile_append_of_head hlt hrest]
  change (if (splitAtMark sectionEnd blanks).isSome = true then _ else _) = _
  rw [hmark]
  rfl

/-- A section ends at the first mark. -/
theorem splitAtMark_sectionEnd {cs : List Char} (h : splitAtMark sectionEnd cs = none)
    (rest : List Char) : splitAtMark sectionEnd (cs ++ sectionEnd ++ rest) = some (cs, rest) := by
  induction cs with
  | nil => simp [splitAtMark, sectionEnd]
  | cons c cs ih =>
    obtain ⟨hc, hcs⟩ := splitAtMark_eq_none_cons.1 h
    -- A mark that started in the section and ended behind it would end in `]`.
    have hno : ¬ sectionEnd <+: c :: (cs ++ sectionEnd ++ rest) := by
      rcases cs with _ | ⟨a, _ | ⟨b, cs⟩⟩
      · simp [sectionEnd]
      · simp [sectionEnd]
      · simpa [sectionEnd] using hc
    have hno' : sectionEnd.isPrefixOf (c :: (cs ++ sectionEnd ++ rest)) = false := by
      simpa [← List.isPrefixOf_iff_prefix] using hno
    simp only [List.cons_append, splitAtMark, hno', ih hcs]
    rfl

/-- A mark is found exactly where it stands. -/
theorem splitAtMark_eq_none_iff {mark cs : List Char} (hne : mark ≠ []) :
    splitAtMark mark cs = none ↔ ¬ mark <:+: cs := by
  induction cs with
  | nil => simp [splitAtMark, hne]
  | cons c cs ih => rw [splitAtMark_eq_none_cons, ih, List.infix_cons_iff, not_or]

theorem readEvent_section {cs : List Char} (h : ¬ sectionEnd <:+: cs) (rest : List Char) :
    readEvent (sectionStart ++ cs ++ sectionEnd ++ rest) = some (.cdata cs, rest) := by
  have hsplit := splitAtMark_sectionEnd ((splitAtMark_eq_none_iff (by decide)).2 h) rest
  have htext : sectionStart ++ cs ++ sectionEnd ++ rest =
      sectionStart ++ (cs ++ sectionEnd ++ rest) := by
    simp only [List.append_assoc]
  rw [htext]
  change (splitAtMark sectionEnd (cs ++ sectionEnd ++ rest)).map _ = _
  rw [hsplit]
  rfl

/-! ## Events -/

theorem eventsWithin_mono {fuel : Nat} {cs : List Char} {es : List Event}
    (h : eventsWithin fuel cs = some es) {more : Nat} (hle : fuel ≤ more) :
    eventsWithin more cs = some es := by
  induction fuel generalizing cs es more with
  | zero =>
    cases cs with
    | nil => cases more <;> exact h
    | cons c cs => cases h
  | succ fuel ih =>
    obtain ⟨more, rfl⟩ : ∃ m, more = m + 1 := ⟨more - 1, by omega⟩
    cases cs with
    | nil => exact h
    | cons c cs =>
      simp only [eventsWithin, Option.bind_eq_bind, Option.bind_eq_some_iff] at h ⊢
      obtain ⟨r, hr, es', hes, heq⟩ := h
      exact ⟨r, hr, es', ih hes (by omega), heq⟩

/-- One event read is one event more in front. -/
theorem events_cons {cs rest : List Char} {e : Event} {es : List Event}
    (he : readEvent cs = some (e, rest)) (hlt : rest.length < cs.length)
    (hes : events rest = some es) : events cs = some (e :: es) := by
  cases cs with
  | nil => cases hlt
  | cons c cs =>
    have hmore := eventsWithin_mono hes (Nat.le_of_lt_succ hlt)
    simp only [events, List.length_cons, eventsWithin, he, Option.bind_eq_bind, Option.bind_some,
      hmore]
    rfl

end RelayLadder.StandIn
