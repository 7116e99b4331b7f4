/-
  Routines, written as markup and read back, by any faithful library.

  * `elements_terminated`: the semicolon that ends a written text changes nothing of what it holds;
  * `sound_routineDraft`: a routine of characters that documents keep is an element that can be
    written;
  * `readRung_of_readAs`, `mapM_readRung`: its rungs are read off the nodes that it is read as;
  * `exists_readsBackAs`: so it is read back in the form that its written texts have;
  * `readsBackAs_write`: so its numbers, texts, elements and comments come back, written as they are
    stored or made anew from the elements.
-/
import RelayLadder.L5X.Reader
import RelayLadder.L5X.Writer
import RelayLadder.Proofs.MarkupReading
import RelayLadder.Proofs.Numerals
import RelayLadder.Proofs.RoundTrip
import RelayLadder.Proofs.SourceCharacters

namespace RelayLadder

open Text

namespace L5X

open Xml RungText

/-! ## Numbers -/

theorem rungNumber_toString {n : Nat} (h : n < 10 ^ maxDigits) (position : Nat) :
    rungNumber (some (toString n)) position = .ok n := by
  have hne : toString n ≠ "" := by
    rw [Nat.toString_eq_repr]
    exact Nat.repr_ne_empty
  have hdigits : (toString n).toList.all Text.isDigit = true :=
    List.all_eq_true.2 fun c hc =>
      isDigit_of_decimalValue? (decimalValue?_of_isDigit (isDigit_of_mem_toString hc))
  rw [rungNumber, if_pos ⟨hne, hdigits⟩, natOfDigits_toString h]

/-! ## Texts -/

/-- Elements depend only on the part of a text that is read. -/
theorem elements_eq_of_body_eq {a b : String} (h : body a.toList = body b.toList) :
    elements a = elements b := by
  simp only [elements, parse, h]

/-- **The semicolon at the end changes nothing of what a text holds.** -/
theorem elements_terminated (s : String) : elements (terminated s) = elements s := by
  refine elements_eq_of_body_eq ?_
  simp only [terminated, String.toList_ofList]
  split
  · simp only [body, trim_trim]
  · rename_i h
    rw [body_concat_semicolon (head?_trim _) (getLast?_trim _)]
    simp only [body, if_neg h]

theorem strip_concat_semicolon {cs : List Char} (h : ∀ c ∈ cs.head?, isBlank c = false) :
    strip (String.ofList (cs ++ [';'])) = String.ofList (cs ++ [';']) := by
  have hlast : ∀ c ∈ (cs ++ [';']).getLast?, isBlank c = false := by
    rw [List.getLast?_concat]
    simp only [Option.mem_some_iff, forall_eq']
    decide
  have hhead : ∀ c ∈ (cs ++ [';']).head?, isBlank c = false := by
    cases cs with
    | nil => simp only [List.nil_append, List.head?_cons, Option.mem_some_iff, forall_eq']; decide
    | cons d cs => exact h
  rw [strip, String.toList_ofList, trim_eq_self hhead hlast]

/-- A written text has no blanks around it. -/
theorem strip_terminated (s : String) : strip (terminated s) = terminated s := by
  simp only [terminated]
  split
  · rw [strip, String.toList_ofList, trim_trim]
  · exact strip_concat_semicolon (head?_trim _)

/-! ## The element of a routine -/

/-- A number is written in characters that documents keep. -/
theorem portable_toString (n : Nat) : Portable (toString n).toList := fun c hc =>
  keeps_of_isNameChar (by simp [Xml.isNameChar, isDigit_of_mem_toString hc])

/-- A rung of characters that documents keep can be written, inside three other elements at most. -/
theorem sound_rungDraft {regenerate : Bool} {r : Rung}
    (htext : Portable (writtenText r regenerate).toList)
    (hcomment : ∀ c ∈ r.comment, Portable c.toList) (depth : Nat) :
    Draft.Sound (depth + 2) [rungDraft regenerate r] := by
  have htag : isPlainTag "Rung" ["Number", "Type"] = true := by decide
  refine .group htag ?_ (Draft.sound_of_forall ?_) .nil
  · exact List.forall_mem_cons.2
      ⟨portable_toString r.number, List.forall_mem_singleton.2 (by decide)⟩
  · rw [List.forall_mem_append, List.forall_mem_map, List.forall_mem_singleton]
    exact ⟨fun c hc => .leaf (by decide) (hcomment c (Option.mem_toList.1 hc)) .nil,
      .leaf (by decide) htext .nil⟩

/-- **A routine of characters that documents keep can be written.** -/
theorem sound_routineDraft {regenerate : Bool} {r : Routine} (hname : Portable r.localName.toList)
    (htext : ∀ rung ∈ r.rungs, Portable (writtenText rung regenerate).toList)
    (hcomment : ∀ rung ∈ r.rungs, ∀ c ∈ rung.comment, Portable c.toList) :
    Draft.Sound Library.maxDepth [routineDraft regenerate r] := by
  have hrungs : Draft.Sound 254 (r.rungs.map (rungDraft regenerate)) :=
    Draft.sound_of_forall <| List.forall_mem_map.2 fun rung hr =>
      sound_rungDraft (htext rung hr) (hcomment rung hr) 252
  have hvalues : ∀ a ∈ [("Name", r.localName), ("Type", "RLL")], Portable a.2.toList :=
    List.forall_mem_cons.2 ⟨hname, List.forall_mem_singleton.2 (by decide)⟩
  have htag : isPlainTag "Routine" ["Name", "Type"] = true := by decide
  exact .group htag hvalues (.group (by decide) (by simp) hrungs .nil) .nil

/-! ## Reading the rungs -/

/-- The texts of a rung are read off the nodes of its fields. -/
theorem child?_of_readAs {comment : Option String} {text : String} {ns : List Node}
    (h : ReadAs (comment.toList.map (.leaf "Comment") ++ [.leaf "Text" text]) ns) :
    (ns.find? (·.tag == "Text")).bind Node.text = some text ∧
      (ns.find? (·.tag == "Comment")).bind Node.text = comment := by
  cases comment with
  | none =>
    cases h with
    | leaf hrest =>
      cases hrest
      exact ⟨rfl, rfl⟩
  | some comment =>
    cases h with
    | leaf hrest =>
      cases hrest with
      | leaf hrest =>
        cases hrest
        exact ⟨rfl, rfl⟩

/-- **A rung is read off its node.** -/
theorem readRung_of_readAs {regenerate : Bool} {r : Rung} (hnumber : r.number < 10 ^ maxDigits)
    {n : Node} (h : ReadAs [rungDraft regenerate r] [n]) (position : Nat) :
    n.tag = "Rung" ∧ readRung n position =
      .ok (Rung.ofText r.number (strip (writtenText r regenerate)) (r.comment.map strip)) := by
  cases h with
  | group hinner _ =>
    obtain ⟨htext, hcomment⟩ := child?_of_readAs hinner
    refine ⟨rfl, ?_⟩
    have hstated : ∀ text inner, (Node.node "Rung" [("Number", toString r.number), ("Type", "N")]
        text inner).attribute? "Number" = some (toString r.number) := fun _ _ => rfl
    rw [readRung, hstated, rungNumber_toString hnumber, strippedText, strippedText, Node.child?,
      Node.child?, Node.children, htext, hcomment]
    rfl

/-- The rungs are read off their nodes in order, and there are no other nodes. -/
theorem mapM_readRung {regenerate : Bool} {rungs : List Rung}
    (hnumbers : ∀ r ∈ rungs, r.number < 10 ^ maxDigits) {ns : List Node}
    (h : ReadAs (rungs.map (rungDraft regenerate)) ns) (start : Nat) :
    (∀ n ∈ ns, n.tag = "Rung") ∧
      (ns.zipIdx start).mapM (fun p => readRung p.1 p.2) =
        .ok (rungs.map fun r =>
          Rung.ofText r.number (strip (writtenText r regenerate)) (r.comment.map strip)) := by
  induction rungs generalizing ns start with
  | nil =>
    cases h
    exact ⟨List.forall_mem_nil _, rfl⟩
  | cons r rungs ih =>
    obtain ⟨hr, hrungs⟩ := List.forall_mem_cons.1 hnumbers
    rw [List.map_cons, rungDraft] at h
    cases h with
    | group hinner hrest =>
      obtain ⟨htags, hread⟩ := ih hrungs hrest (start + 1)
      obtain ⟨htag, hfirst⟩ := readRung_of_readAs hr (.group hinner .nil) start
      refine ⟨List.forall_mem_cons.2 ⟨htag, htags⟩, ?_⟩
      rw [List.zipIdx_cons, List.mapM_cons, hread]
      simp only [hfirst]
      rfl

/-! ## The round trip -/

/-- The library reads from the document, given in UTF-8, a ladder content with these rungs. -/
def ReadsBackAs (xml : Library) (document : String) (rungs : List Rung) : Prop :=
  ∃ root content, xml.read document.toUTF8 = some root ∧
    root.child? "RLLContent" = some content ∧ readRungs content = .ok rungs

/-- A routine is written, and read back in the form that its written texts have. -/
theorem exists_readsBackAs {xml : Library} (hxml : xml.Faithful) {r : Routine} {regenerate : Bool}
    {form : Rung → Rung} (hname : Portable r.localName.toList)
    (htext : ∀ rung ∈ r.rungs, Portable (writtenText rung regenerate).toList)
    (hcomment : ∀ rung ∈ r.rungs, ∀ c ∈ rung.comment, Portable c.toList)
    (hnumber : ∀ rung ∈ r.rungs, rung.number < 10 ^ maxDigits)
    (hform : ∀ rung ∈ r.rungs, Rung.ofText rung.number (strip (writtenText rung regenerate))
      (rung.comment.map strip) = form rung) :
    ∃ document, write xml r regenerate = .ok document ∧
      ReadsBackAs xml document (r.rungs.map form) := by
  obtain ⟨document, root, hwrite, hread, hroot⟩ :=
    hxml.exists_read (sound_routineDraft hname htext hcomment)
  refine ⟨document, by rw [write, hwrite], ?_⟩
  -- the root holds the content, which holds the rungs
  cases hroot with
  | group hcontent _ =>
    cases hcontent with
    | group hrungs hrest =>
      cases hrest
      refine ⟨_, _, hread, rfl, ?_⟩
      obtain ⟨htags, hmapM⟩ := mapM_readRung hnumber hrungs 0
      rw [readRungs, Node.childrenNamed, Node.children,
        List.filter_eq_self.2 fun n hn => beq_iff_eq.2 (htags n hn), ← List.map_congr_left hform]
      exact hmapM

/-- The name, texts and comments of the routine are made of characters that documents keep, and its
    numbers are short enough to be read. -/
structure Exchangeable (r : Routine) : Prop where
  name : Portable r.name.toList
  texts : ∀ rung ∈ r.rungs, Portable rung.text.toList
  comments : ∀ rung ∈ r.rungs, ∀ comment ∈ rung.comment, Portable comment.toList
  numbers : ∀ rung ∈ r.rungs, rung.number < 10 ^ 4300

/-- The rung as its stored text should bring it back: the text without blanks around it and ended by
    a semicolon, what the stored text holds, and the comment without blanks around it. -/
def storedForm (r : Rung) : Rung where
  number := r.number
  text := if (strip r.text).toList.getLast? = some ';' then strip r.text else strip r.text ++ ";"
  elements := elements r.text
  comment := r.comment.map strip

/-- The rung as its elements should bring it back: their canonical text, and themselves. -/
def regeneratedForm (r : Rung) : Rung where
  number := r.number
  text := Series.rungText r.elements
  elements := r.elements
  comment := r.comment.map strip

theorem portable_localName {r : Routine} (h : Portable r.name.toList) :
    Portable r.localName.toList := by
  rw [Routine.localName, String.toList_ofList]
  intro c hc
  exact h c (List.mem_reverse.1 (List.takeWhile_subset _ (List.mem_reverse.1 hc)))

theorem portable_terminated {s : String} (h : Portable s.toList) :
    Portable (terminated s).toList := by
  have htrim : Portable (trim s.toList) := fun c hc => h c (mem_of_mem_trim hc)
  simp only [terminated, String.toList_ofList]
  split
  · exact htrim
  · exact portable_append.2 ⟨htrim, by decide⟩

/-- The canonical text of what a text holds can be written if the text can. -/
theorem portable_rungText_elements {text : String} (h : Portable text.toList) :
    Portable (Series.rungText (elements text)).toList := by
  have hmarks : Portable writtenMarks := by decide
  rw [Series.rungText, String.toList_ofList]
  exact portable_append.2 ⟨forall_mem_spell_elements hmarks h, by decide⟩

theorem ofText_terminated (r : Rung) :
    Rung.ofText r.number (strip (terminated r.text)) (r.comment.map strip) = storedForm r := by
  have htext : terminated r.text = (storedForm r).text := by
    simp only [terminated, storedForm, strip, String.toList_ofList]
    split
    · rfl
    · rw [String.ofList_append]
  rw [strip_terminated, Rung.ofText, elements_terminated, htext, storedForm]

theorem ofText_rungText {r : Rung} {text : String} (h : elements text = r.elements) :
    Rung.ofText r.number (strip (Series.rungText r.elements)) (r.comment.map strip) =
      regeneratedForm r := by
  have hcanonical : Series.Canonical r.elements := h ▸ canonical_elements text
  have helements : elements (Series.rungText r.elements) = r.elements := by
    rw [elements, parse_rungText_of_canonical hcanonical]
  have hstrip : strip (Series.rungText r.elements) = Series.rungText r.elements :=
    strip_concat_semicolon (head?_spell hcanonical.1)
  rw [hstrip, Rung.ofText, helements]
  rfl

/-- **A routine survives being written and read back** by a faithful library: its rungs come back in
    order with their numbers, texts, elements and comments, from the stored texts, and from the
    elements if these are what some text holds. -/
theorem readsBackAs_write {xml : Library} (hxml : xml.Faithful) (r : Routine) (h : Exchangeable r) :
    (∃ document, write xml r = .ok document ∧
      ReadsBackAs xml document (r.rungs.map storedForm)) ∧
    ((∀ rung ∈ r.rungs, ∃ text, Portable text.toList ∧ elements text = rung.elements) →
      ∃ document, write xml r true = .ok document ∧
        ReadsBackAs xml document (r.rungs.map regeneratedForm)) := by
  have hname := portable_localName h.name
  have hnumbers : ∀ rung ∈ r.rungs, rung.number < 10 ^ maxDigits := by
    rw [show maxDigits = 4300 from rfl]
    exact h.numbers
  constructor
  · have htexts : ∀ rung ∈ r.rungs, Portable (writtenText rung false).toList := fun rung hr =>
      portable_terminated (h.texts rung hr)
    exact exists_readsBackAs hxml hname htexts h.comments hnumbers fun rung _ =>
      ofText_terminated rung
  · intro hread
    have htexts : ∀ rung ∈ r.rungs, Portable (writtenText rung true).toList := by
      intro rung hr
      obtain ⟨text, htext, heq⟩ := hread rung hr
      have hrung := portable_rungText_elements htext
      rwa [heq] at hrung
    refine exists_readsBackAs hxml hname htexts h.comments hnumbers fun rung hr => ?_
    obtain ⟨text, -, heq⟩ := hread rung hr
    exact ofText_rungText heq

/-- A routine with the end of a section in an operand, and marks of markup in a comment. -/
def markedRoutine : Routine where
  name := "Main/A&B"
  rungs := [.ofText 7 " XIC(A[B[1]]>3)OTE(C) " (some " <first>\n"), .ofText 0 "[XIC(A),XIC(B];"]

theorem readsBackAs_write_marked :
    StandIn.xml.Faithful ∧ Exchangeable markedRoutine ∧
    (∃ document, write StandIn.xml markedRoutine = .ok document ∧
      ReadsBackAs StandIn.xml document (markedRoutine.rungs.map storedForm)) ∧
    ∃ document, write StandIn.xml markedRoutine true = .ok document ∧
      ReadsBackAs StandIn.xml document (markedRoutine.rungs.map regeneratedForm) := by
  have h : Exchangeable markedRoutine :=
    ⟨by decide, by decide, by decide, by decide +kernel⟩
  have helements : ∀ rung ∈ markedRoutine.rungs, elements rung.text = rung.elements :=
    List.forall_mem_cons.2 ⟨rfl, List.forall_mem_singleton.2 rfl⟩
  have hread : ∀ rung ∈ markedRoutine.rungs,
      ∃ text, Portable text.toList ∧ elements text = rung.elements := fun rung hr =>
    ⟨rung.text, h.texts rung hr, helements rung hr⟩
  obtain ⟨hstored, hregenerated⟩ := readsBackAs_write StandIn.faithful_xml markedRoutine h
  exact ⟨StandIn.faithful_xml, h, hstored, hregenerated hread⟩

end L5X

end RelayLadder
