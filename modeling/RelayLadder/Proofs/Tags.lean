/-
  Markup cut at its tags.

  * `cut` cuts a text at the marks `<` and `>`, which must follow each other in turn, and
    `readPieces` reads what was cut as tags with the texts in front of them, references replaced;
  * `expandReferences_escape`: an escaped text is read back, and it holds no marks and no quotes
    (`isInert_of_mem_escape`);
  * `cut_markup`, `readPieces_parts`: so tags with any values and any texts in front of them are cut
    where they should be, and read back.
-/
import RelayLadder.Proofs.Lexing
import RelayLadder.Text.Markup
import RelayLadder.Xml.Reference

namespace RelayLadder.Markup

open Text
open Xml (expandFrom expandReferences readQuoted splitAtMark splitAtMark_singleton)
open RungText (takeWhile_append_of_head dropWhile_append_of_head)

/-! ## Pieces -/

/-- What stands between two marks. -/
structure Tag where
  /-- The name, with the slash of an end tag. -/
  word : String
  /-- Names and values. -/
  attributes : List (String × String) := []
  /-- What stands behind the attributes. -/
  ending : String := ""
deriving DecidableEq

/-- A tag, and the text in front of it. -/
structure Piece where
  text : String
  tag : Tag
deriving DecidableEq

/-- The value of an attribute. -/
def Tag.attribute? (t : Tag) (name : String) : Option String := t.attributes.lookup name

/-- An attribute as it is written, with the space in front. -/
def attributeText (a : String × String) : List Char :=
  ' ' :: a.1.toList ++ '=' :: '"' :: (escape a.2).toList ++ ['"']

/-- A tag as it is written, without its marks. -/
def Tag.inner (t : Tag) : List Char :=
  t.word.toList ++ (t.attributes.flatMap attributeText ++ t.ending.toList)

def Piece.chars (p : Piece) : List Char :=
  (escape p.text).toList ++ '<' :: p.tag.inner ++ ['>']

/-- Pieces as they are written, and the text behind the last one. -/
def markup (ps : List Piece) (last : String) : List Char :=
  ps.flatMap Piece.chars ++ (escape last).toList

/-- What stands between the marks of written pieces. -/
def parts (ps : List Piece) (last : String) : List (List Char) :=
  ps.flatMap (fun p => [(escape p.text).toList, p.tag.inner]) ++ [(escape last).toList]

/-! ## Cutting and reading -/

/-- The mark that ends a piece. -/
def endMark (inTag : Bool) : Char := if inTag then '>' else '<'

/-- What lies between the marks, by turns the text in front of a tag and the tag, and the text
    behind the last one.  There is no cut if a mark stands where the other one should. -/
def cut (inTag : Bool) : List Char → Option (List (List Char))
  | [] => if inTag then none else some [[]]
  | c :: cs =>
    if c = endMark inTag then (cut (!inTag) cs).map ([] :: ·)
    else if c = '<' ∨ c = '>' then none
    else (cut inTag cs).map (List.modifyHead (c :: ·))

/-- The attributes at the start of a text, each with a space in front, and what stands behind them.
    Each uses up one of `fuel`. -/
def readAttributes : Nat → List Char → Option (List (String × String) × String)
  | 0, _ => none
  | fuel + 1, ' ' :: cs => do
    let (name, cs) ← splitAtMark ['='] cs
    let (raw, cs) ← readQuoted cs
    let value ← expandReferences raw
    let (attributes, ending) ← readAttributes fuel cs
    some ((String.ofList name, String.ofList value) :: attributes, ending)
  | _ + 1, cs => some ([], String.ofList cs)

/-- What stands between two marks, read as a tag. -/
def readTag (cs : List Char) : Option Tag := do
  let rest := cs.dropWhile (· ≠ ' ')
  let (attributes, ending) ← readAttributes (rest.length + 1) rest
  some ⟨String.ofList (cs.takeWhile (· ≠ ' ')), attributes, ending⟩

/-- Texts and tags by turns, read as pieces, and the text behind the last one. -/
def readPieces : List (List Char) → Option (List Piece × String)
  | [] => none
  | [last] => (expandReferences last).map fun cs => ([], String.ofList cs)
  | text :: inner :: parts => do
    let cs ← expandReferences text
    let tag ← readTag inner
    let (ps, last) ← readPieces parts
    some (⟨String.ofList cs, tag⟩ :: ps, last)

/-- The pieces of a document, and the text behind the last one. -/
def readMarkup (s : String) : Option (List Piece × String) := cut false s.toList >>= readPieces

/-! ## Escaped texts -/

/-- The characters that are written as references, and how. -/
def escapes : List (Char × List Char) :=
  [('&', "&amp;".toList), ('<', "&lt;".toList), ('>', "&gt;".toList), ('"', "&quot;".toList),
    ('\'', "&#x27;".toList)]

theorem escapeChar_cases (c : Char) :
    (c, escapeChar c) ∈ escapes ∨
      escapeChar c = [c] ∧ c ≠ '&' ∧ c ≠ '<' ∧ c ≠ '>' ∧ c ≠ '"' := by
  unfold escapeChar
  split <;> simp_all [escapes]

/-- The character is no mark and no quote. -/
def isInert (c : Char) : Bool := c != '<' && c != '>' && c != '"'

theorem isInert_iff {c : Char} : isInert c = true ↔ c ≠ '<' ∧ c ≠ '>' ∧ c ≠ '"' := by
  simp [isInert, and_assoc]

theorem ne_marks_of_isInert {c : Char} (h : isInert c = true) : c ≠ '<' ∧ c ≠ '>' := by
  obtain ⟨hlt, hgt, -⟩ := isInert_iff.1 h
  exact ⟨hlt, hgt⟩

theorem isInert_of_mem_escape {s : String} {c : Char} (h : c ∈ (escape s).toList) :
    isInert c = true := by
  have hescapes : ∀ p ∈ escapes, p.2.all isInert = true := by decide
  rw [escape, String.toList_ofList] at h
  obtain ⟨b, -, hc⟩ := List.mem_flatMap.1 h
  rcases escapeChar_cases b with hb | ⟨hb, -, hmarks⟩
  · exact List.all_eq_true.1 (hescapes _ hb) c hc
  · rw [hb, List.mem_singleton] at hc
    exact isInert_iff.2 (hc ▸ hmarks)

theorem expandFrom_escapeChar (c : Char) (cs : List Char) :
    expandFrom id none (escapeChar c ++ cs) = (expandFrom id none cs).map (c :: ·) := by
  have hescapes : ∀ p ∈ escapes,
      expandFrom id none (p.2 ++ cs) = (expandFrom id none cs).map (p.1 :: ·) := by
    simp only [escapes, List.forall_mem_cons]
    exact ⟨rfl, rfl, rfl, rfl, rfl, by simp⟩
  rcases escapeChar_cases c with h | ⟨h, hamp, -⟩
  · exact hescapes _ h
  · rw [h, List.singleton_append, expandFrom, if_neg hamp, id]

/-- **An escaped text is read back.** -/
theorem expandReferences_escape (s : String) :
    expandReferences (escape s).toList = some s.toList := by
  rw [escape, String.toList_ofList, expandReferences]
  induction s.toList with
  | nil => rfl
  | cons c cs ih =>
    rw [List.flatMap_cons, expandFrom_escapeChar, ih]
    rfl

/-- A text without characters to escape is written as it is. -/
theorem escape_eq_self {s : String} (h : ∀ c ∈ s.toList, escapeChar c = [c]) : escape s = s := by
  rw [escape, List.flatMap_congr h, List.flatMap_singleton', String.ofList_toList]

/-! ## Written tags -/

/-- The character can stand in the name of a tag or an attribute. -/
def isPlain (c : Char) : Bool := isInert c && c != ' ' && c != '='

/-- Word, names and ending are plain, and there is no ending without names. -/
def isPlainShape (word : String) (names : List String) (ending : String) : Bool :=
  word.toList.all isPlain && names.all (·.toList.all isPlain) && ending.toList.all isPlain &&
    (ending.toList.isEmpty || !names.isEmpty)

/-- The tag can be read back, whatever the values of its attributes are. -/
def Tag.isSound (t : Tag) : Bool := isPlainShape t.word (t.attributes.map Prod.fst) t.ending

theorem Tag.isSound_iff {t : Tag} :
    t.isSound = true ↔
      (∀ c ∈ t.word.toList, isPlain c = true) ∧
        (∀ a ∈ t.attributes, ∀ c ∈ a.1.toList, isPlain c = true) ∧
        (∀ c ∈ t.ending.toList, isPlain c = true) ∧
        (t.ending.toList = [] ∨ t.attributes ≠ []) := by
  simp [isSound, isPlainShape, and_assoc]

theorem isPlain_iff {c : Char} :
    isPlain c = true ↔ isInert c = true ∧ c ≠ ' ' ∧ c ≠ '=' := by
  simp [isPlain, and_assoc]

theorem readQuoted_escape (s : String) (rest : List Char) :
    readQuoted ('"' :: ((escape s).toList ++ '"' :: rest)) = some ((escape s).toList, rest) := by
  rw [readQuoted, if_pos (Or.inl rfl)]
  exact splitAtMark_singleton (fun h => (isInert_iff.1 (isInert_of_mem_escape h)).2.2 rfl) rest

theorem readAttributes_flatMap {attributes : List (String × String)}
    (h : ∀ a ∈ attributes, ∀ c ∈ a.1.toList, isPlain c = true) {ending : String}
    (hending : ∀ c ∈ ending.toList, isPlain c = true) :
    ∀ fuel, (attributes.flatMap attributeText).length < fuel →
      readAttributes fuel (attributes.flatMap attributeText ++ ending.toList) =
        some (attributes, ending) := by
  induction attributes with
  | nil =>
    rintro (_ | fuel) hf
    · cases hf
    rw [List.flatMap_nil, List.nil_append, readAttributes, String.ofList_toList]
    intro cs heq
    exact (isPlain_iff.1 (hending ' ' (heq ▸ List.mem_cons_self))).2.1 rfl
  | cons a attributes ih =>
    rintro (_ | fuel) hf
    · cases hf
    obtain ⟨ha, has⟩ := List.forall_mem_cons.1 h
    have hlt : (attributes.flatMap attributeText).length < fuel := by
      rw [List.flatMap_cons, List.length_append, attributeText] at hf
      simp only [List.cons_append, List.length_cons] at hf
      omega
    have htext : (a :: attributes).flatMap attributeText ++ ending.toList =
        ' ' :: (a.1.toList ++ '=' :: ('"' :: ((escape a.2).toList ++
          '"' :: (attributes.flatMap attributeText ++ ending.toList)))) := by
      simp [attributeText]
    have hname : splitAtMark ['='] (a.1.toList ++ '=' :: ('"' :: ((escape a.2).toList ++
        '"' :: (attributes.flatMap attributeText ++ ending.toList)))) = some (a.1.toList, _) :=
      splitAtMark_singleton (fun hm => (isPlain_iff.1 (ha '=' hm)).2.2 rfl) _
    rw [htext, readAttributes, hname]
    simp [readQuoted_escape, expandReferences_escape, ih has fuel hlt]

/-- **A written tag is read back**, whatever the values of its attributes are. -/
theorem readTag_inner {t : Tag} (h : t.isSound = true) : readTag t.inner = some t := by
  obtain ⟨hword, hnames, hending, hends⟩ := Tag.isSound_iff.1 h
  have hall : t.word.toList.all (· ≠ ' ') = true := by
    simpa using fun c hc => (isPlain_iff.1 (hword c hc)).2.1
  have hrest : ∀ c ∈ (t.attributes.flatMap attributeText ++ t.ending.toList).head?,
      decide (c ≠ ' ') = false := by
    cases hattributes : t.attributes with
    | nil =>
      rcases hends with he | he
      · simp [he]
      · exact absurd hattributes he
    | cons a attributes => simp [attributeText]
  have hread := readAttributes_flatMap hnames hending
    ((t.attributes.flatMap attributeText ++ t.ending.toList).length + 1)
    (by rw [List.length_append]; omega)
  rw [readTag, Tag.inner, takeWhile_append_of_head hall hrest, dropWhile_append_of_head hall hrest]
  simp only [hread, Option.bind_eq_bind, Option.bind_some, String.ofList_toList]

theorem ne_marks_of_mem_inner {t : Tag} (h : t.isSound = true) {c : Char} (hc : c ∈ t.inner) :
    c ≠ '<' ∧ c ≠ '>' := by
  obtain ⟨hword, hnames, hending, -⟩ := Tag.isSound_iff.1 h
  have hplain {d : Char} (hd : isPlain d = true) : d ≠ '<' ∧ d ≠ '>' :=
    ne_marks_of_isInert (isPlain_iff.1 hd).1
  rw [Tag.inner, List.mem_append, List.mem_append, List.mem_flatMap] at hc
  rcases hc with hc | ⟨a, ha, hc⟩ | hc
  · exact hplain (hword c hc)
  · simp only [attributeText, List.cons_append, List.mem_cons, List.mem_append, List.append_assoc,
      List.not_mem_nil, or_false] at hc
    rcases hc with rfl | hc | rfl | rfl | hc | rfl
    · decide
    · exact hplain (hnames a ha c hc)
    · decide
    · decide
    · exact ne_marks_of_isInert (isInert_of_mem_escape hc)
    · decide
  · exact hplain (hending c hc)

/-! ## Written documents -/

/-- Characters that are no marks stand in front of what is cut next. -/
theorem cut_append {cs : List Char} (h : ∀ c ∈ cs, c ≠ '<' ∧ c ≠ '>') (inTag : Bool)
    (rest : List Char) :
    cut inTag (cs ++ rest) = (cut inTag rest).map (List.modifyHead (cs ++ ·)) := by
  induction cs with
  | nil =>
    have hid : List.modifyHead (fun ds : List Char => [] ++ ds) = id := by
      funext ds
      cases ds <;> rfl
    rw [hid, Option.map_id, id, List.nil_append]
  | cons c cs ih =>
    obtain ⟨⟨hlt, hgt⟩, hcs⟩ := List.forall_mem_cons.1 h
    have hmark : c ≠ endMark inTag := by
      cases inTag
      · exact hlt
      · exact hgt
    rw [List.cons_append, cut, if_neg hmark, if_neg (not_or.2 ⟨hlt, hgt⟩), ih hcs, Option.map_map]
    congr 1
    funext parts
    cases parts <;> rfl

/-- A text up to the mark that ends it is one part. -/
theorem cut_append_endMark {cs : List Char} (h : ∀ c ∈ cs, c ≠ '<' ∧ c ≠ '>') (inTag : Bool)
    (rest : List Char) :
    cut inTag (cs ++ endMark inTag :: rest) = (cut (!inTag) rest).map (cs :: ·) := by
  rw [cut_append h, cut, if_pos rfl, Option.map_map]
  congr 1
  funext parts
  simp

/-- **Written pieces are cut where they should be**, whatever their texts and the values of their
    attributes are. -/
theorem cut_markup {ps : List Piece} (h : ∀ p ∈ ps, p.tag.isSound = true) (last : String) :
    cut false (markup ps last) = some (parts ps last) := by
  have hescape (s : String) : ∀ c ∈ (escape s).toList, c ≠ '<' ∧ c ≠ '>' := fun c hc =>
    ne_marks_of_isInert (isInert_of_mem_escape hc)
  induction ps with
  | nil =>
    have hend := cut_append (hescape last) false []
    rw [List.append_nil] at hend
    rw [markup, List.flatMap_nil, List.nil_append, hend]
    simp [cut, parts]
  | cons p ps ih =>
    obtain ⟨hp, hps⟩ := List.forall_mem_cons.1 h
    have htext : markup (p :: ps) last = (escape p.text).toList ++ endMark false ::
        (p.tag.inner ++ endMark true :: markup ps last) := by
      simp [markup, Piece.chars, endMark]
    rw [htext, cut_append_endMark (hescape p.text), Bool.not_false,
      cut_append_endMark fun c hc => ne_marks_of_mem_inner hp hc, Bool.not_true, ih hps]
    rfl

/-- **What was cut is read back.** -/
theorem readPieces_parts {ps : List Piece} (h : ∀ p ∈ ps, p.tag.isSound = true) (last : String) :
    readPieces (parts ps last) = some (ps, last) := by
  induction ps with
  | nil => simp [parts, readPieces, expandReferences_escape]
  | cons p ps ih =>
    obtain ⟨hp, hps⟩ := List.forall_mem_cons.1 h
    have hcons : parts (p :: ps) last =
        (escape p.text).toList :: p.tag.inner :: parts ps last := rfl
    rw [hcons, readPieces, expandReferences_escape, readTag_inner hp, ih hps]
    simp

theorem readMarkup_markup {ps : List Piece} (h : ∀ p ∈ ps, p.tag.isSound = true) (last : String) :
    readMarkup (String.ofList (markup ps last)) = some (ps, last) := by
  rw [readMarkup, String.toList_ofList, cut_markup h, Option.bind_eq_bind, Option.bind_some,
    readPieces_parts h]

end RelayLadder.Markup
