/-
  Plain markup, and what a library is relied on to do with it.

  Plain markup is blanks, start and end tags, and texts in sections: it has no labels, no references
  but in attributes, and nothing besides elements.

  * `Source` is plain markup with its parts told apart, `Source.chars` the markup as it is spelled,
    and `Source.nodes` the elements in it;
  * `Source.Sound` says that it is spelled by the rules, and `SpelledAs` that it is what elements are
    spelled as;
  * `Library.Faithful`: sound elements are written so, and sound markup is read as the element in it;
    `Library.Discerns`: all that is well-formed is read, and nothing else.
-/
import RelayLadder.Xml.Character
import RelayLadder.Xml.Library

namespace RelayLadder.Xml

/-! ## Characters and names -/

/-- The text can stand in a document, and its line ends are line feeds already. -/
def Portable (cs : List Char) : Prop := ∀ c ∈ cs, isDocumentChar c = true ∧ c ≠ '\r'

instance (cs : List Char) : Decidable (Portable cs) :=
  decidable_of_iff (cs.all fun c => isDocumentChar c && c != '\r') (by simp [Portable])

/-- The text is blanks: spaces and line feeds. -/
def Blank (cs : List Char) : Prop := ∀ c ∈ cs, c = ' ' ∨ c = '\n'

/-- A name without colons. -/
def isPlainName (name : String) : Bool :=
  match name.toList with
  | c :: cs => isNameStart c && cs.all isNameChar
  | [] => false

/-- A start tag without labels: the names of its attributes are different, and none declares a
    namespace. -/
def isPlainTag (name : String) (keys : List String) : Bool :=
  isPlainName name && keys.all (fun key => isPlainName key && key != "xmlns") && decide keys.Nodup

/-- A character in an attribute. -/
def attributeChar (c : Char) : List Char :=
  match c with
  | '&' => "&amp;".toList
  | '<' => "&lt;".toList
  | '>' => "&gt;".toList
  | '"' => "&quot;".toList
  | '\t' => "&#9;".toList
  | '\n' => "&#10;".toList
  | '\r' => "&#13;".toList
  | c => [c]

/-- An attribute as it is written, with the blank in front. -/
def attributeText (a : String × String) : List Char :=
  ' ' :: a.1.toList ++ '=' :: '"' :: a.2.toList.flatMap attributeChar ++ ['"']

/-! ## Sections -/

/-- The mark that starts a section. -/
def sectionStart : List Char := ['<', '!', '[', 'C', 'D', 'A', 'T', 'A', '[']

/-- The mark that ends a section. -/
def sectionEnd : List Char := [']', ']', '>']

/-- A text cut into sections: each `]]>` in it is divided over two. -/
def sections : List Char → List (List Char)
  | ']' :: ']' :: '>' :: cs => [']', ']'] :: (sections cs).modifyHead ('>' :: ·)
  | c :: cs => (sections cs).modifyHead (c :: ·)
  | [] => [[]]

/-! ## Markup -/

/-- Plain markup: elements one after the other, each with the blanks in front of it. -/
inductive Source where
  /-- No more elements, and the blanks behind the last one. -/
  | done (blanks : List Char)
  /-- An element with a text in sections. -/
  | leaf (blanks : List Char) (tag : String) (texts : List (List Char)) (rest : Source)
  /-- An element with attributes and other elements in it. -/
  | group (blanks : List Char) (tag : String) (attributes : List (String × String))
    (inner rest : Source)

/-- The end of a start tag, which may be an end tag too. -/
def tagEnd (closed : Bool) : List Char := if closed then ['/', '>'] else ['>']

/-- A start tag as it is written; `closed` if it is an end tag too. -/
def openingText (name : String) (attributes : List (String × String)) (closed : Bool) :
    List Char :=
  '<' :: name.toList ++ attributes.flatMap attributeText ++ tagEnd closed

/-- An end tag as it is written. -/
def closingText (name : String) : List Char := '<' :: '/' :: name.toList ++ ['>']

namespace Source

/-- The blanks in front of the first element, or of the end. -/
def lead : Source → List Char
  | done blanks | leaf blanks .. | group blanks .. => blanks

/-- Nothing at all, not even blanks. -/
def isEmpty : Source → Bool
  | done [] => true
  | _ => false

/-- The markup as it is spelled.  An element with nothing in it has one tag. -/
def chars : Source → List Char
  | done blanks => blanks
  | leaf blanks tag texts rest =>
    blanks ++ openingText tag [] false ++
      texts.flatMap (fun cs => sectionStart ++ cs ++ sectionEnd) ++ closingText tag ++ rest.chars
  | group blanks tag attributes inner rest =>
    blanks ++ openingText tag attributes inner.isEmpty ++
      (if inner.isEmpty then [] else inner.chars ++ closingText tag) ++ rest.chars

/-- Blanks as the text of an element; without any, it has none. -/
def blankText (cs : List Char) : Option String := if cs = [] then none else some (String.ofList cs)

/-- The elements.  The text of an element is what stands in front of its first child, sections put
    together. -/
def nodes : Source → List Node
  | done _ => []
  | leaf _ tag texts rest => .node tag [] (some (String.ofList texts.flatten)) [] :: rest.nodes
  | group _ tag attributes inner rest =>
    .node tag attributes (blankText inner.lead) inner.nodes :: rest.nodes

/-- The markup is spelled by the rules, and its elements nest at most this deep: names are plain, no
    attribute is given twice, characters are those that documents keep, and no section holds the
    mark that ends it. -/
inductive Sound : Nat → Source → Prop where
  | done {depth : Nat} {blanks : List Char} (hblanks : Blank blanks) : Sound depth (.done blanks)
  | leaf {depth : Nat} {blanks : List Char} {tag : String} {texts : List (List Char)}
    {rest : Source} (hblanks : Blank blanks) (htag : isPlainName tag = true) (hne : texts ≠ [])
    (htexts : ∀ cs ∈ texts, Portable cs ∧ ¬ sectionEnd <:+: cs) (hrest : Sound (depth + 1) rest) :
    Sound (depth + 1) (.leaf blanks tag texts rest)
  | group {depth : Nat} {blanks : List Char} {tag : String} {attributes : List (String × String)}
    {inner rest : Source} (hblanks : Blank blanks)
    (htag : isPlainTag tag (attributes.map Prod.fst) = true)
    (hvalues : ∀ a ∈ attributes, Portable a.2.toList) (hinner : Sound depth inner)
    (hrest : Sound (depth + 1) rest) : Sound (depth + 1) (.group blanks tag attributes inner rest)

end Source

/-! ## Writing -/

/-- The elements have plain names and characters that documents keep, and nest at most this deep. -/
inductive Draft.Sound : Nat → List Draft → Prop where
  | nil {depth : Nat} : Sound depth []
  | leaf {depth : Nat} {tag text : String} {ds : List Draft} (htag : isPlainName tag = true)
    (htext : Portable text.toList) (hrest : Sound (depth + 1) ds) :
    Sound (depth + 1) (.leaf tag text :: ds)
  | group {depth : Nat} {tag : String} {attributes : List (String × String)}
    {children ds : List Draft} (htag : isPlainTag tag (attributes.map Prod.fst) = true)
    (hvalues : ∀ a ∈ attributes, Portable a.2.toList) (hchildren : Sound depth children)
    (hrest : Sound (depth + 1) ds) : Sound (depth + 1) (.group tag attributes children :: ds)

/-- The markup is what these elements are spelled as: in their order, texts cut into sections, and
    blanks, which are not part of any text, where there are other elements. -/
inductive SpelledAs : List Draft → Source → Prop where
  | nil {blanks : List Char} (hblanks : Blank blanks) : SpelledAs [] (.done blanks)
  | leaf {blanks : List Char} {tag text : String} {ds : List Draft} {rest : Source}
    (hblanks : Blank blanks) (hrest : SpelledAs ds rest) :
    SpelledAs (.leaf tag text :: ds) (.leaf blanks tag (sections text.toList) rest)
  | group {blanks : List Char} {tag : String} {attributes : List (String × String)}
    {children ds : List Draft} {inner rest : Source} (hblanks : Blank blanks)
    (hinner : SpelledAs children inner) (hrest : SpelledAs ds rest) :
    SpelledAs (.group tag attributes children :: ds) (.group blanks tag attributes inner rest)

/-! ## Libraries -/

namespace Library

/-- Elements nest at most this deep: a library refuses deeper ones unless it is told not to. -/
def maxDepth : Nat := 256

/-- What is relied on when a document is written and read again.  Texts are written in sections, cut
    where a section would end too early; markup is read by the rules, adjacent sections as one
    text. -/
structure Faithful (xml : Library) : Prop where
  writes : ∀ d, Draft.Sound maxDepth [d] →
    ∃ m, SpelledAs [d] m ∧ xml.write d = some (String.ofList m.chars)
  reads : ∀ (m : Source) (n : Node), m.Sound maxDepth → m.nodes = [n] →
    xml.read (String.ofList m.chars).toUTF8 = some n

/-- What is relied on when a document may be refused: just the well-formed ones are read. -/
def Discerns (xml : Library) (WellFormed : ByteArray → Prop) : Prop :=
  ∀ bytes, (∃ root, xml.read bytes = some root) ↔ WellFormed bytes

end Library

end RelayLadder.Xml
