/-
  A stand-in for the XML library: documents as sequences of tags, texts and asides.

  The reader cuts a document into events and checks each by itself: names, quotes, references and
  the marks that a text cannot hold.  Whether the events make up a document is not its concern.

  * `Event` is a piece of a document, `readEvent` reads one;
  * `events` cuts a whole text.
-/
import RelayLadder.StandIn.Notice
import RelayLadder.Xml.Reference

namespace RelayLadder.StandIn

open Xml

/-! ## Names -/

/-- A name with the label of its namespace, if it has one, and whether its colons are in order. -/
structure QName where
  space : Option String
  base : String
  sound : Bool
deriving DecidableEq

/-- A character that a word can start with: names and colons make up words. -/
def startsWord (c : Char) : Bool := isNameStart c || c == ':'

/-- A name and any colons in it. -/
def readWord : Reader (List Char)
  | [] => none
  | c :: cs =>
    if startsWord c then
      let inWord := fun c => isNameChar c || c == ':'
      some (c :: cs.takeWhile inWord, cs.dropWhile inWord)
    else none

/-- The name that a word stands for.  One colon between two names divides label and base; a word
    with colons in other places has no label. -/
def QName.ofWord (word : List Char) : QName :=
  let first := word.takeWhile (· ≠ ':')
  match word.dropWhile (· ≠ ':') with
  | [] => ⟨none, String.ofList word, true⟩
  | _ :: rest =>
    if first.isEmpty || !rest.head?.any isNameStart || rest.contains ':' then
      ⟨none, String.ofList word, false⟩
    else ⟨some (String.ofList first), String.ofList rest, true⟩

/-- A name that may have a label in front. -/
def readName : Reader QName := fun cs => (readWord cs).map fun (word, cs) => (.ofWord word, cs)

/-- The value of an attribute from what stands between its quotes: blanks become spaces, and
    references are replaced. -/
def attributeValue (cs : List Char) : Option (List Char) :=
  if cs.contains '<' then none else expandFrom (fun c => if isSpace c then ' ' else c) none cs

/-! ## Events -/

/-- A piece of a document. -/
inductive Event where
  /-- A start tag; `closed` if it is an end tag too. -/
  | opening (name : QName) (attributes : List (QName × String)) (closed : Bool)
  /-- An end tag. -/
  | closing (name : QName)
  /-- Text up to the next tag, with its references. -/
  | text (raw : List Char)
  /-- Text without references. -/
  | cdata (cs : List Char)
  | comment
  /-- A processing instruction. -/
  | processing (target : List Char)

/-- The sign `=` with blanks around it. -/
def readEquals : Reader Unit := fun cs =>
  match cs.dropWhile isSpace with
  | '=' :: cs => some ((), cs.dropWhile isSpace)
  | _ => none

/-- The attributes of a start tag up to its end, and whether it is an end tag too.  Attributes have
    blanks in front; each uses up one of `fuel`. -/
def readAttributes : Nat → Reader (List (QName × String) × Bool)
  | 0, _ => none
  | fuel + 1, cs =>
    let rest := cs.dropWhile isSpace
    match rest with
    | '>' :: cs => some (([], false), cs)
    | '/' :: '>' :: cs => some (([], true), cs)
    | _ =>
      if rest.length = cs.length then none
      else do
        let (name, cs) ← readName rest
        let (_, cs) ← readEquals cs
        let (raw, cs) ← readQuoted cs
        let value ← attributeValue raw
        let ((attributes, closed), cs) ← readAttributes fuel cs
        some (((name, String.ofList value) :: attributes, closed), cs)

/-- A start tag from behind its `<`. -/
def readOpening : Reader Event := fun cs => do
  let (name, cs) ← readName cs
  let ((attributes, closed), cs) ← readAttributes (cs.length + 1) cs
  some (.opening name attributes closed, cs)

/-- An end tag from behind its `</`. -/
def readClosing : Reader Event := fun cs => do
  let (name, cs) ← readName cs
  match cs.dropWhile isSpace with
  | '>' :: cs => some (.closing name, cs)
  | _ => none

/-- A comment from behind its `<!--`: two hyphens end it. -/
def readComment : Reader Event := fun cs => do
  match ← splitAtMark ['-', '-'] cs with
  | (_, '>' :: cs) => some (.comment, cs)
  | _ => none

/-- A processing instruction from behind its `<?`.  Its target is not `xml`. -/
def readProcessing : Reader Event := fun cs => do
  let (target, cs) ← readWord cs
  if target.map Char.toLower = ['x', 'm', 'l'] then none
  else match cs with
    | '?' :: '>' :: cs => some (.processing target, cs)
    | c :: cs =>
      if isSpace c then (splitAtMark ['?', '>'] cs).map fun r => (.processing target, r.2) else none
    | [] => none

/-- A piece of text up to the next tag; it cannot hold the mark that ends text without
    references. -/
def readText : Reader Event := fun cs =>
  let raw := cs.takeWhile (· ≠ '<')
  if (splitAtMark [']', ']', '>'] raw).isSome then none
  else some (.text raw, cs.dropWhile (· ≠ '<'))

/-- The next event. -/
def readEvent : Reader Event
  | '<' :: '/' :: cs => readClosing cs
  | '<' :: '!' :: '-' :: '-' :: cs => readComment cs
  | '<' :: '!' :: '[' :: 'C' :: 'D' :: 'A' :: 'T' :: 'A' :: '[' :: cs =>
    (splitAtMark [']', ']', '>'] cs).map fun (text, cs) => (.cdata text, cs)
  | '<' :: '?' :: cs => readProcessing cs
  | '<' :: cs => readOpening cs
  | cs => readText cs

/-- The events of a text, each of which uses up one of `fuel`. -/
def eventsWithin : Nat → List Char → Option (List Event)
  | _, [] => some []
  | 0, _ => none
  | fuel + 1, cs => do
    let (event, rest) ← readEvent cs
    return event :: (← eventsWithin fuel rest)

/-- The events of a text; there are at most as many as characters. -/
def events (cs : List Char) : Option (List Event) := eventsWithin cs.length cs

/-! ## The declaration -/

/-- A word, blanks, `=`, blanks and a quoted value. -/
def readSetting (word : String) : Reader (List Char) := fun cs => do
  if word.toList.isPrefixOf cs then
    let (_, cs) ← readEquals (cs.drop word.length)
    readQuoted cs
  else none

/-- The version is 1 with any digits behind the point. -/
def isVersion : List Char → Bool
  | '1' :: '.' :: ds => ds.all Char.isDigit
  | _ => false

/-- The name of the encoding that documents are read in. -/
def isEncodingName (name : List Char) : Bool :=
  let name := name.map Char.toLower
  name == "utf-8".toList || name == "utf8".toList

/-- A setting in a declaration that may be missing: it has blanks in front and a value of the given
    kind. -/
def skipSetting (word : String) (ok : List Char → Bool) (cs : List Char) : Option (List Char) :=
  let rest := cs.dropWhile isSpace
  if word.toList.isPrefixOf rest then
    if rest.length = cs.length then none
    else do
      let (value, rest) ← readSetting word rest
      if ok value then some rest else none
  else some cs

/-- What is told of a version: all but one are unusual. -/
def versionNotices (version : List Char) : List Notice :=
  if version = ['1', '.', '0'] then [] else [.warning]

/-- A document without its declaration, if it starts with one, and what is told of that. -/
def skipDeclaration : Reader (List Notice)
  | '<' :: '?' :: 'x' :: 'm' :: 'l' :: c :: cs =>
    if isSpace c then do
      let (version, cs) ← readSetting "version" (cs.dropWhile isSpace)
      if !isVersion version then none
      let cs ← skipSetting "encoding" isEncodingName cs
      let cs ← skipSetting "standalone" (fun v => v == "yes".toList || v == "no".toList) cs
      match cs.dropWhile isSpace with
      | '?' :: '>' :: cs => some (versionNotices version, cs)
      | _ => none
    else some ([], '<' :: '?' :: 'x' :: 'm' :: 'l' :: c :: cs)
  | cs => some ([], cs)

end RelayLadder.StandIn
