/-
  A stand-in for the XML library: reading a document.

  It reads what the library reads of documents in UTF-8 without a document type, and refuses the
  others, which the library may read.  No theorem about programs is about it: they take any library,
  with what is relied on as hypotheses, and it shows that there is one for which these hold.

  The events of a document drive a machine that holds the open elements, innermost first.  It
  resolves namespaces, and stops at what is not well-formed: tags that do not match, repeated
  attributes, text outside the root, a second root, elements nested too deep.  Broken rules for
  namespaces and identities are told as faults, and names whose label stands for nothing are kept as
  they are written.

  `Document.read` gives the root of a document, if it is well-formed and its report accepts it.
-/
import RelayLadder.StandIn.Event
import RelayLadder.StandIn.Uri
import RelayLadder.Xml.Node
import RelayLadder.Xml.Source

namespace RelayLadder.StandIn

open Xml

/-! ## Declarations of namespaces -/

/-- The namespace of the label `xml`, which every document knows. -/
def xmlSpace : String := "http://www.w3.org/XML/1998/namespace"

/-- The namespace of declarations, which no label may stand for. -/
def declarationSpace : String := "http://www.w3.org/2000/xmlns/"

/-- A label that is declared to stand for a namespace; the label `none` is for names without one. -/
structure Declaration where
  label : Option String
  uri : String

/-- What labels stand for, innermost first. -/
abbrev Bindings := List (Option String × String)

/-- The declaration that an attribute is, if it is one. -/
def Declaration.ofAttribute? (name : QName) (value : String) : Option Declaration :=
  match name.space, name.base with
  | none, "xmlns" => some ⟨none, value⟩
  | some "xmlns", label => some ⟨some label, value⟩
  | _, _ => none

namespace Declaration

/-- The namespace is one of those that belong to documents themselves. -/
def isReserved (d : Declaration) : Bool := d.uri == xmlSpace || d.uri == declarationSpace

/-- The declaration binds its label. -/
def binds (d : Declaration) : Bool :=
  !d.isReserved &&
    match d.label with
    | none => true
    | some label => label != "xml" && label != "xmlns" && d.uri != ""

/-- What is told of the namespace of names without a label: it should be named by a reference with a
    scheme. -/
def defaultNotices (uri : String) : List Notice :=
  if uri = "" || Uri.isAbsolute uri.toList then []
  else if Uri.isRelative uri.toList then [.warning]
  else [.fault]

/-- What is told of a declaration. -/
def notices (d : Declaration) : List Notice :=
  match d.label with
  | none => defaultNotices d.uri ++ if d.binds then [] else [.fault]
  | some "xml" => if d.uri = xmlSpace then [] else [.fault]
  | some _ =>
    if d.binds && (Uri.isAbsolute d.uri.toList || Uri.isRelative d.uri.toList) then [] else [.fault]

end Declaration

/-! ## Names in their namespaces -/

/-- The name as it is written. -/
def QName.text (name : QName) : String :=
  match name.space with
  | some label => label ++ ":" ++ name.base
  | none => name.base

/-- The label of the name stands for something, or there is none. -/
def Bindings.knows (bs : Bindings) (name : QName) : Bool :=
  name.space.isNone || (bs.lookup name.space).isSome

/-- A name with its namespace. -/
def expandedName (uri base : String) : String :=
  if uri = "" then base else "\x7b" ++ uri ++ "\x7d" ++ base

/-- The expanded name of an element. -/
def Bindings.element (bs : Bindings) (name : QName) : String :=
  match bs.lookup name.space with
  | some uri => expandedName uri name.base
  | none => name.text

/-- The expanded name of an attribute; without a label it has no namespace. -/
def Bindings.attribute (bs : Bindings) (name : QName) : String :=
  if name.space.isSome then bs.element name else name.base

/-! ## Start tags -/

/-- Nothing occurs twice. -/
def allDistinct {α : Type} [DecidableEq α] : List α → Bool
  | [] => true
  | a :: as => !as.contains a && allDistinct as

/-- What is told of the names of attributes behind those that were seen.  A name cannot be given
    again as it was given first, and should not be given again in another way. -/
def repetitionNotices (bs : Bindings) (seen : List QName) : List QName → Option (List Notice)
  | [] => some []
  | name :: names =>
    match seen.find? (bs.attribute · == bs.attribute name) with
    | none => repetitionNotices bs (seen ++ [name]) names
    | some first =>
      if first = name then none
      else (repetitionNotices bs seen names).map (.fault :: ·)

/-- An attribute as it is written. -/
abbrev Attribute := QName × String

/-- What is told of the handling of blanks that an attribute asks for. -/
def blankNotices (a : Attribute) : List Notice :=
  if a.1.text = "xml:space" ∧ a.2 ≠ "default" ∧ a.2 ≠ "preserve" then [.warning] else []

/-- What is told of an attribute by itself. -/
def attributeNotices (a : Attribute) : List Notice :=
  (if a.1.sound then [] else [.fault]) ++ blankNotices a ++
    ((Declaration.ofAttribute? a.1 a.2).elim [] Declaration.notices)

/-- A name without colons, with blanks around it. -/
def isIdentity (value : String) : Bool :=
  match ((value.toList.dropWhile isSpace).reverse.dropWhile isSpace).reverse with
  | c :: cs => isNameStart c && cs.all isNameChar
  | [] => false

/-- What is told of the identity of an element, given those that are taken: it should be a name, and
    be taken once. -/
def identityNotices (taken : List String) (identity : String) : List Notice :=
  (if isIdentity identity then [] else [.fault]) ++
    if taken.contains identity then [.fault] else []

/-- An open element. -/
structure OpenElement where
  name : QName
  tag : String
  attributes : List (String × String)
  bindings : Bindings
  text : Option (List Char) := none
  /-- A child, comment or processing instruction has been seen. -/
  sealed : Bool := false
  children : List Node := []

namespace OpenElement

/-- Adds text, which counts only in front of the first child. -/
def addText (e : OpenElement) (cs : List Char) : OpenElement :=
  if e.sealed then e else { e with text := some (e.text.getD [] ++ cs) }

/-- The element, now that it is closed. -/
def toNode (e : OpenElement) : Node :=
  .node e.tag e.attributes (e.text.map String.ofList) e.children

end OpenElement

/-- Opens an element inside the bindings around it, and tells what is told of its tag.  Labels are
    declared once. -/
def openElement (around : Bindings) (name : QName) (attributes : List Attribute) :
    Option (OpenElement × List Notice) := do
  let declared := (attributes.filterMap fun a => Declaration.ofAttribute? a.1 a.2).filter (·.binds)
  if !allDistinct (declared.map Declaration.label) then none
  let bindings : Bindings := declared.map (fun d => (d.label, d.uri)) ++ around
  let own := attributes.filter fun a => (Declaration.ofAttribute? a.1 a.2).isNone
  let repeated ← repetitionNotices bindings [] ((own.map Prod.fst).filter bindings.knows)
  let unknown := (name :: own.map Prod.fst).filter (!bindings.knows ·)
  return (
    { name, tag := bindings.element name, bindings
      attributes := own.map fun a => (bindings.attribute a.1, a.2) },
    (if name.sound then [] else [.fault]) ++ attributes.flatMap attributeNotices ++ repeated ++
      unknown.map fun _ => .fault)

/-! ## The machine -/

/-- Elements nest at most this deep, as in the library. -/
def maxElementDepth : Nat := Library.maxDepth

/-- The open elements, innermost first, the root once it is closed, the identities that are taken,
    and what was told. -/
structure Progress where
  stack : List OpenElement := []
  root : Option Node := none
  identities : List String := []
  report : Report := {}

namespace Progress

/-- Tells remarks. -/
def tell (p : Progress) (ns : List Notice) : Progress := { p with report := p.report.tellAll ns }

/-- Opens an element. -/
def enter (p : Progress) (name : QName) (attributes : List Attribute) : Option Progress := do
  if p.root.isSome || maxElementDepth ≤ p.stack.length then none
  let around := (p.stack.head?.map OpenElement.bindings).getD [(some "xml", xmlSpace)]
  let (e, notices) ← openElement around name attributes
  let p := { p with stack := e :: p.stack }.tell notices
  match attributes.find? fun a => a.1.text == "xml:id" with
  | none => some p
  | some (_, identity) =>
    let p := p.tell (identityNotices p.identities identity)
    some { p with identities := identity :: p.identities }

/-- Closes the innermost element. -/
def leave (p : Progress) : Option Progress :=
  match p.stack with
  | [] => none
  | [e] => some { p with stack := [], root := some e.toNode }
  | e :: parent :: stack =>
    some { p with stack :=
      { parent with sealed := true, children := parent.children ++ [e.toNode] } :: stack }

/-- Adds text to the innermost element. -/
def addText (p : Progress) (cs : List Char) : Option Progress :=
  match p.stack with
  | [] => none
  | e :: stack => some { p with stack := e.addText cs :: stack }

/-- Passes over something that is no element and no text. -/
def addAside (p : Progress) : Progress :=
  match p.stack with
  | [] => p
  | e :: stack => { p with stack := { e with sealed := true } :: stack }

/-- The targets that start with the letters `xml` and are in use. -/
def usualTargets : List (List Char) := ["xml-stylesheet".toList, "xml-model".toList]

/-- What is told of the target of a processing instruction: the letters `xml` in front are unusual,
    and it should have no colon. -/
def targetNotices (target : List Char) : List Notice :=
  (if (target.take 3).map Char.toLower = ['x', 'm', 'l'] ∧ target ∉ usualTargets then [.warning]
    else []) ++
  if target.contains ':' then [.fault] else []

/-- Takes the next event. -/
def step (p : Progress) : Event → Option Progress
  | .opening name attributes closed => do
    let p ← p.enter name attributes
    if closed then p.leave else some p
  | .closing name =>
    if p.stack.head?.map OpenElement.name = some name then p.leave else none
  | .text raw =>
    if p.stack.isEmpty then (if raw.all isSpace then some p else none)
    else expandReferences raw >>= p.addText
  | .cdata cs => p.addText cs
  | .comment => some p.addAside
  | .processing target => some (p.tell (targetNotices target)).addAside

end Progress

/-- The root of a document, if the document is well-formed and can be taken.  A byte order mark in
    front does not count. -/
def Document.read (text : String) : Option Node := do
  let cs := match text.toList with
    | '\uFEFF' :: cs => cs
    | cs => cs
  if !cs.all isDocumentChar then none
  let (notices, cs) ← skipDeclaration (normalizeLines cs)
  let p ← (← events cs).foldlM Progress.step (Progress.tell {} notices)
  if p.stack.isEmpty && p.report.accepts then p.root else none

end RelayLadder.StandIn
