/-
  Document trees.

  A node keeps what readers of exchange files ask for: its expanded name, its attributes, the text
  in front of its first child (elements, comments and processing instructions all end that text)
  and its child elements.
-/
namespace RelayLadder.Xml

/-- An element of a document.  Expanded names have the namespace in braces in front, if there is
    one. -/
inductive Node where
  | node (tag : String) (attributes : List (String × String)) (text : Option String)
      (children : List Node)

namespace Node

def tag : Node → String
  | node tag _ _ _ => tag

def attributes : Node → List (String × String)
  | node _ attributes _ _ => attributes

/-- The text in front of the first child; `none` if there is no text node at all. -/
def text : Node → Option String
  | node _ _ text _ => text

def children : Node → List Node
  | node _ _ _ children => children

/-- The value of an attribute. -/
def attribute? (n : Node) (name : String) : Option String := n.attributes.lookup name

/-- The child elements with this name. -/
def childrenNamed (n : Node) (tag : String) : List Node := n.children.filter (·.tag == tag)

/-- The first child element with this name. -/
def child? (n : Node) (tag : String) : Option Node := n.children.find? (·.tag == tag)

/-- The elements that a way of names leads to, in document order. -/
def descend (n : Node) : List String → List Node
  | [] => [n]
  | tag :: way => n.children.flatMap fun child =>
      if child.tag == tag then child.descend way else []

end Node

end RelayLadder.Xml
