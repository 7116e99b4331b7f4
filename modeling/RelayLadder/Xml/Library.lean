/-
  The XML library, as far as it is used.

  Documents are read and written by a library, of which programs know this much: bytes are read as
  the tree of an element, or refused, and a tree is written as markup, unless a text in it cannot be
  written.  Everything that reads or writes documents takes a `Library`.

  * `Draft` is an element that is to be written: it holds one text, or other elements.
-/
import RelayLadder.Xml.Node

namespace RelayLadder.Xml

/-- An element that is to be written. -/
inductive Draft where
  /-- An element with a text, which is written in sections, without references. -/
  | leaf (tag text : String)
  /-- An element with attributes and other elements in it. -/
  | group (tag : String) (attributes : List (String × String)) (children : List Draft)

/-- What reads and writes documents. -/
structure Library where
  /-- The root of the document that the bytes are; `none` if they are no document. -/
  read : ByteArray → Option Node
  /-- The markup of an element, on lines of its own; `none` if a text in it cannot be written. -/
  write : Draft → Option String

end RelayLadder.Xml
