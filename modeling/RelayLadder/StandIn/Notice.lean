/-
  A stand-in for the XML library: what is told of a document besides its content.

  Reading stops where a document is not well-formed.  What is only against the rules for
  namespaces and identities, or unusual, is told and read over.

  * `Notice` is such a remark, a `Report` holds what of them still counts;
  * a document is refused for a fault only if nothing was told after it.
-/
namespace RelayLadder.StandIn

/-- A remark on a document. -/
inductive Notice where
  /-- A rule for namespaces or identities is broken. -/
  | fault
  /-- Something is unusual. -/
  | warning
deriving DecidableEq, Repr

/-- No more remarks of one kind are told than this, as in the library. -/
def maxNotices : Nat := 100

/-- How many remarks of each kind were told, and the last one. -/
structure Report where
  faults : Nat := 0
  warnings : Nat := 0
  last : Option Notice := none

namespace Report

/-- Tells a remark, unless there were enough of its kind. -/
def tell (r : Report) : Notice → Report
  | .fault =>
    if r.faults < maxNotices then { r with faults := r.faults + 1, last := some .fault } else r
  | .warning =>
    if r.warnings < maxNotices then { r with warnings := r.warnings + 1, last := some .warning }
    else r

/-- Tells remarks in order. -/
def tellAll (r : Report) (ns : List Notice) : Report := ns.foldl tell r

/-- The document can be taken: the last remark, if there is one, is not a fault. -/
def accepts (r : Report) : Bool := r.last != some .fault

end Report

end RelayLadder.StandIn
