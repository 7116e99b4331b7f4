/-
  A stand-in for the XML library: references to resources, as namespaces are named by them.

  A reference is absolute, with a scheme in front, or relative to another.  Behind the scheme stand
  an authority (user, host and service) after two slashes, a path, a query after `?` and a fragment
  after `#`, each of which may be missing.

  Each part is a function that takes it from the start of a text and gives the rest; a text is a
  reference if nothing is left over.
-/
namespace RelayLadder.StandIn.Uri

/-! ## Characters -/

def isHexDigit (c : Char) : Bool :=
  c.isDigit || ('a' ≤ c && c ≤ 'f') || ('A' ≤ c && c ≤ 'F')

/-- Characters that never divide parts. -/
def isUnreserved (c : Char) : Bool := c.isAlphanum || "-._~".toList.contains c

/-- Characters that may divide a part further. -/
def isSubDelimiter (c : Char) : Bool := "!$&'()*+,;=".toList.contains c

/-- Takes characters that divide no parts, characters given by their codes, and those that are
    allowed in addition. -/
def skip (allowed : Char → Bool) : List Char → List Char
  | [] => []
  | '%' :: a :: b :: cs =>
    if isHexDigit a && isHexDigit b then skip allowed cs else '%' :: a :: b :: cs
  | c :: cs =>
    if isUnreserved c || isSubDelimiter c || allowed c then skip allowed cs else c :: cs

/-- Characters that are allowed in the segments of a path. -/
def inSegment (c : Char) : Bool := c == ':' || c == '@'

/-! ## Authority -/

/-- Takes the user with its `@`, if there is one. -/
def skipUser (cs : List Char) : List Char :=
  match skip (· == ':') cs with
  | '@' :: rest => rest
  | _ => cs

/-- The value of decimal digits. -/
def numberOf (ds : List Char) : Nat := ds.foldl (fun n d => 10 * n + (d.toNat - '0'.toNat)) 0

/-- The parts of a numeric address are below this, as the library counts them. -/
def octetBound : Nat := 260

/-- Takes a part of a numeric address: at most three digits without leading zeros. -/
def skipOctet (cs : List Char) : Option (List Char) :=
  let ds := (cs.take 3).takeWhile Char.isDigit
  if ds.isEmpty || octetBound ≤ numberOf ds || (ds.length ≠ 1 && ds.head? = some '0') then none
  else some (cs.drop ds.length)

/-- Takes `n` parts of a numeric address with dots between them, and one more. -/
def skipOctets : Nat → List Char → Option (List Char)
  | 0, cs => skipOctet cs
  | n + 1, cs =>
    match skipOctet cs with
    | some ('.' :: rest) => skipOctets n rest
    | _ => none

/-- Takes the host: anything in brackets, a numeric address, or a name, which may be empty. -/
def skipHost : List Char → Option (List Char)
  | '[' :: cs =>
    match cs.dropWhile (· ≠ ']') with
    | _ :: rest => some rest
    | [] => none
  | cs => some ((skipOctets 3 cs).getD (skip (fun _ => false) cs))

/-- The largest number of a service, as in the library. -/
def maxService : Nat := 2147483647

/-- Takes the number of the service with its colon, if there is one. -/
def skipService : List Char → Option (List Char)
  | ':' :: cs =>
    let ds := cs.takeWhile Char.isDigit
    if ds.isEmpty || maxService < numberOf ds then none else some (cs.dropWhile Char.isDigit)
  | cs => some cs

/-- Takes an authority. -/
def skipAuthority (cs : List Char) : Option (List Char) := skipHost (skipUser cs) >>= skipService

/-! ## Path, query and fragment -/

/-- Takes segments with slashes between them. -/
def skipSegments (cs : List Char) : List Char := skip (fun c => inSegment c || c == '/') cs

/-- Takes a path that is empty or starts with a slash. -/
def skipSlashedPath : List Char → List Char
  | '/' :: cs => skipSegments cs
  | cs => cs

/-- Takes a query, if there is one. -/
def skipQuery : List Char → List Char
  | '?' :: cs => skip (fun c => inSegment c || c == '/' || c == '?') cs
  | cs => cs

/-- Takes a fragment, if there is one. -/
def skipFragment : List Char → List Char
  | '#' :: cs => skip (fun c => inSegment c || "/?[]".toList.contains c) cs
  | cs => cs

/-- Nothing but a query and a fragment is left. -/
def endsReference (cs : List Char) : Bool := (skipFragment (skipQuery cs)).isEmpty

/-- Nothing but an authority and what may stand behind it is left. -/
def endsBehindAuthority (cs : List Char) : Bool :=
  (skipAuthority cs).any fun rest => endsReference (skipSlashedPath rest)

/-! ## References -/

/-- Takes a scheme with its colon. -/
def skipScheme : List Char → Option (List Char)
  | c :: cs =>
    if c.isAlpha then
      match cs.dropWhile fun c => c.isAlphanum || "+-.".toList.contains c with
      | ':' :: rest => some rest
      | _ => none
    else none
  | [] => none

/-- Takes a path whose first segment has no colon. -/
def skipRelativePath (cs : List Char) : List Char := skipSlashedPath (skip (· == '@') cs)

/-- The text is a reference with a scheme. -/
def isAbsolute (cs : List Char) : Bool :=
  match skipScheme cs with
  | some ('/' :: '/' :: cs) => endsBehindAuthority cs
  | some cs => endsReference (skipSegments cs)
  | none => false

/-- The text is a reference without a scheme. -/
def isRelative : List Char → Bool
  | '/' :: '/' :: cs => endsBehindAuthority cs
  | cs => endsReference (skipRelativePath cs)

end RelayLadder.StandIn.Uri
