/-
  Files and directories, seen from a working directory.

  * `Path` is a path as it is written in messages: without empty parts and single dots;
  * `FilePlace` is what a path leads to, without ways back;
  * `FileTree` holds the directories and the files that are known; reading, writing and making
    directories in it fail for the usual reasons (`FileError`).
-/
import RelayLadder.Text.Quoted

namespace RelayLadder

/-! ## Paths -/

/-- A path: what it starts from (nothing, one slash or two) and its parts. -/
structure Path where
  root : String
  parts : List String
deriving DecidableEq, Repr

namespace Path

/-- Reads a path; empty parts and single dots do not count. -/
def ofText (s : String) : Path where
  root :=
    match s.toList with
    | '/' :: '/' :: '/' :: _ => "/"
    | '/' :: '/' :: _ => "//"
    | '/' :: _ => "/"
    | _ => ""
  parts := ((s.toList.splitOn '/').map String.ofList).filter fun p => p ≠ "" ∧ p ≠ "."

/-- The path as a text; the working directory is a dot. -/
def text (p : Path) : String :=
  let s := p.root ++ String.intercalate "/" p.parts
  if s = "" then "." else s

/-- The path of a file in the directory. -/
def child (p : Path) (name : String) : Path := { p with parts := p.parts ++ [name] }

/-- The path without its last part. -/
def parent (p : Path) : Path := { p with parts := p.parts.dropLast }

end Path

/-! ## Places -/

/-- A place among the files: the names on the way to it from the working directory, or from the root
    if the first one is a slash.  Above the working directory the names are two dots. -/
abbrev FilePlace := List String

namespace FilePlace

/-- The root of all places. -/
def root : FilePlace := ["/"]

/-- Whether the place is the working directory or above it. -/
def isAbove (place : FilePlace) : Bool := place.all (· = "..")

/-- Whether the place is below the working directory. -/
def isBelow : FilePlace → Bool
  | [] => false
  | name :: _ => name ≠ "/" && name ≠ ".."

/-- Goes along a part: two dots go back, and stay at the root. -/
def step (place : FilePlace) (part : String) : FilePlace :=
  if part ≠ ".." then place ++ [part]
  else if place = root then root
  else if place.isAbove then place ++ [part]
  else place.dropLast

end FilePlace

/-! ## Files -/

/-- Why a file or directory cannot be used. -/
inductive FileError where
  | missing (path : Path)
  | inTheWay (path : Path)
  | notDirectory (path : Path)
  | isDirectory (path : Path)
  | nameTooLong (path : Path)

/-- The wording of a cause. -/
def FileError.message : FileError → String
  | missing path => "[Errno 2] No such file or directory: " ++ Text.quote path.text
  | inTheWay path => "[Errno 17] File exists: " ++ Text.quote path.text
  | notDirectory path => "[Errno 20] Not a directory: " ++ Text.quote path.text
  | isDirectory path => "[Errno 21] Is a directory: " ++ Text.quote path.text
  | nameTooLong path => "[Errno 36] File name too long: " ++ Text.quote path.text

/-- The directories and files that are known, by their places. -/
structure FileTree where
  directories : List FilePlace := []
  files : List (FilePlace × String) := []

/-- What stands at a place. -/
inductive Entry where
  | directory
  | file (content : String)
  | nothing

/-- Names have at most this many bytes. -/
def maxNameBytes : Nat := 255

namespace FileTree

/-- What stands at a place. -/
def entry (t : FileTree) (place : FilePlace) : Entry :=
  if place = FilePlace.root ∨ place.isAbove ∨ t.directories.contains place then .directory
  else match t.files.lookup place with
    | some content => .file content
    | none => .nothing

/-- Goes from a directory along parts to the place of the last one.  All parts but the last must
    be directories. -/
def walk (t : FileTree) (path : Path) (place : FilePlace) : List String → Except FileError FilePlace
  | [] => .ok place
  | part :: parts =>
    match t.entry place with
    | .file _ => .error (.notDirectory path)
    | .nothing => .error (.missing path)
    | .directory =>
      if maxNameBytes < part.utf8ByteSize then .error (.nameTooLong path)
      else t.walk path (place.step part) parts

/-- The place that a path leads to. -/
def resolve (t : FileTree) (path : Path) : Except FileError FilePlace :=
  t.walk path (if path.root = "" then [] else FilePlace.root) path.parts

/-- The content of a file. -/
def read (t : FileTree) (path : Path) : Except FileError String := do
  match t.entry (← t.resolve path) with
  | .file content => return content
  | .directory => throw (.isDirectory path)
  | .nothing => throw (.missing path)

/-- Writes a file, over the old one if there is one. -/
def write (t : FileTree) (path : Path) (content : String) : Except FileError FileTree := do
  let place ← t.resolve path
  match t.entry place with
  | .directory => throw (.isDirectory path)
  | _ => return { t with files := t.files.filter (·.1 ≠ place) ++ [(place, content)] }

/-- Makes a directory in one that is there; it may be there already. -/
def makeInside (t : FileTree) (path : Path) : Except FileError FileTree := do
  let place ← t.resolve path
  match t.entry place with
  | .directory => return t
  | .file _ => throw (.inTheWay path)
  | .nothing => return { t with directories := t.directories ++ [place] }

/-- Makes a directory; if one above it is missing, that one is made first. -/
def makeDirectory (t : FileTree) (path : Path) : Except FileError FileTree :=
  match t.makeInside path with
  | .error (.missing missed) =>
    if path.parts = [] then .error (.missing missed)
    else do (← t.makeDirectory path.parent).makeInside path
  | made => made
termination_by path.parts.length
decreasing_by
  have : path.parts.length ≠ 0 := by simpa using ‹_›
  simp only [Path.parent, List.length_dropLast]
  omega

/-- The files below the working directory, by their names from there. -/
def below (t : FileTree) : List (String × String) :=
  (t.files.filter (·.1.isBelow)).map fun (place, content) => (String.intercalate "/" place, content)

/-- A tree with these files below the working directory, and the directories that they stand in.  Of
    what is elsewhere it knows a directory for files that do not stay, and an empty device. -/
def ofFiles (files : List (String × String)) : FileTree where
  directories :=
    [["/", "tmp"], ["/", "dev"]] ++ files.flatMap fun (name, _) =>
      let parts := (Path.ofText name).parts
      (List.range parts.length).map parts.take
  files :=
    (["/", "dev", "null"], "") :: files.map fun (name, content) =>
      ((Path.ofText name).parts, content)

end FileTree

end RelayLadder
