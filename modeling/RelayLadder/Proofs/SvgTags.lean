/-
  The tags of a document, whatever texts the rungs in it hold.

  * `Diagram.pieces`, `Stack.pieces`: the tags that the document of a diagram or of a stack should
    have, with the texts in front of them;
  * `toList_svg`, `toList_svg_stack`: the documents are these pieces as they are written;
  * `readMarkup_svg`, `readMarkup_svg_stack`: so cutting them at their marks gives the pieces back;
  * `cut_svg_layout`: among those of a diagram are the texts that are drawn, in their order, and one
    rectangle for each region, which names rung, number and instruction.
-/
import Mathlib.Data.Nat.Cast.Defs
import RelayLadder.Layout.Svg
import RelayLadder.Proofs.Numerals
import RelayLadder.Proofs.Regions
import RelayLadder.Proofs.Tags
import RelayLadder.Proofs.WrittenNumbers

namespace RelayLadder.Layout

open Markup Text

/-! ## The pieces of a document -/

/-- The blanks before a tag on a line of its own. -/
def indent (margin : String) : String := "\n" ++ margin

/-- A text element on a line of its own. -/
def textPieces (margin : String) (attributes : List (String × String)) (text : String) :
    List Piece :=
  [⟨indent margin, { word := "text", attributes }⟩, ⟨text, { word := "/text" }⟩]

/-- The rules of the style element. -/
def styleRules : List String :=
  ["    .rail \x7b stroke: currentColor; \x7d",
   "    .wire, .branch, .glyph \x7b stroke: currentColor; fill: none; \x7d",
   "    .label \x7b fill: currentColor; font-family: ui-monospace, monospace; \x7d",
   "    .title \x7b fill: currentColor; font-family: sans-serif; \x7d",
   "    .hit \x7b fill: transparent; stroke: none; \x7d"]

/-- The text of the style element, each rule on a line of its own. -/
def styleText : String := String.join (styleRules.map ("\n" ++ ·)) ++ "\n  "

def stylePieces : List Piece :=
  [⟨"\n  ", { word := "style" }⟩, ⟨styleText, { word := "/style" }⟩]

/-- The declaration, the start tag of the document, and its style element. -/
def headPieces (width height top : String) : List Piece :=
  [⟨"", { word := "?xml", attributes := [("version", "1.0"), ("encoding", "UTF-8")],
          ending := "?" }⟩,
   ⟨"\n", { word := "svg", attributes :=
      [("xmlns", "http://www.w3.org/2000/svg"), ("width", width), ("height", height),
        ("viewBox", "0 " ++ top ++ " " ++ width ++ " " ++ height)] }⟩] ++
    stylePieces

/-- The end tag of a document. -/
def endPiece : Piece := ⟨"\n", { word := "/svg" }⟩

section
variable {α : Type} [Written α]

/-- The pieces of something drawn: a text has a start and an end tag, anything else one tag. -/
def Primitive.pieces (margin : String) : Primitive α → List Piece
  | .line l =>
    [⟨indent margin, { word := "line", ending := "/", attributes :=
      [("class", l.role.name), ("x1", written l.x1), ("y1", written l.y1), ("x2", written l.x2),
        ("y2", written l.y2), ("stroke-width", written l.strokeWidth)] }⟩]
  | .rect r role =>
    [⟨indent margin, { word := "rect", ending := "/", attributes :=
      [("class", role.name), ("x", written r.x), ("y", written r.y), ("width", written r.width),
        ("height", written r.height), ("stroke-width", "2")] }⟩]
  | .circle c role =>
    [⟨indent margin, { word := "circle", ending := "/", attributes :=
      [("class", role.name), ("cx", written c.cx), ("cy", written c.cy), ("r", written c.r),
        ("stroke-width", "2")] }⟩]
  | .label t =>
    textPieces margin
      ([("class", if t.mono then "label" else "title"), ("x", written t.x), ("y", written t.y),
        ("text-anchor", t.anchor.name), ("font-size", written t.size)] ++
        if t.bold then [("font-weight", "bold")] else [])
      t.text

/-- The rectangle of a region of the rung that goes by this label. -/
def HitRegion.piece (margin label : String) (r : HitRegion α) : Piece :=
  ⟨indent (margin ++ "  "), { word := "rect", ending := "/", attributes :=
    [("class", "hit"), ("data-rung", label), ("data-index", toString r.index),
      ("data-type", r.mnemonic), ("x", written r.bounds.x), ("y", written r.bounds.y),
      ("width", written r.bounds.width), ("height", written r.bounds.height)] }⟩

variable [Scalar α]

/-- The pieces of the number of the rung beside its rail. -/
def Diagram.titlePieces (d : Diagram α) (margin : String) : List Piece :=
  textPieces margin
    [("class", "title"), ("x", "2"), ("y", written (d.top + 10)), ("font-size", "10")]
    (toString d.rung)

/-- The pieces of what is in a diagram, with or without the number of the rung. -/
def Diagram.contentPieces (d : Diagram α) (margin : String) (numbered : Bool) : List Piece :=
  (if numbered then d.titlePieces margin else []) ++
    d.primitives.flatMap (·.pieces margin) ++
    [⟨indent margin, { word := "g", attributes := [("class", "hit-regions")] }⟩] ++
    d.regions.map (·.piece margin (toString d.rung)) ++
    [⟨indent margin, { word := "/g" }⟩]

/-- The pieces of the document of a diagram. -/
def Diagram.pieces (d : Diagram α) (numbered : Bool) : List Piece :=
  headPieces (written d.width) (written d.height) (written d.top) ++
    d.contentPieces "  " numbered ++ [endPiece]

/-- How a group is moved down. -/
def translation (shift : α) : String := "translate(0 " ++ written shift ++ ")"

/-- The pieces of a diagram in a stack: a group that is moved down, with what is in the diagram. -/
def Diagram.groupPieces (d : Diagram α) (shift : α) : List Piece :=
  [⟨indent "  ", { word := "g", attributes := [("transform", translation shift)] }⟩] ++
    d.contentPieces "    " true ++ [⟨indent "  ", { word := "/g" }⟩]

/-- The pieces of the document of a stack. -/
def Stack.pieces (s : Stack α) : List Piece :=
  headPieces (written s.width) (written s.height) "0" ++
    s.placed.flatMap (fun (shift, d) => d.groupPieces shift) ++ [endPiece]

end

/-! ## Values without special characters -/

theorem escapeChar_of_isNumberChar {c : Char} (h : isNumberChar c = true) :
    escapeChar c = [c] := by
  have hescapes : ∀ p ∈ escapes, isNumberChar p.1 = false := by decide
  rcases escapeChar_cases c with hc | ⟨hc, -⟩
  · have hnot : isNumberChar c = false := hescapes (c, escapeChar c) hc
    rw [h] at hnot
    cases hnot
  · exact hc

theorem escape_of_isNumberChar {s : String} (h : s.toList.all isNumberChar = true) :
    escape s = s :=
  escape_eq_self fun c hc => escapeChar_of_isNumberChar (List.all_eq_true.1 h c hc)

@[simp]
theorem escape_written {α : Type} [Written α] [LawfulWritten α] (v : α) :
    escape (written v) = written v :=
  escape_of_isNumberChar (LawfulWritten.isNumberChar v)

@[simp]
theorem escape_repr (n : Nat) : escape n.repr = n.repr :=
  escape_of_isNumberChar (all_isNumberChar_of_isDigit fun _ hc => isDigit_of_mem_toString hc)

@[simp]
theorem escape_append (s t : String) : escape (s ++ t) = escape s ++ escape t := by
  simp [escape]

@[simp]
theorem escape_repr_int (n : Int) : escape n.repr = n.repr := by
  cases n with
  | ofNat n => exact escape_repr n
  | negSucc n =>
    have hneg : (Int.negSucc n).repr = "-" ++ (n + 1).repr := rfl
    have hsign : escape "-" = "-" := by decide
    rw [hneg, escape_append, escape_repr, hsign]

@[simp]
theorem escape_role (r : Role) : escape r.name = r.name := by
  cases r <;> decide

@[simp]
theorem escape_anchor (a : Anchor) : escape a.name = a.name := by
  cases a <;> decide

/-- The words and blanks that stand in every document. -/
theorem escape_words :
    escape "" = "" ∧ escape "\n" = "\n" ∧ escape "\n  " = "\n  " ∧ escape "  " = "  " ∧
      escape "    " = "    " ∧ escape "translate(0 " = "translate(0 " ∧ escape ")" = ")" ∧
      escape " " = " " ∧ escape "0 " = "0 " ∧ escape "2" = "2" ∧ escape "10" = "10" ∧
      escape "1.0" = "1.0" ∧ escape "UTF-8" = "UTF-8" ∧ escape "hit" = "hit" ∧
      escape "hit-regions" = "hit-regions" ∧ escape "label" = "label" ∧ escape "title" = "title" ∧
      escape "bold" = "bold" ∧
      escape "http://www.w3.org/2000/svg" = "http://www.w3.org/2000/svg" := by
  decide

/-! ## Plain tags -/

theorem isSound_headPieces (width height top : String) :
    ∀ p ∈ headPieces width height top, p.tag.isSound = true := by
  simp only [headPieces, stylePieces, List.cons_append, List.nil_append, List.forall_mem_cons,
    Tag.isSound, List.map_cons, List.map_nil]
  refine ⟨by decide, by decide, by decide, by decide, List.forall_mem_nil _⟩

theorem isSound_textPieces (margin : String) {attributes : List (String × String)}
    (h : isPlainShape "text" (attributes.map Prod.fst) "" = true) (text : String) :
    ∀ p ∈ textPieces margin attributes text, p.tag.isSound = true := by
  simp only [textPieces, List.forall_mem_cons, Tag.isSound, List.map_nil]
  exact ⟨h, by decide, List.forall_mem_nil _⟩

section
variable {α : Type} [Written α]

theorem isSound_pieces (margin : String) (p : Primitive α) :
    ∀ q ∈ p.pieces margin, q.tag.isSound = true := by
  cases p with
  | label t =>
    refine isSound_textPieces margin ?_ t.text
    rw [List.map_append]
    cases t.bold <;> simp only [List.map_cons, List.map_nil] <;> decide
  | _ =>
    simp only [Primitive.pieces, List.forall_mem_cons, Tag.isSound, List.map_cons, List.map_nil]
    exact ⟨by decide, List.forall_mem_nil _⟩

variable [Scalar α]

theorem isSound_contentPieces (d : Diagram α) (margin : String) (numbered : Bool) :
    ∀ p ∈ d.contentPieces margin numbered, p.tag.isSound = true := by
  intro p h
  simp only [Diagram.contentPieces, List.mem_append, List.mem_flatMap, List.mem_map,
    List.mem_singleton] at h
  rcases h with (((h | ⟨q, -, h⟩) | rfl) | ⟨r, -, rfl⟩) | rfl
  · cases numbered with
    | false => cases h
    | true =>
      refine isSound_textPieces margin ?_ _ p h
      simp only [List.map_cons, List.map_nil]
      decide
  · exact isSound_pieces margin q p h
  · simp only [Tag.isSound, List.map_cons, List.map_nil]
    decide
  · simp only [HitRegion.piece, Tag.isSound, List.map_cons, List.map_nil]
    decide
  · simp only [Tag.isSound, List.map_nil]
    decide

theorem isSound_of_mem_pieces (d : Diagram α) {numbered : Bool} {p : Piece}
    (h : p ∈ d.pieces numbered) : p.tag.isSound = true := by
  simp only [Diagram.pieces, List.mem_append, List.mem_singleton] at h
  rcases h with (h | h) | rfl
  · exact isSound_headPieces _ _ _ p h
  · exact isSound_contentPieces d _ numbered p h
  · decide

theorem isSound_of_mem_pieces_stack (s : Stack α) {p : Piece} (h : p ∈ s.pieces) :
    p.tag.isSound = true := by
  simp only [Stack.pieces, Diagram.groupPieces, List.mem_append, List.mem_flatMap,
    List.mem_singleton] at h
  rcases h with (h | ⟨⟨shift, d⟩, -, (rfl | h) | rfl⟩) | rfl
  · exact isSound_headPieces _ _ _ p h
  · simp only [Tag.isSound, List.map_cons, List.map_nil]
    decide
  · exact isSound_contentPieces d _ true p h
  · decide
  · decide

end

/-! ## The document as pieces -/

/-- Lines, each behind a line end. -/
def broken (lines : List String) : List Char := lines.flatMap fun l => '\n' :: l.toList

theorem toList_unlines_cons (l : String) (ls : List String) :
    (unlines (l :: ls)).toList = l.toList ++ (broken ls ++ ['\n']) := by
  induction ls generalizing l with
  | nil => simp [unlines, broken]
  | cons m ls ih =>
    have hcons : unlines (l :: m :: ls) = l ++ "\n" ++ unlines (m :: ls) := by
      simp [unlines]
    rw [hcons, String.toList_append, ih]
    simp [broken]

theorem broken_append (a b : List String) : broken (a ++ b) = broken a ++ broken b :=
  List.flatMap_append

theorem escape_join (ls : List String) : escape (String.join ls) = String.join (ls.map escape) := by
  simp [escape, ← String.toList_inj, String.toList_join, List.flatMap_assoc, List.flatMap_map]

theorem escape_styleText : escape styleText = styleText := by
  have hrules : ∀ l ∈ styleRules, escape l = l := by decide +kernel
  have hlines : (styleRules.map ("\n" ++ ·)).map escape = styleRules.map ("\n" ++ ·) := by
    rw [List.map_map]
    refine List.map_congr_left fun l hl => ?_
    rw [Function.comp_apply, escape_append, hrules l hl, escape_words.2.1]
  rw [styleText, escape_append, escape_join, hlines, escape_words.2.2.1]

theorem broken_styleRules :
    broken (["  <style>"] ++ styleRules ++ ["  </style>"]) = stylePieces.flatMap Piece.chars := by
  have hrules : styleText.toList = broken styleRules ++ "\n  ".toList := by
    simp [styleText, broken, List.flatMap_map, String.toList_join]
  have hwords := escape_words
  rw [broken_append, broken_append]
  simp [stylePieces, Piece.chars, Tag.inner, escape_styleText, hwords, hrules, broken]

theorem attributeText_eq (name value : String) :
    attributeText (name, value) = (attr name (escape value)).toList := by
  simp [attributeText, attr]

theorem toList_unlines_svgHead {width height top : String} (hw : escape width = width)
    (hh : escape height = height) (ht : escape top = top) (ls : List String) :
    (unlines (svgHead width height top ++ ls)).toList =
      (headPieces width height top).flatMap Piece.chars ++ (broken ls ++ ['\n']) := by
  have hlines : svgHead width height top = "<?xml version=\"1.0\" encoding=\"UTF-8\"?>" ::
      (["<svg" ++ attr "xmlns" "http://www.w3.org/2000/svg" ++ attr "width" width ++
        attr "height" height ++ attr "viewBox" ("0 " ++ top ++ " " ++ width ++ " " ++ height) ++
        ">"] ++ (["  <style>"] ++ styleRules ++ ["  </style>"])) := rfl
  have hwords := escape_words
  rw [hlines, List.cons_append, toList_unlines_cons, broken_append, broken_append,
    broken_styleRules, headPieces, List.flatMap_append]
  simp [Piece.chars, Tag.inner, attributeText_eq, attr, hwords, hw, hh, ht, broken]

section
variable {α : Type} [Written α] [LawfulWritten α]

theorem toList_indent (margin : String) : (indent margin).toList = '\n' :: margin.toList := by
  simp [indent]

theorem escape_indent {margin : String} (h : escape margin = margin) :
    escape (indent margin) = indent margin := by
  rw [indent, escape_append, h, escape_words.2.1]

section
variable {margin : String} (hmargin : escape margin = margin)
include hmargin

theorem chars_pieces (p : Primitive α) :
    (p.pieces margin).flatMap Piece.chars = '\n' :: (margin ++ p.svg).toList := by
  have hwords := escape_words
  have hindent := escape_indent hmargin
  unfold Primitive.pieces Primitive.svg
  cases p with
  | label t =>
    cases hm : t.mono <;> cases hb : t.bold <;>
      simp [textPieces, Piece.chars, Tag.inner, attributeText_eq, toList_indent, hwords, hindent,
        hm, hb]
  | _ => simp [Piece.chars, Tag.inner, attributeText_eq, toList_indent, hwords, hindent]

theorem chars_piece {label : String} (hlabel : escape label = label) (r : HitRegion α) :
    (r.piece margin label).chars = '\n' :: (margin ++ ("  " ++ r.svg label)).toList := by
  have hwords := escape_words
  have hindent : escape (indent (margin ++ "  ")) = indent (margin ++ "  ") :=
    escape_indent (by rw [escape_append, hmargin, hwords.2.2.2.1])
  unfold HitRegion.piece HitRegion.svg
  simp [Piece.chars, Tag.inner, attributeText_eq, toList_indent, hwords, hindent, hlabel]

theorem broken_primitives (ps : List (Primitive α)) :
    broken ((ps.map Primitive.svg).map (margin ++ ·)) =
      (ps.flatMap (·.pieces margin)).flatMap Piece.chars := by
  rw [broken, List.map_map, List.flatMap_map, List.flatMap_assoc]
  exact List.flatMap_congr fun p _ => (chars_pieces hmargin p).symm

theorem broken_regions {label : String} (hlabel : escape label = label) (rs : List (HitRegion α)) :
    broken ((rs.map fun r => "  " ++ r.svg label).map (margin ++ ·)) =
      (rs.map (·.piece margin label)).flatMap Piece.chars := by
  rw [broken, List.map_map, List.flatMap_map, List.flatMap_map]
  exact List.flatMap_congr fun r _ => (chars_piece hmargin hlabel r).symm

theorem broken_title [Scalar α] (d : Diagram α) (numbered : Bool) :
    broken ((if numbered then [d.svgTitle (toString d.rung)] else []).map (margin ++ ·)) =
      (if numbered then d.titlePieces margin else []).flatMap Piece.chars := by
  have hwords := escape_words
  have hindent := escape_indent hmargin
  cases numbered with
  | false => rfl
  | true =>
    unfold Diagram.svgTitle Diagram.titlePieces
    simp [broken, textPieces, Piece.chars, Tag.inner, attributeText_eq, toList_indent, hwords,
      hindent]

/-- **What is in a diagram is written as its pieces**, behind any margin. -/
theorem broken_svgContent [Scalar α] (d : Diagram α) (numbered : Bool) :
    broken ((d.svgContent (toString d.rung) numbered).map (margin ++ ·)) =
      (d.contentPieces margin numbered).flatMap Piece.chars := by
  have hwords := escape_words
  have hindent := escape_indent hmargin
  have hrung : escape (toString d.rung) = toString d.rung := escape_repr_int d.rung
  have hgroup : broken (["<g class=\"hit-regions\">"].map (margin ++ ·)) =
      [(⟨indent margin, { word := "g", attributes := [("class", "hit-regions")] }⟩ : Piece)].flatMap
        Piece.chars := by
    simp [broken, Piece.chars, Tag.inner, attributeText_eq, attr, toList_indent, hwords, hindent]
  have hend : broken (["</g>"].map (margin ++ ·)) =
      [(⟨indent margin, { word := "/g" }⟩ : Piece)].flatMap Piece.chars := by
    simp [broken, Piece.chars, Tag.inner, toList_indent, hindent]
  rw [Diagram.svgContent, Diagram.contentPieces]
  simp only [List.map_append, broken_append, List.flatMap_append, hend, hgroup,
    broken_title hmargin, broken_primitives hmargin, broken_regions hmargin hrung]

end

theorem broken_end : broken ["</svg>"] = [endPiece].flatMap Piece.chars := by
  have hwords := escape_words
  simp [broken, endPiece, Piece.chars, Tag.inner, hwords]

section
variable [Scalar α] (d : Diagram α) (s : Stack α)

/-- **The document is the pieces that it should have, as they are written.** -/
theorem toList_svg (numbered : Bool) :
    (d.svg numbered).toList = markup (d.pieces numbered) "\n" := by
  have hwords := escape_words
  rw [Diagram.svg, Diagram.svgLabelled, List.append_assoc,
    toList_unlines_svgHead (escape_written _) (escape_written _) (escape_written _),
    broken_append, broken_svgContent hwords.2.2.2.1, broken_end, markup, Diagram.pieces, hwords.2.1]
  simp

theorem broken_group (shift : α) :
    broken (["  <g transform=\"translate(0 " ++ written shift ++ ")\">"] ++
        (d.svgContent (toString d.rung) true).map ("    " ++ ·) ++ ["  </g>"]) =
      (d.groupPieces shift).flatMap Piece.chars := by
  have hwords := escape_words
  rw [broken_append, broken_append, broken_svgContent hwords.2.2.2.2.1, Diagram.groupPieces]
  simp [broken, Piece.chars, Tag.inner, attributeText_eq, attr, translation, toList_indent,
    escape_indent, hwords]

/-- The document of a stack is its pieces, as they are written. -/
theorem toList_svg_stack : s.svg.toList = markup s.pieces "\n" := by
  have hwords := escape_words
  have hzero : escape "0" = "0" := by decide
  have hgroups : broken (s.placed.flatMap fun (shift, d) =>
      ["  <g transform=\"translate(0 " ++ written shift ++ ")\">"] ++
        (d.svgContent (toString d.rung) true).map ("    " ++ ·) ++ ["  </g>"]) =
      (s.placed.flatMap fun (shift, d) => d.groupPieces shift).flatMap Piece.chars := by
    rw [broken, List.flatMap_assoc, List.flatMap_assoc]
    exact List.flatMap_congr fun (shift, d) _ => broken_group d shift
  rw [Stack.svg, List.append_assoc,
    toList_unlines_svgHead (escape_written _) (escape_written _) hzero, broken_append, hgroups,
    broken_end, markup, Stack.pieces, hwords.2.1]
  simp

/-- **The document is cut at its marks as it should be**, and the pieces are read back. -/
theorem cut_svg (numbered : Bool) :
    cut false (d.svg numbered).toList = some (parts (d.pieces numbered) "\n") := by
  rw [toList_svg]
  exact cut_markup (fun p hp => isSound_of_mem_pieces d hp) "\n"

theorem readMarkup_svg (numbered : Bool) :
    readMarkup (d.svg numbered) = some (d.pieces numbered, "\n") := by
  rw [← String.ofList_toList (s := d.svg numbered), toList_svg]
  exact readMarkup_markup (fun p hp => isSound_of_mem_pieces d hp) "\n"

/-- The pieces of a stack are read back from its document. -/
theorem readMarkup_svg_stack : readMarkup s.svg = some (s.pieces, "\n") := by
  rw [← String.ofList_toList (s := s.svg), toList_svg_stack]
  exact readMarkup_markup (fun p hp => isSound_of_mem_pieces_stack s hp) "\n"

end

end

/-! ## Texts and regions -/

/-- What stands in the text elements. -/
def contents (ps : List Piece) : List String :=
  ps.filterMap fun p => if p.tag.word = "/text" then some p.text else none

/-- What the rectangles for clicks say of rung, number and type of their instruction. -/
def hits (ps : List Piece) : List (Option String × Option String × Option String) :=
  ps.filterMap fun p =>
    if p.tag.attribute? "class" = some "hit" then
      some (p.tag.attribute? "data-rung", p.tag.attribute? "data-index",
        p.tag.attribute? "data-type")
    else none

theorem contents_append (ps qs : List Piece) : contents (ps ++ qs) = contents ps ++ contents qs :=
  List.filterMap_append

theorem hits_append (ps qs : List Piece) : hits (ps ++ qs) = hits ps ++ hits qs :=
  List.filterMap_append

section
variable {α : Type}

/-- The text, if it is one that is drawn. -/
def Primitive.text? : Primitive α → Option String
  | .label t => some t.text
  | _ => none

variable [Written α]

theorem contents_pieces (margin : String) (p : Primitive α) :
    contents (p.pieces margin) = p.text?.toList := by
  cases p <;> simp [contents, Primitive.pieces, Primitive.text?, textPieces]

theorem hits_pieces (margin : String) (p : Primitive α) : hits (p.pieces margin) = [] := by
  have hrole : ∀ r : Role, r.name ≠ "hit" := by
    intro r
    cases r <;> decide
  cases p with
  | label t =>
    cases hm : t.mono <;> simp [hits, Primitive.pieces, textPieces, Tag.attribute?, hm]
  | _ => simp [hits, Primitive.pieces, Tag.attribute?, hrole]

section
variable [Scalar α] (d : Diagram α) (numbered : Bool)

theorem contents_pieces_diagram :
    contents (d.pieces numbered) =
      (if numbered then [toString d.rung] else []) ++ d.primitives.filterMap Primitive.text? := by
  have hprimitives : contents (d.primitives.flatMap (·.pieces "  ")) =
      d.primitives.filterMap Primitive.text? := by
    rw [contents, List.filterMap_flatMap, List.filterMap_eq_flatMap_toList]
    exact List.flatMap_congr fun p _ => contents_pieces "  " p
  have hregions : contents (d.regions.map (·.piece "  " (toString d.rung))) = [] := by
    rw [contents, List.filterMap_map]
    exact List.filterMap_eq_nil_iff.2 fun r _ => by simp [HitRegion.piece]
  rw [Diagram.pieces, Diagram.contentPieces]
  simp only [contents_append, hprimitives, hregions]
  cases numbered <;>
    simp [contents, headPieces, stylePieces, endPiece, Diagram.titlePieces, textPieces]

theorem hits_pieces_diagram :
    hits (d.pieces numbered) = d.regions.map fun r =>
      (some (toString d.rung), some (toString r.index), some r.mnemonic) := by
  have hprimitives : hits (d.primitives.flatMap (·.pieces "  ")) = [] := by
    rw [hits, List.filterMap_flatMap]
    exact List.flatMap_eq_nil_iff.2 fun p _ => hits_pieces "  " p
  have hregions : hits (d.regions.map (·.piece "  " (toString d.rung))) =
      d.regions.map fun r =>
        (some (toString d.rung), some (toString r.index), some r.mnemonic) := by
    rw [hits, List.filterMap_map, ← List.filterMap_eq_map]
    exact List.filterMap_congr fun r _ => by
      simp [HitRegion.piece, Tag.attribute?, List.lookup_cons]
  rw [Diagram.pieces, Diagram.contentPieces]
  simp only [hits_append, hprimitives, hregions]
  cases numbered <;>
    simp [hits, headPieces, stylePieces, endPiece, Diagram.titlePieces, textPieces, Tag.attribute?,
      List.lookup_cons]

end

end

/-- **Texts cannot break the document of a rung**: it is cut at its marks as it should be, and gives
    back the texts that are drawn and one rectangle for each region. -/
theorem cut_svg_layout (es : Series) (rung : Int) (c : Config Float) (numbered : Bool) :
    let d := layout es rung c
    let ps := d.pieces numbered
    cut false (d.svg numbered).toList = some (parts ps "\n") ∧
      readPieces (parts ps "\n") = some (ps, "\n") ∧
      contents ps =
        (if numbered then [toString rung] else []) ++ d.primitives.filterMap Primitive.text? ∧
      hits ps = (d.regions.map fun r =>
        (some (toString r.rung), some (toString r.index), some r.mnemonic)) ∧
      d.regions.map HitRegion.index = List.range d.regions.length := by
  intro d ps
  have hrungs : hits ps = d.regions.map fun r =>
      (some (toString r.rung), some (toString r.index), some r.mnemonic) := by
    refine (hits_pieces_diagram d numbered).trans (List.map_congr_left fun r hr => ?_)
    have hrung : r.rung = rung := congrArg Address.rung (address_of_mem_regions_layout hr)
    rw [hrung]
    rfl
  have hindex := map_index_regions_layout es rung c
  have hlength := congrArg List.length hindex
  rw [List.length_map, List.length_range] at hlength
  exact ⟨cut_svg d numbered, readPieces_parts (fun p hp => isSound_of_mem_pieces d hp) "\n",
    contents_pieces_diagram d numbered, hrungs, hlength ▸ hindex⟩

end RelayLadder.Layout
