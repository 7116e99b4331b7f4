/-
  The numbers in a diagram's document, read back from it.

  * `numerals`: the words in the attributes for positions and sizes;
  * `numerals_pieces`: in the document of a diagram these are its numbers, as they are written;
  * `decimal?_numerals_layout`: with the standard distances and at ordinary sizes, each of them is a
    plain decimal, which denotes exactly the number of the diagram.
-/
import RelayLadder.Proofs.HalfUnits
import RelayLadder.Proofs.SvgTags

namespace RelayLadder

/-! ## Words -/

/-- The words of a text, cut at its spaces. -/
def words (s : String) : List String := (s.toList.splitOn ' ').map String.ofList

theorem words_of_not_mem {s : String} (h : ' ' ∉ s.toList) : words s = [s] := by
  rw [words, List.splitOn_eq_singleton h, List.map_singleton, String.ofList_toList]

theorem words_append {s : String} (h : ' ' ∉ s.toList) (t : String) :
    words (s ++ " " ++ t) = s :: words t := by
  have htext : (s ++ " " ++ t).toList = s.toList ++ ' ' :: t.toList := by simp
  have hfront : ∀ c ∈ s.toList, (c == ' ') = false := fun c hc => by
    rw [beq_eq_false_iff_ne]
    rintro rfl
    exact h hc
  rw [words, words, htext, List.splitOn_eq_splitOnP, List.splitOn_eq_splitOnP,
    List.splitOnP_append_cons_of_forall_mem hfront ' ' rfl, List.map_cons, String.ofList_toList]

theorem not_mem_written {α : Type} [Written α] [LawfulWritten α] (v : α) :
    ' ' ∉ (written v).toList := fun h => by
  have hchar := List.all_eq_true.1 (LawfulWritten.isNumberChar v) ' ' h
  revert hchar
  decide

theorem words_written {α : Type} [Written α] [LawfulWritten α] (v : α) :
    words (written v) = [written v] :=
  words_of_not_mem (not_mem_written v)

namespace Layout

open Markup

/-! ## Numerals -/

/-- The attributes for positions and sizes. -/
def numberNames : List String :=
  ["x", "y", "x1", "y1", "x2", "y2", "cx", "cy", "r", "width", "height", "viewBox", "stroke-width",
    "font-size"]

/-- The words in the attributes for positions and sizes, in their order. -/
def numerals (ps : List Piece) : List String :=
  ps.flatMap fun p => p.tag.attributes.flatMap fun a =>
    if a.1 ∈ numberNames then words a.2 else []

theorem numerals_append (ps qs : List Piece) : numerals (ps ++ qs) = numerals ps ++ numerals qs :=
  List.flatMap_append

/-- The numbers of a diagram, in the order in which its document has them: the size of the document
    and the area that it shows, the number of the rung beside its rail, all that is drawn, and the
    areas of the instructions. -/
def Diagram.numbers (d : Diagram Rat) (numbered : Bool) : List Rat :=
  [d.width, d.height, 0, d.top, d.width, d.height] ++
    (if numbered then [2, d.top + 10, 10] else []) ++
    d.primitives.flatMap Primitive.numbers ++ d.regions.flatMap (·.bounds.numbers)

theorem numerals_headPieces (width height top : Rat) :
    numerals (headPieces (written width) (written height) (written top)) =
      [width, height, 0, top, width, height].map written := by
  have hzero : written (0 : Rat) = "0" := by decide
  have hbox : words ("0 " ++ written top ++ " " ++ written width ++ " " ++ written height) =
      [written (0 : Rat), written top, written width, written height] := by
    have htext : "0 " ++ written top ++ " " ++ written width ++ " " ++ written height =
        "0" ++ " " ++ (written top ++ " " ++ (written width ++ " " ++ written height)) := by
      simp [← String.toList_inj]
    rw [htext, words_append (by decide), words_append (not_mem_written _),
      words_append (not_mem_written _), words_written, hzero]
  simp [numerals, headPieces, stylePieces, numberNames, words_written, hbox]

theorem numerals_primitive (margin : String) (p : Primitive Rat) :
    numerals (p.pieces margin) = p.numbers.map written := by
  have htwo : words "2" = [written (2 : Rat)] := by decide
  cases p with
  | label t =>
    cases hb : t.bold <;>
      simp [numerals, Primitive.pieces, textPieces, numberNames, Primitive.numbers, words_written,
        hb]
  | _ =>
    simp [numerals, Primitive.pieces, numberNames, Primitive.numbers, Rect.numbers, words_written,
      htwo]

/-- **The numerals of a document are the numbers of the diagram, as they are written.** -/
theorem numerals_pieces (d : Diagram Rat) (numbered : Bool) :
    numerals (d.pieces numbered) = (d.numbers numbered).map written := by
  have htitle : numerals (if numbered then d.titlePieces "  " else []) =
      (if numbered then [2, d.top + 10, 10] else []).map written := by
    have htwo : words "2" = [written (2 : Rat)] := by decide
    have hten : words "10" = [written (10 : Rat)] := by decide
    cases numbered with
    | false => rfl
    | true => simp [numerals, Diagram.titlePieces, textPieces, numberNames, words_written, htwo, hten]
  have hprimitives : numerals (d.primitives.flatMap (·.pieces "  ")) =
      (d.primitives.flatMap Primitive.numbers).map written := by
    rw [numerals, List.flatMap_assoc, List.map_flatMap]
    exact List.flatMap_congr fun p _ => numerals_primitive "  " p
  have hregions : numerals (d.regions.map (·.piece "  " (toString d.rung))) =
      (d.regions.flatMap (·.bounds.numbers)).map written := by
    rw [numerals, List.flatMap_map, List.map_flatMap]
    exact List.flatMap_congr fun r _ => by
      simp [HitRegion.piece, numberNames, Rect.numbers, words_written]
  rw [Diagram.pieces, Diagram.contentPieces, Diagram.numbers]
  simp only [numerals_append, numerals_headPieces, htitle, hprimitives, hregions, List.map_append]
  simp [numerals, numberNames, endPiece]

/-- All numbers in the document of a rung are multiples of a half, and smaller than a bound that its
    width and its height do not reach. -/
theorem isHalves_of_mem_numbers {es : Series} {rung : Int} {bound : Rat}
    (hwidth : (layout es rung (.standard : Config Rat)).width < bound)
    (hheight : (layout es rung (.standard : Config Rat)).height < bound) {numbered : Bool} {v : Rat}
    (hv : v ∈ (layout es rung .standard).numbers numbered) :
    IsHalves v ∧ -bound < v ∧ v < bound := by
  obtain ⟨⟨hw, hh, ht⟩, hps, hrs⟩ := allHalves_layout es rung
  obtain ⟨⟨hlow, htop⟩, ⟨hwidth0, hheight80⟩, hprimitives, hregions⟩ :=
    numbers_layout_lt hwidth hheight
  have htitle : IsHalves ((layout es rung .standard).top + 10) :=
    (isHalves_add_ofNat _ 10).2 ht
  rw [Diagram.numbers, List.mem_append, List.mem_append, List.mem_append] at hv
  have hframe {v : Rat} (hhalves : IsHalves v) (hlo : -bound < v) (hhi : v ≤ 10) :
      IsHalves v ∧ -bound < v ∧ v < bound := ⟨hhalves, hlo, by linarith⟩
  rcases hv with ((hv | hv) | hv) | hv
  · simp only [List.mem_cons, List.not_mem_nil, or_false] at hv
    rcases hv with rfl | rfl | rfl | rfl | rfl | rfl
    · exact ⟨hw, by linarith, hwidth⟩
    · exact ⟨hh, by linarith, hheight⟩
    · exact hframe (isHalves_ofNat 0) (by linarith) (by linarith)
    · exact hframe ht hlow (by linarith)
    · exact ⟨hw, by linarith, hwidth⟩
    · exact ⟨hh, by linarith, hheight⟩
  · cases numbered with
    | false => cases hv
    | true =>
      simp only [if_true, List.mem_cons, List.not_mem_nil, or_false] at hv
      rcases hv with rfl | rfl | rfl
      · exact hframe (isHalves_ofNat 2) (by linarith) (by linarith)
      · exact hframe htitle (by linarith) (by linarith)
      · exact hframe (isHalves_ofNat 10) (by linarith) (by linarith)
  · exact ⟨hps v hv, hprimitives v hv⟩
  · exact ⟨hrs v hv, hregions v hv⟩

/-- **The document of a rung is exact at ordinary sizes**, with the standard distances: its numbers
    are plain decimals that denote the numbers of the diagram. -/
theorem decimal?_numerals_layout {es : Series} {rung : Int}
    (hwidth : (layout es rung (.standard : Config Rat)).width < 100000)
    (hheight : (layout es rung (.standard : Config Rat)).height < 100000) (numbered : Bool) :
    let d := layout es rung (.standard : Config Rat)
    readMarkup (d.svg numbered) = some (d.pieces numbered, "\n") ∧
      (numerals (d.pieces numbered)).map decimal? = (d.numbers numbered).map some := by
  intro d
  refine ⟨readMarkup_svg d numbered, ?_⟩
  rw [numerals_pieces, List.map_map]
  refine List.map_congr_left fun v hv => ?_
  obtain ⟨hhalves, hlo, hhi⟩ := isHalves_of_mem_numbers hwidth hheight hv
  rw [Function.comp_apply]
  refine decimal?_written hhalves ?_ ?_ <;> norm_num [precision] <;> assumption

/-- The second leg of this rung runs below the rail; the edges of its box, its contacts and the circle
    of its coil stand at halves. -/
theorem decimal?_numerals_layout_branch :
    let d := layout (RungText.elements "[XIC(A),XIO(B)]BTD(C,1,E,2,3)OTE(D)") 3
      (.standard : Config Rat)
    (d.width < 100000 ∧ d.height < 100000) ∧
      readMarkup (d.svg true) = some (d.pieces true, "\n") ∧
      (numerals (d.pieces true)).map decimal? = (d.numbers true).map some := by
  intro d
  have hwidth : d.width < 100000 := by decide +kernel
  have hheight : d.height < 100000 := by decide +kernel
  exact ⟨⟨hwidth, hheight⟩, decimal?_numerals_layout hwidth hheight true⟩

end Layout

end RelayLadder
