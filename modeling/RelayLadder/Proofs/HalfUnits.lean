/-
  With the standard distances, everything stands at multiples of a half, in exact coordinates.

  * `inHalves_drawSeries`: a series is drawn in halves, if it starts there;
  * `allHalves_layout`: so all positions and sizes in the diagram of a rung are multiples of a half;
  * `isFine_drawSeries`: no line is thicker and no text higher than 12;
  * `numbers_layout_lt`: so no number of a diagram goes beyond its width and its height.
-/
import RelayLadder.Proofs.Containment
import RelayLadder.Proofs.WrittenNumbers

namespace RelayLadder

/-! ## Multiples of a half -/

namespace IsHalves

variable {v w : Rat}

theorem add (hv : IsHalves v) (hw : IsHalves w) : IsHalves (v + w) := by
  obtain ⟨m, rfl⟩ := hv
  obtain ⟨n, rfl⟩ := hw
  exact ⟨m + n, by push_cast; ring⟩

theorem sub (hv : IsHalves v) (hw : IsHalves w) : IsHalves (v - w) := by
  obtain ⟨m, rfl⟩ := hv
  obtain ⟨n, rfl⟩ := hw
  exact ⟨m - n, by push_cast; ring⟩

theorem half_natCast (n : Nat) : IsHalves ((n : Rat) / 2) := ⟨n, by push_cast; ring⟩

theorem natCast (n : Nat) : IsHalves (n : Rat) := ⟨2 * n, by push_cast; ring⟩

theorem add_iff (hw : IsHalves w) : IsHalves (v + w) ↔ IsHalves v :=
  ⟨fun h => by simpa using h.sub hw, fun hv => hv.add hw⟩

theorem sub_iff (hw : IsHalves w) : IsHalves (v - w) ↔ IsHalves v :=
  ⟨fun h => by simpa using h.add hw, fun hv => hv.sub hw⟩

end IsHalves

@[simp]
theorem isHalves_ofNat (n : Nat) : IsHalves (ofNat(n) : Rat) := IsHalves.natCast n

@[simp]
theorem isHalves_half_ofNat (n : Nat) : IsHalves ((ofNat(n) : Rat) / 2) :=
  IsHalves.half_natCast n

@[simp]
theorem isHalves_add_ofNat (v : Rat) (n : Nat) : IsHalves (v + ofNat(n)) ↔ IsHalves v :=
  IsHalves.add_iff (isHalves_ofNat n)

@[simp]
theorem isHalves_sub_ofNat (v : Rat) (n : Nat) : IsHalves (v - ofNat(n)) ↔ IsHalves v :=
  IsHalves.sub_iff (isHalves_ofNat n)

@[simp]
theorem isHalves_add_half_ofNat (v : Rat) (n : Nat) :
    IsHalves (v + ofNat(n) / 2) ↔ IsHalves v :=
  IsHalves.add_iff (isHalves_half_ofNat n)

namespace Layout

open Scalar

theorem isHalves_greatest {v w : Rat} (hv : IsHalves v) (hw : IsHalves w) :
    IsHalves (greatest v w) := by
  unfold greatest
  split <;> assumption

theorem isHalves_least {v w : Rat} (hv : IsHalves v) (hw : IsHalves w) :
    IsHalves (least v w) := by
  unfold least
  split <;> assumption

theorem isHalves_greatestOf {v : Rat} (hv : IsHalves v) {vs : List Rat}
    (h : ∀ w ∈ vs, IsHalves w) : IsHalves (greatestOf v vs) := by
  unfold greatestOf
  induction vs generalizing v with
  | nil => exact hv
  | cons w vs ih =>
    obtain ⟨hw, hvs⟩ := List.forall_mem_cons.1 h
    exact ih (isHalves_greatest hv hw) hvs

/-- All numbers of the list are multiples of a half. -/
def AllHalves (vs : List Rat) : Prop := ∀ v ∈ vs, IsHalves v

@[simp]
theorem allHalves_nil : AllHalves [] := List.forall_mem_nil _

@[simp]
theorem allHalves_cons {v : Rat} {vs : List Rat} :
    AllHalves (v :: vs) ↔ IsHalves v ∧ AllHalves vs :=
  List.forall_mem_cons

@[simp]
theorem allHalves_append {vs ws : List Rat} :
    AllHalves (vs ++ ws) ↔ AllHalves vs ∧ AllHalves ws :=
  List.forall_mem_append

theorem allHalves_flatMap {β : Type} {f : β → List Rat} {bs : List β} :
    AllHalves (bs.flatMap f) ↔ ∀ b ∈ bs, AllHalves (f b) := by
  simp only [AllHalves, List.mem_flatMap]
  exact ⟨fun h b hb v hv => h v ⟨b, hb, hv⟩, fun h v ⟨b, hb, hv⟩ => h b hb v hv⟩

/-! ## The numbers of a drawing -/

/-- Position and size of a rectangle. -/
def Rect.numbers (r : Rect Rat) : List Rat := [r.x, r.y, r.width, r.height]

/-- How thick the lines of something drawn are, or how high its text is. -/
def Primitive.weight : Primitive Rat → Rat
  | .line l => l.strokeWidth
  | .rect _ _ => 2
  | .circle _ _ => 2
  | .label t => t.size

/-- Positions and sizes of something drawn, and how thick or high it is. -/
def Primitive.numbers : Primitive Rat → List Rat
  | .line l => [l.x1, l.y1, l.x2, l.y2, l.strokeWidth]
  | .rect r _ => r.numbers ++ [2]
  | .circle c _ => [c.cx, c.cy, c.r, 2]
  | .label t => [t.x, t.y, t.size]

/-- All of a sketch is in halves. -/
structure Sketch.InHalves (s : Sketch Rat) : Prop where
  railOut : IsHalves s.railOut
  bounds : AllHalves s.bounds.numbers
  primitives : AllHalves (s.primitives.flatMap Primitive.numbers)

/-- All of a drawing is in halves, and where it ends. -/
structure Drawing.InHalves (d : Drawing Rat) : Prop where
  x : IsHalves d.x
  minY : IsHalves d.minY
  maxY : IsHalves d.maxY
  primitives : AllHalves (d.primitives.flatMap Primitive.numbers)
  regions : AllHalves (d.regions.flatMap (·.bounds.numbers))

/-- The height of a box is a whole number. -/
theorem boxHeight_eq_natCast (n : Nat) : ∃ m : Nat, (boxHeight n : Rat) = m := by
  unfold boxHeight greatest
  split
  · exact ⟨22 + 13 * n, by push_cast; rfl⟩
  · exact ⟨50, rfl⟩

section
variable {x y : Rat} (hx : IsHalves x) (hy : IsHalves y)
include hx hy

theorem inHalves_drawContact (i : Instruction) (closed : Bool) :
    (drawContact i closed x y).InHalves := by
  cases closed <;> constructor <;>
    simp [drawContact, wire, stroke, operandLabel, Primitive.numbers, Rect.numbers, hx, hy]

theorem inHalves_drawCoil (i : Instruction) (glyph : Glyph) :
    (drawCoil i glyph x y).InHalves := by
  cases hletter : coilLetter glyph <;> constructor <;>
    simp [drawCoil, hletter, wire, stroke, operandLabel, titleLabel, Primitive.numbers,
      Rect.numbers, hx, hy]

theorem inHalves_drawGeneric (i : Instruction) : (drawGeneric i x y).InHalves := by
  cases hempty : i.values.isEmpty <;> constructor <;>
    simp [drawGeneric, hempty, wire, operandLabel, titleLabel, Primitive.numbers,
      Rect.numbers, hx, hy]

/-- A box in a standard cell. -/
theorem inHalves_drawBox (i : Instruction) : (drawBox i x y 140).InHalves := by
  obtain ⟨m, hm⟩ := boxHeight_eq_natCast i.values.length
  have hheight : IsHalves (boxHeight i.values.length) := hm ▸ .natCast m
  have htop : IsHalves (y - boxHeight i.values.length / 2) := hy.sub (hm ▸ .half_natCast m)
  have hwidth : IsHalves (140 - 40) := ⟨200, by norm_num⟩
  have hcenter : IsHalves (x + 20 + (140 - 40) / 2) :=
    ((isHalves_add_ofNat x 20).2 hx).add ⟨100, by norm_num⟩
  constructor
  · simpa [drawBox] using ((isHalves_add_ofNat x 20).2 hx).add hwidth
  · simp [drawBox, Rect.numbers, hx, htop, hwidth, hheight]
  · simp only [drawBox, List.flatMap_append, allHalves_append]
    refine ⟨?_, allHalves_flatMap.2 fun p hp => ?_⟩
    · simp [wire, titleLabel, Primitive.numbers, Rect.numbers, hx, hy, htop, hwidth, hheight,
        hcenter]
    · obtain ⟨k, -, rfl⟩ := List.mem_mapIdx.1 hp
      have hk : IsHalves (13 * (k : Rat)) := by exact_mod_cast IsHalves.natCast (13 * k)
      have hline : IsHalves (y - boxHeight i.values.length / 2 + 29 + 13 * (k : Rat)) :=
        ((isHalves_add_ofNat _ 29).2 htop).add hk
      simp [operandLabel, Primitive.numbers, hcenter, hline]

theorem inHalves_drawInstruction (i : Instruction) :
    (drawInstruction .standard i x y).InHalves := by
  unfold drawInstruction cellWidth
  split
  · exact inHalves_drawContact hx hy i false
  · exact inHalves_drawContact hx hy i true
  · exact inHalves_drawCoil hx hy i .coil
  · exact inHalves_drawCoil hx hy i .coilLatch
  · exact inHalves_drawCoil hx hy i .coilUnlatch
  · exact inHalves_drawBox hx hy i
  · exact inHalves_drawGeneric hx hy i

end

theorem isHalves_cellWidth (i : Instruction) : IsHalves (cellWidth .standard i) := by
  unfold cellWidth
  split <;> exact isHalves_ofNat _

/-! ## Series -/

theorem Drawing.InHalves.append {a b : Drawing Rat} (ha : a.InHalves) (hb : b.InHalves) :
    (a.append b).InHalves where
  x := hb.x
  minY := isHalves_least ha.minY hb.minY
  maxY := isHalves_greatest ha.maxY hb.maxY
  primitives := by
    rw [Drawing.append_primitives, List.flatMap_append, allHalves_append]
    exact ⟨ha.primitives, hb.primitives⟩
  regions := by
    rw [Drawing.append_regions, List.flatMap_append, allHalves_append]
    exact ⟨ha.regions, hb.regions⟩

theorem inHalves_placeInstruction {ctx : Context Rat} (hctx : ctx.config = .standard)
    (i : Instruction) {x y : Rat} (hx : IsHalves x) (hy : IsHalves y) (index : Nat) :
    (placeInstruction ctx i x y index).InHalves := by
  have hsketch := inHalves_drawInstruction hx hy i
  have hend := hx.add (isHalves_cellWidth i)
  obtain ⟨-, htop, -, hheight⟩ : _ ∧ _ ∧ _ ∧ _ := by
    simpa [Rect.numbers] using hsketch.bounds
  rw [placeInstruction, hctx]
  refine ⟨hend, isHalves_least htop hy, isHalves_greatest (htop.add hheight) hy, ?_, ?_⟩
  · rw [List.flatMap_append, allHalves_append]
    refine ⟨hsketch.primitives, ?_⟩
    simp [wire, Primitive.numbers, hsketch.railOut, hy, hend]
  · simpa using hsketch.bounds

/-- The legs of a standard branch run at multiples of a half. -/
theorem isHalves_legY {y : Rat} (hy : IsHalves y) (n leg : Nat) :
    IsHalves (legY .standard y n leg) := by
  obtain ⟨m, rfl⟩ := hy
  refine ⟨m - 60 * n + 120 * leg + 60, ?_⟩
  simp only [legY, bandHeight, Config.standard]
  push_cast
  ring

theorem isHalves_mergeX {entryX : Rat} (hentry : IsHalves entryX)
    {legs : List (Drawing Rat × Rat)} (h : ∀ leg ∈ legs, leg.1.InHalves) :
    IsHalves (mergeX entryX legs) := by
  cases legs with
  | nil => exact hentry
  | cons first rest =>
    obtain ⟨hfirst, hrest⟩ := List.forall_mem_cons.1 h
    exact hentry.add (isHalves_greatestOf (hfirst.x.sub hentry)
      (List.forall_mem_map.2 fun leg hleg => (hrest leg hleg).x.sub hentry))

theorem allHalves_connector {x y x' y' : Rat} (hx : IsHalves x) (hy : IsHalves y)
    (hx' : IsHalves x') (hy' : IsHalves y') :
    AllHalves ((connector x y x' y').numbers) := by
  simp [connector, Primitive.numbers, hx, hy, hx', hy']

theorem allHalves_branchLines {x y : Rat} (hx : IsHalves x) (hy : IsHalves y)
    {legs : List (Drawing Rat × Rat)} (h : ∀ leg ∈ legs, IsHalves leg.2 ∧ leg.1.InHalves) :
    AllHalves ((branchLines .standard x y legs).flatMap Primitive.numbers) := by
  have hentry : IsHalves (x + 20) := (isHalves_add_ofNat x 20).2 hx
  have hmerge := isHalves_mergeX hentry fun leg hleg => (h leg hleg).2
  have hend : IsHalves (mergeX (x + 20) legs + 20) := (isHalves_add_ofNat _ 20).2 hmerge
  have hfan : (Config.standard : Config Rat).fanWidth = 20 := rfl
  rw [branchLines, hfan, List.flatMap_append, List.flatMap_append, allHalves_append,
    allHalves_append, List.flatMap_assoc]
  refine ⟨⟨?_, allHalves_flatMap.2 fun leg hleg => ?_⟩, ?_⟩
  · simpa using allHalves_connector hx hy hentry hy
  · obtain ⟨hy', hleg⟩ := h leg hleg
    have hout := allHalves_connector hentry hy hentry hy'
    have hback := allHalves_connector hmerge hy' hmerge hy
    have hrun := allHalves_connector hleg.x hy' hmerge hy'
    unfold legConnectors
    split <;> simp [hout, hback, hrun]
  · simpa using allHalves_connector hmerge hy hend hy

theorem inHalves_foldl_append {d : Drawing Rat} (hd : d.InHalves)
    {legs : List (Drawing Rat × Rat)} (h : ∀ leg ∈ legs, leg.1.InHalves) :
    (legs.foldl (fun d leg => d.append leg.1) d).InHalves := by
  induction legs generalizing d with
  | nil => exact hd
  | cons leg legs ih =>
    obtain ⟨hleg, hlegs⟩ := List.forall_mem_cons.1 h
    exact ih (hd.append hleg) hlegs

theorem inHalves_joinLegs {ctx : Context Rat} (hctx : ctx.config = .standard) {x y : Rat}
    (hx : IsHalves x) (hy : IsHalves y) (index : Nat) {legs : List (Drawing Rat × Rat)}
    (h : ∀ leg ∈ legs, IsHalves leg.2 ∧ leg.1.InHalves) :
    (joinLegs ctx x y index legs).InHalves := by
  match legs with
  | [] => exact ⟨hx, hy, hy, allHalves_nil, allHalves_nil⟩
  | first :: rest =>
    have hlines := allHalves_branchLines hx hy h
    have hlegs : ∀ leg ∈ first :: rest, leg.1.InHalves := fun leg hleg => (h leg hleg).2
    have hend : IsHalves (mergeX (x + 20) (first :: rest) + 20) :=
      (isHalves_add_ofNat _ 20).2
        (isHalves_mergeX ((isHalves_add_ofNat x 20).2 hx) hlegs)
    have hband : IsHalves (bandHeight .standard (first :: rest).length / 2) :=
      ⟨60 * (first :: rest).length, by simp only [bandHeight, Config.standard]; push_cast; ring⟩
    -- the branch itself is in halves, and so are the legs that are appended to it
    have hwhole := inHalves_foldl_append
      (d := ⟨x, index, y - bandHeight .standard (first :: rest).length / 2,
        y + bandHeight .standard (first :: rest).length / 2,
        branchLines .standard x y (first :: rest), [],
        [branchGeometry ctx x y (first :: rest)]⟩)
      ⟨hx, hy.sub hband, hy.add hband, hlines, allHalves_nil⟩ hlegs
    obtain ⟨c, rung, path⟩ := ctx
    obtain rfl : c = .standard := hctx
    exact ⟨hend, hwhole.minY, hwhole.maxY, hwhole.primitives, hwhole.regions⟩

/-- **A series is drawn in halves**, with the standard distances, if it starts there. -/
theorem inHalves_drawSeries {ctx : Context Rat} (hctx : ctx.config = .standard) (es : Series)
    {x y : Rat} (hx : IsHalves x) (hy : IsHalves y) (index : Nat) :
    (drawSeries ctx x y index es).InHalves := by
  revert hx hy
  refine drawSeries_invariant (fun x y d => IsHalves x → IsHalves y → d.InHalves)
    (fun x y index hx hy => ?start) (fun x y a b ha hb hx hy => ?append)
    (fun ctx i x y index hctx hx hy => inHalves_placeInstruction hctx i hx hy index)
    (fun ctx x y index legs hctx hlegs h hx hy => ?join) es ctx x y index hctx
  case start => exact ⟨hx, hy, hy, allHalves_nil, allHalves_nil⟩
  case append => exact (ha hx hy).append (hb (ha hx hy).x hy)
  case join =>
    refine inHalves_joinLegs hctx hx hy index fun leg hleg => ?_
    have hy' : IsHalves leg.2 := by
      have hmem : leg.2 ∈ legs.map Prod.snd := List.mem_map_of_mem hleg
      rw [hlegs] at hmem
      obtain ⟨k, -, hk⟩ := List.mem_map.1 hmem
      exact hk ▸ isHalves_legY hy legs.length k
    exact ⟨hy', h leg hleg ((isHalves_add_ofNat x 20).2 hx) hy'⟩

/-! ## Lines and texts -/

/-- No line is thicker and no text higher than 12. -/
def Primitive.IsFine (p : Primitive Rat) : Prop := 0 ≤ p.weight ∧ p.weight ≤ 12

theorem isFine_wire (x y x' y' : Rat) : (wire x y x' y').IsFine :=
  (by decide : (0 : Rat) ≤ 2 ∧ (2 : Rat) ≤ 12)

theorem isFine_connector (x y x' y' : Rat) : (connector x y x' y').IsFine :=
  isFine_wire x y x' y'

theorem isFine_stroke (x y x' y' : Rat) : (stroke x y x' y').IsFine :=
  isFine_wire x y x' y'

theorem isFine_text {size : Rat} (h : 0 ≤ size ∧ size ≤ 12) (x y : Rat) (text : String) :
    (operandLabel x y text size).IsFine ∧ (titleLabel x y text size).IsFine :=
  ⟨h, h⟩

theorem isFine_drawInstruction (c : Config Rat) (i : Instruction) (x y : Rat) :
    ∀ p ∈ (drawInstruction c i x y).primitives, p.IsFine := by
  have hten := isFine_text (by decide : (0 : Rat) ≤ 10 ∧ (10 : Rat) ≤ 12)
  have heleven := isFine_text (by decide : (0 : Rat) ≤ 11 ∧ (11 : Rat) ≤ 12)
  have htwelve := isFine_text (by decide : (0 : Rat) ≤ 12 ∧ (12 : Rat) ≤ 12)
  have hrect (r : Rect Rat) (role : Role) : (Primitive.rect r role).IsFine :=
    isFine_wire 0 0 0 0
  have hcircle (c : Circle Rat) (role : Role) : (Primitive.circle c role).IsFine :=
    isFine_wire 0 0 0 0
  unfold drawInstruction
  cases glyphOf i with
  | box =>
    refine List.forall_mem_append.2 ⟨by simp [isFine_wire, hrect, htwelve], fun p hp => ?_⟩
    obtain ⟨k, -, rfl⟩ := List.mem_mapIdx.1 hp
    exact (heleven _ _ _).1
  | generic =>
    cases hempty : i.values.isEmpty <;>
      simp [drawGeneric, hempty, isFine_wire, hrect, heleven, hten]
  | _ =>
    simp [drawContact, drawCoil, coilLetter, isFine_wire, isFine_stroke, hcircle, heleven]

/-- **No line of a drawn series is thicker and no text higher than 12.** -/
theorem isFine_drawSeries (ctx : Context Rat) (es : Series) (x y : Rat) (index : Nat) :
    ∀ p ∈ (drawSeries ctx x y index es).primitives, p.IsFine := by
  refine drawSeries_invariant (fun _ _ d => ∀ p ∈ d.primitives, p.IsFine)
    (fun x y index => ?start) (fun x y a b ha hb => ?append)
    (fun ctx i x y index _ => ?instr) (fun ctx x y index legs _ _ h => ?join) es ctx x y index rfl
  case start => exact List.forall_mem_nil _
  case append => exact List.forall_mem_append.2 ⟨ha, hb⟩
  case instr =>
    simp only [placeInstruction, List.forall_mem_append, List.forall_mem_singleton]
    exact ⟨isFine_drawInstruction ctx.config i x y, isFine_wire _ _ _ _⟩
  case join =>
    by_cases hne : legs = []
    · subst hne
      exact List.forall_mem_nil _
    have hconnectors {entryX mergeX : Rat} (leg : Drawing Rat × Rat) :
        ∀ p ∈ legConnectors y entryX mergeX leg.1 leg.2, p.IsFine := by
      unfold legConnectors
      split <;> simp [isFine_connector]
    rw [primitives_joinLegs ctx x y index hne, branchLines]
    simp only [List.forall_mem_append, List.forall_mem_singleton, List.forall_mem_flatMap]
    exact ⟨⟨⟨isFine_connector _ _ _ _, fun leg _ => hconnectors leg⟩, isFine_connector _ _ _ _⟩, h⟩

/-! ## Diagrams -/

/-- **All positions and sizes in the diagram of a rung are multiples of a half**, with the standard
    distances. -/
theorem allHalves_layout (es : Series) (rung : Int) :
    let d := layout es rung .standard
    (IsHalves d.width ∧ IsHalves d.height ∧ IsHalves d.top) ∧
      AllHalves (d.primitives.flatMap Primitive.numbers) ∧
      AllHalves (d.regions.flatMap (·.bounds.numbers)) := by
  intro d
  have hbody : (placeRung .standard rung es).InHalves :=
    inHalves_drawSeries rfl es (isHalves_ofNat 40) (isHalves_ofNat 45) 0
  have hwidth : IsHalves d.width := (isHalves_add_ofNat _ 50).2 hbody.x
  have htop : IsHalves d.top :=
    isHalves_least (isHalves_ofNat 0) ((isHalves_sub_ofNat _ 10).2 hbody.minY)
  have hbottom : IsHalves (d.top + d.height) := by
    rw [bottom_layout]
    exact isHalves_greatest ((isHalves_add_ofNat _ 30).2 hbody.maxY) (isHalves_ofNat 80)
  have hheight : IsHalves d.height := by simpa using hbottom.sub htop
  refine ⟨⟨hwidth, hheight, htop⟩, ?_, hbody.regions⟩
  rw [primitives_layout, List.flatMap_append, allHalves_append]
  refine ⟨?_, hbody.primitives⟩
  have hright : IsHalves (d.width - 20) := (isHalves_sub_ofNat _ 20).2 hwidth
  have hupper : IsHalves (d.top + 10) := (isHalves_add_ofNat _ 10).2 htop
  have hlower : IsHalves (d.top + d.height - 10) := (isHalves_sub_ofNat _ 10).2 hbottom
  have hrail {x y : Rat} (hx : IsHalves x) (hy : IsHalves y) {x' y' : Rat} (hx' : IsHalves x')
      (hy' : IsHalves y') : AllHalves (wire x y x' y').numbers ∧
        AllHalves (powerRail x y y').numbers := by
    simp [wire, powerRail, Primitive.numbers, hx, hy, hx', hy']
  have hleft : IsHalves 20 := isHalves_ofNat 20
  have hmain : IsHalves 45 := isHalves_ofNat 45
  simp only [List.flatMap_cons, List.flatMap_nil, allHalves_append]
  exact ⟨(hrail hleft hupper hleft hlower).2, (hrail hright hupper hright hlower).2,
    (hrail hleft hmain (isHalves_ofNat 40) hmain).1, (hrail hbody.x hmain hright hmain).1,
    allHalves_nil⟩

theorem isFine_layout (es : Series) (rung : Int) (c : Config Rat) :
    ∀ p ∈ (layout es rung c).primitives, p.IsFine := by
  have hrail : ∀ x y y' : Rat, (powerRail x y y').IsFine := fun _ _ _ =>
    (by decide : (0 : Rat) ≤ 3 ∧ (3 : Rat) ≤ 12)
  rw [primitives_layout, placeRung_eq]
  refine List.forall_mem_append.2 ⟨?_, isFine_drawSeries _ es _ _ _⟩
  simp [hrail, isFine_wire]

theorem Between.rect_numbers {r : Rect Rat} {width top bottom bound : Rat}
    (hxs : Between 0 width r.xs) (hys : Between top bottom r.ys) (hwidth : width < bound)
    (htop : -bound < top) (hbottom : bottom < bound) (hheight : bottom - top < bound) :
    ∀ v ∈ r.numbers, -bound < v ∧ v < bound := by
  simp only [Rect.xs, Rect.ys, Rect.right, Rect.bottom, between_cons, between_nil, and_true]
    at hxs hys
  simp only [Rect.numbers, List.forall_mem_cons]
  refine ⟨?_, ?_, ?_, ?_, List.forall_mem_nil _⟩ <;> constructor <;> linarith

/-- What is drawn between the sides of a frame has only numbers that the frame allows. -/
theorem Between.numbers {p : Primitive Rat} {width top bottom bound : Rat}
    (hxs : Between 0 width p.xs) (hys : Between top bottom p.ys) (hfine : p.IsFine)
    (hwidth : width < bound) (htop : -bound < top) (hbottom : bottom < bound)
    (hheight : bottom - top < bound) (hbound : 12 < bound) :
    ∀ v ∈ p.numbers, -bound < v ∧ v < bound := by
  obtain ⟨hfine0, hfine12⟩ := hfine
  cases p with
  | rect r role =>
    refine List.forall_mem_append.2
      ⟨hxs.rect_numbers hys hwidth htop hbottom hheight, List.forall_mem_singleton.2 ?_⟩
    constructor <;> linarith
  | _ =>
    simp only [Primitive.xs, Primitive.ys, Primitive.weight, between_cons, between_nil, and_true]
      at hxs hys hfine0 hfine12
    simp only [Primitive.numbers, List.forall_mem_cons, List.not_mem_nil, false_implies,
      implies_true, and_true]
    constructorm* _ ∧ _ <;> linarith

/-- **All positions and sizes in the diagram of a rung are smaller than a bound that its width and
    its height do not reach.** -/
theorem numbers_layout_lt {es : Series} {rung : Int} {bound : Rat}
    (hwidth : (layout es rung .standard).width < bound)
    (hheight : (layout es rung .standard).height < bound) :
    let d := layout es rung .standard
    (-bound < d.top ∧ d.top ≤ 0) ∧ (0 ≤ d.width ∧ 80 ≤ d.height) ∧
      (∀ v ∈ d.primitives.flatMap Primitive.numbers, -bound < v ∧ v < bound) ∧
      ∀ v ∈ d.regions.flatMap (·.bounds.numbers), -bound < v ∧ v < bound := by
  intro d
  have hsides : (Config.standard : Config Rat).Sided := by constructor <;> decide
  obtain ⟨hprimitives, hregions⟩ := coordinates_layout es rung Config.ample_standard (by decide)
    hsides (by decide) (by decide)
  have htop : d.top ≤ 0 := least_le_left _ _
  have hbottom : 80 ≤ d.top + d.height := by
    rw [bottom_layout]
    exact le_greatest_right _ _
  have hframe : -bound < d.top ∧ d.top + d.height < bound ∧
      d.top + d.height - d.top < bound := by
    refine ⟨?_, ?_, ?_⟩ <;> linarith
  obtain ⟨hlow, hhigh, hsize⟩ := hframe
  have hright : 0 ≤ d.width := by
    have hstart : (40 : Rat) ≤ (placeRung .standard rung es).x :=
      (goesAcross_drawSeries ⟨.standard, rung, []⟩ Config.ample_standard es 40 45 0).le
    have hend : d.width = (placeRung .standard rung es).x + 50 := rfl
    linarith
  refine ⟨⟨hlow, htop⟩, ⟨hright, by linarith⟩, fun v hv => ?_, fun v hv => ?_⟩
  · obtain ⟨p, hp, hv⟩ := List.mem_flatMap.1 hv
    obtain ⟨hxs, hys⟩ := hprimitives p hp
    exact hxs.numbers hys (isFine_layout es rung _ p hp) hwidth hlow hhigh hsize (by linarith) v hv
  · obtain ⟨r, hr, hv⟩ := List.mem_flatMap.1 hv
    obtain ⟨hxs, hys⟩ := hregions r hr
    exact hxs.rect_numbers hys hwidth hlow hhigh hsize v hv

end Layout

end RelayLadder
