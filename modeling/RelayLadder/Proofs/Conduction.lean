/-
  Every drawn instruction lies on a conducting way from the left power rail to the right one.

  Wires and connectors conduct, and so does the glyph of an instruction, from the wire that leads
  into it to the one that leads out of it.

  * `Net` is what conducts in a drawing; `Net.Joins` is one step in it, to the right or straight up
    or down, and `Net.Path` is any number of them;
  * `Wired` is what a drawing keeps: it conducts from its left to its right end, through each of its
    glyphs, and along each leg of its branches;
  * `conducts_layout`: so does the diagram of a rung, from one power rail to the other.
-/
import Mathlib.Algebra.Group.Even
import Mathlib.Data.List.Forall2
import Mathlib.Logic.Relation
import Mathlib.Tactic.CasesM
import RelayLadder.Proofs.BranchTree
import RelayLadder.Proofs.Extents
import RelayLadder.Proofs.Regions

namespace RelayLadder

namespace Layout

/-! ## What conducts -/

/-- A point of a drawing. -/
abbrev Point := Rat × Rat

/-- Where a line starts. -/
def Line.start (l : Line Rat) : Point := (l.x1, l.y1)

/-- Where a line stops. -/
def Line.stop (l : Line Rat) : Point := (l.x2, l.y2)

/-- The lines that are wires or parts of branches conduct. -/
def Role.conducts : Role → Bool
  | .wire | .branch => true
  | .rail | .glyph => false

/-- What conducts: lines, and glyphs between a wire into them and a wire out of them. -/
structure Net where
  lines : List (Line Rat)
  glyphs : List (Line Rat × Line Rat)

/-- The items of a list two by two. -/
def pairUp {β : Type} : List β → List (β × β)
  | a :: b :: rest => (a, b) :: pairUp rest
  | _ => []

/-- What conducts in a diagram.  Wires are drawn two for each instruction, in reading order, behind
    those of the two power rails. -/
def Diagram.net (d : Diagram Rat) : Net where
  lines := d.lines Role.conducts
  glyphs := pairUp ((d.lines (· == .wire)).drop 2)

namespace Net

/-- One conducting step that does not go to the left: along a line, or through a glyph from the end
    of the wire into it to the start of the wire out of it. -/
inductive Joins (net : Net) : Point → Point → Prop
  | line {l : Line Rat} (h : l ∈ net.lines) (hx : l.x1 ≤ l.x2) : Joins net l.start l.stop
  | glyph {w : Line Rat × Line Rat} (h : w ∈ net.glyphs) (hx : w.1.x2 ≤ w.2.x1) :
    Joins net w.1.stop w.2.start

/-- A conducting way, step by step. -/
abbrev Path (net : Net) : Point → Point → Prop := Relation.ReflTransGen net.Joins

/-- A conducting way from `a` to `b` through a glyph and along the wires into and out of it. -/
structure Through (net : Net) (a b : Point) (w : Line Rat × Line Rat) : Prop where
  before : net.Path a w.1.start
  lead : net.Joins w.1.start w.1.stop
  glyph : net.Joins w.1.stop w.2.start
  tail : net.Joins w.2.start w.2.stop
  after : net.Path w.2.stop b

/-- A conducting way along a leg of a branch, which runs at `y` and whose elements reach `endX`:
    from the split of the branch to the leg, on its rail, and back where the legs merge. -/
structure Along (net : Net) (g : BranchGeometry Rat) (y endX : Rat) : Prop where
  split : net.Joins (g.entryX, g.mainY) (g.entryX, y)
  rail : net.Path (g.entryX, y) (endX, y)
  filler : net.Path (endX, y) (g.mergeX, y)
  merge : net.Joins (g.mergeX, y) (g.mergeX, g.mainY)

/-! ## Larger nets -/

/-- All that conducts in one net does in the other. -/
structure Within (small large : Net) : Prop where
  lines : small.lines ⊆ large.lines
  glyphs : small.glyphs ⊆ large.glyphs

namespace Within

variable {small large : Net} (h : small.Within large) {a b : Point}
include h

theorem joins (hjoin : small.Joins a b) : large.Joins a b := by
  cases hjoin with
  | line hl hx => exact .line (h.lines hl) hx
  | glyph hw hx => exact .glyph (h.glyphs hw) hx

theorem path (hpath : small.Path a b) : large.Path a b :=
  Relation.ReflTransGen.mono (fun _ _ => h.joins) _ _ hpath

theorem through {w : Line Rat × Line Rat} (hw : small.Through a b w) : large.Through a b w :=
  ⟨h.path hw.before, h.joins hw.lead, h.joins hw.glyph, h.joins hw.tail, h.path hw.after⟩

theorem along {g : BranchGeometry Rat} {y endX : Rat} (hleg : small.Along g y endX) :
    large.Along g y endX :=
  ⟨h.joins hleg.split, h.path hleg.rail, h.path hleg.filler, h.joins hleg.merge⟩

end Within

/-- A way through a glyph may start earlier and go on. -/
theorem Through.extend {net : Net} {a b a' b' : Point} {w : Line Rat × Line Rat}
    (h : net.Through a b w) (hbefore : net.Path a' a) (hafter : net.Path b b') :
    net.Through a' b' w :=
  { h with before := hbefore.trans h.before, after := h.after.trans hafter }

/-- The way along a leg, from end to end of the branch's split and merge. -/
theorem Along.path {net : Net} {g : BranchGeometry Rat} {y endX : Rat} (h : net.Along g y endX) :
    net.Path (g.entryX, g.mainY) (g.mergeX, g.mainY) :=
  .head h.split ((h.rail.trans h.filler).tail h.merge)

end Net

/-! ## Lines of drawings -/

section
variable {β : Type}

theorem pairUp_append {a : List β} (ha : Even a.length) (b : List β) :
    pairUp (a ++ b) = pairUp a ++ pairUp b := by
  match a with
  | [] => rfl
  | [_] => simp at ha
  | x :: y :: a =>
    have ha' : Even a.length := by simpa [Nat.even_add_one] using ha
    simp only [List.cons_append, pairUp, pairUp_append ha' b]

theorem pairUp_flatMap {γ : Type} {f : γ → List β} {cs : List γ}
    (h : ∀ c ∈ cs, Even (f c).length) :
    pairUp (cs.flatMap f) = cs.flatMap (fun c => pairUp (f c)) ∧ Even (cs.flatMap f).length := by
  induction cs with
  | nil => simp [pairUp]
  | cons c cs ih =>
    obtain ⟨hpairs, heven⟩ := ih fun c hc => h c (List.mem_cons_of_mem _ hc)
    have hc := h c List.mem_cons_self
    refine ⟨?_, ?_⟩
    · rw [List.flatMap_cons, List.flatMap_cons, pairUp_append hc, hpairs]
    · rw [List.flatMap_cons, List.length_append]
      exact hc.add heven

end

/-- The lines among some primitives whose role is wanted. -/
def linesOf (wanted : Role → Bool) (ps : List (Primitive Rat)) : List (Line Rat) :=
  ps.filterMap fun
    | .line l => if wanted l.role then some l else none
    | _ => none

theorem linesOf_append (wanted : Role → Bool) (a b : List (Primitive Rat)) :
    linesOf wanted (a ++ b) = linesOf wanted a ++ linesOf wanted b := List.filterMap_append

theorem linesOf_flatMap {γ : Type} (wanted : Role → Bool) (f : γ → List (Primitive Rat))
    (cs : List γ) : linesOf wanted (cs.flatMap f) = cs.flatMap fun c => linesOf wanted (f c) := by
  induction cs with
  | nil => rfl
  | cons c cs ih => rw [List.flatMap_cons, linesOf_append, ih, List.flatMap_cons]

theorem lines_eq_linesOf (d : Diagram Rat) (wanted : Role → Bool) :
    d.lines wanted = linesOf wanted d.primitives := by
  unfold Diagram.lines linesOf
  congr 1
  funext p
  cases p <;> rfl

/-- The wires among some primitives. -/
abbrev wiresOf (ps : List (Primitive Rat)) : List (Line Rat) := linesOf (· == .wire) ps

/-- What conducts in a drawing. -/
def Drawing.net (d : Drawing Rat) : Net where
  lines := linesOf Role.conducts d.primitives
  glyphs := pairUp (wiresOf d.primitives)

/-! ## What a drawing keeps -/

theorem forall₂_flatMap {β γ δ : Type} {R : β → γ → Prop} {f : δ → List β} {g : δ → List γ}
    {ds : List δ} (h : ∀ d ∈ ds, List.Forall₂ R (f d) (g d)) :
    List.Forall₂ R (ds.flatMap f) (ds.flatMap g) := by
  induction ds with
  | nil => exact .nil
  | cons d ds ih =>
    rw [List.flatMap_cons, List.flatMap_cons]
    exact List.rel_append (h d List.mem_cons_self) (ih fun d hd => h d (List.mem_cons_of_mem _ hd))

/-- The wires lead into and out of the area. -/
def Crosses (w : Line Rat × Line Rat) (r : HitRegion Rat) : Prop :=
  r.bounds.contains w.1.x2 w.1.y2 = true ∧ r.bounds.contains w.2.x1 w.2.y1 = true

/-- The drawing conducts from its left end at `(x, y)` to its right end, through each of its glyphs,
    and along each leg of its branches.  There are two wires for each area, which lead into and out
    of it. -/
structure Wired (x y : Rat) (d : Drawing Rat) : Prop where
  even : Even (wiresOf d.primitives).length
  crosses : List.Forall₂ Crosses d.net.glyphs d.regions
  path : d.net.Path (x, y) (d.x, y)
  through : ∀ w ∈ d.net.glyphs, d.net.Through (x, y) (d.x, y) w
  along : ∀ g ∈ d.branches, List.Forall₂ (d.net.Along g) g.legYs g.legEndXs

theorem Net.Within.forall₂_along {small large : Net} (h : small.Within large)
    {g : BranchGeometry Rat} (hg : List.Forall₂ (small.Along g) g.legYs g.legEndXs) :
    List.Forall₂ (large.Along g) g.legYs g.legEndXs :=
  hg.imp fun _ _ => h.along

theorem glyphs_append {a b : Drawing Rat} (ha : Even (wiresOf a.primitives).length) :
    (a.append b).net.glyphs = a.net.glyphs ++ b.net.glyphs := by
  simp only [Drawing.net, Drawing.append_primitives, wiresOf, linesOf_append]
  exact pairUp_append ha _

theorem Wired.append {x y : Rat} {a b : Drawing Rat} (ha : Wired x y a) (hb : Wired a.x y b) :
    Wired x y (a.append b) := by
  have hglyphs := glyphs_append (b := b) ha.even
  have hlines : (a.append b).net.lines = a.net.lines ++ b.net.lines := linesOf_append _ _ _
  have hleft : a.net.Within (a.append b).net :=
    ⟨by simp [hlines], by simp [hglyphs]⟩
  have hright : b.net.Within (a.append b).net :=
    ⟨by simp [hlines], by simp [hglyphs]⟩
  refine ⟨?_, ?_, (hleft.path ha.path).trans (hright.path hb.path), fun w hw => ?_,
    fun g hg => ?_⟩
  · simp only [Drawing.append_primitives, wiresOf, linesOf_append, List.length_append]
    exact ha.even.add hb.even
  · rw [hglyphs]
    exact List.rel_append ha.crosses hb.crosses
  · rw [hglyphs, List.mem_append] at hw
    rcases hw with hw | hw
    · exact (hleft.through (ha.through w hw)).extend .refl (hright.path hb.path)
    · exact (hright.through (hb.through w hw)).extend (hleft.path ha.path) .refl
  · rcases List.mem_append.1 hg with hg | hg
    · exact hleft.forall₂_along (ha.along g hg)
    · exact hright.forall₂_along (hb.along g hg)

/-! ## Single instructions -/

/-- The glyphs fit between the two ends of their cells. -/
structure Config.HoldsGlyphs (c : Config Rat) : Prop where
  contact : 45 ≤ c.contactCell
  box : 40 ≤ c.boxCell
  generic : 90 ≤ c.genericCell

/-- One wire of the sketch leads from `(x, y)` to its area, at `leadX`, and on from its area at the
    point where the wire goes on. -/
structure Sketch.TakesWire (s : Sketch Rat) (x y leadX : Rat) : Prop where
  lines : linesOf Role.conducts s.primitives = [⟨x, y, leadX, y, .wire, 2⟩]
  wires : wiresOf s.primitives = [⟨x, y, leadX, y, .wire, 2⟩]
  order : x ≤ leadX ∧ leadX ≤ s.railOut
  enters : s.bounds.contains leadX y = true
  leaves : s.bounds.contains s.railOut y = true

theorem takesWire_drawContact (i : Instruction) (closed : Bool) (x y : Rat) :
    (drawContact i closed x y).TakesWire x y (x + 30) := by
  refine ⟨by cases closed <;> rfl, by cases closed <;> rfl, ?_, ?_, ?_⟩ <;>
    simp only [drawContact, Rect.contains_iff, Rect.right, Rect.bottom] <;>
    constructorm* _ ∧ _ <;> linarith

theorem takesWire_drawCoil (i : Instruction) (glyph : Glyph) (x y : Rat) :
    (drawCoil i glyph x y).TakesWire x y (x + 30) := by
  refine ⟨by cases glyph <;> rfl, by cases glyph <;> rfl, ?_, ?_, ?_⟩ <;>
    simp only [drawCoil, Rect.contains_iff, Rect.right, Rect.bottom] <;>
    constructorm* _ ∧ _ <;> linarith

theorem takesWire_drawGeneric (i : Instruction) (x y : Rat) :
    (drawGeneric i x y).TakesWire x y (x + 20) := by
  have hlines (wanted : Role → Bool) (hwire : wanted .wire = true) :
      linesOf wanted (drawGeneric i x y).primitives = [⟨x, y, x + 20, y, .wire, 2⟩] := by
    simp only [drawGeneric]
    split <;> simp [linesOf, wire, titleLabel, operandLabel, hwire]
  refine ⟨hlines _ rfl, hlines _ rfl, ?_, ?_, ?_⟩ <;>
    simp only [drawGeneric, Rect.contains_iff, Rect.right, Rect.bottom] <;>
    constructorm* _ ∧ _ <;> linarith

/-- The operands of a box are texts, not lines. -/
theorem linesOf_operandLabels (wanted : Role → Bool) (values : List String) (x : Rat)
    (y : Nat → Rat) :
    linesOf wanted (values.mapIdx fun k value => operandLabel x (y k) value 11) = [] := by
  refine List.filterMap_eq_nil_iff.2 fun p hp => ?_
  obtain ⟨k, -, rfl⟩ := List.mem_mapIdx.1 hp
  rfl

theorem takesWire_drawBox (i : Instruction) (x y : Rat) {cell : Rat} (hcell : 40 ≤ cell) :
    (drawBox i x y cell).TakesWire x y (x + 20) := by
  have hheight := boxHeight_pos i.values.length
  have hlines (wanted : Role → Bool) (hwire : wanted .wire = true) :
      linesOf wanted (drawBox i x y cell).primitives = [⟨x, y, x + 20, y, .wire, 2⟩] := by
    simp only [drawBox, linesOf_append, linesOf_operandLabels]
    simp [linesOf, wire, titleLabel, hwire]
  refine ⟨hlines _ rfl, hlines _ rfl, ?_, ?_, ?_⟩ <;>
    simp only [drawBox, Rect.contains_iff, Rect.right, Rect.bottom] <;>
    constructorm* _ ∧ _ <;> linarith

/-- An instruction takes the wire at the left end of its cell into its area, and on from there to
    the right end. -/
theorem exists_takesWire {c : Config Rat} (hc : c.HoldsGlyphs) (i : Instruction) (x y : Rat) :
    (∃ leadX, (drawInstruction c i x y).TakesWire x y leadX) ∧
      (drawInstruction c i x y).railOut ≤ x + cellWidth c i := by
  obtain ⟨hcontact, hbox, hgeneric⟩ := hc
  unfold drawInstruction cellWidth
  split
  · exact ⟨⟨_, takesWire_drawContact i false x y⟩, by simp only [drawContact]; linarith⟩
  · exact ⟨⟨_, takesWire_drawContact i true x y⟩, by simp only [drawContact]; linarith⟩
  · exact ⟨⟨_, takesWire_drawCoil i .coil x y⟩, by simp only [drawCoil]; linarith⟩
  · exact ⟨⟨_, takesWire_drawCoil i .coilLatch x y⟩, by simp only [drawCoil]; linarith⟩
  · exact ⟨⟨_, takesWire_drawCoil i .coilUnlatch x y⟩, by simp only [drawCoil]; linarith⟩
  · exact ⟨⟨_, takesWire_drawBox i x y hbox⟩, by simp only [drawBox]; linarith⟩
  · exact ⟨⟨_, takesWire_drawGeneric i x y⟩, by simp only [drawGeneric]; linarith⟩

theorem wired_start (x y : Rat) (index : Nat) : Wired x y (.start x y index) := by
  have hnet : (Drawing.start x y index).net = ⟨[], []⟩ := rfl
  refine ⟨⟨0, rfl⟩, ?_, .refl, fun w hw => ?_, fun g hg => ?_⟩
  · rw [hnet]
    exact .nil
  · rw [hnet] at hw
    cases hw
  · cases hg

/-- A drawing of one area with a wire into it and a wire out of it conducts. -/
theorem wired_of_wires (leadX : Rat) {x y outX : Rat} {d : Drawing Rat} {r : HitRegion Rat}
    (hlines : linesOf Role.conducts d.primitives =
      [⟨x, y, leadX, y, .wire, 2⟩, ⟨outX, y, d.x, y, .wire, 2⟩])
    (hwires : wiresOf d.primitives =
      [⟨x, y, leadX, y, .wire, 2⟩, ⟨outX, y, d.x, y, .wire, 2⟩])
    (hregions : d.regions = [r]) (hbranches : d.branches = [])
    (hlead : x ≤ leadX) (hglyph : leadX ≤ outX) (htail : outX ≤ d.x)
    (henters : r.bounds.contains leadX y = true) (hleaves : r.bounds.contains outX y = true) :
    Wired x y d := by
  generalize hl : (⟨x, y, leadX, y, .wire, 2⟩ : Line Rat) = lead at hlines hwires
  generalize ht : (⟨outX, y, d.x, y, .wire, 2⟩ : Line Rat) = tail at hlines hwires
  have hnet : d.net = ⟨[lead, tail], [(lead, tail)]⟩ := by
    rw [Drawing.net, hlines, hwires, pairUp, pairUp]
    simp
  -- the three steps from end to end
  have hinto : d.net.Joins lead.start lead.stop := .line (by simp [hnet]) (hl ▸ hlead)
  have hthrough : d.net.Joins lead.stop tail.start :=
    .glyph (w := (lead, tail)) (by simp [hnet]) (by subst hl ht; exact hglyph)
  have hout : d.net.Joins tail.start tail.stop := .line (by simp [hnet]) (ht ▸ htail)
  have hstart : (x, y) = lead.start := by subst hl; rfl
  have hstop : (d.x, y) = tail.stop := by subst ht; rfl
  refine ⟨?_, ?_, ?_, fun w hw => ?_, ?_⟩
  · rw [hwires]
    exact ⟨1, rfl⟩
  · rw [hnet, hregions]
    exact .cons (by subst hl ht; exact ⟨henters, hleaves⟩) .nil
  · rw [hstart, hstop]
    exact .head hinto (.head hthrough (.single hout))
  · obtain rfl : w = (lead, tail) := by simpa [hnet] using hw
    rw [hstart, hstop]
    exact ⟨.refl, hinto, hthrough, hout, .refl⟩
  · rw [hbranches]
    nofun

theorem wired_placeInstruction {ctx : Context Rat} (hc : ctx.config.HoldsGlyphs) (i : Instruction)
    (x y : Rat) (index : Nat) : Wired x y (placeInstruction ctx i x y index) := by
  obtain ⟨⟨leadX, hlines, hwires, ⟨hlead, hglyph⟩, henters, hleaves⟩, htail⟩ :=
    exists_takesWire hc i x y
  refine wired_of_wires leadX ?_ ?_ rfl rfl hlead hglyph htail henters hleaves
  · simp only [placeInstruction]
    rw [linesOf_append, hlines]
    rfl
  · simp only [placeInstruction]
    rw [wiresOf, linesOf_append, ← wiresOf, hwires]
    rfl

/-! ## Branches -/

theorem joins_connector {d : Drawing Rat} {x1 y1 x2 y2 : Rat}
    (h : connector x1 y1 x2 y2 ∈ d.primitives) (hx : x1 ≤ x2) : d.net.Joins (x1, y1) (x2, y2) := by
  have hline : (⟨x1, y1, x2, y2, .branch, 2⟩ : Line Rat) ∈ d.net.lines :=
    List.mem_filterMap.2 ⟨_, h, rfl⟩
  exact .line hline hx

theorem wiresOf_branchLines (c : Config Rat) (x y : Rat) (legs : List (Drawing Rat × Rat)) :
    wiresOf (branchLines c x y legs) = [] := by
  refine List.filterMap_eq_nil_iff.2 fun p hp => ?_
  simp only [branchLines, legConnectors, List.mem_append, List.mem_flatMap, List.mem_singleton]
    at hp
  rcases hp with (rfl | ⟨leg, -, (rfl | hp) | rfl⟩) | rfl
  · rfl
  · rfl
  · split at hp
    · rw [List.mem_singleton.1 hp]
      rfl
    · cases hp
  · rfl
  · rfl

section
variable (ctx : Context Rat) (x y : Rat) (index : Nat) {legs : List (Drawing Rat × Rat)}

/-- The glyphs of a branch are those of its legs. -/
theorem glyphs_joinLegs (hne : legs ≠ [])
    (h : ∀ leg ∈ legs, Even (wiresOf leg.1.primitives).length) :
    (joinLegs ctx x y index legs).net.glyphs = legs.flatMap (·.1.net.glyphs) ∧
      Even (wiresOf (joinLegs ctx x y index legs).primitives).length := by
  have hwires : wiresOf (joinLegs ctx x y index legs).primitives =
      legs.flatMap fun leg => wiresOf leg.1.primitives := by
    rw [primitives_joinLegs ctx x y index hne, wiresOf, linesOf_append, ← wiresOf,
      wiresOf_branchLines, List.nil_append, linesOf_flatMap]
  rw [Drawing.net, hwires]
  exact pairUp_flatMap h

theorem within_joinLegs (hne : legs ≠ [])
    (h : ∀ leg ∈ legs, Even (wiresOf leg.1.primitives).length) {leg : Drawing Rat × Rat}
    (hleg : leg ∈ legs) :
    leg.1.net.Within (joinLegs ctx x y index legs).net := by
  refine ⟨fun l hl => ?_, fun w hw => ?_⟩
  · simp only [Drawing.net] at hl ⊢
    rw [primitives_joinLegs ctx x y index hne, linesOf_append, linesOf_flatMap]
    exact List.mem_append_right _ (List.mem_flatMap.2 ⟨leg, hleg, hl⟩)
  · rw [(glyphs_joinLegs ctx x y index hne h).1]
    exact List.mem_flatMap.2 ⟨leg, hleg, hw⟩

/-- A branch conducts along each of its legs. -/
theorem along_joinLegs (h : ∀ leg ∈ legs, Wired (x + ctx.config.fanWidth) leg.2 leg.1)
    {leg : Drawing Rat × Rat} (hleg : leg ∈ legs) :
    (joinLegs ctx x y index legs).net.Along (branchGeometry ctx x y legs) leg.2 leg.1.x := by
  have hne : legs ≠ [] := List.ne_nil_of_mem hleg
  have hwithin := within_joinLegs ctx x y index hne (fun leg hleg => (h leg hleg).even) hleg
  have hle := le_mergeX (x + ctx.config.fanWidth) legs leg hleg
  have hmem {p : Primitive Rat} (hp : p ∈ legConnectors y (x + ctx.config.fanWidth)
      (mergeX (x + ctx.config.fanWidth) legs) leg.1 leg.2) :
      p ∈ (joinLegs ctx x y index legs).primitives := by
    rw [primitives_joinLegs ctx x y index hne, branchLines]
    simp only [List.mem_append, List.mem_flatMap]
    exact .inl (.inl (.inr ⟨leg, hleg, hp⟩))
  refine ⟨?_, hwithin.path (h leg hleg).path, ?_, ?_⟩
  · exact joins_connector (hmem (by simp [legConnectors, branchGeometry])) (le_refl _)
  · -- there is a line to the point where the legs merge, unless the leg ends there
    rcases lt_or_eq_of_le hle with hlt | heq
    · exact .single (joins_connector (hmem (by simp [legConnectors, branchGeometry, hlt])) hle)
    · rw [heq]
      exact .refl
  · exact joins_connector (hmem (by simp [legConnectors, branchGeometry])) (le_refl _)

theorem wired_joinLegs (hc : 0 ≤ ctx.config.fanWidth)
    (h : ∀ leg ∈ legs, Wired (x + ctx.config.fanWidth) leg.2 leg.1) :
    Wired x y (joinLegs ctx x y index legs) := by
  by_cases hne : legs = []
  · subst hne
    exact wired_start x y index
  have heven := fun leg hleg => (h leg hleg).even
  obtain ⟨hglyphs, hjoined⟩ := glyphs_joinLegs ctx x y index hne heven
  have hwithin {leg : Drawing Rat × Rat} (hleg : leg ∈ legs) :=
    within_joinLegs ctx x y index hne heven hleg
  have halong {leg : Drawing Rat × Rat} (hleg : leg ∈ legs) :=
    along_joinLegs ctx x y index h hleg
  generalize hd : joinLegs ctx x y index legs = d at *
  have hx : d.x = mergeX (x + ctx.config.fanWidth) legs + ctx.config.fanWidth :=
    hd ▸ x_joinLegs ctx x y index hne
  have hmem {p : Primitive Rat} (hp : p ∈ branchLines ctx.config x y legs) : p ∈ d.primitives := by
    rw [← hd, primitives_joinLegs ctx x y index hne]
    exact List.mem_append_left _ hp
  have hin : d.net.Path (x, y) (x + ctx.config.fanWidth, y) :=
    .single (joins_connector (hmem (by simp [branchLines])) (by linarith))
  have hout : d.net.Path (mergeX (x + ctx.config.fanWidth) legs, y) (d.x, y) := by
    rw [hx]
    exact .single (joins_connector (hmem (by simp [branchLines])) (by linarith))
  refine ⟨hjoined, ?_, ?_, fun w hw => ?_, fun g hg => ?_⟩
  · rw [hglyphs, ← hd, regions_joinLegs]
    exact forall₂_flatMap fun leg hleg => (h leg hleg).crosses
  · obtain ⟨leg, hleg⟩ := List.exists_mem_of_ne_nil legs hne
    exact (hin.trans (halong hleg).path).trans hout
  · rw [hglyphs] at hw
    obtain ⟨leg, hleg, hw⟩ := List.mem_flatMap.1 hw
    refine ((hwithin hleg).through ((h leg hleg).through w hw)).extend ?_ ?_
    · exact hin.tail (halong hleg).split
    · exact ((halong hleg).filler.tail (halong hleg).merge).trans hout
  · rw [← hd, branches_joinLegs ctx x y index hne, List.mem_cons] at hg
    rcases hg with rfl | hg
    · simp only [branchGeometry, List.forall₂_map_left_iff, List.forall₂_map_right_iff,
        List.forall₂_same]
      exact fun leg hleg => halong hleg
    · obtain ⟨leg, hleg, hg⟩ := List.mem_flatMap.1 hg
      exact (hwithin hleg).forall₂_along ((h leg hleg).along g hg)

end

/-- **A drawn series conducts from end to end, through each of its glyphs and along each leg of its
    branches.** -/
theorem wired_drawSeries (ctx : Context Rat) (hc : ctx.config.HoldsGlyphs)
    (hfan : 0 ≤ ctx.config.fanWidth) (es : Series) (x y : Rat) (index : Nat) :
    Wired x y (drawSeries ctx x y index es) := by
  refine drawSeries_invariant Wired wired_start (fun x y a b ha hb => ha.append hb)
    (fun ctx' i x y index hctx => ?_) (fun ctx' x y index legs hctx _ h => ?_) es ctx x y index rfl
  · exact wired_placeInstruction (hctx ▸ hc) i x y index
  · exact wired_joinLegs ctx' x y index (hctx ▸ hfan) (hctx ▸ h)

/-! ## The branches of a series -/

end Layout

mutual
/-- The number of legs of each branch of a series, in reading order, for branches that have legs. -/
def Series.legCounts : Series → List Nat
  | [] => []
  | .instr _ :: es => Series.legCounts es
  | .branch legs :: es =>
    (if legs = [] then [] else [legs.length]) ++ Legs.legCounts legs ++ Series.legCounts es

/-- The same for the branches in some legs. -/
def Legs.legCounts : Legs → List Nat
  | [] => []
  | leg :: legs => Series.legCounts leg ++ Legs.legCounts legs
end

theorem Series.legCounts_eq_map_forks (es : Series) (depth : Nat) :
    Series.legCounts es = (Series.forks depth es).map (·.2.length) := by
  refine Series.induction
    (P := fun es => ∀ depth, Series.legCounts es = (Series.forks depth es).map (·.2.length))
    (Q := fun legs => ∀ depth, Legs.legCounts legs = (Legs.forks depth legs).map (·.2.length))
    ?nil ?instr ?branch ?noLegs ?leg es depth
  case nil =>
    intro depth
    rw [Series.legCounts, Series.forks, List.map_nil]
  case instr =>
    intro i es ih depth
    rw [Series.legCounts, Series.forks, ih depth]
  case branch =>
    intro legs es ihl ih depth
    rw [Series.legCounts, Series.forks, List.map_append, ← ih depth]
    split
    · rename_i hlegs
      rw [hlegs, Legs.legCounts]
      rfl
    · rw [List.map_cons, ← ihl (depth + 1)]
      rfl
  case noLegs =>
    intro depth
    rw [Legs.legCounts, Legs.forks, List.map_nil]
  case leg =>
    intro leg legs ih ihl depth
    rw [Legs.legCounts, Legs.forks, List.map_append, ← ih depth, ← ihl depth]

namespace Layout

/-- Every branch with legs is drawn, with all of its legs. -/
theorem legCounts_drawSeries {α : Type} [Scalar α] (es : Series) (ctx : Context α) (x y : α)
    (index : Nat) :
    (drawSeries ctx x y index es).branches.map (·.legYs.length) = Series.legCounts es := by
  have h := (mirrored_drawSeries es ctx x y index).forall₂_forks
  rw [Series.legCounts_eq_map_forks es ctx.branchPath.length]
  generalize Series.forks ctx.branchPath.length es = forks at h
  generalize (drawSeries ctx x y index es).branches = gs at h
  induction h with
  | nil => rfl
  | cons hg _ ih => rw [List.map_cons, List.map_cons, hg.legYs, ih]

/-! ## Diagrams -/

/-- The wires at the power rails go from left to right. -/
structure Config.RailsOutside (c : Config Rat) : Prop where
  left : c.leftRailX ≤ c.startX
  right : c.leftRailX ≤ c.rightMargin

theorem Config.Valid.pos {c : Config Rat} (h : c.Valid) :
    (0 < c.contactCell ∧ 0 < c.boxCell ∧ 0 < c.genericCell) ∧ 0 < c.legSpacing ∧
      0 < c.fanWidth := by
  simp only [Config.Valid, Config.positives, List.forall_mem_cons, not_le] at h
  obtain ⟨hcontact, hbox, hgeneric, hleg, hfan, -⟩ := h
  exact ⟨⟨hcontact, hbox, hgeneric⟩, hleg, hfan⟩

theorem fanWidth_pos {c : Config Rat} (h : c.Valid) : 0 < c.fanWidth := h.pos.2.2

section
variable (es : Series) (rung : Int) (c : Config Rat)

/-- Behind the lines of the elements, the two wires to the power rails conduct. -/
theorem lines_layout :
    (layout es rung c).net.lines =
      [⟨c.leftRailX, c.railY, c.startX, c.railY, .wire, 2⟩,
       ⟨(placeRung c rung es).x, c.railY, (layout es rung c).width - c.leftRailX, c.railY,
        .wire, 2⟩] ++ (placeRung c rung es).net.lines := by
  simp only [Diagram.net, lines_eq_linesOf, layout]
  rw [linesOf_append]
  rfl

theorem glyphs_layout : (layout es rung c).net.glyphs = (placeRung c rung es).net.glyphs := by
  simp only [Diagram.net, lines_eq_linesOf, layout]
  rw [linesOf_append]
  rfl

theorem within_layout : (placeRung c rung es).net.Within (layout es rung c).net := by
  refine ⟨fun l hl => ?_, fun w hw => ?_⟩
  · rw [lines_layout]
    exact List.mem_append_right _ hl
  · rwa [glyphs_layout]

end

/-- **Every drawn instruction lies on a conducting way** from the left power rail to the right one,
    and every leg of a branch on one from the split of the branch to its merge. -/
theorem conducts_layout (es : Series) (rung : Int) {c : Config Rat} (hvalid : c.Valid)
    (hglyphs : c.HoldsGlyphs) (hrails : c.RailsOutside) :
    let d := layout es rung c
    (d.net.glyphs.length = Series.count es ∧
      ∀ k < Series.count es, ∃ r w, d.region k = .ok r ∧ d.net.glyphs[k]? = some w ∧
        Crosses w r ∧
        d.net.Through (c.leftRailX, c.railY) (d.width - c.leftRailX, c.railY) w) ∧
    d.branches.map (·.legYs.length) = Series.legCounts es ∧
    ∀ g ∈ d.branches, List.Forall₂ (d.net.Along g) g.legYs g.legEndXs := by
  intro d
  have hbody : Wired c.startX c.railY (placeRung c rung es) :=
    wired_drawSeries ⟨c, rung, []⟩ hglyphs (fanWidth_pos hvalid).le es c.startX c.railY 0
  have hwithin := within_layout es rung c
  have hleft : d.net.Joins (c.leftRailX, c.railY) (c.startX, c.railY) :=
    .line (l := ⟨_, _, _, _, .wire, 2⟩) (by simp [d, lines_layout]) hrails.left
  have hright : d.net.Joins ((placeRung c rung es).x, c.railY)
      (d.width - c.leftRailX, c.railY) := by
    refine .line (l := ⟨_, _, _, _, .wire, 2⟩) (by simp [d, lines_layout]) ?_
    have := hrails.right
    simp only [d, layout]
    linarith
  have hcross : List.Forall₂ Crosses d.net.glyphs d.regions :=
    glyphs_layout es rung c ▸ hbody.crosses
  have hregions : d.regions.length = Series.count es := by
    have := congrArg List.length (map_index_regions_layout es rung c)
    rwa [List.length_map, List.length_range] at this
  refine ⟨⟨hcross.length_eq.trans hregions, fun k hk => ?_⟩, ?_, fun g hg => ?_⟩
  · have hkr : k < d.regions.length := by omega
    have hkg : k < d.net.glyphs.length := by rw [hcross.length_eq]; omega
    refine ⟨d.regions[k], d.net.glyphs[k], ?_, List.getElem?_eq_getElem hkg, ?_, ?_⟩
    · exact region_layout_eq_ok_iff.2 ⟨k, rfl, List.getElem?_eq_getElem hkr⟩
    · exact (List.forall₂_iff_get.1 hcross).2 k hkg hkr
    · have hmem : d.net.glyphs[k] ∈ (placeRung c rung es).net.glyphs := by
        rw [← glyphs_layout]
        exact List.getElem_mem hkg
      exact (hwithin.through (hbody.through _ hmem)).extend (.single hleft) (.single hright)
  · exact legCounts_drawSeries es ⟨c, rung, []⟩ c.startX c.railY 0
  · exact hwithin.forall₂_along (hbody.along g hg)

/-- The cells are as narrow as they may be, and the branch has an empty leg. -/
theorem conducts_layout_narrow :
    let c : Config Rat :=
      { Config.standard with contactCell := 45, boxCell := 40, genericCell := 90 }
    let es : Series := [.branch [[.instr ⟨"XIC", .unary "A", by decide⟩], []]]
    let d := layout es 0 c
    (c.Valid ∧ c.HoldsGlyphs ∧ c.RailsOutside) ∧
    (∃ r w, d.region 0 = .ok r ∧ d.net.glyphs[0]? = some w ∧ Crosses w r ∧
      d.net.Through (20, 45) (d.width - 20, 45) w) ∧
    d.branches.map (·.legYs.length) = [2] ∧
    ∀ g ∈ d.branches, List.Forall₂ (d.net.Along g) g.legYs g.legEndXs := by
  intro c es d
  have hvalid : c.Valid := by decide +kernel
  have hglyphs : c.HoldsGlyphs := by constructor <;> decide
  have hrails : c.RailsOutside := by constructor <;> decide
  obtain ⟨⟨-, hway⟩, hcounts, hlegs⟩ := conducts_layout es 0 hvalid hglyphs hrails
  exact ⟨⟨hvalid, hglyphs, hrails⟩, hway 0 (by decide +kernel), hcounts.trans (by decide +kernel),
    hlegs⟩

end Layout

end RelayLadder
