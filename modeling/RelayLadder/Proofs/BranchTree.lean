/-
  The branches of a diagram mirror the tree of elements.

  * `Series.forks` lists the branches that have legs, in reading order, with the number of branches
    around each;
  * `Series.Mirrored` and `Legs.Mirrored` relate a tree to a list of geometries: the geometry of a
    branch starts where the element before it ends, on the rail of the leg that it is in, and tells
    where each of its legs ends.  They do not look at how anything is drawn;
  * `branches_layout_mirrored`: a diagram has one geometry for each such branch, and they mirror the
    tree.
-/
import Mathlib.Data.List.Forall2
import RelayLadder.Proofs.Drawing

namespace RelayLadder

mutual
/-- The branches of a series that have legs, a branch before those in its legs, each with the number
    of branches around it. -/
def Series.forks (depth : Nat) : Series → List (Nat × Legs)
  | [] => []
  | .instr _ :: es => Series.forks depth es
  | .branch legs :: es =>
    (if legs = [] then [] else (depth, legs) :: Legs.forks (depth + 1) legs) ++
      Series.forks depth es

/-- The branches in the legs that have legs themselves, leg by leg. -/
def Legs.forks (depth : Nat) : Legs → List (Nat × Legs)
  | [] => []
  | leg :: legs => Series.forks depth leg ++ Legs.forks depth legs
end

namespace Layout

variable {α : Type}

/-! ## Trees and geometries -/

/-- The geometry is that of a branch with this depth and these legs. -/
structure BranchGeometry.IsOf (fork : Nat × Legs) (g : BranchGeometry α) : Prop where
  depth : g.depth = fork.1
  legYs : g.legYs.length = fork.2.length
  legEndXs : g.legEndXs.length = fork.2.length

variable [Scalar α]

mutual
/-- `Series.Mirrored c depth x y es gs endX`: inside `depth` branches, the series starts at `x` on
    the rail at `y` and ends at `endX`, and its branches have the geometries `gs`. -/
inductive Series.Mirrored (c : Config α) :
    Nat → α → α → Series → List (BranchGeometry α) → α → Prop
  /-- Nothing ends where it starts. -/
  | nil {depth : Nat} {x y : α} : Series.Mirrored c depth x y [] [] x
  /-- An instruction takes its cell. -/
  | instr {depth : Nat} {x y endX : α} {i : Instruction} {es : Series}
      {gs : List (BranchGeometry α)} :
      Series.Mirrored c depth (x + cellWidth c i) y es gs endX →
      Series.Mirrored c depth x y (.instr i :: es) gs endX
  /-- A branch without legs ends where it starts, and has no geometry. -/
  | noLegs {depth : Nat} {x y endX : α} {es : Series} {gs : List (BranchGeometry α)} :
      Series.Mirrored c depth x y es gs endX →
      Series.Mirrored c depth x y (.branch [] :: es) gs endX
  /-- A branch ends at the end of its geometry, which comes before those in its legs. -/
  | branch {depth : Nat} {x y endX : α} {legs : Legs} {es : Series} {g : BranchGeometry α}
      {inner gs : List (BranchGeometry α)} :
      legs ≠ [] → g.IsOf (depth, legs) → g.startX = x → g.mainY = y →
      Legs.Mirrored c (depth + 1) g.entryX legs g.legYs g.legEndXs inner →
      Series.Mirrored c depth g.endX y es gs endX →
      Series.Mirrored c depth x y (.branch legs :: es) (g :: inner ++ gs) endX

/-- `Legs.Mirrored c depth entryX legs ys endXs gs`: inside `depth` branches, the legs start at
    `entryX`, each on the rail at its `ys` and with its end in `endXs`, and their branches have the
    geometries `gs`, leg by leg. -/
inductive Legs.Mirrored (c : Config α) :
    Nat → α → Legs → List α → List α → List (BranchGeometry α) → Prop
  | nil {depth : Nat} {entryX : α} : Legs.Mirrored c depth entryX [] [] [] []
  | cons {depth : Nat} {entryX y endX : α} {leg : Series} {legs : Legs} {ys endXs : List α}
      {own gs : List (BranchGeometry α)} : Series.Mirrored c depth entryX y leg own endX →
      Legs.Mirrored c depth entryX legs ys endXs gs →
      Legs.Mirrored c depth entryX (leg :: legs) (y :: ys) (endX :: endXs) (own ++ gs)
end

/-- There is one geometry for each branch that has legs, in the same order. -/
theorem Series.Mirrored.forall₂_forks {c : Config α} (es : Series) :
    ∀ {depth : Nat} {x y endX : α} {gs : List (BranchGeometry α)},
      Series.Mirrored c depth x y es gs endX →
      List.Forall₂ BranchGeometry.IsOf (Series.forks depth es) gs := by
  refine Series.induction
    (P := fun es => ∀ {depth : Nat} {x y endX : α} {gs : List (BranchGeometry α)},
      Series.Mirrored c depth x y es gs endX →
      List.Forall₂ BranchGeometry.IsOf (Series.forks depth es) gs)
    (Q := fun legs => ∀ {depth : Nat} {entryX : α} {ys endXs : List α}
      {gs : List (BranchGeometry α)}, Legs.Mirrored c depth entryX legs ys endXs gs →
      List.Forall₂ BranchGeometry.IsOf (Legs.forks depth legs) gs)
    ?nil ?instr ?branch ?noLegs ?leg es
  case nil =>
    intro depth x y endX gs h
    cases h
    rw [Series.forks]
    exact .nil
  case instr =>
    intro i es ih depth x y endX gs h
    cases h with
    | instr h =>
      rw [Series.forks]
      exact ih h
  case branch =>
    intro legs es ihl ih depth x y endX gs h
    rw [Series.forks]
    cases h with
    | noLegs h =>
      rw [if_pos rfl, List.nil_append]
      exact ih h
    | branch hne hg _ _ hlegs h =>
      rw [if_neg hne]
      exact List.rel_append (.cons hg (ihl hlegs)) (ih h)
  case noLegs =>
    intro depth entryX ys endXs gs h
    cases h
    rw [Legs.forks]
    exact .nil
  case leg =>
    intro leg legs ih ihl depth entryX ys endXs gs h
    cases h with
    | cons hleg hlegs =>
      rw [Legs.forks]
      exact List.rel_append (ih hleg) (ihl hlegs)

/-! ## Drawings -/

theorem isOf_branchGeometry (ctx : Context α) (x y : α) {placed : List (Drawing α × α)}
    {legs : Legs} (h : placed.length = legs.length) :
    (branchGeometry ctx x y placed).IsOf (ctx.branchPath.length, legs) :=
  ⟨rfl, (List.length_map _).trans h, (List.length_map _).trans h⟩

/-- What was joined from drawn legs mirrors their branch, if the legs are mirrored; with no legs,
    nothing is drawn. -/
theorem Series.Mirrored.joinLegs {ctx : Context α} {x y endX : α} {index : Nat} {legs : Legs}
    {es : Series} {placed : List (Drawing α × α)} {gs : List (BranchGeometry α)}
    (hes : Series.Mirrored ctx.config ctx.branchPath.length (joinLegs ctx x y index placed).x y es
      gs endX)
    (hlength : placed.length = legs.length)
    (hlegs : Legs.Mirrored ctx.config (ctx.branchPath.length + 1) (x + ctx.config.fanWidth) legs
      (placed.map (·.2)) (placed.map (·.1.x)) (placed.flatMap (·.1.branches))) :
    Series.Mirrored ctx.config ctx.branchPath.length x y (.branch legs :: es)
      ((joinLegs ctx x y index placed).branches ++ gs) endX := by
  cases legs with
  | nil =>
    obtain rfl := List.length_eq_zero_iff.1 hlength
    exact .noLegs hes
  | cons leg legs =>
    have hplaced : placed ≠ [] := List.ne_nil_of_length_eq_add_one hlength
    rw [x_joinLegs ctx x y index hplaced] at hes
    rw [branches_joinLegs ctx x y index hplaced]
    exact .branch (List.cons_ne_nil leg legs) (isOf_branchGeometry ctx x y hlength) rfl rfl hlegs
      hes

/-- **The branches of a drawn series mirror its tree**, and it ends where its drawing does. -/
theorem mirrored_drawSeries (es : Series) : ∀ (ctx : Context α) (x y : α) (index : Nat),
    Series.Mirrored ctx.config ctx.branchPath.length x y es (drawSeries ctx x y index es).branches
      (drawSeries ctx x y index es).x := by
  -- the drawn legs come with their ys and ends, which are those in the geometry of their branch
  refine Series.induction
    (P := fun es => ∀ (ctx : Context α) (x y : α) (index : Nat),
      Series.Mirrored ctx.config ctx.branchPath.length x y es
        (drawSeries ctx x y index es).branches (drawSeries ctx x y index es).x)
    (Q := fun legs => ∀ (ctx : Context α) (entryX : α) (legY : Nat → α) (leg index : Nat),
      let placed := placeLegs ctx entryX legY leg index legs
      Legs.Mirrored ctx.config (ctx.branchPath.length + 1) entryX legs (placed.map (·.2))
        (placed.map (·.1.x)) (placed.flatMap (·.1.branches)))
    ?nil ?instr ?branch ?noLegs ?leg es
  case nil =>
    intro ctx x y index
    rw [drawSeries, placeSeries]
    exact .nil
  case instr =>
    intro i es ih ctx x y index
    have hcons := drawSeries_cons ctx x y index (.instr i) es
    rw [hcons.branches, hcons.x]
    exact .instr (ih ctx (x + cellWidth ctx.config i) y (index + 1))
  case branch =>
    intro legs es ihl ih ctx x y index
    have hcons := drawSeries_cons ctx x y index (.branch legs) es
    rw [hcons.branches, hcons.x, Drawing.append_branches, Drawing.append_x]
    exact (ih ctx _ y _).joinLegs (length_placeLegs ..)
      (ihl ctx (x + ctx.config.fanWidth) (legY ctx.config y legs.length) 0 index)
  case noLegs =>
    intro ctx entryX legY leg index
    rw [placeLegs]
    exact .nil
  case leg =>
    intro leg legs ih ihl ctx entryX legY number index
    have hleg := ih (ctx.intoLeg number) entryX (legY number) index
    rw [Context.config_intoLeg, Context.intoLeg, List.length_append] at hleg
    rw [placeLegs_cons]
    exact .cons hleg (ihl ctx entryX legY (number + 1) _)

/-- **The branches of a diagram mirror the tree**: there is one for each branch with legs, in
    reading order, with its depth and its number of legs; it starts where the element before it
    ends, on the rail of the leg that it is in, and tells where each of its own legs ends. -/
theorem branches_layout_mirrored (es : Series) (rung : Int) (c : Config α) :
    List.Forall₂ BranchGeometry.IsOf (Series.forks 0 es) (layout es rung c).branches ∧
      Series.Mirrored c 0 c.startX c.railY es (layout es rung c).branches
        (layout es rung c).railEndX := by
  have h : Series.Mirrored c 0 c.startX c.railY es (layout es rung c).branches
      (layout es rung c).railEndX := mirrored_drawSeries es ⟨c, rung, []⟩ c.startX c.railY 0
  exact ⟨h.forall₂_forks, h⟩

-- a branch without legs has no entry, and ends where it starts
example : (layout [.branch [], .branch [[.branch []]]] 0 (.standard : Config Rat)).branches.map
    (fun g => (g.depth, g.startX, g.entryX, g.legEndXs)) = [(0, 40, 60, [60])] := by
  decide +kernel

end Layout

end RelayLadder
