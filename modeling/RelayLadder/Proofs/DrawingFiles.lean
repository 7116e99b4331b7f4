/-
  The files that the rungs of routines are drawn to.

  A file has its name from the routine, with underscores for slashes, and from the rung's number.
  So routines whose names differ only there share files, and the rung that is drawn last is kept.
  The table of a routine is shown when its rungs are drawn, and a table that the console cannot show
  ends the run.

  * `drawingName_eq_iff`: which rungs share a name;
  * `nodup_names_iff`: so names are distinct, exactly if no two rungs are drawn over each other;
  * `runOn_listRoutines`: listing routines writes the drawings of those it reaches one after the
    other;
  * `draws_rungs`: so each file holds what was drawn to it last.
-/
import RelayLadder.CommandLine.Tasks
import RelayLadder.Proofs.FileWriting
import RelayLadder.StandIn.Screen

namespace RelayLadder.CommandLine

/-! ## Names -/

/-- The name of a routine in the names of files. -/
def flatName (routine : String) : List Char :=
  routine.toList.map fun c => if c = '/' then '_' else c

/-- The digits of a rung's number in the names of files. -/
def paddedDigits (n : Nat) : List Char :=
  List.replicate (4 - (toString n).length) '0' ++ Nat.toDigits 10 n

theorem toList_drawingName (routine : String) (rung : Nat) :
    (drawingName routine rung).toList =
      flatName routine ++ '_' :: (paddedDigits rung ++ ".svg".toList) := by
  simp [drawingName, flatName, paddedDigits, Nat.toString_eq_repr, Nat.toList_repr]

theorem paddedDigits_injective : Function.Injective paddedDigits := by
  intro m n h
  have hvalue : ∀ k, Nat.ofDigitChars 10 (paddedDigits k) 0 = k := by
    intro k
    rw [paddedDigits, Nat.ofDigitChars_append, Nat.ofDigitChars_replicate_zero, Nat.mul_zero,
      Nat.ofDigitChars_ten_toDigits]
  rw [← hvalue m, h, hvalue]

theorem underscore_notMem_paddedDigits (n : Nat) : '_' ∉ paddedDigits n ++ ".svg".toList := by
  have hdigits : '_' ∉ Nat.toDigits 10 n := fun h =>
    absurd (Nat.isDigit_of_mem_toDigits (by decide) (by decide) h) (by decide)
  simp [paddedDigits, List.mem_replicate, hdigits]

/-- A list is cut at its last mark in one way. -/
theorem append_mark_inj {α : Type} {a : α} {xs ys vs ws : List α} (hv : a ∉ vs) (hw : a ∉ ws) :
    xs ++ a :: vs = ys ++ a :: ws ↔ xs = ys ∧ vs = ws := by
  constructor
  · intro h
    rcases List.append_eq_append_iff.1 h with ⟨as, rfl, has⟩ | ⟨as, rfl, has⟩
    all_goals
      cases as with
      | nil => simp_all
      | cons b as =>
        -- the mark would stand behind the last one
        obtain ⟨rfl, rfl⟩ := List.cons.inj has
        simp at hv hw
  · rintro ⟨rfl, rfl⟩
    rfl

/-- **Rungs share a name exactly if they have the same number, in routines whose names differ at
    most in slashes and underscores.** -/
theorem drawingName_eq_iff {a b : String} {m n : Nat} :
    drawingName a m = drawingName b n ↔ flatName a = flatName b ∧ m = n := by
  rw [← String.toList_inj, toList_drawingName, toList_drawingName,
    append_mark_inj (underscore_notMem_paddedDigits m) (underscore_notMem_paddedDigits n),
    List.append_left_inj, paddedDigits_injective.eq_iff]

theorem drawingName_ne_dots (routine : String) (rung : Nat) : drawingName routine rung ≠ ".." := by
  intro h
  have hlist := congrArg String.toList h
  rw [toList_drawingName] at hlist
  have hunderscore : '_' ∈ "..".toList := by
    rw [← hlist]
    simp
  exact absurd hunderscore (by decide)

/-- The files of a routine's rungs, with what is drawn to each. -/
def drawnFor (r : Routine) : List (String × String) :=
  r.rungs.map fun rung => (drawingName r.name rung.number, drawing rung.elements (some rung.number))

/-- The files of the rungs of routines, in the order in which they are drawn. -/
def drawn (routines : List Routine) : List (String × String) := routines.flatMap drawnFor

theorem drawn_cons (r : Routine) (routines : List Routine) :
    drawn (r :: routines) = drawnFor r ++ drawn routines := List.flatMap_cons

/-- No two rungs are drawn over each other: they differ in their numbers, or in the names of their
    routines beyond slashes and underscores. -/
def DrawnApart (routines : List Routine) : Prop :=
  (∀ r ∈ routines, r.numbers.Nodup) ∧
    routines.Pairwise fun r s => flatName r.name = flatName s.name → r.numbers.Disjoint s.numbers

theorem mem_drawn_iff {routines : List Routine} {d : String × String} :
    d ∈ drawn routines ↔ ∃ r ∈ routines, ∃ rung ∈ r.rungs,
      (drawingName r.name rung.number, drawing rung.elements (some rung.number)) = d := by
  simp only [drawn, drawnFor, List.mem_flatMap, List.mem_map]

theorem drawn_subset {rs routines : List Routine} (h : rs ⊆ routines) :
    drawn rs ⊆ drawn routines := by
  intro d hd
  obtain ⟨r, hr, hdraw⟩ := mem_drawn_iff.1 hd
  exact mem_drawn_iff.2 ⟨r, h hr, hdraw⟩

theorem DrawnApart.of_sublist {rs routines : List Routine} (h : DrawnApart routines)
    (hrs : rs.Sublist routines) : DrawnApart rs :=
  ⟨fun r hr => h.1 r (hrs.subset hr), h.2.sublist hrs⟩

/-- The names of files are distinct exactly if no two rungs are drawn over each other. -/
theorem nodup_names_iff {routines : List Routine} :
    ((drawn routines).map Prod.fst).Nodup ↔ DrawnApart routines := by
  have hnames : (drawn routines).map Prod.fst =
      routines.flatMap fun r => r.numbers.map (drawingName r.name) := by
    simp only [drawn, drawnFor, Routine.numbers, List.map_flatMap, List.map_map]
    rfl
  have hinjective : ∀ a : String, Function.Injective (drawingName a) :=
    fun a m n h => (drawingName_eq_iff.1 h).2
  rw [hnames, List.nodup_flatMap, DrawnApart]
  refine and_congr (forall₂_congr fun r _ => List.nodup_map_iff (hinjective r.name)) ?_
  refine List.Pairwise.iff fun r s => ?_
  simp only [Function.onFun, List.Disjoint, List.mem_map]
  constructor
  · intro h hname n hr hs
    exact h ⟨n, hr, rfl⟩ ⟨n, hs, (drawingName_eq_iff.2 ⟨hname, rfl⟩).symm⟩
  · rintro h _ ⟨m, hm, rfl⟩ ⟨n, hn, heq⟩
    obtain ⟨hname, rfl⟩ := drawingName_eq_iff.1 heq
    exact h hname.symm hm hn

/-! ## Showing tables -/

/-- The fault that ends a run when the table of a routine is to be shown. -/
def tableFault? (console : Console) (r : Routine) : Option Error :=
  match console (.table (routineTable r)) with
  | .ok _ => none
  | .error wording => some (.notShown wording)

/-- The routines up to the first whose table is not shown, with this one. -/
def reached (console : Console) : List Routine → List Routine
  | [] => []
  | r :: rs => r :: if tableFault? console r = none then reached console rs else []

theorem reached_prefix (console : Console) (routines : List Routine) :
    reached console routines <+: routines := by
  induction routines with
  | nil => exact List.prefix_rfl
  | cons r rs ih =>
    rw [reached, List.prefix_cons_inj]
    split
    · exact ih
    · exact List.nil_prefix

/-- All routines are reached if all tables are shown. -/
theorem reached_eq_self {console : Console} {routines : List Routine}
    (h : ∀ r ∈ routines, tableFault? console r = none) : reached console routines = routines := by
  induction routines with
  | nil => rfl
  | cons r rs ih =>
    obtain ⟨hfirst, hrest⟩ := List.forall_mem_cons.1 h
    rw [reached, if_pos hfirst, ih hrest]

/-! ## Drawing -/

theorem runOn_write {console : Console} {t : FileTree} {p : Path} (h : t.Writable p)
    (content : String) (next : Program) (out : String) :
    (Program.write p content next).runOn console t out =
      next.runOn console (t.put p content) out := by
  rw [Program.runOn, FileTree.write_eq_ok_iff.2 ⟨h, rfl⟩]

/-- A routine's rungs are drawn one after the other, if each can be drawn by itself. -/
theorem runOn_drawRungs {console : Console} {dir : Path} {r : Routine} {t : FileTree}
    (h : ∀ d ∈ drawnFor r, t.Writable (dir.child d.1)) (next : Program) (out : String) :
    (drawRungs dir r next).runOn console t out =
      next.runOn console (t.putAll dir (drawnFor r)) out := by
  obtain ⟨name, rungs⟩ := r
  induction rungs generalizing t with
  | nil => rfl
  | cons rung rungs ih =>
    have hprogram : drawRungs dir ⟨name, rung :: rungs⟩ next =
        .write (dir.child (drawingName name rung.number)) (drawing rung.elements (some rung.number))
          (drawRungs dir ⟨name, rungs⟩ next) := rfl
    have hdrawn : drawnFor ⟨name, rung :: rungs⟩ =
        (drawingName name rung.number, drawing rung.elements (some rung.number)) ::
          drawnFor ⟨name, rungs⟩ := rfl
    rw [hdrawn] at h ⊢
    obtain ⟨hfirst, hrest⟩ := List.forall_mem_cons.1 h
    -- a file that is written leaves the directories, so the others can be written still
    have hkept : ∀ d ∈ drawnFor ⟨name, rungs⟩, (t.put (dir.child (drawingName name rung.number))
        (drawing rung.elements (some rung.number))).Writable (dir.child d.1) :=
      fun d hd => (hrest d hd).of_directories_eq rfl
    rw [hprogram, runOn_write hfirst, FileTree.putAll_cons, ih hkept]

/-- **Listing routines draws the rungs of those it reaches one after the other**, if each can be
    drawn by itself, and ends well if all tables are shown. -/
theorem runOn_listRoutines {console : Console} {dir : Path} {routines : List Routine}
    {t : FileTree} (h : ∀ d ∈ drawn routines, t.Writable (dir.child d.1)) (out : String) :
    ((listRoutines (some dir) routines).runOn console t out).result =
        (routines.findSome? (tableFault? console)).elim (.ok exitOk) .error ∧
      ((listRoutines (some dir) routines).runOn console t out).files =
        t.putAll dir (drawn (reached console routines)) := by
  induction routines generalizing t out with
  | nil => exact ⟨rfl, rfl⟩
  | cons r routines ih =>
    rw [drawn_cons] at h
    obtain ⟨hfirst, hrest⟩ := List.forall_mem_append.1 h
    have hprogram : listRoutines (some dir) (r :: routines) =
        drawRungs dir r (.print (.table (routineTable r)) (listRoutines (some dir) routines)) := rfl
    have hkept : ∀ d ∈ drawn routines, (t.putAll dir (drawnFor r)).Writable (dir.child d.1) :=
      fun d hd => (hrest d hd).of_directories_eq (FileTree.putAll_directories dir (drawnFor r))
    rw [hprogram, runOn_drawRungs hfirst, Program.runOn, reached, List.findSome?_cons, drawn_cons,
      FileTree.putAll_append]
    cases hshown : console (.table (routineTable r)) with
    | error wording =>
      have hfault : tableFault? console r = some (.notShown wording) := by
        rw [tableFault?, hshown]
      rw [hfault]
      exact ⟨rfl, rfl⟩
    | ok shown =>
      have hfault : tableFault? console r = none := by rw [tableFault?, hshown]
      rw [hfault, if_pos rfl]
      exact ih hkept (out ++ shown)

/-- Listing routines with a directory for drawings makes this, and draws. -/
theorem runOn_processRoutines (console : Console) {dir : String} {routines : List Routine}
    {files made : FileTree} (hdir : '\x00' ∉ dir.toList)
    (hmade : files.makeDirectory (Path.ofText dir) = .ok made)
    (h : ∀ d ∈ drawn routines, made.Writable ((Path.ofText dir).child d.1)) (out : String) :
    ((processRoutines (some dir) none routines).runOn console files out).result =
        (routines.findSome? (tableFault? console)).elim (.ok exitOk) .error ∧
      ((processRoutines (some dir) none routines).runOn console files out).files =
        made.putAll (Path.ofText dir) (drawn (reached console routines)) := by
  have hstart : (processRoutines (some dir) none routines).runOn console files out =
      (listRoutines (some (Path.ofText dir)) routines).runOn console made out := by
    rw [processRoutines, withPath, if_neg (by simpa using hdir), Program.runOn, hmade]
  rw [hstart]
  exact runOn_listRoutines h out

/-- **Once routines are drawn, a file of theirs holds what was drawn to it last.** -/
theorem read_putAll_drawn {dir : Path} {routines : List Routine} {t : FileTree}
    (h : ∀ d ∈ drawn routines, t.Writable (dir.child d.1)) {d : String × String}
    (hd : d ∈ drawn routines) {svg : String}
    (hsvg : (drawn routines).reverse.lookup d.1 = some svg) :
    (t.putAll dir (drawn routines)).read (dir.child d.1) = .ok svg := by
  have hnames : ∀ d ∈ drawn routines, d.1 ≠ ".." := by
    intro d hd
    obtain ⟨r, -, rung, -, rfl⟩ := mem_drawn_iff.1 hd
    exact drawingName_ne_dots r.name rung.number
  refine ((h d hd).of_directories_eq (FileTree.putAll_directories ..)).read ?_
  rw [FileTree.lookup_putAll _ (hnames d hd) hnames, hsvg]
  rfl

/-- The file that a rung is drawn to. -/
def rungFile (dir : String) (r : Routine) (rung : Rung) : Path :=
  (Path.ofText dir).child (drawingName r.name rung.number)

/-- **Each rung is drawn to a file, and a file holds what was drawn to it last.**  On any console, if
    each file can be written by itself, the rungs of all routines are drawn, unless a table is not
    shown: that ends the run, once the rungs of its routine are drawn.  And if no two rungs are drawn
    over each other, which is what makes the names of files distinct, the file of a rung holds the
    drawing of this rung. -/
theorem draws_rungs (console : Console) (dir : String) (routines : List Routine)
    (files made : FileTree) (hdir : '\x00' ∉ dir.toList)
    (hmade : files.makeDirectory (Path.ofText dir) = .ok made)
    (hfree : ∀ r ∈ routines, ∀ rung ∈ r.rungs,
      ∃ written, made.write (rungFile dir r rung) "" = .ok written) :
    ∃ o, (processRoutines (some dir) none routines).runOn console files "" = o ∧
      o.result = (routines.findSome? (tableFault? console)).elim (.ok exitOk) .error ∧
      ((∀ r ∈ routines, tableFault? console r = none) → reached console routines = routines) ∧
      (∀ r ∈ reached console routines, ∀ rung ∈ r.rungs, ∃ svg,
        (drawn (reached console routines)).reverse.lookup (drawingName r.name rung.number) =
          some svg ∧
        o.files.read (rungFile dir r rung) = .ok svg) ∧
      (((drawn routines).map Prod.fst).Nodup ↔ DrawnApart routines) ∧
      (DrawnApart routines → ∀ r ∈ reached console routines, ∀ rung ∈ r.rungs,
        o.files.read (rungFile dir r rung) = .ok (drawing rung.elements (some rung.number))) := by
  have hprefix := reached_prefix console routines
  have hwritable : ∀ d ∈ drawn routines, made.Writable ((Path.ofText dir).child d.1) := by
    intro d hd
    obtain ⟨r, hr, rung, hrung, rfl⟩ := mem_drawn_iff.1 hd
    obtain ⟨written, hwritten⟩ := hfree r hr rung hrung
    exact (FileTree.write_eq_ok_iff.1 hwritten).1
  obtain ⟨hresult, hfiles⟩ := runOn_processRoutines console hdir hmade hwritable ""
  have hreached : ∀ d ∈ drawn (reached console routines),
      made.Writable ((Path.ofText dir).child d.1) :=
    fun d hd => hwritable d (drawn_subset hprefix.subset hd)
  refine ⟨_, rfl, hresult, reached_eq_self, fun r hr rung hrung => ?_, nodup_names_iff,
    fun hapart r hr rung hrung => ?_⟩
  all_goals
    rw [hfiles]
    have hmem := mem_drawn_iff.2 ⟨r, hr, rung, hrung, rfl⟩
  · have hsome := List.lookup_isSome_iff.2 ⟨_, List.mem_reverse.2 hmem, beq_self_eq_true _⟩
    obtain ⟨svg, hsvg⟩ := Option.isSome_iff_exists.1 hsome
    exact ⟨svg, hsvg, read_putAll_drawn hreached hmem hsvg⟩
  · have hnodup : ((drawn (reached console routines)).reverse.map Prod.fst).Nodup := by
      rw [List.map_reverse, List.nodup_reverse]
      exact nodup_names_iff.2 (hapart.of_sublist hprefix.sublist)
    exact read_putAll_drawn hreached hmem
      (FileTree.lookup_of_nodup hnodup (List.mem_reverse.2 hmem))

/-- The numbers occur in both routines, and one has more than four digits. -/
theorem draws_rungs_apart :
    let routines : List Routine :=
      [⟨"Main/Start", [.ofText 12345 "XIC(a)OTE(b)", .ofText 0 "[XIC(a),XIO(b)]OTE(c)"]⟩,
       ⟨"Main/Stop", [.ofText 0 "OTU(b)"]⟩]
    ∃ made, (FileTree.ofFiles []).makeDirectory (Path.ofText "out") = .ok made ∧
      DrawnApart routines ∧
      ∃ o, (processRoutines (some "out") none routines).runOn StandIn.console (.ofFiles []) "" = o ∧
        o.result = .ok exitOk ∧ ∀ r ∈ routines, ∀ rung ∈ r.rungs,
          o.files.read (rungFile "out" r rung) =
            .ok (drawing rung.elements (some rung.number)) := by
  intro routines
  have hmade := FileTree.makeDirectory_of_makeInside (t := .ofFiles []) (p := Path.ofText "out") rfl
  have hapart : DrawnApart routines := by
    refine ⟨by decide +kernel, List.pairwise_pair.2 fun h => ?_⟩
    exact absurd h (by decide +kernel)
  have hfree : ∀ r ∈ routines, ∀ rung ∈ r.rungs, ∃ written, FileTree.write
      ⟨[["/", "tmp"], ["/", "dev"], ["out"]], [(["/", "dev", "null"], "")]⟩
      (rungFile "out" r rung) "" = .ok written := by
    simp only [routines, List.forall_mem_cons, List.not_mem_nil, false_implies, implies_true,
      and_true]
    exact ⟨⟨⟨_, rfl⟩, ⟨_, rfl⟩⟩, ⟨_, rfl⟩⟩
  have hshown : ∀ r ∈ routines, tableFault? StandIn.console r = none := by decide +kernel
  obtain ⟨o, hrun, hresult, hall, -, -, hread⟩ := draws_rungs StandIn.console "out" routines
    (.ofFiles []) _ (by decide) hmade hfree
  rw [hall hshown] at hread
  refine ⟨_, hmade, hapart, o, hrun, ?_, hread hapart⟩
  rw [hresult, List.findSome?_eq_none_iff.2 hshown]
  rfl

/-- Two routines, with other names, have one file for both their rungs. -/
theorem exists_drawn_over :
    let routines : List Routine :=
      [⟨"A/B_C", [.ofText 0 "XIC(First)"]⟩, ⟨"A_B/C", [.ofText 0 "XIC(Second)"]⟩]
    (routines.map Routine.name).Nodup ∧ (∀ r ∈ routines, r.numbers.Nodup) ∧
      ¬ ((drawn routines).map Prod.fst).Nodup ∧
      ∃ o, (processRoutines (some "out") none routines).runOn StandIn.console (.ofFiles []) "" = o ∧
        o.result = .ok exitOk ∧
        o.files.below =
          [("out/A_B_C_0000.svg", drawing (RungText.elements "XIC(Second)") (some 0))] := by
  intro routines
  have hmade := FileTree.makeDirectory_of_makeInside (t := .ofFiles []) (p := Path.ofText "out") rfl
  have hshared : drawingName "A/B_C" 0 = drawingName "A_B/C" 0 :=
    drawingName_eq_iff.2 ⟨by decide +kernel, rfl⟩
  have hname : drawingName "A_B/C" 0 = "A_B_C_0000.svg" := by decide +kernel
  have hshown : ∀ r ∈ routines, tableFault? StandIn.console r = none := by decide +kernel
  have hwritable : ∀ d ∈ drawn routines, FileTree.Writable
      ⟨[["/", "tmp"], ["/", "dev"], ["out"]], [(["/", "dev", "null"], "")]⟩
      ((Path.ofText "out").child d.1) := by
    intro d hd
    obtain rfl | rfl := List.mem_pair.1 hd
    all_goals exact (FileTree.write_eq_ok_iff.1 (show FileTree.write _ _ "" = .ok _ from rfl)).1
  refine ⟨by decide +kernel, by decide +kernel, fun hnodup => ?_, ?_⟩
  · exact (List.nodup_cons.1 hnodup).1 (List.mem_singleton.2 hshared)
  · obtain ⟨hresult, hfiles⟩ :=
      runOn_processRoutines StandIn.console (by decide) hmade hwritable ""
    rw [reached_eq_self hshown] at hfiles
    rw [List.findSome?_eq_none_iff.2 hshown] at hresult
    refine ⟨_, rfl, hresult, ?_⟩
    have hdrawn : drawn routines =
        [(drawingName "A/B_C" 0, drawing (RungText.elements "XIC(First)") (some 0)),
          (drawingName "A_B/C" 0, drawing (RungText.elements "XIC(Second)") (some 0))] := rfl
    rw [hfiles, hdrawn, hshared, hname]
    generalize drawing (RungText.elements "XIC(First)") (some 0) = first
    generalize drawing (RungText.elements "XIC(Second)") (some 0) = second
    rfl

end RelayLadder.CommandLine
