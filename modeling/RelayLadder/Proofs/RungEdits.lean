/-
  Edits of a rung.

  * `Rung.instructionAt_eq_ok_iff`, `Rung.editAround_eq_ok`: an instruction is looked up, and edited,
    at its location;
  * `Rung.edit_yields`: seen on the list of its instructions, an edit of a rung is an edit of the
    list, whatever the nesting;
  * `Series.CanonicalIn.editAt`: an edit that puts canonical elements into a canonical series leaves
    one, since the legs and branches that become empty go;
  * `Rung.elements_text_run`: text and elements of a rung say the same after any run of operations.
-/
import RelayLadder.Proofs.Places
import RelayLadder.Proofs.RoundTrip
import RelayLadder.Rung

namespace RelayLadder

open RungText

namespace Rung

/-! ## Looking up instructions -/

section
variable {r : Rung} {index : Int}

/-- Every number below the count is that of an instruction. -/
theorem exists_locate (h : 0 ≤ index ∧ index < r.count) :
    ∃ l, Series.locate r.elements index = some l :=
  Option.ne_none_iff_exists'.1 fun hnone => Series.locate_eq_none_iff.1 hnone h

theorem instructionAt_eq_ok_iff {i : Instruction} :
    r.instructionAt index = .ok i ↔
      ∃ l, Series.locate r.elements index = some l ∧ l.instruction = i := by
  unfold instructionAt locate
  cases Series.locate r.elements index with
  | none => simp [bind, Except.bind]
  | some l => simp [bind, Except.bind, pure, Except.pure]

/-- A number that has an instruction is below the count, and the instruction stands there in the
    list. -/
theorem getElem?_of_instructionAt {i : Instruction} (h : r.instructionAt index = .ok i) :
    (0 ≤ index ∧ index < r.count) ∧ (Series.instructions r.elements)[index.toNat]? = some i := by
  obtain ⟨l, hl, rfl⟩ := instructionAt_eq_ok_iff.1 h
  obtain ⟨hindex, hstands⟩ := Series.locate_eq_some_iff.1 hl
  obtain ⟨a, b, hlength, hab, -⟩ := hstands.instructions_editAt
  have hcount : r.count = a.length + (b.length + 1) := by
    rw [count, Series.count, hab, List.length_append, List.length_cons]
  refine ⟨by omega, ?_⟩
  rw [hab, hindex, Int.toNat_natCast, ← hlength, List.getElem?_append_right (Nat.le_refl _),
    Nat.sub_self]
  rfl

/-- An edit around an instruction changes the series that its location leads to. -/
theorem editAround_eq_ok {l : Location} (h : Series.locate r.elements index = some l)
    (change : Nat → Series → Series) :
    r.editAround index change =
      .ok (r.withElements (Series.editAt (change l.position) l.path r.elements)) := by
  unfold editAround locate
  rw [h]
  rfl

end

/-! ## Edits as edits of a list -/

/-- The edit of the rung at `index` has this result: if the index fits, a rung with these
    instructions, written canonically, that is otherwise the same; if not, the error that names
    index, rung and number of instructions. -/
def Yields (r : Rung) (index : Int) (fits : Prop) (is : List Instruction)
    (result : Except Error Rung) : Prop :=
  (fits → ∃ new, result = .ok new ∧ Series.instructions new.elements = is ∧
    new.text = Series.rungText new.elements ∧ new.number = r.number ∧ new.comment = r.comment) ∧
  (¬ fits → result = .error (.noInstruction index r.number (Series.instructions r.elements).length))

theorem Yields.exists_ok_iff {r : Rung} {index : Int} {fits : Prop} {is : List Instruction}
    {result : Except Error Rung} (h : r.Yields index fits is result) :
    (∃ new, result = .ok new) ↔ fits := by
  constructor
  · rintro ⟨new, hnew⟩
    by_contra hfits
    cases hnew.symm.trans (h.2 hfits)
  · intro hfits
    obtain ⟨new, hnew, -⟩ := h.1 hfits
    exact ⟨new, hnew⟩

theorem yields_withElements (r : Rung) (index : Int) (fits : Prop) (h : fits) (es : Series) :
    r.Yields index fits (Series.instructions es) (.ok (r.withElements es)) :=
  ⟨fun _ => ⟨_, rfl, rfl, rfl, rfl, rfl⟩, fun hn => absurd h hn⟩

/-- An edit around an instruction changes the series that the location of the instruction leads to;
    without a location it fails. -/
theorem editAround_cases (r : Rung) (index : Int) (change : Nat → Series → Series) :
    (∃ l, Series.locate r.elements index = some l ∧ r.editAround index change =
      .ok (r.withElements (Series.editAt (change l.position) l.path r.elements))) ∨
    (Series.locate r.elements index = none ∧ r.editAround index change =
      .error (.noInstruction index r.number (Series.instructions r.elements).length)) := by
  rcases hl : Series.locate r.elements index with _ | l
  · unfold editAround locate
    rw [hl]
    exact .inr ⟨rfl, rfl⟩
  · exact .inl ⟨l, rfl, editAround_eq_ok hl change⟩

/-- An edit around an instruction changes the series at the end of the way to it. -/
theorem exists_leads_of_editAround {r new : Rung} {index : Int} {change : Nat → Series → Series}
    (h : r.editAround index change = .ok new) :
    ∃ path before left i right after,
      Series.Leads path r.elements before (left ++ .instr i :: right) after ∧
        new.elements = Series.editAt (change left.length) path r.elements := by
  obtain ⟨l, hl, hresult⟩ | ⟨-, hresult⟩ := r.editAround_cases index change
  · obtain ⟨-, before, left, right, after, hlead, hpos, -⟩ := Series.locate_eq_some_iff.1 hl
    obtain rfl := Except.ok.inj (hresult.symm.trans h)
    rw [← hpos]
    exact ⟨l.path, before, left, l.instruction, right, after, hlead, rfl⟩
  · cases hresult.symm.trans h

/-- An edit around an instruction that puts `new i` in the place of the instruction `i` does so in
    the list of instructions. -/
theorem yields_editAround (r : Rung) (index : Int) (change : Nat → Series → Series)
    (new : Instruction → Series) (edited : List Instruction)
    (hchange : ∀ left i right,
      change left.length (left ++ .instr i :: right) = left ++ new i ++ right)
    (hedited : ∀ a i b, Series.instructions r.elements = a ++ i :: b → index = a.length →
      edited = a ++ Series.instructions (new i) ++ b) :
    r.Yields index (0 ≤ index ∧ index < (Series.instructions r.elements).length) edited
      (r.editAround index change) := by
  obtain ⟨l, hl, hresult⟩ | ⟨hl, hresult⟩ := r.editAround_cases index change
  · obtain ⟨hindex, hstands⟩ := Series.locate_eq_some_iff.1 hl
    obtain ⟨a, b, hlen, hab, hedit⟩ := hstands.instructions_editAt
    have hfits : 0 ≤ index ∧ index < (Series.instructions r.elements).length := by
      rw [hab, List.length_append, List.length_cons]
      omega
    have hnew := hedit (change l.position) (new l.instruction) fun left right hpos => by
      rw [← hpos, hchange]
    rw [hedited a l.instruction b hab (by omega), ← hnew, hresult]
    exact r.yields_withElements index _ hfits _
  · have hout := Series.locate_eq_none_iff.1 hl
    exact ⟨fun hfits => absurd hfits hout, fun _ => hresult⟩

theorem yields_replace (r : Rung) (index : Int) (x : Instruction) :
    r.Yields index (0 ≤ index ∧ index < (Series.instructions r.elements).length)
      ((Series.instructions r.elements).set index.toNat x) (r.replace index x) := by
  refine r.yields_editAround index _ (fun _ => [.instr x]) _ (fun left i right => ?_) ?_
  · exact Series.splice_append_cons left _ right _
  · rintro a i b hab rfl
    simp [hab, Series.instructions]

theorem yields_remove (r : Rung) (index : Int) :
    r.Yields index (0 ≤ index ∧ index < (Series.instructions r.elements).length)
      ((Series.instructions r.elements).eraseIdx index.toNat) (r.remove index) := by
  refine r.yields_editAround index _ (fun _ => []) _ (fun left i right => ?_) ?_
  · exact Series.splice_append_cons left _ right _
  · rintro a i b hab rfl
    simp [hab, Series.instructions, List.eraseIdx_append_of_length_le]

/-- Inserting also takes the number behind the last, which is that of no instruction. -/
theorem yields_insert (r : Rung) (index : Int) (x : Instruction) :
    r.Yields index (0 ≤ index ∧ index ≤ (Series.instructions r.elements).length)
      ((Series.instructions r.elements).insertIdx index.toNat x) (r.insert index x) := by
  unfold insert
  split
  · rename_i hend
    have hfits : 0 ≤ index ∧ index ≤ (Series.instructions r.elements).length := by
      rw [hend]
      exact ⟨Int.natCast_nonneg _, Int.le_refl _⟩
    have hlist : (Series.instructions r.elements).insertIdx index.toNat x =
        Series.instructions (r.elements ++ [.instr x]) := by
      rw [hend, Int.toNat_natCast, Series.instructions_append]
      simp [count, Series.count, Series.instructions]
    rw [hlist]
    exact r.yields_withElements index _ hfits _
  · rename_i hend
    have hbound : (0 ≤ index ∧ index ≤ (Series.instructions r.elements).length) ↔
        (0 ≤ index ∧ index < (Series.instructions r.elements).length) := by
      have : index ≠ (Series.instructions r.elements).length := hend
      omega
    rw [hbound]
    refine r.yields_editAround index _ (fun i => [.instr x, .instr i]) _
      (fun left i right => ?_) ?_
    · simp
    · rintro a i b hab rfl
      have hinsert := List.modifyTailIdx_add (List.cons x) 0 a (i :: b)
      simpa [hab, Series.instructions, List.insertIdx] using hinsert

/-- **Edits of a rung are edits of the list of its instructions.** -/
theorem edit_yields (r : Rung) (index : Int) (x : Instruction) :
    let is := Series.instructions r.elements
    r.Yields index (0 ≤ index ∧ index < is.length) (is.set index.toNat x) (r.replace index x) ∧
    r.Yields index (0 ≤ index ∧ index < is.length) (is.eraseIdx index.toNat) (r.remove index) ∧
    r.Yields index (0 ≤ index ∧ index ≤ is.length) (is.insertIdx index.toNat x)
      (r.insert index x) :=
  ⟨r.yields_replace index x, r.yields_remove index, r.yields_insert index x⟩

end Rung

/-! ## Edits of canonical series -/

namespace Series

variable {depth : Nat}

/-- Elements may be put between a start and an end of a canonical series. -/
theorem CanonicalIn.between {es new : Series} (h : CanonicalIn depth es)
    (hnew : CanonicalIn depth new) (m n : Nat) :
    CanonicalIn depth (es.take m ++ new ++ es.drop n) := by
  have htake : CanonicalIn depth (es.take m) :=
    (canonicalIn_append.1 (List.take_append_drop m es ▸ h)).1
  have hdrop : CanonicalIn depth (es.drop n) :=
    (canonicalIn_append.1 (List.take_append_drop n es ▸ h)).2
  exact canonicalIn_append.2 ⟨canonicalIn_append.2 ⟨htake, hnew⟩, hdrop⟩

theorem CanonicalIn.splice {es new : Series} (h : CanonicalIn depth es)
    (hnew : CanonicalIn depth new) (position : Nat) : CanonicalIn depth (es.splice position new) :=
  h.between hnew position (position + 1)

/-- What is left of a branch without its empty legs is canonical, if its legs are. -/
theorem canonicalIn_prune {legs : Legs} (hdepth : depth ≤ maxDepth)
    (h : ∀ leg ∈ legs, CanonicalIn (depth + 1) leg) : CanonicalIn depth (Legs.prune legs) := by
  unfold Legs.prune
  split
  · exact canonicalIn_nil.2 hdepth
  · rename_i hne
    refine canonicalIn_branch.2 ⟨hne, fun leg hleg => ?_⟩
    obtain ⟨hmem, hkept⟩ := List.mem_filter.1 hleg
    exact ⟨by simpa using hkept, h leg hmem⟩

theorem CanonicalIn.of_mem {es : Series} (h : CanonicalIn depth es) {e : Element} (he : e ∈ es) :
    CanonicalIn depth [e] := by
  obtain ⟨left, right, rfl⟩ := List.append_of_mem he
  exact (canonicalIn_cons.1 (canonicalIn_append.1 h).2).1

/-- **An edit keeps a series canonical** if what it does at the end of the way does. -/
theorem CanonicalIn.editAt {change : Series → Series}
    (hchange : ∀ depth es, CanonicalIn depth es → CanonicalIn depth (change es)) (path : LegPath)
    {es : Series} (h : CanonicalIn depth es) : CanonicalIn depth (editAt change path es) := by
  induction path generalizing depth es with
  | nil => exact hchange depth es h
  | cons step path ih =>
    obtain ⟨position, leg⟩ := step
    unfold Series.editAt
    split
    · rename_i legs hes
      have hlegs := (canonicalIn_branch.1 (h.of_mem (List.mem_of_getElem? hes))).2
      refine h.splice (canonicalIn_prune h.depth_le fun edited hmem => ?_) position
      -- the edited leg by induction, the others as they were
      obtain ⟨k, hk⟩ := List.mem_iff_getElem?.1 hmem
      rw [List.getElem?_modify] at hk
      obtain ⟨old, hold, rfl⟩ := Option.map_eq_some_iff.1 hk
      have hcanonical := (hlegs old (List.mem_of_getElem? hold)).2
      split
      · exact ih hcanonical
      · exact hcanonical
    · exact h

end Series

/-! ## Runs of operations -/

namespace Rung

/-- Where a rung comes from: it has only a number yet, or a text, or canonical elements. -/
inductive Origin where
  | blank (number : Nat)
  | ofText (number : Nat) (text : String) (comment : Option String)
  | ofElements (number : Nat) (es : Series) (canonical : Series.Canonical es)

/-- The rung at its origin. -/
def Origin.rung : Origin → Rung
  | .blank number => { number }
  | .ofText number text comment => Rung.ofText number text comment
  | .ofElements number es _ => Rung.ofElements number es

/-- An operation on a rung.  Texts may be anything; elements and instructions that are put in are
    canonical. -/
inductive Operation where
  | withText (text : String)
  | withElements (es : Series) (canonical : Series.Canonical es)
  | replace (index : Int) (i : Instruction) (canonical : i.isCanonical = true)
  | insert (index : Int) (i : Instruction) (canonical : i.isCanonical = true)
  | remove (index : Int)

/-- What an operation makes of a rung. -/
def Operation.apply (r : Rung) : Operation → Except Error Rung
  | .withText text => .ok (r.withText text)
  | .withElements es _ => .ok (r.withElements es)
  | .replace index i _ => r.replace index i
  | .insert index i _ => r.insert index i
  | .remove index => r.remove index

/-- The rung after an operation; one that fails leaves it as it was. -/
def perform (r : Rung) (op : Operation) : Rung :=
  match op.apply r with
  | .ok new => new
  | .error _ => r

/-- The rung after some operations, one after another. -/
def run (origin : Origin) (ops : List Operation) : Rung := ops.foldl perform origin.rung

/-- The text of the rung holds its elements. -/
def IsConsistent (r : Rung) : Prop := RungText.elements r.text = r.elements

theorem IsConsistent.canonical {r : Rung} (h : r.IsConsistent) : Series.Canonical r.elements :=
  h ▸ canonical_elements r.text

theorem isConsistent_withElements (r : Rung) {es : Series} (h : Series.Canonical es) :
    (r.withElements es).IsConsistent := by
  show (parse (Series.rungText es)).elements = es
  rw [parse_rungText_of_canonical h]

/-- An edit around an instruction keeps text and elements together if it keeps canonical what is
    canonical. -/
theorem IsConsistent.editAround {r new : Rung} (h : r.IsConsistent) {index : Int}
    (change : Nat → Series → Series)
    (hchange : ∀ position depth es, Series.CanonicalIn depth es →
      Series.CanonicalIn depth (change position es))
    (hnew : r.editAround index change = .ok new) : new.IsConsistent := by
  obtain ⟨l, -, hresult⟩ | ⟨-, hresult⟩ := r.editAround_cases index change
  · obtain rfl := Except.ok.inj (hresult.symm.trans hnew)
    refine r.isConsistent_withElements (Series.canonicalIn_zero_iff.1 ?_)
    exact Series.CanonicalIn.editAt (hchange l.position) l.path h.canonical
  · cases hresult.symm.trans hnew

/-- **An operation keeps text and elements together.** -/
theorem IsConsistent.perform {r : Rung} (h : r.IsConsistent) (op : Operation) :
    (r.perform op).IsConsistent := by
  have hinstr {i : Instruction} (hi : i.isCanonical = true) {depth : Nat} {es : Series}
      (hes : Series.CanonicalIn depth es) : Series.CanonicalIn depth [.instr i] :=
    Series.canonicalIn_instr.2 ⟨hi, hes.depth_le⟩
  unfold Rung.perform
  split
  · rename_i new hnew
    cases op with
    | withText text =>
      cases hnew
      rfl
    | withElements es hcanonical =>
      cases hnew
      exact r.isConsistent_withElements hcanonical
    | replace index i hi =>
      refine h.editAround (fun position es => Series.splice es position [.instr i])
        (fun position depth es hes => ?_) hnew
      exact hes.splice (hinstr hi hes) position
    | remove index =>
      refine h.editAround (fun position es => Series.splice es position [])
        (fun position depth es hes => ?_) hnew
      exact hes.splice (Series.canonicalIn_nil.2 hes.depth_le) position
    | insert index i hi =>
      simp only [Operation.apply, Rung.insert] at hnew
      split at hnew
      · cases hnew
        refine r.isConsistent_withElements (Series.canonical_append.2 ⟨h.canonical, ?_⟩)
        exact hinstr hi (Series.canonicalIn_zero_iff.2 h.canonical)
      · refine h.editAround _ (fun position depth es hes => ?_) hnew
        simpa using hes.between (hinstr hi hes) position position
  · exact h

theorem Origin.isConsistent_rung (origin : Origin) : origin.rung.IsConsistent := by
  cases origin with
  | blank number => rfl
  | ofText number text comment => rfl
  | ofElements number es hcanonical =>
    exact isConsistent_withElements (.mk number "" [] none) hcanonical

theorem isConsistent_run (origin : Origin) (ops : List Operation) :
    (run origin ops).IsConsistent := by
  unfold run
  generalize hr : origin.rung = r
  have h : r.IsConsistent := hr ▸ origin.isConsistent_rung
  clear hr
  induction ops generalizing r with
  | nil => exact h
  | cons op ops ih => exact ih _ (h.perform op)

/-- **Text and elements of a rung never drift apart**: wherever it comes from and whatever has been
    done to it, its text holds its elements, and these are canonical. -/
theorem elements_text_run (origin : Origin) (ops : List Operation) :
    RungText.elements (run origin ops).text = (run origin ops).elements ∧
      Series.Canonical (run origin ops).elements :=
  ⟨isConsistent_run origin ops, (isConsistent_run origin ops).canonical⟩

example : (run (.ofText 0 "[[[XIC(A)]],XIC(B)]OTE(C)" none) [.remove 0]).text =
    "[XIC(B)]OTE(C);" := by
  decide +kernel

end Rung

end RelayLadder
