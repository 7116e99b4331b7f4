/-
  Where the findings of a text are, and how those of characters passed over lie to each other.

  * `InOrder cs pos ls`: the lexemes stand in the text one behind the other.  What a step keeps, from
    the start of its lexeme to the end, a run over such lexemes keeps (`InOrder.foldl_step`);
  * `State.Placed`: all that is told lies before the position reached, and so do the places that may
    still be told of the open branches;
  * `State.Coalesced`: the characters passed over are told of in their longest runs;
  * `faithful_diagnostics`: the diagnostics of a text give the characters at their positions in the
    whole text, and the runs of characters passed over lie in order and apart.
-/
import RelayLadder.Proofs.Omissions
import RelayLadder.Proofs.Surroundings

namespace RelayLadder.RungText

open Text

/-! ## Lexemes in order -/

/-- From `pos` on the lexemes stand in the text one behind the other, each at a character that is
    not blank. -/
def InOrder (cs : List Char) (pos : Nat) : List Lexeme → Prop
  | [] => pos ≤ cs.length
  | l :: ls =>
    pos ≤ l.start ∧ l.start < l.stop ∧ (∀ c ∈ cs[l.start]?, isBlank c = false) ∧
      InOrder cs l.stop ls

theorem InOrder.of_le {cs : List Char} {pos pos' : Nat} {ls : List Lexeme} (h : InOrder cs pos' ls)
    (hle : pos ≤ pos') : InOrder cs pos ls := by
  cases ls with
  | nil => exact hle.trans h
  | cons l ls => exact ⟨hle.trans h.1, h.2⟩

/-- **A text is cut into lexemes that stand in order.** -/
theorem Lexes.inOrder {before : Option Char} {pos : Nat} {cs : List Char} {ls : List Lexeme}
    (h : Lexes before pos cs ls) (front : List Char) (hfront : front.length = pos) :
    InOrder (front ++ cs) pos ls := by
  induction h generalizing front with
  | nil => simp [InOrder, hfront]
  | @blank before pos c cs ls _ _ ih =>
    have hnext := ih (front ++ [c]) (by simp [hfront])
    rw [List.append_assoc] at hnext
    exact hnext.of_le (Nat.le_succ pos)
  | @mark before pos c t cs ls hm _ ih =>
    have hnext := ih (front ++ [c]) (by simp [hfront])
    rw [List.append_assoc] at hnext
    refine ⟨Nat.le_refl pos, Nat.lt_succ_self pos, ?_, hnext⟩
    simpa [← hfront] using isBlank_of_mark? hm
  | @instruction before pos cs r ls hi _ ih =>
    have hpos := hi.length_pos
    have hnext := ih (front ++ cs.take r.length)
      (by rw [List.length_append, hfront, List.length_take_of_le hi.length_le])
    rw [List.append_assoc, List.take_append_drop] at hnext
    refine ⟨Nat.le_refl pos, Nat.lt_add_of_pos_right hpos, ?_, hnext⟩
    cases cs with
    | nil => simpa using hi.length_le.trans_lt hpos
    | cons c cs => simpa [← hfront] using isBlank_of_isNameChar hi.isNameChar_head
  | @junk before pos c cs ls hb _ _ _ ih =>
    have hnext := ih (front ++ [c]) (by simp [hfront])
    rw [List.append_assoc] at hnext
    refine ⟨Nat.le_refl pos, Nat.lt_succ_self pos, ?_, hnext⟩
    simpa [← hfront] using hb

/-- **What each step keeps, a run keeps**: it holds at the end of the text if it holds at the start,
    may be carried on over blanks, and is kept from the start of a lexeme to its end. -/
theorem InOrder.foldl_step {cs : List Char} (Fits : Nat → State → Prop)
    (mono : ∀ {pos pos' s}, Fits pos s → pos ≤ pos' → Fits pos' s)
    (step : ∀ {s l}, Fits l.start s → l.start < l.stop → (∀ c ∈ cs[l.start]?, isBlank c = false) →
      Fits l.stop (s.step l))
    {pos : Nat} {ls : List Lexeme} (h : InOrder cs pos ls) {s : State} (hs : Fits pos s) :
    Fits cs.length (ls.foldl State.step s) := by
  induction ls generalizing pos s with
  | nil => exact mono hs h
  | cons l ls ih =>
    obtain ⟨hstart, hlt, hblank, hls⟩ := h
    exact ih hls (step (mono hs hstart) hlt hblank)

theorem inOrder_lexemes (cs : List Char) : InOrder cs 0 (lexemes cs) :=
  (lexes_lexemesFrom none 0 cs).inOrder [] rfl

/-! ## Nothing is told of what is not read yet -/

/-- The span ends before `pos`. -/
def Span.Before (pos : Nat) (span : Span) : Prop := span.start ≤ span.stop ∧ span.stop ≤ pos

/-- The branch was opened before `pos`, and its legs without elements ended there. -/
structure Frame.Before (pos : Nat) (f : Frame) : Prop where
  start : f.start ≤ pos
  emptyLegs : ∀ e ∈ f.emptyLegs, e ≤ pos

/-- All that is told, or may still be told of the open branches, lies before `pos`. -/
structure State.Placed (pos : Nat) (s : State) : Prop where
  found : ∀ span ∈ s.found, span.Before pos
  frames : ∀ f ∈ s.frames, f.Before pos

theorem Span.Before.mono {pos pos' : Nat} {span : Span} (h : span.Before pos) (hle : pos ≤ pos') :
    span.Before pos' :=
  ⟨h.1, h.2.trans hle⟩

namespace Frame.Before

variable {pos : Nat} {f : Frame}

theorem mono {pos' : Nat} (h : f.Before pos) (hle : pos ≤ pos') : f.Before pos' :=
  ⟨h.start.trans hle, fun e he => (h.emptyLegs e he).trans hle⟩

theorem closeLeg (h : f.Before pos) : (f.closeLeg pos).Before pos := by
  unfold Frame.closeLeg
  split
  · refine ⟨h.start, List.forall_mem_append.2 ⟨h.emptyLegs, ?_⟩⟩
    simp
  · exact ⟨h.start, h.emptyLegs⟩

theorem findings (h : f.Before pos) {stop : Nat} (hle : pos ≤ stop) :
    ∀ span ∈ f.findings stop, span.Before stop := by
  intro span hspan
  unfold Frame.findings at hspan
  split at hspan
  · rw [List.mem_singleton.1 hspan]
    exact ⟨h.start.trans hle, Nat.le_refl stop⟩
  · obtain ⟨e, he, rfl⟩ := List.mem_map.1 hspan
    exact ⟨Nat.le_refl e, (h.emptyLegs e he).trans hle⟩

end Frame.Before

namespace State.Placed

variable {pos : Nat} {s : State}

theorem mono {pos' : Nat} (h : s.Placed pos) (hle : pos ≤ pos') : s.Placed pos' :=
  ⟨fun span hspan => (h.found span hspan).mono hle, fun f hf => (h.frames f hf).mono hle⟩

theorem report (h : s.Placed pos) {spans : List Span} (hspans : ∀ span ∈ spans, span.Before pos) :
    (s.report spans).Placed pos := by
  refine ⟨List.forall_mem_append.2 ⟨fun span hspan => ?_, h.found⟩, h.frames⟩
  exact hspans span (List.mem_reverse.1 hspan)

theorem add (h : s.Placed pos) (es : Series) : (s.add es).Placed pos := by
  refine ⟨s.found_add es ▸ h.found, ?_⟩
  rcases hf : s.frames with _ | ⟨f, frames⟩
  · rw [State.add_of_frames_nil hf]
    exact h.frames
  · have hframes := h.frames
    rw [hf, List.forall_mem_cons] at hframes
    rw [State.add_of_frames_cons hf]
    exact List.forall_mem_cons.2 ⟨⟨hframes.1.start, hframes.1.emptyLegs⟩, hframes.2⟩

theorem skip (h : s.Placed pos) (finding : Finding) : (s.skip finding pos).Placed (pos + 1) := by
  have hmore := h.mono (Nat.le_succ pos)
  obtain ⟨start, found, hfound, hskip⟩ | ⟨-, hskip⟩ := s.skip_cases finding pos
  · have hspans := h.found
    rw [hfound, List.forall_mem_cons] at hspans
    obtain ⟨⟨hstart, -⟩, hrest⟩ := hspans
    rw [hskip]
    refine ⟨List.forall_mem_cons.2 ⟨?_, fun span hspan => ?_⟩, hmore.frames⟩
    · exact ⟨hstart.trans (Nat.le_succ pos), Nat.le_refl _⟩
    · exact (hrest span hspan).mono (Nat.le_succ pos)
  · rw [hskip]
    exact ⟨List.forall_mem_cons.2 ⟨⟨Nat.le_succ pos, Nat.le_refl _⟩, hmore.found⟩, hmore.frames⟩

/-- **A step tells nothing that lies behind its lexeme.** -/
theorem step {l : Lexeme} (h : s.Placed l.start) (hlt : l.start < l.stop) :
    (s.step l).Placed l.stop := by
  have hmore := h.mono hlt.le
  have hs := stepOf_step s l
  generalize s.step l = s' at hs
  cases hs with
  | @instruction i closed ht =>
    refine (hmore.report ?_).add [.instr i]
    cases closed
    · exact List.forall_mem_singleton.2 ⟨hlt.le, Nat.le_refl _⟩
    · exact List.forall_mem_nil _
  | openBranch ht hd =>
    exact ⟨hmore.found, List.forall_mem_cons.2 ⟨⟨hlt.le, List.forall_mem_nil _⟩, hmore.frames⟩⟩
  | tooDeep ht hd => exact (h.skip .tooDeep).mono hlt
  | @comma f frames ht hf =>
    have hframes := h.frames
    rw [hf, List.forall_mem_cons] at hframes
    refine ⟨hmore.found, List.forall_mem_cons.2 ⟨hframes.1.closeLeg.mono hlt.le, ?_⟩⟩
    exact fun g hg => (hframes.2 g hg).mono hlt.le
  | @closeBranch f frames ht hf =>
    have hframes := hmore.frames
    rw [hf, List.forall_mem_cons] at hframes
    have hclosed := (h.frames f (by simp [hf])).closeLeg
    have hpopped : State.Placed l.stop { s with frames } := ⟨hmore.found, hframes.2⟩
    exact (hpopped.report (hclosed.findings hlt.le)).add _
  | stray ht => exact (h.skip .skipped).mono hlt

theorem finish (h : s.Placed pos) : (s.finish pos).Placed pos := by
  suffices hall : ∀ (frames : List Frame) (inner : Series) (t : State), t.Placed pos →
      (∀ f ∈ frames, f.Before pos) → (State.closeAll pos inner frames t).Placed pos from
    hall s.frames [] s h h.frames
  intro frames
  induction frames with
  | nil =>
    intro inner t ht _
    exact ⟨ht.found, List.forall_mem_nil _⟩
  | cons f frames ih =>
    intro inner t ht hframes
    rw [List.forall_mem_cons] at hframes
    have hadded : (f.add inner).Before pos := ⟨hframes.1.start, hframes.1.emptyLegs⟩
    refine ih _ _ (ht.report (List.forall_mem_cons.2 ⟨?_, ?_⟩)) hframes.2
    · exact ⟨hadded.closeLeg.start, Nat.le_refl pos⟩
    · exact hadded.closeLeg.findings (Nat.le_refl pos)

end State.Placed

theorem placed_readBody (cs : List Char) : (readBody cs).Placed cs.length := by
  refine State.Placed.finish ?_
  exact (inOrder_lexemes cs).foldl_step (fun pos s => s.Placed pos) State.Placed.mono
    (fun h hlt _ => h.step hlt) ⟨List.forall_mem_nil _, List.forall_mem_nil _⟩

/-! ## Longest runs -/

/-- The first span, told later, lies behind the second, and not directly if both tell the same. -/
def Span.Behind (later earlier : Span) : Prop :=
  earlier.stop ≤ later.start ∧ (earlier.finding = later.finding → earlier.stop ≠ later.start)

/-- The characters before `pos` that were passed over are told of in longest runs without blanks.
    A run that ends at `pos` was told last: it is the one that may go on. -/
structure State.Coalesced (cs : List Char) (pos : Nat) (s : State) : Prop where
  solid : ∀ span ∈ s.omissions, span.start < span.stop ∧ span.stop ≤ pos ∧
    ∀ k, span.start ≤ k → k < span.stop → ∀ c ∈ cs[k]?, isBlank c = false
  apart : s.omissions.Pairwise Span.Behind
  latest : ∀ span ∈ s.omissions, span.stop = pos → s.found.head? = some span

namespace State.Coalesced

variable {cs : List Char} {pos : Nat} {s : State}

theorem mono {pos' : Nat} (h : s.Coalesced cs pos) (hle : pos ≤ pos') : s.Coalesced cs pos' := by
  refine ⟨fun span hspan => ?_, h.apart, fun span hspan hstop => ?_⟩
  · obtain ⟨hlt, hstop, hsolid⟩ := h.solid span hspan
    exact ⟨hlt, hstop.trans hle, hsolid⟩
  · have := (h.solid span hspan).2.1
    exact h.latest span hspan (by omega)

/-- Behind all that was passed over, other findings do not matter. -/
theorem of_omissions_eq (h : s.Coalesced cs pos) {t : State} (ht : t.omissions = s.omissions)
    {pos' : Nat} (hlt : pos < pos') : t.Coalesced cs pos' := by
  refine ⟨fun span hspan => ?_, ht ▸ h.apart, fun span hspan hstop => ?_⟩
  · exact (h.mono hlt.le).solid span (ht ▸ hspan)
  · have := (h.solid span (ht ▸ hspan)).2.1
    omega

/-- A run that ends behind the character at `pos` may be told last, in front of old ones. -/
theorem run_cons (h : s.Coalesced cs pos) {finding : Finding} (hf : finding.isOmission = true)
    {start : Nat} (hstart : start ≤ pos)
    (hsolid : ∀ k, start ≤ k → k < pos + 1 → ∀ c ∈ cs[k]?, isBlank c = false) {found : List Span}
    (hold : ∀ span ∈ found.filter (·.finding.isOmission), span ∈ s.omissions)
    (hapart : (⟨finding, start, pos + 1⟩ :: found.filter (·.finding.isOmission)).Pairwise
      Span.Behind) :
    State.Coalesced cs (pos + 1) { s with found := ⟨finding, start, pos + 1⟩ :: found } := by
  have homissions : State.omissions { s with found := ⟨finding, start, pos + 1⟩ :: found } =
      ⟨finding, start, pos + 1⟩ :: found.filter (·.finding.isOmission) :=
    List.filter_cons_of_pos hf
  refine ⟨?_, homissions ▸ hapart, ?_⟩ <;> rw [homissions]
  · refine List.forall_mem_cons.2 ⟨⟨Nat.lt_succ_of_le hstart, Nat.le_refl _, hsolid⟩, ?_⟩
    exact fun span hspan => (h.mono (Nat.le_succ pos)).solid span (hold span hspan)
  · refine List.forall_mem_cons.2 ⟨fun _ => rfl, fun span hspan hstop => ?_⟩
    have := (h.solid span (hold span hspan)).2.1
    omega

/-- **A character passed over goes on with a run that ends before it, and begins one otherwise.** -/
theorem skip (h : s.Coalesced cs pos) {finding : Finding} (hf : finding.isOmission = true)
    (hblank : ∀ c ∈ cs[pos]?, isBlank c = false) :
    (s.skip finding pos).Coalesced cs (pos + 1) := by
  obtain ⟨start, found, hfound, hskip⟩ | ⟨hhead, hskip⟩ := s.skip_cases finding pos
  · have homissions : s.omissions =
        ⟨finding, start, pos⟩ :: found.filter (·.finding.isOmission) := by
      rw [State.omissions, hfound]
      exact List.filter_cons_of_pos hf
    have hlast := h.solid ⟨finding, start, pos⟩ (by simp [homissions])
    have hold : ∀ span ∈ found.filter (·.finding.isOmission), span ∈ s.omissions :=
      fun span hspan => homissions ▸ List.mem_cons_of_mem _ hspan
    have hapart := h.apart
    rw [homissions, List.pairwise_cons] at hapart
    rw [hskip]
    refine h.run_cons hf hlast.1.le (fun k hk hlt => ?_) hold (List.pairwise_cons.2 hapart)
    by_cases hkpos : k = pos
    · exact hkpos ▸ hblank
    · exact hlast.2.2 k hk (by simp only; omega)
  · rw [hskip]
    refine h.run_cons hf (Nat.le_refl pos) (fun k hk hlt => ?_) (fun span hspan => hspan)
      (List.pairwise_cons.2 ⟨fun span hspan => ⟨(h.solid span hspan).2.1, ?_⟩, h.apart⟩)
    · obtain rfl : k = pos := by omega
      exact hblank
    · exact fun hfinding hstop => hhead span (h.latest span hspan hstop) hfinding hstop

/-- **A step keeps the runs longest.** -/
theorem step {l : Lexeme} (h : s.Coalesced cs l.start) (hlt : l.start < l.stop)
    (hblank : ∀ c ∈ cs[l.start]?, isBlank c = false) : (s.step l).Coalesced cs l.stop := by
  rcases hover : s.passesOver l.token with _ | _
  · obtain ⟨spans, hspans, hfound⟩ := exists_found_step hover
    refine h.of_omissions_eq ?_ hlt
    rw [State.omissions, hfound]
    exact State.omissions_report hspans s
  · obtain ⟨finding, hf, hskip⟩ := exists_step_eq_skip hover
    rw [hskip]
    exact (h.skip hf hblank).mono hlt

end State.Coalesced

theorem coalesced_readBody (cs : List Char) :
    ∃ s : State, s.Coalesced cs cs.length ∧ (readBody cs).omissions = s.omissions := by
  refine ⟨(lexemes cs).foldl State.step {}, ?_, omissions_finish _ _⟩
  exact (inOrder_lexemes cs).foldl_step (fun pos s => s.Coalesced cs pos)
    State.Coalesced.mono State.Coalesced.step
    ⟨List.forall_mem_nil _, .nil, List.forall_mem_nil _⟩

/-! ## Diagnostics -/

theorem mem_slice_iff {cs : List Char} {start stop : Nat} {c : Char} :
    c ∈ slice cs start stop ↔ ∃ k, start ≤ k ∧ k < stop ∧ cs[k]? = some c := by
  rw [slice, List.mem_iff_getElem?]
  constructor
  · rintro ⟨n, hn⟩
    rw [List.getElem?_take] at hn
    split at hn
    · rename_i hlt
      rw [List.getElem?_drop] at hn
      exact ⟨start + n, by omega, by omega, hn⟩
    · cases hn
  · rintro ⟨k, hstart, hstop, hk⟩
    refine ⟨k - start, ?_⟩
    rw [List.getElem?_take, if_pos (by omega), List.getElem?_drop, Nat.add_sub_of_le hstart, hk]

/-- A part of a text is found as far further on in a text with something in front. -/
theorem slice_append (lead cs tail : List Char) {start stop : Nat} (h : stop ≤ cs.length) :
    slice (lead ++ cs ++ tail) (start + lead.length) (stop + lead.length) = slice cs start stop := by
  have hdrop : (lead ++ cs ++ tail).drop (start + lead.length) = (cs ++ tail).drop start := by
    rw [Nat.add_comm, ← List.drop_drop, List.append_assoc, List.drop_left]
  rw [slice, hdrop, Nat.add_sub_add_right, slice]
  by_cases hlt : start ≤ cs.length
  · rw [List.drop_append_of_le_length hlt, List.take_append_of_le_length]
    rw [List.length_drop]
    omega
  · rw [Nat.sub_eq_zero_of_le (by omega), List.take_zero, List.take_zero]

/-- The diagnostic of a span of the body is about the same characters of the whole text. -/
theorem faithful_toDiagnostic {text : String} {span : Span}
    (h : span.Before (body text.toList).length) (hne : body text.toList ≠ []) :
    let d := span.toDiagnostic (body text.toList) (bodyStart text.toList)
    d.start ≤ d.stop ∧ d.stop ≤ text.length ∧
      d.text = String.ofList (slice text.toList d.start d.stop) := by
  obtain ⟨lead, tail, hcs, -, -, hstart⟩ := exists_eq_append_body text.toList
  have hlength : text.length = lead.length + (body text.toList).length + tail.length := by
    have := congrArg List.length hcs
    rwa [List.length_append, List.length_append, String.length_toList] at this
  simp only [Span.toDiagnostic, hstart hne]
  refine ⟨Nat.add_le_add_right h.1 _, ?_, ?_⟩
  · have := h.2
    omega
  · conv_rhs => rw [hcs]
    rw [slice_append lead _ tail h.2]

/-- What is told of a run without blanks gives characters, none of them blank. -/
theorem text_toDiagnostic_of_solid {cs : List Char} {span : Span} (hlt : span.start < span.stop)
    (hstop : span.stop ≤ cs.length)
    (hsolid : ∀ k, span.start ≤ k → k < span.stop → ∀ c ∈ cs[k]?, isBlank c = false)
    (offset : Nat) :
    let d := span.toDiagnostic cs offset
    d.text ≠ "" ∧ ∀ c ∈ d.text.toList, isBlank c = false := by
  have hfirst : cs[span.start] ∈ slice cs span.start span.stop :=
    mem_slice_iff.2 ⟨span.start, Nat.le_refl _, hlt, List.getElem?_eq_getElem (by omega)⟩
  refine ⟨fun hempty => ?_, fun c hc => ?_⟩
  · rw [String.ofList_eq_empty_iff.1 hempty] at hfirst
    cases hfirst
  · rw [Span.toDiagnostic, String.toList_ofList, mem_slice_iff] at hc
    obtain ⟨k, hstart, hk, hc⟩ := hc
    exact hsolid k hstart hk c hc

theorem diagnostics_eq (text : String) :
    (parse text).diagnostics = (readBody (body text.toList)).found.reverse.map
      (Span.toDiagnostic (body text.toList) (bodyStart text.toList)) := by
  rw [parse]

/-- Where nothing is read, nothing is told. -/
theorem diagnostics_eq_nil {text : String} (h : body text.toList = []) :
    (parse text).diagnostics = [] := by
  rw [diagnostics_eq, h]
  rfl

theorem faithful_of_mem_diagnostics {text : String} {d : Diagnostic}
    (hd : d ∈ (parse text).diagnostics) :
    d.start ≤ d.stop ∧ d.stop ≤ text.length ∧
      d.text = String.ofList (slice text.toList d.start d.stop) := by
  by_cases hne : body text.toList = []
  · rw [diagnostics_eq_nil hne] at hd
    cases hd
  · rw [diagnostics_eq, List.mem_map] at hd
    obtain ⟨span, hspan, rfl⟩ := hd
    exact faithful_toDiagnostic ((placed_readBody _).found span (List.mem_reverse.1 hspan)) hne

theorem omissions_diagnostics (text : String) :
    (parse text).diagnostics.filter (·.finding.isOmission) =
      (readBody (body text.toList)).omissions.reverse.map
        (Span.toDiagnostic (body text.toList) (bodyStart text.toList)) := by
  rw [diagnostics_eq, List.filter_map, State.omissions, List.filter_reverse]
  rfl

/-- **Diagnostics are faithful, and characters passed over are told of in longest runs.**  Every
    diagnostic gives the characters between its positions in the text; those of characters passed
    over come in the order of the text, cover characters that are not blank, do not overlap, and
    touch only where one tells of stray characters and the other of brackets nested too deep. -/
theorem faithful_diagnostics (text : String) :
    (∀ d ∈ (parse text).diagnostics, d.start ≤ d.stop ∧ d.stop ≤ text.length ∧
      d.text = String.ofList (slice text.toList d.start d.stop)) ∧
    let omissions := (parse text).diagnostics.filter (·.finding.isOmission)
    (∀ d ∈ omissions, d.text ≠ "" ∧ ∀ c ∈ d.text.toList, isBlank c = false) ∧
    omissions.Pairwise fun d e =>
      d.start < e.start ∧ d.stop ≤ e.start ∧ (d.finding = e.finding → d.stop ≠ e.start) := by
  obtain ⟨s, hs, homissions⟩ := coalesced_readBody (body text.toList)
  refine ⟨fun d hd => faithful_of_mem_diagnostics hd, ?_⟩
  rw [omissions_diagnostics, homissions]
  simp only [List.pairwise_map, List.pairwise_reverse]
  refine ⟨List.forall_mem_map.2 fun span hspan => ?_, ?_⟩
  · obtain ⟨hlt, hstop, hsolid⟩ := hs.solid span (List.mem_reverse.1 hspan)
    exact text_toDiagnostic_of_solid hlt hstop hsolid _
  · refine hs.apart.imp_of_mem fun {later earlier} _ hearlier hbehind => ?_
    have hlt := (hs.solid earlier hearlier).1
    obtain ⟨hle, hne⟩ := hbehind
    refine ⟨?_, Nat.add_le_add_right hle _, fun hfinding hstop => ?_⟩
    · exact Nat.add_lt_add_right (hlt.trans_le hle) _
    · exact hne hfinding (Nat.add_right_cancel hstop)

example : (parse " ?)[XIC(A)];;").diagnostics =
    [⟨⟨.skipped, 1, 3⟩, "?)"⟩, ⟨⟨.skipped, 11, 12⟩, ";"⟩] := by
  decide +kernel

end RelayLadder.RungText
