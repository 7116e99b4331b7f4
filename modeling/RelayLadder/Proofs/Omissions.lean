/-
  The characters that are passed over, and what is told of them.

  * `State.Marks dead s ls`: from the state `s` on, the machine passes over just those lexemes that
    start dead.  Without these it holds the same, and passes over nothing more
    (`State.Marks.foldl_step`);
  * `State.omissions`: what is told of characters passed over; findings of other kinds do not
    change it (`State.omissions_report`), the end of the text neither (`omissions_finish`);
  * `State.covers`: the characters of which it is told that they were passed over.  `covers_step`
    says that a step tells of the character that it passes over and of no other, `Lexes.accounts`
    that what is told after a run accounts for the run.
-/
import RelayLadder.Proofs.TokenRuns

namespace RelayLadder.RungText

/-! ## Runs without what is passed over -/

/-- From the state `s` on, the machine passes over just those lexemes that start dead. -/
def State.Marks (dead : Nat → Bool) (s : State) : List Lexeme → Prop
  | [] => True
  | l :: ls => dead l.start = s.passesOver l.token ∧ (s.step l).Marks dead ls

/-- **Without the lexemes that are passed over the machine holds the same, and passes over nothing
    more.** -/
theorem State.Marks.foldl_step {dead : Nat → Bool} {ls ks : List Lexeme} {s t : State}
    (h : s.Marks dead ls) (hst : s.Alike t)
    (hk : ks.map (·.token) = (ls.filter fun l => !dead l.start).map (·.token)) :
    (ls.foldl State.step s).Alike (ks.foldl State.step t) ∧
      ∀ kind : Finding, kind.isOmission = true →
        (ks.foldl State.step t).tally kind = t.tally kind := by
  induction ls generalizing s t ks with
  | nil =>
    obtain rfl : ks = [] := by simpa using hk
    exact ⟨hst, fun _ _ => rfl⟩
  | cons l ls ih =>
    obtain ⟨hl, hls⟩ := h
    rcases hover : s.passesOver l.token with _ | _
    · rw [List.filter_cons_of_pos (by simp [hl, hover]), List.map_cons] at hk
      obtain ⟨k, ks, rfl, htoken, hks⟩ := List.map_eq_cons_iff.1 hk
      obtain ⟨halike, htally⟩ := ih hls (hst.step (k := k) (by rw [htoken])) hks
      refine ⟨halike, fun kind hkind => (htally kind hkind).trans ?_⟩
      have hover' : t.passesOver k.token = false := by rw [← hst.passesOver_eq, htoken, hover]
      rw [tally_step (Finding.isVoid_of_isOmission hkind) fun _ => hover',
        beq_false_of_ne (Finding.ne_of_isOmission hkind).1, Bool.and_false]
      rfl
    · rw [List.filter_cons_of_neg (by simp [hl, hover])] at hk
      exact ih hls (hst.step_of_passesOver hover) hk

/-! ## The characters that are told of -/

/-- The finding is that the character at `k`, and maybe others, was passed over. -/
def Span.covers (span : Span) (k : Nat) : Bool :=
  span.finding.isOmission && decide (span.start ≤ k) && decide (k < span.stop)

theorem Span.covers_iff {span : Span} {k : Nat} :
    span.covers k = true ↔ span.finding.isOmission = true ∧ span.start ≤ k ∧ k < span.stop := by
  simp only [Span.covers, Bool.and_eq_true, decide_eq_true_eq, and_assoc]

/-- What was told of characters passed over, latest first. -/
def State.omissions (s : State) : List Span := s.found.filter (·.finding.isOmission)

/-- Findings of other kinds do not matter. -/
theorem State.omissions_report {spans : List Span}
    (h : ∀ span ∈ spans, span.finding.isOmission = false) (s : State) :
    (s.report spans).omissions = s.omissions := by
  have hnone : spans.reverse.filter (·.finding.isOmission) = [] := by
    simpa [List.filter_eq_nil_iff] using h
  rw [omissions, report_found, List.filter_append, hnone, List.nil_append, omissions]

theorem omissions_finish (s : State) (stop : Nat) : (s.finish stop).omissions = s.omissions := by
  suffices h : ∀ inner frames, (State.closeAll stop inner frames s).omissions = s.omissions from
    h [] s.frames
  intro inner frames
  induction frames generalizing inner s with
  | nil => rfl
  | cons f frames ih =>
    rw [State.closeAll, ih]
    refine State.omissions_report (List.forall_mem_cons.2 ⟨rfl, fun span hspan => ?_⟩) s
    exact Finding.isOmission_of_isVoid (Frame.isVoid_of_mem_findings hspan)

/-- The character at `k` was passed over, as far as is told. -/
def State.covers (s : State) (k : Nat) : Bool := s.found.any (·.covers k)

/-- All that was passed over stands before `pos`. -/
def State.Within (s : State) (pos : Nat) : Prop :=
  ∀ span ∈ s.found, span.finding.isOmission = true → span.start ≤ span.stop ∧ span.stop ≤ pos

namespace State

variable {s : State} {pos : Nat}

theorem Within.mono (h : s.Within pos) {pos' : Nat} (hle : pos ≤ pos') : s.Within pos' :=
  fun span hspan ho => ⟨(h span hspan ho).1, (h span hspan ho).2.trans hle⟩

theorem Within.covers_eq_false (h : s.Within pos) {k : Nat} (hk : pos ≤ k) :
    s.covers k = false := by
  rw [covers, List.any_eq_false]
  intro span hspan hc
  obtain ⟨ho, -, hlt⟩ := Span.covers_iff.1 hc
  have hle := (h span hspan ho).2
  omega

theorem covers_eq_any_omissions (s : State) (k : Nat) :
    s.covers k = s.omissions.any (·.covers k) := by
  rw [covers, omissions, List.any_filter]
  refine congrArg s.found.any (funext fun span => ?_)
  rw [Span.covers, ← Bool.and_assoc, ← Bool.and_assoc, Bool.and_self]

theorem within_iff_omissions :
    s.Within pos ↔ ∀ span ∈ s.omissions, span.start ≤ span.stop ∧ span.stop ≤ pos := by
  simp only [Within, omissions, List.mem_filter, and_imp]

theorem covers_report {spans : List Span} (h : ∀ span ∈ spans, span.finding.isOmission = false)
    (k : Nat) : (s.report spans).covers k = s.covers k := by
  rw [covers_eq_any_omissions, omissions_report h, ← covers_eq_any_omissions]

theorem Within.report (hs : s.Within pos) {spans : List Span}
    (h : ∀ span ∈ spans, span.finding.isOmission = false) : (s.report spans).Within pos := by
  rwa [within_iff_omissions, omissions_report h, ← within_iff_omissions]

/-- The character passed over is covered, and no other one more. -/
theorem covers_skip (hs : s.Within pos) {finding : Finding} (hf : finding.isOmission = true)
    (k : Nat) : (s.skip finding pos).covers k = (s.covers k || k == pos) := by
  obtain ⟨start, found, hfound, hskip⟩ | ⟨-, hskip⟩ := s.skip_cases finding pos
  · have hle : start ≤ pos := (hs ⟨finding, start, pos⟩ (by simp [hfound]) hf).1
    have hlonger : Span.covers ⟨finding, start, pos + 1⟩ k =
        (Span.covers ⟨finding, start, pos⟩ k || k == pos) := by
      rw [Bool.eq_iff_iff, Bool.or_eq_true, Span.covers_iff, Span.covers_iff, beq_iff_eq]
      simp only [hf, true_and]
      omega
    simp only [hskip, covers, hfound, List.any_cons, hlonger, Bool.or_right_comm]
  · have hone : Span.covers ⟨finding, pos, pos + 1⟩ k = (k == pos) := by
      rw [Bool.eq_iff_iff, Span.covers_iff, beq_iff_eq]
      simp only [hf, true_and]
      omega
    rw [hskip, covers, List.any_cons, hone, Bool.or_comm, covers]

theorem Within.skip (hs : s.Within pos) (finding : Finding) :
    (s.skip finding pos).Within (pos + 1) := by
  have hmore := hs.mono (Nat.le_succ pos)
  obtain ⟨start, found, hfound, hskip⟩ | ⟨-, hskip⟩ := s.skip_cases finding pos
  · rw [Within, hfound, List.forall_mem_cons] at hmore
    rw [hskip]
    exact List.forall_mem_cons.2
      ⟨fun ho => ⟨(hmore.1 ho).1.trans (Nat.le_succ pos), Nat.le_refl _⟩, hmore.2⟩
  · rw [hskip]
    exact List.forall_mem_cons.2 ⟨fun _ => ⟨Nat.le_succ pos, Nat.le_refl _⟩, hmore⟩

end State

/-- What is told at a lexeme that is not passed over is of other kinds. -/
theorem exists_found_step {s : State} {l : Lexeme} (h : s.passesOver l.token = false) :
    ∃ spans : List Span, (∀ span ∈ spans, span.finding.isOmission = false) ∧
      (s.step l).found = (s.report spans).found := by
  have hs := stepOf_step s l
  generalize s.step l = s' at hs
  cases hs with
  | @instruction i closed ht =>
    refine ⟨_, ?_, State.found_add _ _⟩
    cases closed <;> simp [Finding.isOmission]
  | openBranch _ _ | comma _ _ => exact ⟨[], by simp, rfl⟩
  | tooDeep ht hd =>
    rw [ht] at h
    exact absurd hd (of_decide_eq_false h)
  | closeBranch ht hf =>
    exact ⟨_, fun span hspan =>
      Finding.isOmission_of_isVoid (Frame.isVoid_of_mem_findings hspan), State.found_add _ _⟩
  | stray ht => rcases ht with ht | ⟨hnone, ht | ht⟩ <;> simp_all [State.passesOver]

/-- **A step covers the character that it passes over, and no other one more.** -/
theorem covers_step {s : State} {l : Lexeme} (hs : s.Within l.start) (hl : l.start < l.stop) :
    (s.step l).Within l.stop ∧
      ∀ k, (s.step l).covers k = (s.covers k || s.passesOver l.token && k == l.start) := by
  rcases hover : s.passesOver l.token with _ | _
  · obtain ⟨spans, hspans, hfound⟩ := exists_found_step hover
    refine ⟨?_, fun k => ?_⟩
    · rw [State.Within, hfound]
      exact (hs.mono hl.le).report hspans
    · rw [State.covers, hfound, Bool.false_and, Bool.or_false]
      exact State.covers_report hspans k
  · obtain ⟨finding, ho, hskip⟩ := exists_step_eq_skip hover
    rw [hskip]
    exact ⟨(hs.skip finding).mono hl, State.covers_skip hs ho⟩

/-- Characters that fit nowhere are dead, and no character of an instruction is. -/
def Spares (dead : Nat → Bool) (ls : List Lexeme) : Prop :=
  ∀ l ∈ ls, (l.token = .junk → dead l.start = true) ∧
    ∀ i closed, l.token = .instruction i closed → ∀ k, l.start ≤ k → k < l.stop → dead k = false

/-- What is told after the run over `ls`, from `pos` up to `stop`, accounts for the run: the
    characters before it are covered as they were, and those in it just if they are passed over. -/
structure State.Accounts (s : State) (pos stop : Nat) (ls : List Lexeme) : Prop where
  within : (ls.foldl State.step s).Within stop
  before : ∀ k < pos, (ls.foldl State.step s).covers k = s.covers k
  marks : s.Marks (ls.foldl State.step s).covers ls
  spares : Spares (ls.foldl State.step s).covers ls

theorem State.Accounts.cons {s : State} {l : Lexeme} {ls : List Lexeme} {stop : Nat}
    (hs : s.Within l.start) (hl : l.start < l.stop)
    (h : (s.step l).Within l.stop → (s.step l).Accounts l.stop stop ls) :
    s.Accounts l.start stop (l :: ls) := by
  obtain ⟨hwithin, hstep⟩ := covers_step hs hl
  have h := h hwithin
  have hlate : ∀ k, l.start ≤ k → k < l.stop →
      (ls.foldl State.step (s.step l)).covers k = (s.passesOver l.token && k == l.start) := by
    intro k hk hlt
    rw [h.before k hlt, hstep k, hs.covers_eq_false hk, Bool.false_or]
  refine ⟨h.within, fun k hk => ?_, ⟨?_, h.marks⟩, List.forall_mem_cons.2 ⟨⟨?_, ?_⟩, h.spares⟩⟩
  · have hne : (k == l.start) = false := by simpa using hk.ne
    rw [List.foldl_cons, h.before k (hk.trans hl), hstep k, hne, Bool.and_false, Bool.or_false]
  · rw [List.foldl_cons, hlate l.start (Nat.le_refl _) hl, beq_self_eq_true, Bool.and_true]
  · intro ht
    rw [List.foldl_cons, hlate l.start (Nat.le_refl _) hl, ht, beq_self_eq_true]
    rfl
  · intro i closed ht k hk hlt
    rw [List.foldl_cons, hlate k hk hlt, ht]
    rfl

/-- **What is told of a text accounts for it.** -/
theorem Lexes.accounts {before : Option Char} {pos : Nat} {cs : List Char} {ls : List Lexeme}
    (h : Lexes before pos cs ls) {s : State} (hs : s.Within pos) :
    s.Accounts pos (pos + cs.length) ls := by
  induction h generalizing s with
  | nil => exact ⟨hs, fun _ _ => rfl, trivial, List.forall_mem_nil _⟩
  | @blank before pos c cs ls _ _ ih =>
    obtain ⟨hwithin, hbefore, hmarks, hspares⟩ := ih (hs.mono (Nat.le_succ pos))
    rw [List.length_cons, Nat.add_comm cs.length, ← Nat.add_assoc]
    exact ⟨hwithin, fun k hk => hbefore k (Nat.lt_succ_of_lt hk), hmarks, hspares⟩
  | @mark before pos c t cs ls _ _ ih =>
    rw [List.length_cons, Nat.add_comm cs.length, ← Nat.add_assoc]
    exact .cons (l := ⟨t, pos, pos + 1⟩) hs (Nat.lt_succ_self pos) ih
  | @instruction before pos cs r ls hi _ ih =>
    have hlt : pos < pos + r.length := Nat.lt_add_of_pos_right hi.length_pos
    have hstop : pos + cs.length = pos + r.length + (cs.drop r.length).length := by
      have := hi.length_le
      rw [List.length_drop]
      omega
    rw [hstop]
    exact .cons (l := ⟨.instruction r.instruction r.closed, pos, pos + r.length⟩) hs hlt ih
  | @junk before pos c cs ls _ _ _ _ ih =>
    rw [List.length_cons, Nat.add_comm cs.length, ← Nat.add_assoc]
    exact .cons (l := ⟨.junk, pos, pos + 1⟩) hs (Nat.lt_succ_self pos) ih

theorem covers_finish (s : State) (stop k : Nat) : (s.finish stop).covers k = s.covers k := by
  rw [State.covers_eq_any_omissions, omissions_finish, ← State.covers_eq_any_omissions]

/-- What is told after the reading of a text accounts for it. -/
theorem accounts_readBody (cs : List Char) :
    State.Marks (readBody cs).covers {} (lexemes cs) ∧ Spares (readBody cs).covers (lexemes cs) ∧
      ∀ k, cs.length ≤ k → (readBody cs).covers k = false := by
  have hend : (readBody cs).covers = ((lexemes cs).foldl State.step {}).covers :=
    funext (covers_finish _ _)
  have h : State.Accounts {} 0 (0 + cs.length) (lexemes cs) :=
    (lexes_lexemesFrom none 0 cs).accounts (List.forall_mem_nil _)
  rw [Nat.zero_add] at h
  rw [hend]
  exact ⟨h.marks, h.spares, fun k hk => h.within.covers_eq_false hk⟩

end RelayLadder.RungText
