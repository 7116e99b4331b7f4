/-
  Garbage: characters that can be part of nothing.

  A character of no name that is no bracket or comma starts nothing.  `HasRuns` says what the
  longest runs without blanks in a text are, and where they start.  Garbage is passed over, and told
  of once for each such run of it (`HasRuns.exists_run`).
-/
import RelayLadder.Proofs.CleanReading

namespace RelayLadder.RungText

open Text

/-! ## Runs of characters -/

/-- A run of characters, and where it starts. -/
structure Run where
  start : Nat
  chars : List Char

/-- The text, which starts at `pos`, has these longest runs of characters that are not blank, in
    order. -/
inductive HasRuns : Nat → List Char → List Run → Prop
  | nil {pos : Nat} {blanks : List Char} : blanks.all isBlank = true → HasRuns pos blanks []
  | cons {pos start : Nat} {blanks word rest : List Char} {runs : List Run} :
      blanks.all isBlank = true → start = pos + blanks.length → word ≠ [] →
      (∀ c ∈ word, isBlank c = false) → (∀ c ∈ rest.head?, isBlank c = true) →
      HasRuns (start + word.length) rest runs →
      HasRuns pos (blanks ++ word ++ rest) (⟨start, word⟩ :: runs)

namespace HasRuns

variable {pos : Nat} {cs : List Char} {runs : List Run}

/-- Blanks in front of a text add no run. -/
theorem blanks_append {blanks : List Char} (hblanks : blanks.all isBlank = true)
    (h : HasRuns (pos + blanks.length) cs runs) : HasRuns pos (blanks ++ cs) runs := by
  cases h with
  | nil hcs => exact .nil (by rw [List.all_append, hblanks, hcs]; rfl)
  | @cons _ start lead word rest runs hlead hstart hne hword hrest h =>
    rw [List.append_assoc, ← List.append_assoc, ← List.append_assoc]
    refine .cons (by rw [List.all_append, hblanks, hlead]; rfl) ?_ hne hword hrest h
    rw [hstart, List.length_append, Nat.add_assoc]

/-- The runs of a text further on are as far further on. -/
theorem shift (h : HasRuns pos cs runs) (n : Nat) :
    HasRuns (pos + n) cs (runs.map fun run => ⟨run.start + n, run.chars⟩) := by
  induction h with
  | nil hblanks => exact .nil hblanks
  | cons hblanks hstart hne hword hrest _ ih =>
    refine .cons hblanks ?_ hne hword hrest ?_
    · simp only [hstart, Nat.add_right_comm]
    · rwa [Nat.add_right_comm]

/-- A run is the part of the text that stands where it starts. -/
theorem slice_eq (h : HasRuns pos cs runs) {before : List Char} (hpos : before.length = pos)
    (after : List Char) :
    ∀ run ∈ runs, slice (before ++ (cs ++ after)) run.start (run.start + run.chars.length) =
      run.chars := by
  induction h generalizing before with
  | nil => simp
  | @cons pos start blanks word rest runs hblanks hstart hne hword hrest _ ih =>
    have hlead : (before ++ blanks).length = start := by rw [List.length_append, hpos, hstart]
    refine List.forall_mem_cons.2 ⟨?_, ?_⟩
    · have hsplit : before ++ (blanks ++ word ++ rest ++ after) =
          (before ++ blanks) ++ (word ++ (rest ++ after)) := by simp
      simp only [slice, Nat.add_sub_cancel_left]
      rw [hsplit, List.drop_left' hlead, List.take_left' rfl]
    · have hnext : (before ++ blanks ++ word).length = start + word.length := by
        rw [List.length_append, hlead]
      simpa using ih hnext

end HasRuns

/-- A text that is not blank starts with a run, up to blanks in front of it. -/
theorem exists_word {cs : List Char} (h : ¬ cs.all isBlank = true) :
    ∃ blanks word rest, cs = blanks ++ word ++ rest ∧ blanks.all isBlank = true ∧ word ≠ [] ∧
      (∀ c ∈ word, isBlank c = false) ∧ ∀ c ∈ rest.head?, isBlank c = true := by
  refine ⟨cs.takeWhile isBlank, (trimLeft cs).takeWhile (!isBlank ·),
    (trimLeft cs).dropWhile (!isBlank ·), ?_, List.all_takeWhile, ?_, fun c hc => ?_,
    fun c hc => ?_⟩
  · rw [List.append_assoc, List.takeWhile_append_dropWhile, trimLeft,
      List.takeWhile_append_dropWhile]
  · rw [← trimLeft_eq_nil_iff] at h
    obtain ⟨c, after, hafter⟩ := List.exists_cons_of_ne_nil h
    have hc : isBlank c = false :=
      trimLeft_eq_self_iff.1 (List.dropWhile_idempotent isBlank cs) c
        (by rw [← trimLeft, hafter]; rfl)
    simp [hafter, hc]
  · simpa using List.mem_takeWhile_imp hc
  · have hnot := List.head?_dropWhile_not (!isBlank ·) (trimLeft cs)
    rw [Option.mem_def] at hc
    rw [hc] at hnot
    simpa using hnot

theorem exists_hasRuns (pos : Nat) (cs : List Char) : ∃ runs, HasRuns pos cs runs := by
  induction hn : cs.length using Nat.strongRecOn generalizing pos cs with
  | ind n ih =>
    by_cases hblank : cs.all isBlank = true
    · exact ⟨[], .nil hblank⟩
    · obtain ⟨blanks, word, rest, rfl, hblanks, hne, hword, hrest⟩ := exists_word hblank
      have hshorter : rest.length < n := by
        have hpos := List.length_pos_of_ne_nil hne
        rw [← hn, List.length_append, List.length_append]
        omega
      obtain ⟨runs, h⟩ := ih rest.length hshorter (pos + blanks.length + word.length) rest rfl
      exact ⟨_, .cons hblanks rfl hne hword hrest h⟩

/-! ## Reading garbage -/

theorem State.run_garbage {c : Char} (hb : isBlank c = false) (hn : isNameChar c = false)
    (hm : mark? c = none) (s : State) (before : Option Char) (pos : Nat) (cs : List Char) :
    s.run before pos (c :: cs) = (s.skip .skipped pos).run (some c) (pos + 1) cs := by
  have hr : readInstruction before (c :: cs) = none := by simp [readInstruction, hn]
  rw [State.run, lexemesFrom_single hb (tokenAt_of_junk hm hr)]
  rfl

theorem State.exists_run_blanks (s : State) {blanks : List Char} (h : blanks.all isBlank = true)
    (before : Option Char) (pos : Nat) (rest : List Char) :
    ∃ before', s.run before pos (blanks ++ rest) = s.run before' (pos + blanks.length) rest := by
  induction blanks generalizing before pos with
  | nil => exact ⟨before, rfl⟩
  | cons c blanks ih =>
    rw [List.all_cons, Bool.and_eq_true] at h
    obtain ⟨before', hrun⟩ := ih h.2 (some c) (pos + 1)
    refine ⟨before', ?_⟩
    rw [List.length_cons, Nat.add_comm blanks.length, ← Nat.add_assoc, ← hrun, State.run,
      List.cons_append, lexemesFrom_blank h.1]
    rfl

/-- The finding that the run was passed over. -/
def Run.span (run : Run) : Span := ⟨.skipped, run.start, run.start + run.chars.length⟩

/-- The diagnostic that the run was passed over. -/
def Run.diagnostic (run : Run) : Diagnostic := ⟨run.span, String.ofList run.chars⟩

theorem State.skip_of_head {s : State} {finding : Finding} {pos : Nat}
    (h : ∀ last ∈ s.found.head?, last.stop ≠ pos) :
    s.skip finding pos = s.report [⟨finding, pos, pos + 1⟩] := by
  obtain ⟨start, found, hfound, -⟩ | ⟨-, hskip⟩ := s.skip_cases finding pos
  · exact absurd rfl (h ⟨finding, start, pos⟩ (by simp [hfound]))
  · exact hskip

/-- The run that was told last goes on. -/
theorem State.exists_run_more (s : State) (start : Nat) (found : List Span) {word : List Char}
    (hb : ∀ c ∈ word, isBlank c = false) (hw : ∀ c ∈ word, isNameChar c = false ∧ mark? c = none)
    (before : Option Char) (pos : Nat) (rest : List Char) :
    ∃ before', { s with found := ⟨.skipped, start, pos⟩ :: found }.run before pos (word ++ rest) =
      { s with found := ⟨.skipped, start, pos + word.length⟩ :: found }.run before'
        (pos + word.length) rest := by
  induction word generalizing before pos with
  | nil => exact ⟨before, rfl⟩
  | cons c word ih =>
    rw [List.forall_mem_cons] at hb hw
    obtain ⟨before', hrun⟩ := ih hb.2 hw.2 (some c) (pos + 1)
    refine ⟨before', ?_⟩
    rw [List.cons_append, State.run_garbage hb.1 hw.1.1 hw.1.2, List.length_cons,
      Nat.add_comm word.length, ← Nat.add_assoc, ← hrun]
    simp [State.skip]

/-- A run that does not touch what was told last is told by itself. -/
theorem State.exists_run_word {s : State} {word : List Char} (hne : word ≠ [])
    (hb : ∀ c ∈ word, isBlank c = false) (hw : ∀ c ∈ word, isNameChar c = false ∧ mark? c = none)
    {pos : Nat} (hs : ∀ last ∈ s.found.head?, last.stop ≠ pos) (before : Option Char)
    (rest : List Char) :
    ∃ before', s.run before pos (word ++ rest) =
      { s with found := ⟨.skipped, pos, pos + word.length⟩ :: s.found }.run before'
        (pos + word.length) rest := by
  obtain ⟨c, word, rfl⟩ := List.exists_cons_of_ne_nil hne
  rw [List.forall_mem_cons] at hb hw
  obtain ⟨before', hrun⟩ := s.exists_run_more pos s.found hb.2 hw.2 (some c) (pos + 1) rest
  refine ⟨before', ?_⟩
  rw [List.cons_append, State.run_garbage hb.1 hw.1.1 hw.1.2, State.skip_of_head hs,
    List.length_cons, Nat.add_comm word.length, ← Nat.add_assoc, ← hrun]
  rfl

/-- **Garbage is passed over, and one finding is told for each run of it.** -/
theorem HasRuns.exists_run {pos : Nat} {cs : List Char} {runs : List Run} (h : HasRuns pos cs runs)
    (hcs : ∀ c ∈ cs, isNameChar c = false ∧ mark? c = none) {s : State}
    (hs : ∀ last ∈ s.found.head?, last.stop ≤ pos ∧
      (last.stop = pos → ∀ c ∈ cs.head?, isBlank c = true))
    (before : Option Char) (after : List Char) :
    ∃ before', s.run before pos (cs ++ after) =
      { s with found := (runs.map Run.span).reverse ++ s.found }.run before' (pos + cs.length)
        after := by
  induction h generalizing s before with
  | nil hblanks => exact s.exists_run_blanks hblanks before _ after
  | @cons pos start blanks word rest runs hblanks hstart hne hword hrest h ih =>
    rw [List.forall_mem_append, List.forall_mem_append] at hcs
    obtain ⟨⟨-, hgarbage⟩, hgarbage'⟩ := hcs
    have hapart : ∀ last ∈ s.found.head?, last.stop ≠ start := by
      intro last hlast hstop
      obtain ⟨hle, htouch⟩ := hs last hlast
      obtain rfl : blanks = [] := List.eq_nil_of_length_eq_zero (by omega)
      obtain ⟨c, word, rfl⟩ := List.exists_cons_of_ne_nil hne
      have hc := htouch (hstop.trans hstart) c rfl
      rw [hword c (by simp)] at hc
      cases hc
    obtain ⟨before₁, h₁⟩ := s.exists_run_blanks hblanks before pos (word ++ (rest ++ after))
    obtain ⟨before₂, h₂⟩ :=
      State.exists_run_word hne hword hgarbage hapart before₁ (rest ++ after)
    have htouch : ∀ last ∈ some (⟨.skipped, start, start + word.length⟩ : Span),
        last.stop ≤ start + word.length ∧
          (last.stop = start + word.length → ∀ c ∈ rest.head?, isBlank c = true) := by
      rintro _ ⟨⟩
      exact ⟨Nat.le_refl _, fun _ => hrest⟩
    obtain ⟨before₃, h₃⟩ := ih hgarbage' (s := { s with
      found := ⟨.skipped, start, start + word.length⟩ :: s.found }) htouch before₂
    refine ⟨before₃, ?_⟩
    rw [List.append_assoc, List.append_assoc, h₁, ← hstart, h₂, h₃]
    have hstop : start + word.length + rest.length =
        pos + (blanks ++ (word ++ rest)).length := by
      simp only [hstart, List.length_append]
      omega
    rw [hstop]
    simp [Run.span]

end RelayLadder.RungText
