/-
  Every text holds a canonical series.

  Whatever a text is, the reading never puts anything into its result that a text could not hold:
  `State.Canonical` says what the machine holds at any time, `State.Canonical.step` that a lexeme
  keeps it, and `canonicalIn_closing` that closing the open branches at the end does.

  `CanonicalIn depth` is canonicity inside `depth` branches; the nesting that is left there is
  smaller by as much.
-/
import RelayLadder.Proofs.Lexing
import RelayLadder.Proofs.Machine

namespace RelayLadder

open RungText

/-! ## Canonical series inside branches -/

theorem Legs.isProper_iff {legs : Legs} :
    Legs.isProper legs = true ↔ ∀ leg ∈ legs, leg ≠ [] ∧ Series.isProper leg = true := by
  induction legs with
  | nil => simp [Legs.isProper]
  | cons leg legs ih => simp [Legs.isProper, ih]

theorem Legs.depth_le_iff {legs : Legs} {n : Nat} :
    Legs.depth legs ≤ n ↔ ∀ leg ∈ legs, Series.depth leg ≤ n := by
  induction legs with
  | nil => simp [Legs.depth]
  | cons leg legs ih => rw [Legs.depth, Nat.max_le, ih, List.forall_mem_cons]

/-- Inside `depth` branches, the series is what its text holds. -/
def Series.CanonicalIn (depth : Nat) (es : Series) : Prop :=
  Series.isProper es = true ∧ Series.depth es + depth ≤ maxDepth

/-- Inside `depth` branches, the legs are what their texts hold. -/
def Legs.CanonicalIn (depth : Nat) (legs : Legs) : Prop :=
  ∀ leg ∈ legs, leg ≠ [] ∧ Series.CanonicalIn depth leg

namespace Series

variable {depth : Nat}

theorem canonicalIn_zero_iff {es : Series} : CanonicalIn 0 es ↔ Canonical es := Iff.rfl

@[simp]
theorem canonicalIn_nil : CanonicalIn depth [] ↔ depth ≤ maxDepth := by
  simp [CanonicalIn, isProper, Series.depth]

theorem CanonicalIn.depth_le {es : Series} (h : CanonicalIn depth es) : depth ≤ maxDepth :=
  Nat.le_trans (Nat.le_add_left depth _) h.2

@[simp]
theorem canonicalIn_append {a b : Series} :
    CanonicalIn depth (a ++ b) ↔ CanonicalIn depth a ∧ CanonicalIn depth b := by
  have hmax : max (Series.depth a) (Series.depth b) + depth ≤ maxDepth ↔
      Series.depth a + depth ≤ maxDepth ∧ Series.depth b + depth ≤ maxDepth := by omega
  simp only [CanonicalIn, isProper_append, depth_append, Bool.and_eq_true, hmax]
  exact and_and_and_comm

theorem canonicalIn_cons {e : Element} {es : Series} :
    CanonicalIn depth (e :: es) ↔ CanonicalIn depth [e] ∧ CanonicalIn depth es := by
  rw [← canonicalIn_append, List.singleton_append]

theorem canonicalIn_instr {i : Instruction} :
    CanonicalIn depth [.instr i] ↔ i.isCanonical = true ∧ depth ≤ maxDepth := by
  simp [CanonicalIn, isProper, Series.depth]

/-- A branch needs legs, and takes one of the levels that are left. -/
theorem canonicalIn_branch {legs : Legs} :
    CanonicalIn depth [.branch legs] ↔ legs ≠ [] ∧ Legs.CanonicalIn (depth + 1) legs := by
  simp only [CanonicalIn, Legs.CanonicalIn, isProper, Series.depth, Bool.and_eq_true,
    Bool.not_eq_true', Bool.and_true, Legs.isProper_iff]
  constructor
  · rintro ⟨⟨hne, hp⟩, hd⟩
    refine ⟨by simpa using hne, fun leg hl => ⟨(hp leg hl).1, (hp leg hl).2, ?_⟩⟩
    have := Legs.depth_le_iff.1 (Nat.le_refl _) leg hl
    omega
  · rintro ⟨hne, hl⟩
    refine ⟨⟨by simpa using hne, fun leg hm => ⟨(hl leg hm).1, (hl leg hm).2.1⟩⟩, ?_⟩
    -- a leg leaves room for its branch, and no leg is deeper than what is left
    obtain ⟨leg, hm⟩ := List.exists_mem_of_ne_nil legs hne
    have hroom := (hl leg hm).2.2
    have hdeep : Legs.depth legs ≤ maxDepth - (depth + 1) :=
      Legs.depth_le_iff.2 fun leg hm => by
        have := (hl leg hm).2.2
        omega
    omega

end Series

namespace RungText

/-! ## What the machine holds -/

/-- What the open branches, innermost first, hold is canonical. -/
def FramesCanonical : List Frame → Prop
  | [] => True
  | f :: frames => Legs.CanonicalIn (frames.length + 1) f.legs ∧
      Series.CanonicalIn (frames.length + 1) f.leg ∧ FramesCanonical frames

/-- What the machine holds is canonical. -/
structure State.Canonical (s : State) : Prop where
  rail : Series.CanonicalIn 0 s.rail
  frames : FramesCanonical s.frames

namespace Frame

variable {f : Frame} {depth : Nat}

theorem canonicalIn_closeLeg (hlegs : Legs.CanonicalIn depth f.legs)
    (hleg : Series.CanonicalIn depth f.leg) (pos : Nat) :
    Legs.CanonicalIn depth (f.closeLeg pos).legs := by
  unfold closeLeg
  split
  · exact hlegs
  · rename_i hne
    intro leg hl
    rcases List.mem_append.1 hl with hl | hl
    · exact hlegs leg hl
    · rw [List.mem_singleton.1 hl]
      exact ⟨by simpa using hne, hleg⟩

/-- A branch is put where there is room for it, or not at all. -/
theorem canonicalIn_elements_closeLeg (hlegs : Legs.CanonicalIn (depth + 1) f.legs)
    (hleg : Series.CanonicalIn (depth + 1) f.leg) (pos : Nat) :
    Series.CanonicalIn depth (f.closeLeg pos).elements := by
  have hclosed := canonicalIn_closeLeg hlegs hleg pos
  unfold elements
  split
  · exact Series.canonicalIn_nil.2 (Nat.le_of_succ_le hleg.depth_le)
  · rename_i hne
    exact Series.canonicalIn_branch.2 ⟨by simpa using hne, hclosed⟩

end Frame

namespace State.Canonical

variable {s : State}

theorem add (h : s.Canonical) {es : Series} (hes : Series.CanonicalIn s.frames.length es) :
    (s.add es).Canonical := by
  rcases hf : s.frames with _ | ⟨f, frames⟩
  · rw [hf] at hes
    rw [State.add_of_frames_nil hf]
    exact ⟨Series.canonicalIn_append.2 ⟨h.rail, hes⟩, h.frames⟩
  · rw [hf] at hes
    rw [State.add_of_frames_cons hf]
    have hfr := h.frames
    rw [hf] at hfr
    exact ⟨h.rail, hfr.1, Series.canonicalIn_append.2 ⟨hfr.2.1, hes⟩, hfr.2.2⟩

theorem length_frames_le (h : s.Canonical) : s.frames.length ≤ maxDepth := by
  rcases hf : s.frames with _ | ⟨f, frames⟩
  · simp
  · have hfr := h.frames
    rw [hf] at hfr
    exact hfr.2.1.depth_le

theorem report (h : s.Canonical) (spans : List Span) : (s.report spans).Canonical :=
  ⟨h.rail, h.frames⟩

theorem skip (h : s.Canonical) (finding : Finding) (pos : Nat) :
    (s.skip finding pos).Canonical := by
  obtain ⟨found, -, hs⟩ := s.exists_skip_eq finding pos
  rw [hs]
  exact ⟨h.rail, h.frames⟩

/-- **A lexeme keeps what the machine holds canonical**, if its instruction is. -/
theorem step (h : s.Canonical) {l : Lexeme}
    (hl : ∀ i closed, l.token = .instruction i closed → i.isCanonical = true) :
    (s.step l).Canonical := by
  have hs := stepOf_step s l
  generalize s.step l = s' at hs
  cases hs with
  | instruction ht =>
    refine (h.report _).add ?_
    exact Series.canonicalIn_instr.2 ⟨hl _ _ ht, h.length_frames_le⟩
  | openBranch _ hd =>
    refine ⟨h.rail, ?_, ?_, h.frames⟩
    · intro leg hm
      cases hm
    · exact Series.canonicalIn_nil.2 hd
  | tooDeep _ _ => exact h.skip _ _
  | comma _ hf =>
    obtain ⟨hlegs, hleg, hrest⟩ := hf ▸ h.frames
    refine ⟨h.rail, Frame.canonicalIn_closeLeg hlegs hleg _, ?_, hrest⟩
    rw [Frame.leg_closeLeg]
    exact Series.canonicalIn_nil.2 hleg.depth_le
  | @closeBranch f frames _ hf =>
    obtain ⟨hlegs, hleg, hrest⟩ := hf ▸ h.frames
    have hpop : State.Canonical { s with frames } := ⟨h.rail, hrest⟩
    exact (hpop.report _).add (Frame.canonicalIn_elements_closeLeg hlegs hleg _)
  | stray _ => exact h.skip _ _

theorem foldl_step (h : s.Canonical) {before : Option Char} {pos : Nat} {cs : List Char}
    {ls : List Lexeme} (hl : Lexes before pos cs ls) : (ls.foldl State.step s).Canonical := by
  induction hl generalizing s with
  | nil => exact h
  | blank _ _ ih => exact ih h
  | mark hm _ ih =>
    refine ih (h.step fun i closed ht => ?_)
    simp only at ht
    simp [ht, mark?_eq_some_iff] at hm
  | instruction hi _ ih =>
    refine ih (h.step fun i closed ht => ?_)
    injection ht with ht
    exact ht ▸ hi.isCanonical
  | junk _ _ _ _ ih => exact ih (h.step nofun)

end State.Canonical

theorem canonicalIn_closing {frames : List Frame} (h : FramesCanonical frames) {inner : Series}
    (hi : Series.CanonicalIn frames.length inner) (stop : Nat) :
    Series.CanonicalIn 0 (closing stop inner frames) := by
  induction frames generalizing inner with
  | nil => exact hi
  | cons f frames ih =>
    obtain ⟨hlegs, hleg, hrest⟩ := h
    have hadd : Series.CanonicalIn (frames.length + 1) (f.add inner).leg :=
      Series.canonicalIn_append.2 ⟨hleg, hi⟩
    exact ih hrest (Frame.canonicalIn_elements_closeLeg (f := f.add inner) hlegs hadd stop)

/-- **Every text holds a canonical series**, however garbled it is. -/
theorem canonical_elements (text : String) : Series.Canonical (elements text) := by
  have hstart : State.Canonical {} := ⟨Series.canonicalIn_nil.2 (Nat.zero_le _), trivial⟩
  have hrun := hstart.foldl_step (lexes_lexemesFrom none 0 (body text.toList))
  have hempty := Series.canonicalIn_nil.2 hrun.length_frames_le
  rw [elements_eq_rail_append, ← Series.canonicalIn_zero_iff]
  exact Series.canonicalIn_append.2 ⟨hrun.rail, canonicalIn_closing hrun.frames hempty _⟩

end RungText

end RelayLadder
