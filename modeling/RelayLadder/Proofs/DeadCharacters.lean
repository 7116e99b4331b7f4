/-
  The characters that are passed over are dead: spaces could stand in their place.

  `blankOut` puts a space in the place of each dead character.  If these are the characters that fit
  nowhere, and maybe brackets and commas, but none of an instruction (`Spares`), then what is left
  is cut into the lexemes that do not start dead (`Lexes.blankOut`), and no semicolon comes to the
  end (`Lexes.getLast?_blankOut`).  The diagnostics of a text tell of such characters, so that
  without these the text holds the same and nothing in it is passed over (`parse_blankDead`).
-/
import RelayLadder.Proofs.Omissions
import RelayLadder.Proofs.Surroundings

namespace RelayLadder.RungText

open Text

/-! ## Spaces in the place of characters -/

/-- The text from position `pos` on, with a space in the place of each character that is dead. -/
def blankOut (dead : Nat → Bool) (pos : Nat) : List Char → List Char
  | [] => []
  | c :: cs => (if dead pos then ' ' else c) :: blankOut dead (pos + 1) cs

section
variable {dead : Nat → Bool} {pos : Nat} {cs : List Char}

theorem length_blankOut : (blankOut dead pos cs).length = cs.length := by
  induction cs generalizing pos with
  | nil => rfl
  | cons c cs ih => simp [blankOut, ih]

theorem blankOut_append (a b : List Char) :
    blankOut dead pos (a ++ b) = blankOut dead pos a ++ blankOut dead (pos + a.length) b := by
  induction a generalizing pos with
  | nil => rfl
  | cons c a ih => simp [blankOut, ih, Nat.add_assoc, Nat.add_comm 1]

/-- A text without dead characters stays as it is. -/
theorem blankOut_eq_self (h : ∀ k, pos ≤ k → k < pos + cs.length → dead k = false) :
    blankOut dead pos cs = cs := by
  induction cs generalizing pos with
  | nil => rfl
  | cons c cs ih =>
    rw [List.length_cons] at h
    rw [blankOut, h pos (Nat.le_refl pos) (by omega), ih fun k hk hlt => h k (by omega) (by omega)]
    rfl

theorem blankOut_congr {dead' : Nat → Bool} {pos' : Nat}
    (h : ∀ k < cs.length, dead (pos + k) = dead' (pos' + k)) :
    blankOut dead pos cs = blankOut dead' pos' cs := by
  induction cs generalizing pos pos' with
  | nil => rfl
  | cons c cs ih =>
    have hhead : dead pos = dead' pos' := h 0 (Nat.succ_pos _)
    have htail : blankOut dead (pos + 1) cs = blankOut dead' (pos' + 1) cs := by
      refine ih fun k hk => ?_
      rw [Nat.add_assoc, Nat.add_assoc, Nat.add_comm 1]
      exact h (k + 1) (Nat.succ_lt_succ hk)
    rw [blankOut, blankOut, hhead, htail]

/-- The start of a text stays as it is if no character of it is dead. -/
theorem blankOut_of_live {n : Nat} (hn : n ≤ cs.length)
    (h : ∀ k, pos ≤ k → k < pos + n → dead k = false) :
    blankOut dead pos cs = cs.take n ++ blankOut dead (pos + n) (cs.drop n) := by
  have hlength : (cs.take n).length = n := List.length_take_of_le hn
  conv_lhs => rw [← List.take_append_drop n cs]
  rw [blankOut_append, hlength, blankOut_eq_self (by rwa [hlength])]

/-- A blank stays a blank. -/
theorem isBlank_blankOut {c : Char} (h : isBlank c = true) :
    isBlank (if dead pos then ' ' else c) = true := by
  split
  · rfl
  · exact h

end

/-! ## Cutting the text that is left -/

/-- The first character that is not blank in what is left of a text opens no operand list. -/
theorem Lexes.head?_trimLeft_blankOut {dead : Nat → Bool} {before : Option Char} {pos : Nat}
    {cs : List Char} {ls : List Lexeme} (h : Lexes before pos cs ls) (hd : Spares dead ls) :
    (trimLeft (blankOut dead pos cs)).head? ≠ some '(' := by
  induction h with
  | nil => simp [blankOut, trimLeft]
  | blank hb _ ih =>
    rw [blankOut, trimLeft, List.dropWhile_cons_of_pos (isBlank_blankOut hb)]
    exact ih hd
  | @mark before pos c t cs ls hm _ ih =>
    obtain ⟨hl, hls⟩ := List.forall_mem_cons.1 hd
    rw [blankOut]
    split
    · exact ih hls
    · rw [trimLeft, List.dropWhile_cons_of_neg (by simp [isBlank_of_mark? hm])]
      rintro ⟨⟩
      cases hm
  | @instruction before pos cs r ls hi _ ih =>
    obtain ⟨⟨-, hl⟩, hls⟩ := List.forall_mem_cons.1 hd
    have hpos := hi.length_pos
    cases cs with
    | nil => simpa using hi.length_le.trans_lt hpos
    | cons c cs =>
      have hname := hi.isNameChar_head
      have hlive : dead pos = false := hl _ _ rfl pos (Nat.le_refl pos) (by simpa using hpos)
      rw [blankOut, hlive, trimLeft,
        List.dropWhile_cons_of_neg (by simp [isBlank_of_isNameChar hname])]
      rintro ⟨⟩
      cases hname
  | @junk before pos c cs ls hb hm hr _ ih =>
    obtain ⟨⟨hl, -⟩, hls⟩ := List.forall_mem_cons.1 hd
    rw [blankOut, if_pos (hl rfl)]
    exact ih hls

theorem endsName_trimRight {cs : List Char} (h : endsName cs = true) :
    endsName (trimRight cs) = true := by
  obtain ⟨rest, hrest⟩ := trimRight_prefix cs
  rw [← hrest] at h
  cases hcs : trimRight cs with
  | nil => rfl
  | cons c cs => rwa [hcs] at h

theorem endsName_blankOut {dead : Nat → Bool} {pos : Nat} {cs : List Char}
    (h : endsName cs = true) : endsName (blankOut dead pos cs) = true := by
  cases cs with
  | nil => rfl
  | cons c cs =>
    rw [blankOut]
    split
    · rfl
    · exact h

/-- A closed instruction stays one in front of what is left behind it. -/
theorem InstructionAt.of_blankOut {dead : Nat → Bool} {before before' : Option Char} {pos : Nat}
    {cs : List Char} {r : Reading} {ls : List Lexeme} (h : InstructionAt before cs r)
    (hcl : r.closed = true) (hl : Lexes before' pos (cs.drop r.length) ls) (hd : Spares dead ls) :
    InstructionAt before
      (cs.take r.length ++ trimRight (blankOut dead pos (cs.drop r.length))) r := by
  refine h.of_rest hcl fun hends _ => ⟨?_, ?_⟩
  · exact endsName_trimRight (endsName_blankOut hends)
  · exact head?_trimLeft_trimRight (hl.head?_trimLeft_blankOut hd)

/-- A space in the place of a dead character is passed over like any blank. -/
theorem Lexes.blank_trimRight {before : Option Char} {pos : Nat} {c : Char} {cs : List Char}
    {ls : List Lexeme} (hb : isBlank c = true) (h : Lexes (some c) (pos + 1) (trimRight cs) ls) :
    Lexes before pos (trimRight (c :: cs)) ls := by
  rw [trimRight_cons_of_isBlank hb]
  split
  · rename_i hcs
    rw [hcs] at h
    rw [h.eq_nil]
    exact .nil
  · exact .blank hb h

/-- **The text that is left is cut into the lexemes that do not start dead.** -/
theorem Lexes.blankOut {dead : Nat → Bool} {before : Option Char} {pos : Nat} {cs : List Char}
    {ls : List Lexeme} (h : Lexes before pos cs ls) (hd : Spares dead ls)
    (hlast : ∀ c ∈ cs.getLast?, isBlank c = false) {before' : Option Char}
    (hb : before'.any isWordChar = true → before.any isWordChar = true) :
    Lexes before' pos (trimRight (blankOut dead pos cs)) (ls.filter fun l => !dead l.start) := by
  -- what is cut behind a blank does not depend on what stands before it
  have fresh : ∀ {c : Char} {before : Option Char}, isBlank c = true →
      (some c).any isWordChar = true → before.any isWordChar = true := by
    intro c before hc hw
    rw [Option.any_some, isWordChar_of_isBlank hc] at hw
    cases hw
  induction h generalizing before' with
  | nil => exact .nil
  | @blank before pos c cs ls hc _ ih =>
    have hrest := fun d hd => hlast d (mem_getLast?_cons hd)
    exact .blank_trimRight (isBlank_blankOut hc) (ih hd hrest (fresh (isBlank_blankOut hc)))
  | @mark before pos c t cs ls hm _ ih =>
    have hrest := fun d hd => hlast d (mem_getLast?_cons hd)
    obtain ⟨-, hls⟩ := List.forall_mem_cons.1 hd
    rcases hdead : dead pos with _ | _
    · have hc : ∀ d ∈ [c].getLast?, isBlank d = false := by
        simpa using isBlank_of_mark? hm
      rw [RungText.blankOut, if_neg (by simp [hdead]), ← List.singleton_append,
        trimRight_append_of_getLast? hc, List.filter_cons_of_pos (by simp [hdead])]
      exact .mark hm (ih hls hrest id)
    · rw [RungText.blankOut, hdead, List.filter_cons_of_neg (by simp [hdead])]
      exact .blank_trimRight rfl (ih hls hrest (fresh rfl))
  | @instruction before pos cs r ls hi hl ih =>
    obtain ⟨⟨-, hlive⟩, hls⟩ := List.forall_mem_cons.1 hd
    have hlive := hlive _ _ rfl
    have hpos : dead pos = false := hlive pos (Nat.le_refl pos) (by simpa using hi.length_pos)
    have hlength : (cs.take r.length).length = r.length := List.length_take_of_le hi.length_le
    have hout := blankOut_of_live hi.length_le hlive
    rw [List.filter_cons_of_pos (by simp [hpos])]
    rcases hcl : r.closed with _ | _
    · -- an open list goes on to the end
      have hwhole := hi.length_of_open hcl
      have hnone : cs.drop r.length = [] := by rw [hwhole, List.drop_length]
      rw [hnone] at hl hout
      have hsame : RungText.blankOut dead pos cs = cs := by
        rw [hout, RungText.blankOut, List.append_nil, hwhole, List.take_length]
      rw [hl.eq_nil, hsame, trimRight_eq_self_iff.2 hlast, ← hcl]
      refine .instruction (hi.of_before hb) ?_
      rw [hnone]
      exact .nil
    · have hend := fun c hc => (hi.getLast?_take hcl c hc).1
      have hi' := (hi.of_blankOut hcl hl hls).of_before hb
      rw [hout, trimRight_append_of_getLast? hend, ← hcl]
      refine .instruction_append hi' hlength (ih hls (fun c hc => hlast c ?_) id)
      rw [← List.take_append_drop r.length cs]
      exact List.mem_getLast?_append_of_mem_getLast? hc
  | @junk before pos c cs ls _ hm hr _ ih =>
    have hrest := fun d hd => hlast d (mem_getLast?_cons hd)
    obtain ⟨⟨hjunk, -⟩, hls⟩ := List.forall_mem_cons.1 hd
    have hdead : dead pos = true := hjunk rfl
    rw [RungText.blankOut, hdead, List.filter_cons_of_neg (by simp [hdead])]
    exact .blank_trimRight rfl (ih hls hrest (fresh rfl))

/-- No semicolon comes to the end of the text that is left. -/
theorem Lexes.getLast?_blankOut {dead : Nat → Bool} {before : Option Char} {pos : Nat}
    {cs : List Char} {ls : List Lexeme} (h : Lexes before pos cs ls) (hd : Spares dead ls)
    (hblank : ∀ c ∈ cs.getLast?, isBlank c = false) (hlast : cs.getLast? ≠ some ';') :
    (trimRight (RungText.blankOut dead pos cs)).getLast? ≠ some ';' := by
  induction h with
  | nil => exact hlast
  | blank hc _ ih =>
    rw [RungText.blankOut, getLast?_trimRight_cons (isBlank_blankOut hc)]
    exact ih hd (fun d hd => hblank d (mem_getLast?_cons hd)) fun h => hlast (mem_getLast?_cons h)
  | @mark before pos c t cs ls hm _ ih =>
    obtain ⟨-, hls⟩ := List.forall_mem_cons.1 hd
    have hrest := ih hls (fun d hd => hblank d (mem_getLast?_cons hd))
      fun h => hlast (mem_getLast?_cons h)
    rw [RungText.blankOut]
    split
    · rwa [getLast?_trimRight_cons rfl]
    · have hc : ∀ d ∈ [c].getLast?, isBlank d = false := by simpa using isBlank_of_mark? hm
      rw [← List.singleton_append, trimRight_append_of_getLast? hc, List.getLast?_append]
      intro hor
      rcases Option.or_eq_some_iff.1 hor with hor | ⟨-, hor⟩
      · exact hrest hor
      · obtain rfl : c = ';' := by simpa using hor
        cases hm
  | @instruction before pos cs r ls hi hl ih =>
    obtain ⟨⟨-, hlive⟩, hls⟩ := List.forall_mem_cons.1 hd
    rw [blankOut_of_live hi.length_le (hlive _ _ rfl)]
    rcases hcl : r.closed with _ | _
    · rw [hi.length_of_open hcl, List.take_length, List.drop_length, RungText.blankOut,
        List.append_nil, trimRight_eq_self_iff.2 hblank]
      exact hlast
    · have hsplit : cs.getLast? = (cs.take r.length ++ cs.drop r.length).getLast? := by
        rw [List.take_append_drop]
      have hend := hi.getLast?_take hcl
      rw [trimRight_append_of_getLast? fun c hc => (hend c hc).1, List.getLast?_append]
      intro hor
      rcases Option.or_eq_some_iff.1 hor with hor | ⟨-, hor⟩
      · refine ih hls (fun c hc => hblank c ?_) (fun hc => hlast ?_) hor <;> rw [hsplit]
        · exact List.mem_getLast?_append_of_mem_getLast? hc
        · exact List.mem_getLast?_append_of_mem_getLast? hc
      · exact (hend ';' hor).2 rfl
  | junk _ _ _ _ ih =>
    obtain ⟨⟨hjunk, -⟩, hls⟩ := List.forall_mem_cons.1 hd
    rw [RungText.blankOut, if_pos (hjunk rfl), getLast?_trimRight_cons rfl]
    exact ih hls (fun d hd => hblank d (mem_getLast?_cons hd)) fun h => hlast (mem_getLast?_cons h)

/-! ## The whole text -/

/-- **Spaces in the place of the characters passed over change nothing but that nothing is passed
    over.** -/
theorem readBody_blankOut {cs : List Char} (hlast : ∀ c ∈ cs.getLast?, isBlank c = false) :
    (readBody (trim (blankOut (readBody cs).covers 0 cs))).rail = (readBody cs).rail ∧
      ∀ kind : Finding, kind.isOmission = true →
        (readBody (trim (blankOut (readBody cs).covers 0 cs))).tally kind = 0 := by
  obtain ⟨hmarks, hspares, -⟩ := accounts_readBody cs
  have hleft : Lexes none 0 (trimRight (blankOut (readBody cs).covers 0 cs)) _ :=
    (lexes_lexemesFrom none 0 cs).blankOut hspares hlast id
  have htokens := map_token_lexemesFrom_trimLeft (Option.any_none (p := isWordChar)) 0
    (trimRight (blankOut (readBody cs).covers 0 cs))
  rw [← trim_eq_trimLeft_trimRight, ← hleft.eq_lexemesFrom] at htokens
  obtain ⟨halike, htally⟩ := hmarks.foldl_step (.refl {}) htokens
  refine ⟨(halike.rail_finish _ _).symm, fun kind hkind => ?_⟩
  rw [readBody, tally_finish _ _ (Finding.isVoid_of_isOmission hkind), lexemes, htally kind hkind,
    beq_false_of_ne (Finding.ne_of_isOmission hkind).2]
  rfl

/-- What stood behind a text may stand behind what is left of it. -/
theorem Trailing.trim_blankOut {cs tail : List Char} (h : Trailing cs tail)
    (hlast : ∀ c ∈ cs.getLast?, isBlank c = false) :
    Trailing (trim (blankOut (readBody cs).covers 0 cs)) tail := by
  cases h with
  | semicolon hblanks hafter => exact .semicolon hblanks hafter
  | blanks hblanks hsemi =>
    refine .blanks hblanks fun hend => ?_
    rw [trim_eq_trimLeft_trimRight] at hend
    obtain ⟨-, hspares, -⟩ := accounts_readBody cs
    have hcut := lexes_lexemesFrom none 0 cs
    exact hcut.getLast?_blankOut hspares hlast hsemi (mem_getLast?_of_trimLeft hend)

/-- The character at `k` is covered by a diagnostic of characters passed over. -/
def deadAt (diagnostics : List Diagnostic) (k : Nat) : Bool :=
  diagnostics.any (·.toSpan.covers k)

/-- The text with a space in the place of each character that its diagnostics tell was passed
    over. -/
def blankDead (text : String) : String :=
  String.ofList (blankOut (deadAt (parse text).diagnostics) 0 text.toList)

/-- The diagnostics tell of characters by their positions in the whole text. -/
theorem deadAt_diagnostics (text : String) (k : Nat) :
    deadAt (parse text).diagnostics k =
      (decide (bodyStart text.toList ≤ k) &&
        (readBody (body text.toList)).covers (k - bodyStart text.toList)) := by
  have hspan : ∀ span : Span,
      (span.toDiagnostic (body text.toList) (bodyStart text.toList)).toSpan.covers k =
        (decide (bodyStart text.toList ≤ k) && span.covers (k - bodyStart text.toList)) := by
    intro span
    rw [Bool.eq_iff_iff, Bool.and_eq_true, Span.covers_iff, Span.covers_iff, decide_eq_true_eq]
    refine (and_congr_right fun _ => ?_).trans and_left_comm
    simp only [Span.toDiagnostic]
    omega
  simp only [deadAt, parse, List.any_map, List.any_reverse, State.covers]
  rw [Bool.eq_iff_iff]
  simp [Function.comp_def, hspan, and_left_comm]

/-- Only the body of a text has characters that are dead. -/
theorem exists_toList_blankDead (text : String) :
    ∃ lead tail, lead.all isBlank = true ∧ Trailing (body text.toList) tail ∧
      (blankDead text).toList =
        lead ++ blankOut (readBody (body text.toList)).covers 0 (body text.toList) ++ tail := by
  obtain ⟨lead, tail, hcs, hlead, htail, hstart⟩ := exists_eq_append_body text.toList
  obtain ⟨-, -, houtside⟩ := accounts_readBody (body text.toList)
  refine ⟨lead, tail, hlead, htail, ?_⟩
  have hdead : ∀ k, deadAt (parse text).diagnostics k =
      (decide (lead.length ≤ k) && (readBody (body text.toList)).covers (k - lead.length)) := by
    intro k
    rw [deadAt_diagnostics]
    by_cases hne : body text.toList = []
    · rw [houtside _ (by simp [hne]), houtside _ (by simp [hne]), Bool.and_false, Bool.and_false]
    · rw [hstart hne]
  have hbefore : ∀ k, k < lead.length → deadAt (parse text).diagnostics k = false := by
    intro k hk
    rw [hdead, decide_eq_false (Nat.not_le.2 hk), Bool.false_and]
  have hinside : ∀ k < (body text.toList).length,
      deadAt (parse text).diagnostics (lead.length + k) =
        (readBody (body text.toList)).covers (0 + k) := by
    intro k _
    rw [hdead, decide_eq_true (Nat.le_add_right _ k), Bool.true_and, Nat.add_sub_cancel_left,
      Nat.zero_add]
  have hbehind : ∀ k, lead.length + (body text.toList).length ≤ k →
      deadAt (parse text).diagnostics k = false := by
    intro k hk
    rw [hdead, houtside _ (by omega), Bool.and_false]
  rw [blankDead, String.toList_ofList]
  conv_lhs => rw [hcs]
  rw [blankOut_append, blankOut_append, Nat.zero_add, List.length_append, blankOut_congr hinside,
    blankOut_eq_self fun k _ hk => hbefore k (by simpa using hk),
    blankOut_eq_self fun k hk _ => hbehind k (by simpa using hk)]

/-- **The characters passed over are dead, and no others are told to be**: with a space in the place
    of each, a text of the same length holds the same series, and nothing in it is passed over. -/
theorem parse_blankDead (text : String) :
    (blankDead text).length = text.length ∧ elements (blankDead text) = elements text ∧
      ∀ d ∈ (parse (blankDead text)).diagnostics,
        d.finding ≠ .skipped ∧ d.finding ≠ .tooDeep := by
  have hlast := (isBlank_of_mem_ends_body text.toList).2
  obtain ⟨hrail, htally⟩ := readBody_blankOut hlast
  have hbody : body (blankDead text).toList =
      trim (blankOut (readBody (body text.toList)).covers 0 (body text.toList)) := by
    obtain ⟨lead, tail, hlead, htail, hcs⟩ := exists_toList_blankDead text
    rw [hcs]
    exact body_surrounded hlead (htail.trim_blankOut hlast)
  refine ⟨?_, ?_, ?_⟩
  · rw [← String.length_toList, blankDead, String.toList_ofList, length_blankOut,
      String.length_toList]
  · rw [elements_eq_rail, hbody, hrail, elements_eq_rail]
  · intro d hd
    have hnone : ∀ kind : Finding, kind.isOmission = true → d.finding ≠ kind := by
      intro kind hkind
      refine (forall_finding_ne_iff _ kind).2 ?_ d hd
      rw [hbody, htally kind hkind]
    exact ⟨hnone .skipped rfl, hnone .tooDeep rfl⟩

example : blankDead "XIC(A)) ?[OTE(B)],;" = "XIC(A)   [OTE(B)] ;" := by decide +kernel

end RelayLadder.RungText
