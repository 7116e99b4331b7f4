/-
  Closers that are missing at the end of a text.

  An operand list that is open at the end is read as if enough parentheses stood there
  (`OperandList.exists_read_append`), and each open branch as if a bracket did
  (`finish_foldl_closeBranch`).  A text with these closers behind it is cut like the text itself
  (`Lexes.exists_closed`), so that it holds the same, and nothing in it is told to be open
  (`exists_parse_closedText`).
-/
import RelayLadder.Proofs.RoundTrip
import RelayLadder.Proofs.Surroundings
import RelayLadder.Proofs.TokenRuns

namespace RelayLadder.RungText

open Text

/-! ## Operand lists -/

namespace OperandList

theorem read_replicate_append (depth : Nat) (rest : List Char) :
    read depth (List.replicate (depth + 1) ')' ++ rest) =
      ⟨List.replicate depth ')', [], depth + 1, true⟩ := by
  induction depth with
  | zero => rfl
  | succ depth ih =>
    rw [List.replicate_succ, List.cons_append, read, if_neg (by decide), if_pos rfl, ih]
    rfl

/-- **An open list is read as it would be with enough parentheses behind it.** -/
theorem exists_read_append {depth : Nat} {cs : List Char} (h : (read depth cs).closed = false) :
    ∃ n, ∀ rest, read depth (cs ++ List.replicate (n + 1) ')' ++ rest) =
      { read depth cs with length := cs.length + (n + 1), closed := true } := by
  -- in each case but the end of the text, the rest of the list closes as it does by itself
  fun_induction read depth cs with
  | case1 depth => exact ⟨depth, fun rest => by simpa using read_replicate_append depth rest⟩
  | case2 depth cs ih =>
    obtain ⟨n, hn⟩ := ih h
    refine ⟨n, fun rest => ?_⟩
    simp only [List.cons_append, read, if_true, hn]
    simp only [push, List.length_cons, Nat.add_right_comm]
  | case3 => cases h
  | case4 cs depth hopen ih =>
    obtain ⟨n, hn⟩ := ih h
    refine ⟨n, fun rest => ?_⟩
    simp only [List.cons_append, read, hopen, if_false, if_true, hn]
    simp only [push, List.length_cons, Nat.add_right_comm]
  | case5 depth c cs hopen hclose hcomma ih =>
    obtain ⟨n, hn⟩ := ih h
    refine ⟨n, fun rest => ?_⟩
    simp only [List.cons_append, read, hopen, hclose, if_false, if_pos hcomma, hn]
    simp only [divide, List.length_cons, Nat.add_right_comm]
  | case6 depth c cs hopen hclose hcomma ih =>
    obtain ⟨n, hn⟩ := ih h
    refine ⟨n, fun rest => ?_⟩
    simp only [List.cons_append, read, hopen, hclose, if_false, if_neg hcomma, hn]
    simp only [push, List.length_cons, Nat.add_right_comm]

end OperandList

/-- **An open instruction is read as it would be with enough parentheses behind it.** -/
theorem InstructionAt.exists_append {before : Option Char} {cs : List Char} {r : Reading}
    (h : InstructionAt before cs r) (hcl : r.closed = false) :
    ∃ n, ∀ rest, InstructionAt before (cs ++ List.replicate (n + 1) ')' ++ rest)
      ⟨r.instruction, cs.length + (n + 1), true⟩ := by
  cases h with
  | listed blanks list hname hblank hcs ho hl hc =>
    obtain ⟨n, hn⟩ := OperandList.exists_read_append (hc ▸ hcl)
    refine ⟨n, fun rest => ?_⟩
    refine .listed blanks (list ++ List.replicate (n + 1) ')' ++ rest) hname hblank (by simp [hcs])
      ?_ ?_ ?_
    · rw [hn]
      exact ho
    · rw [hn]
      simp only [hcs, List.length_append, List.length_cons]
      omega
    · rw [hn]
  | bare _ _ _ _ _ _ _ _ hc =>
    rw [hc] at hcl
    cases hcl

theorem endsName_of_append {a b : List Char} (h : endsName (a ++ b) = true) :
    endsName a = true := by
  cases a with
  | nil => rfl
  | cons c a => exact h

/-- A text that starts with no instruction starts with none in front of characters that none goes on
    with. -/
theorem readInstruction_append_eq_none {before : Option Char} {cs rest : List Char}
    (hrest : ∀ c ∈ rest.head?, isNameChar c = false ∧ isBlank c = false ∧ c ≠ '(')
    (h : readInstruction before cs = none) : readInstruction before (cs ++ rest) = none := by
  cases cs with
  | nil =>
    cases rest with
    | nil => exact h
    | cons c rest => simp [readInstruction, (hrest c rfl).1]
  | cons c cs =>
    have hname := dropWhile_append_left (fun c hc => (hrest c hc).1) cs
    have hblank := dropWhile_append_left (fun c hc => (hrest c hc).2.1)
      (cs.dropWhile isNameChar)
    rcases hc : isNameChar c with _ | _
    · simp [readInstruction, hc]
    simp only [readInstruction, hc, if_true] at h
    simp only [List.cons_append, readInstruction, hc, if_true, hname, hblank]
    split
    · rename_i list hlist
      have hhead : ((cs.dropWhile isNameChar).dropWhile isBlank ++ rest).head? = some '(' := by
        rw [hlist]
        rfl
      rw [List.head?_append, Option.or_eq_some_iff] at hhead
      rcases hhead with hhead | ⟨-, hhead⟩
      · obtain ⟨list', hlist'⟩ := List.head?_eq_some_iff.1 hhead
        rw [hlist'] at h
        cases h
      · exact absurd rfl (hrest '(' hhead).2.2
    · split
      · rename_i hbare
        rw [Bool.and_eq_true] at hbare
        have hends := endsName_of_append hbare.2
        split at h
        · cases h
        · rw [if_pos (by rw [hbare.1, hends]; rfl)] at h
          cases h
      · rfl

/-- A closed instruction stays one if the text goes on behind its end. -/
theorem InstructionAt.append_of_closed {before : Option Char} {cs rest : List Char} {r : Reading}
    (h : InstructionAt before cs r) (hcl : r.closed = true)
    (hrest : ∀ c ∈ rest.head?, isBlank c = false ∧ c ≠ '(')
    (hend : cs.drop r.length = [] → endsName rest = true) :
    InstructionAt before (cs ++ rest) r := by
  rw [← List.take_append_drop r.length cs, List.append_assoc]
  refine h.of_rest hcl fun hends hparen => ⟨?_, ?_⟩
  · rcases hdrop : cs.drop r.length with _ | ⟨c, after⟩
    · exact hend hdrop
    · rwa [hdrop] at hends
  · rw [trimLeft, dropWhile_append_left (fun c hc => (hrest c hc).1), List.head?_append]
    intro hor
    rcases Option.or_eq_some_iff.1 hor with hor | ⟨-, hor⟩
    · exact hparen hor
    · exact (hrest '(' hor).2 rfl

/-! ## Cutting the closed text -/

/-- Characters that close operand lists and branches. -/
def closers (p m : Nat) : List Char := List.replicate p ')' ++ List.replicate m ']'

theorem mem_closers {p m : Nat} {c : Char} (h : c ∈ closers p m) : c = ')' ∨ c = ']' := by
  rcases List.mem_append.1 h with h | h
  · exact .inl (List.eq_of_mem_replicate h)
  · exact .inr (List.eq_of_mem_replicate h)

theorem head?_closers {p m : Nat} :
    ∀ c ∈ (closers p m).head?, isNameChar c = false ∧ isBlank c = false ∧ c ≠ '(' := by
  intro c hc
  rcases mem_closers (List.mem_of_mem_head? hc) with rfl | rfl <;> decide

theorem lexes_brackets (before : Option Char) (pos m : Nat) :
    ∃ ks, Lexes before pos (List.replicate m ']') ks ∧
      ks.map (·.token) = List.replicate m .closeBranch := by
  induction m generalizing before pos with
  | zero => exact ⟨[], .nil, rfl⟩
  | succ m ih =>
    obtain ⟨ks, hks, htokens⟩ := ih (some ']') (pos + 1)
    exact ⟨_, .mark rfl hks, congrArg _ htokens⟩

theorem Token.of_mark? {c : Char} {t : Token} (h : mark? c = some t) :
    t.isOpen = false ∧ t.close = t := by
  rcases mark?_eq_some_iff.1 h with ⟨-, rfl⟩ | ⟨-, rfl⟩ | ⟨-, rfl⟩ <;> exact ⟨rfl, rfl⟩

/-- **The closed text is cut like the open one**, up to the closers. -/
theorem Lexes.exists_closed {before : Option Char} {pos : Nat} {cs : List Char} {ls : List Lexeme}
    (h : Lexes before pos cs ls) :
    ∃ p, (p = 0 ↔ ∀ l ∈ ls, l.token.isOpen = false) ∧
      ∀ m, ∃ ks, Lexes before pos (cs ++ closers p m) ks ∧
        ks.map (·.token) = ls.map (·.token.close) ++ List.replicate m .closeBranch := by
  induction h with
  | nil => exact ⟨0, by simp, fun m => lexes_brackets _ _ m⟩
  | blank hb _ ih =>
    obtain ⟨p, hp, hm⟩ := ih
    refine ⟨p, hp, fun m => ?_⟩
    obtain ⟨ks, hks, htokens⟩ := hm m
    exact ⟨ks, .blank hb hks, htokens⟩
  | mark hmark _ ih =>
    obtain ⟨hopen, hclose⟩ := Token.of_mark? hmark
    obtain ⟨p, hp, hm⟩ := ih
    refine ⟨p, by simpa [hopen] using hp, fun m => ?_⟩
    obtain ⟨ks, hks, htokens⟩ := hm m
    exact ⟨_, .mark hmark hks, by simp [htokens, hclose]⟩
  | @instruction before pos cs r ls hi hl ih =>
    rcases hcl : r.closed with _ | _
    · obtain ⟨n, hn⟩ := hi.exists_append hcl
      have hnone : cs.drop r.length = [] := by rw [hi.length_of_open hcl, List.drop_length]
      rw [hnone] at hl
      refine ⟨n + 1, by simp [Token.isOpen], fun m => ?_⟩
      have htaken : (cs ++ List.replicate (n + 1) ')').length = cs.length + (n + 1) := by simp
      obtain ⟨ks, hks, htokens⟩ := lexes_brackets (cs ++ List.replicate (n + 1) ')').getLast?
        (pos + (cs.length + (n + 1))) m
      rw [closers, ← List.append_assoc]
      exact ⟨_, .instruction_append (hn _) htaken hks, by simp [htokens, hl.eq_nil, Token.close]⟩
    · obtain ⟨p, hp, hm⟩ := ih
      refine ⟨p, by simpa [Token.isOpen] using hp, fun m => ?_⟩
      obtain ⟨ks, hks, htokens⟩ := hm m
      have hend : cs.drop r.length = [] → endsName (closers p m) = true := by
        intro hnone
        rw [hnone] at hl
        obtain rfl : p = 0 := hp.2 (by simp [hl.eq_nil])
        cases m <;> rfl
      have hi' := hi.append_of_closed hcl (fun c hc => (head?_closers c hc).2) hend
      have hlength : (cs.take r.length).length = r.length := List.length_take_of_le hi.length_le
      rw [← List.take_append_drop r.length cs, List.append_assoc] at hi' ⊢
      exact ⟨_, .instruction_append hi' hlength hks, by simp [htokens, hcl, Token.close]⟩
  | junk hb hmark hr _ ih =>
    obtain ⟨p, hp, hm⟩ := ih
    refine ⟨p, by simpa [Token.isOpen] using hp, fun m => ?_⟩
    obtain ⟨ks, hks, htokens⟩ := hm m
    exact ⟨_, .junk hb hmark (readInstruction_append_eq_none head?_closers hr) hks,
      by simp [htokens, Token.close]⟩

/-! ## Closing branches by brackets -/

theorem rail_add_closing (s : State) (es : Series) (stop : Nat) :
    (s.add es).rail ++ closing stop [] (s.add es).frames = s.rail ++ closing stop es s.frames := by
  rcases h : s.frames with _ | ⟨f, frames⟩
  · rw [State.add_of_frames_nil h, h]
    simp [closing]
  · rw [State.add_of_frames_cons h]
    simp [closing, Frame.add]

/-- **A bracket that closes a branch changes nothing in what the text comes to.** -/
theorem rail_finish_step_closeBranch {s : State} (h : s.frames ≠ []) (start stop n : Nat) :
    ((s.step ⟨.closeBranch, start, stop⟩).finish n).rail = (s.finish n).rail := by
  obtain ⟨f, frames, hf⟩ := List.exists_cons_of_ne_nil h
  have hstep : s.step ⟨.closeBranch, start, stop⟩ =
      ({ s with frames }.report ((f.closeLeg start).findings stop)).add
        (f.closeLeg start).elements := by
    simp only [State.step, hf]
  have hsame : Frame.Alike f (f.add []) := ⟨rfl, (List.append_nil _).symm⟩
  rw [finish_rail, finish_rail, hstep, rail_add_closing, hf, (hsame.closeLeg start n).elements_eq]
  rfl

theorem length_frames_step_closeBranch (s : State) (start stop : Nat) :
    (s.step ⟨.closeBranch, start, stop⟩).frames.length = s.frames.length - 1 := by
  rcases hf : s.frames with _ | ⟨f, frames⟩
  · obtain ⟨found, -, hskip⟩ := s.exists_skip_eq .skipped start
    simp only [State.step, hf, hskip]
    rfl
  · simp [State.step, hf, State.report]

/-- **As many brackets as branches are open close them all.** -/
theorem finish_foldl_closeBranch {ks : List Lexeme} {s : State}
    (hk : ks.map (·.token) = List.replicate s.frames.length .closeBranch) (n : Nat) :
    (ks.foldl State.step s).frames = [] ∧
      ((ks.foldl State.step s).finish n).rail = (s.finish n).rail := by
  induction ks generalizing s with
  | nil =>
    have hnone : s.frames = [] := by simpa using hk.symm
    exact ⟨hnone, rfl⟩
  | cons k ks ih =>
    obtain ⟨token, start, stop⟩ := k
    rcases hf : s.frames with _ | ⟨f, frames⟩
    · simp [hf] at hk
    have hopen : s.frames ≠ [] := by simp [hf]
    have hlength := length_frames_step_closeBranch s start stop
    rw [hf, List.length_cons, List.replicate_succ, List.map_cons] at hk
    rw [hf, List.length_cons, Nat.add_sub_cancel] at hlength
    obtain ⟨rfl, hks⟩ := List.cons.inj hk
    obtain ⟨hnone, hrail⟩ := ih (hlength ▸ hks)
    exact ⟨hnone, hrail.trans (rail_finish_step_closeBranch hopen start stop n)⟩

/-! ## The whole text -/

theorem forall_isOpen_eq_false {ls ks : List Lexeme} {m : Nat}
    (h : ks.map (·.token) = ls.map (·.token.close) ++ List.replicate m .closeBranch) :
    ∀ k ∈ ks, k.token.isOpen = false := by
  intro k hk
  have hmem : k.token ∈ ks.map (·.token) := List.mem_map_of_mem hk
  rw [h, List.mem_append] at hmem
  rcases hmem with hmem | hmem
  · obtain ⟨l, -, hl⟩ := List.mem_map.1 hmem
    rw [← hl, Token.isOpen_close]
  · rw [List.eq_of_mem_replicate hmem]
    rfl

/-- **With the closers that are missing a text comes to the same**, no list in it is open, and no
    branch is at its end. -/
theorem readBody_closers (cs : List Char) :
    ∃ p, (p = 0 ↔ ∀ l ∈ lexemes cs, l.token.isOpen = false) ∧
      (readBody (cs ++ closers p ((lexemes cs).foldl State.step {}).frames.length)).rail =
        (readBody cs).rail ∧
      (∀ k ∈ lexemes (cs ++ closers p ((lexemes cs).foldl State.step {}).frames.length),
        k.token.isOpen = false) ∧
      ((lexemes (cs ++ closers p ((lexemes cs).foldl State.step {}).frames.length)).foldl
        State.step {}).frames = [] := by
  obtain ⟨p, hp, hm⟩ := (lexes_lexemesFrom none 0 cs).exists_closed
  refine ⟨p, hp, ?_⟩
  generalize hframes : ((lexemes cs).foldl State.step {}).frames.length = m
  obtain ⟨ks, hks, htokens⟩ := hm m
  have hlexemes : lexemes (cs ++ closers p m) = ks := hks.eq_lexemesFrom.symm
  have hopen := forall_isOpen_eq_false htokens
  obtain ⟨kept, added, rfl, hkept, hadded⟩ := List.map_eq_append_iff.1 htokens
  have halike : ((lexemes cs).foldl State.step {}).Alike (kept.foldl State.step {}) := by
    refine State.Alike.foldl_step (.refl {}) ?_
    have hclose := congrArg (List.map Token.close) hkept
    simp only [List.map_map, Function.comp_def, Token.close_close] at hclose
    exact hclose.symm
  rw [← hframes, halike.length_frames] at hadded
  obtain ⟨hnone, hrail⟩ := finish_foldl_closeBranch hadded (cs ++ closers p m).length
  rw [← List.foldl_append] at hnone hrail
  refine ⟨?_, hlexemes ▸ hopen, hlexemes ▸ hnone⟩
  rw [readBody, hlexemes, hrail]
  exact (halike.rail_finish _ _).symm

/-- What is told of missing closers: each operand list that is open, and each branch that is open
    at the end. -/
theorem tally_readBody (cs : List Char) :
    (readBody cs).tally .unterminatedInstruction = (lexemes cs).countP (·.token.isOpen) ∧
      (readBody cs).tally .unterminatedBranch =
        ((lexemes cs).foldl State.step {}).frames.length := by
  constructor
  · rw [readBody, tally_finish _ _ rfl, tally_foldl_step rfl rfl]
    simp [State.tally]
  · rw [readBody, tally_finish _ _ rfl, tally_foldl_step rfl rfl]
    simp [State.tally]

/-- The number of open branches that the diagnostics of a text tell of. -/
def openBranches (text : String) : Nat :=
  (parse text).diagnostics.countP (·.finding == .unterminatedBranch)

/-- The body of a text with `p` parentheses, a bracket for each open branch and a semicolon behind
    it. -/
def closedText (text : String) (p : Nat) : String :=
  String.ofList (body text.toList ++ closers p (openBranches text) ++ [';'])

theorem body_closedText (text : String) (p : Nat) :
    body (closedText text p).toList = body text.toList ++ closers p (openBranches text) := by
  obtain ⟨hhead, hlast⟩ := isBlank_of_mem_ends_body text.toList
  have hclosers : ∀ c ∈ closers p (openBranches text), isBlank c = false := by
    intro c hc
    rcases mem_closers hc with rfl | rfl <;> decide
  rw [closedText, String.toList_ofList]
  refine body_concat_semicolon (fun c hc => ?_) fun c hc => ?_
  · rw [List.head?_append, Option.mem_def, Option.or_eq_some_iff] at hc
    rcases hc with hc | ⟨-, hc⟩
    · exact hhead c hc
    · exact hclosers c (List.mem_of_mem_head? hc)
  · rw [List.getLast?_append, Option.mem_def, Option.or_eq_some_iff] at hc
    rcases hc with hc | ⟨-, hc⟩
    · exact hclosers c (List.mem_of_mem_getLast? hc)
    · exact hlast c hc

/-- **To recover from missing closers is to close**: behind the body of a text, parentheses (some
    exactly if it is told of an open operand list), a bracket for each open branch that is told of
    and a semicolon give a text that holds the same, and nothing in it is told to be open. -/
theorem exists_parse_closedText (text : String) :
    ∃ p, (p = 0 ↔ ∀ d ∈ (parse text).diagnostics, d.finding ≠ .unterminatedInstruction) ∧
      elements (closedText text p) = elements text ∧
        ∀ d ∈ (parse (closedText text p)).diagnostics,
          d.finding ≠ .unterminatedInstruction ∧ d.finding ≠ .unterminatedBranch := by
  obtain ⟨p, hp, hm⟩ := readBody_closers (body text.toList)
  obtain ⟨hopen, hbranches⟩ := tally_readBody (body text.toList)
  rw [← hbranches, ← countP_diagnostics, ← openBranches] at hm
  obtain ⟨hrail, hnone, hframes⟩ := hm
  obtain ⟨hopen', hbranches'⟩ := tally_readBody (body (closedText text p).toList)
  have hbody := body_closedText text p
  refine ⟨p, ?_, ?_, fun d hd => ⟨?_, ?_⟩⟩
  · rw [hp, forall_finding_ne_iff, hopen, List.countP_eq_zero]
    simp
  · rw [elements_eq_rail, hbody, hrail, elements_eq_rail]
  · refine (forall_finding_ne_iff _ _).2 ?_ d hd
    rw [hopen', hbody, List.countP_eq_zero]
    simpa using hnone
  · refine (forall_finding_ne_iff _ _).2 ?_ d hd
    rw [hbranches', hbody, hframes]
    rfl

example : closedText "[XIC(A),OTE(B(C" 2 = "[XIC(A),OTE(B(C))];" := by decide +kernel

end RelayLadder.RungText
