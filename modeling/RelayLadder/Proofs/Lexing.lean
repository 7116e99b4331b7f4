/-
  What the cutting of a text into lexemes does.

  * `InstructionAt before cs r` says, rule by rule, when a text starts with an instruction;
    `readInstruction_eq_some_iff` says that these rules are the reading;
  * `Lexes before pos cs ls` says, step by step, how a text is cut; `lexes_lexemesFrom` says that
    it is cut so.  Proofs about a whole text go by induction on it;
  * `lexemesFrom_blank`, `lexemesFrom_mark` and `lexemesFrom_instruction` are the same steps as
    equations.
-/
import RelayLadder.Proofs.OperandList

namespace RelayLadder.RungText

open Text

/-! ## Characters of names -/

theorem toNat_of_isNameChar {c : Char} (h : isNameChar c = true) :
    (65 ≤ c.toNat ∧ c.toNat ≤ 90) ∨ c = '_' := by
  rw [isNameChar, Bool.or_eq_true, beq_iff_eq] at h
  exact h.imp_left toNat_of_isUpper

theorem isBlank_of_isNameChar {c : Char} (h : isNameChar c = true) : isBlank c = false := by
  rcases toNat_of_isNameChar h with hc | rfl
  · rw [Bool.eq_false_iff]
    intro hb
    simp only [isBlank, Bool.or_eq_true, Bool.and_eq_true, decide_eq_true_eq, beq_iff_eq] at hb
    omega
  · decide

theorem isNameChar_of_isBlank {c : Char} (h : isBlank c = true) : isNameChar c = false := by
  rw [Bool.eq_false_iff]
  intro hn
  rw [isBlank_of_isNameChar hn] at h
  cases h

theorem isWordChar_of_isBlank {c : Char} (h : isBlank c = true) : isWordChar c = false := by
  have hne : c ≠ '_' := by
    rintro rfl
    revert h
    decide
  simp [isWordChar, isAlphaNum_of_isBlank h, hne]

/-- A name ends before a character that is not of a name. -/
theorem isNameChar_of_endsName {cs : List Char} (h : endsName cs = true) :
    ∀ c ∈ cs.head?, isNameChar c = false := by
  cases cs with
  | nil => simp
  | cons c cs =>
    simp only [endsName, Bool.or_eq_true, beq_iff_eq] at h
    simp only [List.head?_cons, Option.mem_some, forall_eq']
    rcases h with ((h | rfl) | rfl) | rfl
    · exact isNameChar_of_isBlank h
    all_goals decide

theorem takeWhile_append_of_head {p : Char → Bool} {a b : List Char} (ha : a.all p = true)
    (hb : ∀ c ∈ b.head?, p c = false) : (a ++ b).takeWhile p = a := by
  rw [List.takeWhile_append_of_pos (by simpa using ha)]
  cases b with
  | nil => simp
  | cons c b => simp [hb c (by simp)]

theorem dropWhile_append_of_head {p : Char → Bool} {a b : List Char} (ha : a.all p = true)
    (hb : ∀ c ∈ b.head?, p c = false) : (a ++ b).dropWhile p = b := by
  rw [List.dropWhile_append_of_pos (by simpa using ha)]
  cases b with
  | nil => simp
  | cons c b => simp [hb c (by simp)]

theorem dropWhile_append_left {p : Char → Bool} {b : List Char}
    (hb : ∀ c ∈ b.head?, p c = false) (a : List Char) :
    (a ++ b).dropWhile p = a.dropWhile p ++ b := by
  rw [List.dropWhile_append]
  split
  · rename_i h
    rw [List.isEmpty_iff.1 h, List.nil_append]
    cases b with
    | nil => rfl
    | cons c b => exact List.dropWhile_cons_of_neg (by simp [hb c rfl])
  · rfl

/-! ## Instructions at the start of a text -/

/-- The text `cs`, with `before` in front of it, starts with the instruction of the reading `r`. -/
inductive InstructionAt (before : Option Char) (cs : List Char) (r : Reading) : Prop
  /-- A name, blanks and an operand list, which may be open. -/
  | listed (blanks list : List Char) :
      r.instruction.mnemonic.toList.all isNameChar = true → blanks.all isBlank = true →
      cs = r.instruction.mnemonic.toList ++ blanks ++ '(' :: list →
      r.instruction.operands = .ofValues (OperandList.read 0 list).values →
      r.length = r.instruction.mnemonic.toList.length + blanks.length + 1 +
        (OperandList.read 0 list).length →
      r.closed = (OperandList.read 0 list).closed → InstructionAt before cs r
  /-- A bare name, which continues no word. -/
  | bare (rest : List Char) :
      r.instruction.mnemonic.toList.all isNameChar = true →
      cs = r.instruction.mnemonic.toList ++ rest → r.instruction.operands = .nullary →
      endsName rest = true → (trimLeft rest).head? ≠ some '(' → before.any isWordChar = false →
      r.length = r.instruction.mnemonic.toList.length → r.closed = true →
      InstructionAt before cs r

theorem named_eq {i : Instruction} {c : Char} {name : List Char} {vs : List String}
    (hm : i.mnemonic.toList = c :: name) (ho : i.operands = .ofValues vs) :
    named c name vs = i := by
  obtain ⟨m, o, hne⟩ := i
  simp only at hm ho
  subst ho
  simp only [named, ← hm, String.ofList_toList]

@[simp]
theorem toList_mnemonic_named (c : Char) (name : List Char) (vs : List String) :
    (named c name vs).mnemonic.toList = c :: name := by
  simp [named]

theorem instructionAt_of_readInstruction {before : Option Char} {cs : List Char} {r : Reading}
    (h : readInstruction before cs = some r) : InstructionAt before cs r := by
  cases cs with
  | nil => simp [readInstruction] at h
  | cons c cs =>
    simp only [readInstruction] at h
    split at h
    · rename_i hc
      split at h
      · rename_i list hlist
        injection h with h
        subst h
        refine .listed ((cs.dropWhile isNameChar).takeWhile isBlank) list ?_ ?_ ?_ rfl ?_ rfl
        · simp [hc]
        · simp
        · simp [← hlist]
        · simp; omega
      · rename_i hlist
        split at h
        · rename_i hb
          simp only [Bool.and_eq_true, Bool.not_eq_true'] at hb
          injection h with h
          subst h
          refine .bare (cs.dropWhile isNameChar) ?_ ?_ rfl hb.2 ?_ hb.1 ?_ rfl
          · simp [hc]
          · simp
          · intro hh
            obtain ⟨list, hl⟩ := List.head?_eq_some_iff.1 hh
            exact hlist list hl
          · simp
        · cases h
    · cases h

theorem readInstruction_of_instructionAt {before : Option Char} {cs : List Char} {r : Reading}
    (h : InstructionAt before cs r) : readInstruction before cs = some r := by
  obtain ⟨c, name, hm⟩ := r.instruction.exists_toList_eq_cons
  obtain ⟨i, length, closed⟩ := r
  cases h with
  | listed blanks list hname hblank hcs ho hl hcl =>
    simp only at hm hname hcs ho hl hcl
    rw [hm] at hname hcs hl
    rw [List.all_cons, Bool.and_eq_true] at hname
    have hpar : ∀ d ∈ ('(' :: list).head?, isBlank d = false := by simp; decide
    have hhead : ∀ d ∈ (blanks ++ '(' :: list).head?, isNameChar d = false := by
      cases blanks with
      | nil => simp; decide
      | cons b blanks =>
        rw [List.all_cons, Bool.and_eq_true] at hblank
        simpa using isNameChar_of_isBlank hblank.1
    have hlen : name.length + blanks.length + (OperandList.read 0 list).length + 2 = length := by
      rw [hl, List.length_cons]; omega
    rw [hcs, List.append_assoc, List.cons_append]
    simp only [readInstruction, hname.1, if_true, takeWhile_append_of_head hname.2 hhead,
      dropWhile_append_of_head hname.2 hhead, takeWhile_append_of_head hblank hpar,
      dropWhile_append_of_head hblank hpar, named_eq hm ho, hlen, hcl]
  | bare rest hname hcs ho hends hparen hbefore hl hcl =>
    simp only at hm hname hcs ho hl hcl
    rw [hm] at hname hcs hl
    rw [List.all_cons, Bool.and_eq_true] at hname
    have hhead := isNameChar_of_endsName hends
    rw [hcs, List.cons_append]
    simp only [readInstruction, hname.1, if_true, takeWhile_append_of_head hname.2 hhead,
      dropWhile_append_of_head hname.2 hhead]
    split
    · rename_i list hlist
      exact absurd (List.head?_eq_some_iff.2 ⟨list, hlist⟩) hparen
    · have hi : named c name [] = i := named_eq hm ho
      simp [hbefore, hends, hi, hl, hcl]

/-- **An instruction is read exactly where the rules have one.** -/
theorem readInstruction_eq_some_iff {before : Option Char} {cs : List Char} {r : Reading} :
    readInstruction before cs = some r ↔ InstructionAt before cs r :=
  ⟨instructionAt_of_readInstruction, readInstruction_of_instructionAt⟩

namespace InstructionAt

variable {before : Option Char} {cs : List Char} {r : Reading}

theorem length_pos (h : InstructionAt before cs r) : 0 < r.length := by
  obtain ⟨c, name, hm⟩ := r.instruction.exists_toList_eq_cons
  cases h with
  | listed _ _ _ _ _ _ hl _ => omega
  | bare _ _ _ _ _ _ _ hl _ => simp [hl, hm]

theorem length_le (h : InstructionAt before cs r) : r.length ≤ cs.length := by
  cases h with
  | listed blanks list _ _ hcs _ hl _ =>
    have := OperandList.length_read_le 0 list
    simp only [hl, hcs, List.length_append, List.length_cons]
    omega
  | bare rest _ hcs _ _ _ _ hl _ => simp [hl, hcs]

/-- An instruction starts with a character of a name. -/
theorem isNameChar_head {c : Char} (h : InstructionAt before (c :: cs) r) :
    isNameChar c = true := by
  obtain ⟨d, name, hm⟩ := r.instruction.exists_toList_eq_cons
  cases h with
  | listed _ _ hname _ hcs _ _ _ | bare _ hname hcs _ _ _ _ _ _ =>
    rw [hm] at hname hcs
    rw [(List.cons.inj hcs).1]
    exact (Bool.and_eq_true _ _ ▸ List.all_cons ▸ hname).1

/-- What is read as an instruction is canonical, also if its operand list is open. -/
theorem isCanonical (h : InstructionAt before cs r) : r.instruction.isCanonical = true := by
  rw [Instruction.isCanonical_iff]
  cases h with
  | listed _ list hname _ _ ho _ _ =>
    have hv : r.instruction.values = (OperandList.read 0 list).values := by
      rw [Instruction.values, ho, Operands.values_ofValues]
    rw [hv]
    exact ⟨hname, ho, OperandList.values_ne_singleton_empty _,
      fun v hv => OperandList.isOperandText_of_mem_values hv⟩
  | bare _ hname _ ho _ _ _ _ _ =>
    have hv : r.instruction.values = [] := by
      rw [Instruction.values, ho]; rfl
    rw [hv]
    exact ⟨hname, ho, by simp, by simp⟩

/-- An instruction whose operand list is closed is one of the grammar, with the same rest. -/
theorem derives (h : InstructionAt before cs r) (hcl : r.closed = true) (depth : Nat) :
    DerivesElement depth cs (.instr r.instruction) (cs.drop r.length) := by
  cases h with
  | listed blanks list hname hblank hcs ho hl hc =>
    obtain ⟨params, rest, rfl, hbal⟩ := OperandList.exists_of_closed (hc ▸ hcl)
    rw [OperandList.values_read_append_close hbal] at ho
    have hcs : cs = r.instruction.mnemonic.toList ++ blanks ++ '(' :: params ++ ')' :: rest := by
      rw [hcs, List.append_assoc _ ('(' :: params), List.cons_append]
    have hrest : cs.drop r.length = rest := by
      rw [hcs, List.append_cons]
      refine List.drop_left' ?_
      simp only [hl, OperandList.read_append_close hbal, List.length_append, List.length_cons,
        List.length_nil]
      omega
    rw [hrest, hcs]
    exact .listed hname hblank hbal ho
  | bare rest hname hcs ho hends hparen _ hl _ =>
    have hrest : cs.drop r.length = rest := by simp [hl, hcs]
    rw [hrest, hcs]
    exact .bare hname ho hends hparen

/-- An instruction whose operand list is open goes on to the end of the text. -/
theorem length_of_open (h : InstructionAt before cs r) (hcl : r.closed = false) :
    r.length = cs.length := by
  cases h with
  | listed blanks list _ _ hcs _ hl hc =>
    have hlist := OperandList.length_read_of_open (hc ▸ hcl)
    simp only [hl, hcs, hlist, List.length_append, List.length_cons]
    omega
  | bare _ _ _ _ _ _ _ _ hc =>
    rw [hc] at hcl
    cases hcl

/-- A closed instruction is its name, blanks and a balanced list in parentheses, or a bare name. -/
theorem take_of_closed (h : InstructionAt before cs r) (hcl : r.closed = true) :
    (∃ blanks params, blanks.all isBlank = true ∧ isBalanced 0 params = true ∧
      cs.take r.length = r.instruction.mnemonic.toList ++ blanks ++ '(' :: params ++ [')'] ∧
      r.instruction.operands = .ofValues (listedValues params)) ∨
    (cs.take r.length = r.instruction.mnemonic.toList ∧ r.instruction.operands = .nullary ∧
      endsName (cs.drop r.length) = true ∧ (trimLeft (cs.drop r.length)).head? ≠ some '(' ∧
      before.any isWordChar = false) := by
  cases h with
  | listed blanks list _ hblank hcs ho hl hc =>
    obtain ⟨params, rest, rfl, hbal⟩ := OperandList.exists_of_closed (hc ▸ hcl)
    rw [OperandList.values_read_append_close hbal] at ho
    refine .inl ⟨blanks, params, hblank, hbal, ?_, ho⟩
    have hsplit :
        cs = r.instruction.mnemonic.toList ++ blanks ++ '(' :: params ++ [')'] ++ rest := by
      simp [hcs]
    rw [hsplit]
    refine List.take_left' ?_
    simp only [hl, OperandList.read_append_close hbal, List.length_append, List.length_cons,
      List.length_nil]
    omega
  | bare rest _ hcs ho hends hparen hb hl _ =>
    refine .inr ⟨by simp [hl, hcs], ho, ?_, ?_, hb⟩ <;> simpa [hl, hcs]

theorem isName (h : InstructionAt before cs r) :
    r.instruction.mnemonic.toList.all isNameChar = true := by
  cases h with
  | listed _ _ hname => exact hname
  | bare _ hname => exact hname

/-- A closed instruction ends with a parenthesis or with a character of a name. -/
theorem getLast?_take (h : InstructionAt before cs r) (hcl : r.closed = true) :
    ∀ c ∈ (cs.take r.length).getLast?, isBlank c = false ∧ c ≠ ';' := by
  intro c hc
  rcases h.take_of_closed hcl with ⟨blanks, params, -, -, htake, -⟩ | ⟨htake, -⟩
  · rw [htake, List.getLast?_concat] at hc
    obtain rfl : ')' = c := Option.some.inj hc
    decide
  · rw [htake] at hc
    have hname : isNameChar c = true :=
      List.all_eq_true.1 h.isName c (List.mem_of_mem_getLast? hc)
    refine ⟨isBlank_of_isNameChar hname, ?_⟩
    rintro rfl
    revert hname
    decide

/-- What stands before an instruction matters only if it is a word. -/
theorem of_before (h : InstructionAt before cs r) {before' : Option Char}
    (hb : before'.any isWordChar = true → before.any isWordChar = true) :
    InstructionAt before' cs r := by
  cases h with
  | listed blanks list hname hblank hcs ho hl hc =>
    exact .listed blanks list hname hblank hcs ho hl hc
  | bare rest hname hcs ho hends hparen hword hl hc =>
    refine .bare rest hname hcs ho hends hparen ?_ hl hc
    rw [Bool.eq_false_iff]
    intro hw
    rw [hb hw] at hword
    cases hword

/-- **A closed instruction stays one in front of another rest**; a bare name, if it may end
    there. -/
theorem of_rest (h : InstructionAt before cs r) (hcl : r.closed = true) {rest : List Char}
    (hrest : endsName (cs.drop r.length) = true → (trimLeft (cs.drop r.length)).head? ≠ some '(' →
      endsName rest = true ∧ (trimLeft rest).head? ≠ some '(') :
    InstructionAt before (cs.take r.length ++ rest) r := by
  have hlength : r.length = (cs.take r.length).length := by
    rw [List.length_take, Nat.min_eq_left h.length_le]
  rcases h.take_of_closed hcl with ⟨blanks, params, hblank, hbal, htake, ho⟩ |
    ⟨htake, ho, hends, hparen, hword⟩
  · rw [htake] at hlength ⊢
    have hread := OperandList.read_append_close hbal rest
    refine .listed blanks (params ++ ')' :: rest) h.isName hblank (by simp) ?_ ?_ ?_
    · rw [ho, OperandList.values_read_append_close hbal]
    · rw [hlength, hread]
      simp only [List.length_append, List.length_cons, List.length_nil]
      omega
    · rw [hcl, hread]
  · obtain ⟨hends', hparen'⟩ := hrest hends hparen
    rw [htake] at hlength ⊢
    exact .bare rest h.isName rfl ho hends' hparen' hword hlength hcl

end InstructionAt

/-! ## Cutting a text, step by step -/

/-- A character that is a lexeme by itself, with what it stands for. -/
def mark? (c : Char) : Option Token :=
  if c = '[' then some .openBranch
  else if c = ',' then some .comma
  else if c = ']' then some .closeBranch
  else none

theorem mark?_eq_some_iff {c : Char} {t : Token} :
    mark? c = some t ↔
      (c = '[' ∧ t = .openBranch) ∨ (c = ',' ∧ t = .comma) ∨ (c = ']' ∧ t = .closeBranch) := by
  unfold mark?
  split_ifs <;> simp_all [eq_comm]

theorem mark?_eq_none_iff {c : Char} : mark? c = none ↔ c ≠ '[' ∧ c ≠ ',' ∧ c ≠ ']' := by
  unfold mark?
  split_ifs <;> simp_all

theorem isBlank_of_mark? {c : Char} {t : Token} (h : mark? c = some t) : isBlank c = false := by
  rcases mark?_eq_some_iff.1 h with ⟨rfl, -⟩ | ⟨rfl, -⟩ | ⟨rfl, -⟩ <;> decide

theorem isWordChar_of_mark? {c : Char} {t : Token} (h : mark? c = some t) :
    isWordChar c = false := by
  rcases mark?_eq_some_iff.1 h with ⟨rfl, -⟩ | ⟨rfl, -⟩ | ⟨rfl, -⟩ <;> decide +kernel

theorem mark?_of_isNameChar {c : Char} (h : isNameChar c = true) : mark? c = none := by
  rw [mark?_eq_none_iff]
  refine ⟨?_, ?_, ?_⟩ <;> rintro rfl <;> revert h <;> decide

theorem tokenAt_of_mark? {c : Char} {t : Token} (h : mark? c = some t) (before : Option Char)
    (cs : List Char) : tokenAt before c cs = (t, 1) := by
  rcases mark?_eq_some_iff.1 h with ⟨rfl, rfl⟩ | ⟨rfl, rfl⟩ | ⟨rfl, rfl⟩ <;> rfl

theorem tokenAt_of_instructionAt {before : Option Char} {c : Char} {cs : List Char} {r : Reading}
    (h : InstructionAt before (c :: cs) r) :
    tokenAt before c cs = (.instruction r.instruction r.closed, r.length) := by
  obtain ⟨h₁, h₂, h₃⟩ := mark?_eq_none_iff.1 (mark?_of_isNameChar h.isNameChar_head)
  simp [tokenAt, h₁, h₂, h₃, readInstruction_eq_some_iff.2 h]

theorem tokenAt_of_junk {before : Option Char} {c : Char} {cs : List Char} (hm : mark? c = none)
    (hr : readInstruction before (c :: cs) = none) : tokenAt before c cs = (.junk, 1) := by
  obtain ⟨h₁, h₂, h₃⟩ := mark?_eq_none_iff.1 hm
  simp [tokenAt, h₁, h₂, h₃, hr]

theorem lexemesFrom_blank {c : Char} (h : isBlank c = true) (before : Option Char) (pos : Nat)
    (cs : List Char) :
    lexemesFrom before pos 0 (c :: cs) = lexemesFrom (some c) (pos + 1) 0 cs := by
  simp [lexemesFrom, h]

/-- The lexeme at the start of a text, and the cutting of the rest. -/
theorem lexemesFrom_cons {before : Option Char} {c : Char} {cs : List Char} {t : Token}
    {length : Nat} (hb : isBlank c = false) (ht : tokenAt before c cs = (t, length + 1))
    (hl : length ≤ cs.length) (pos : Nat) :
    lexemesFrom before pos 0 (c :: cs) =
      ⟨t, pos, pos + (length + 1)⟩ ::
        lexemesFrom ((c :: cs).take (length + 1)).getLast? (pos + (length + 1)) 0
          ((c :: cs).drop (length + 1)) := by
  have hskip := lexemesFrom_append (some c) (pos + 1) (cs.take length) (cs.drop length)
  rw [List.take_append_drop, List.length_take_of_le hl] at hskip
  have hlast : ((c :: cs).take (length + 1)).getLast? = (cs.take length).getLast?.or (some c) := by
    rw [List.take_succ_cons, List.getLast?_cons]
    cases (cs.take length).getLast? <;> rfl
  simp only [lexemesFrom, hb, Bool.false_eq_true, if_false, ht, Nat.add_sub_cancel, hskip, hlast,
    List.drop_succ_cons, Nat.add_assoc, Nat.add_comm 1 length]

theorem lexemesFrom_single {before : Option Char} {c : Char} {cs : List Char} {t : Token}
    (hb : isBlank c = false) (ht : tokenAt before c cs = (t, 1)) (pos : Nat) :
    lexemesFrom before pos 0 (c :: cs) =
      ⟨t, pos, pos + 1⟩ :: lexemesFrom (some c) (pos + 1) 0 cs :=
  lexemesFrom_cons hb ht (Nat.zero_le _) pos

theorem lexemesFrom_mark {c : Char} {t : Token} (h : mark? c = some t) (before : Option Char)
    (pos : Nat) (cs : List Char) :
    lexemesFrom before pos 0 (c :: cs) =
      ⟨t, pos, pos + 1⟩ :: lexemesFrom (some c) (pos + 1) 0 cs :=
  lexemesFrom_single (isBlank_of_mark? h) (tokenAt_of_mark? h before cs) pos

theorem lexemesFrom_instruction {before : Option Char} {cs : List Char} {r : Reading}
    (h : InstructionAt before cs r) (pos : Nat) :
    lexemesFrom before pos 0 cs =
      ⟨.instruction r.instruction r.closed, pos, pos + r.length⟩ ::
        lexemesFrom (cs.take r.length).getLast? (pos + r.length) 0 (cs.drop r.length) := by
  have hpos := h.length_pos
  have hle := h.length_le
  cases cs with
  | nil => simp at hle; omega
  | cons c cs =>
    obtain ⟨length, hl⟩ := Nat.exists_eq_add_of_le' hpos
    have ht := tokenAt_of_instructionAt h
    rw [hl] at ht hle ⊢
    exact lexemesFrom_cons (isBlank_of_isNameChar h.isNameChar_head) ht (by simpa using hle) pos

/-- The text `cs`, with `before` in front of it and starting at `pos`, is cut into the lexemes
    `ls`. -/
inductive Lexes : Option Char → Nat → List Char → List Lexeme → Prop
  | nil {before : Option Char} {pos : Nat} : Lexes before pos [] []
  | blank {before : Option Char} {pos : Nat} {c : Char} {cs : List Char} {ls : List Lexeme} :
      isBlank c = true → Lexes (some c) (pos + 1) cs ls → Lexes before pos (c :: cs) ls
  | mark {before : Option Char} {pos : Nat} {c : Char} {t : Token} {cs : List Char}
      {ls : List Lexeme} :
      mark? c = some t → Lexes (some c) (pos + 1) cs ls →
      Lexes before pos (c :: cs) (⟨t, pos, pos + 1⟩ :: ls)
  | instruction {before : Option Char} {pos : Nat} {cs : List Char} {r : Reading}
      {ls : List Lexeme} :
      InstructionAt before cs r →
      Lexes (cs.take r.length).getLast? (pos + r.length) (cs.drop r.length) ls →
      Lexes before pos cs (⟨.instruction r.instruction r.closed, pos, pos + r.length⟩ :: ls)
  | junk {before : Option Char} {pos : Nat} {c : Char} {cs : List Char} {ls : List Lexeme} :
      isBlank c = false → mark? c = none → readInstruction before (c :: cs) = none →
      Lexes (some c) (pos + 1) cs ls → Lexes before pos (c :: cs) (⟨.junk, pos, pos + 1⟩ :: ls)

theorem Lexes.instruction_append {before : Option Char} {pos : Nat} {taken rest : List Char}
    {r : Reading} {ls : List Lexeme} (hi : InstructionAt before (taken ++ rest) r)
    (hr : taken.length = r.length) (h : Lexes taken.getLast? (pos + r.length) rest ls) :
    Lexes before pos (taken ++ rest)
      (⟨.instruction r.instruction r.closed, pos, pos + r.length⟩ :: ls) := by
  refine .instruction hi ?_
  rwa [List.take_left' hr, List.drop_left' hr]

/-- **Every text is cut step by step.** -/
theorem lexes_lexemesFrom (before : Option Char) (pos : Nat) (cs : List Char) :
    Lexes before pos cs (lexemesFrom before pos 0 cs) := by
  induction hn : cs.length using Nat.strongRecOn generalizing before pos cs with
  | ind n ih =>
    subst hn
    cases cs with
    | nil => exact .nil
    | cons c cs =>
      have hcs : cs.length < (c :: cs).length := by simp
      rcases hb : isBlank c with _ | _
      · rcases hm : mark? c with _ | t
        · rcases hr : readInstruction before (c :: cs) with _ | r
          · rw [lexemesFrom_single hb (tokenAt_of_junk hm hr)]
            exact .junk hb hm hr (ih _ hcs _ _ cs rfl)
          · have hi := readInstruction_eq_some_iff.1 hr
            have hlt : ((c :: cs).drop r.length).length < (c :: cs).length := by
              have := hi.length_pos
              rw [List.length_drop, List.length_cons]; omega
            rw [lexemesFrom_instruction hi]
            exact .instruction hi (ih _ hlt _ _ _ rfl)
        · rw [lexemesFrom_mark hm]
          exact .mark hm (ih _ hcs _ _ cs rfl)
      · rw [lexemesFrom_blank hb]
        exact .blank hb (ih _ hcs _ _ cs rfl)

/-- **A text is cut in one way.** -/
theorem Lexes.eq_lexemesFrom {before : Option Char} {pos : Nat} {cs : List Char}
    {ls : List Lexeme} (h : Lexes before pos cs ls) : ls = lexemesFrom before pos 0 cs := by
  induction h with
  | nil => rfl
  | blank hb _ ih => rw [lexemesFrom_blank hb, ← ih]
  | mark hm _ ih => rw [lexemesFrom_mark hm, ← ih]
  | instruction hi _ ih => rw [lexemesFrom_instruction hi, ← ih]
  | junk hb hm hr _ ih => rw [lexemesFrom_single hb (tokenAt_of_junk hm hr), ← ih]

theorem Lexes.eq_nil {before : Option Char} {pos : Nat} {ls : List Lexeme}
    (h : Lexes before pos [] ls) : ls = [] := h.eq_lexemesFrom

end RelayLadder.RungText
