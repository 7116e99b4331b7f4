/-
  Operand lists: how they are read, and what they hold.

  * `OperandList.read_append_close`: a balanced list before its closing parenthesis is read to the
    end, and cut into the pieces between its commas; `OperandList.exists_of_closed`: every list that
    is read as closed is of this form;
  * `OperandList.isSealed_first`, `OperandList.isSealed_rest`: whatever is read, closed or not, each
    piece stands by itself in an operand list;
  * `listedValues_commaSeparated`: operand texts with commas between them list just these texts;
  * `Instruction.isCanonical_iff`: what is asked of a canonical instruction, part by part.
-/
import RelayLadder.Element.Printer
import RelayLadder.Proofs.Trim
import RelayLadder.RungText.Canonical
import RelayLadder.RungText.Grammar

namespace RelayLadder.RungText

open Text

/-! ## Closed lists -/

theorem topPieces_ne_nil (depth : Nat) (cs : List Char) : topPieces depth cs ≠ [] := by
  cases cs with
  | nil => simp [topPieces]
  | cons c cs => simp only [topPieces]; split <;> simp

theorem headD_cons_tail_topPieces (depth : Nat) (cs : List Char) :
    (topPieces depth cs).headD [] :: (topPieces depth cs).tail = topPieces depth cs := by
  cases h : topPieces depth cs with
  | nil => exact absurd h (topPieces_ne_nil depth cs)
  | cons p ps => rfl

/-- A balanced list is read up to its closing parenthesis, and cut at its commas. -/
theorem OperandList.read_append_close {depth : Nat} {params : List Char}
    (h : isBalanced depth params = true) (rest : List Char) :
    OperandList.read depth (params ++ ')' :: rest) =
      ⟨(topPieces depth params).headD [], (topPieces depth params).tail, params.length + 1,
        true⟩ := by
  induction params generalizing depth with
  | nil =>
    obtain rfl : depth = 0 := by simpa [isBalanced] using h
    simp [OperandList.read, topPieces]
  | cons c cs ih =>
    simp only [isBalanced, Bool.and_eq_true] at h
    obtain ⟨hc, h⟩ := h
    have ih := ih h
    simp only [List.cons_append, OperandList.read, topPieces]
    by_cases hopen : c = '('
    · subst hopen
      simp only [depthAfter, if_true] at ih ⊢
      simp [ih, OperandList.push]
    by_cases hclose : c = ')'
    · subst hclose
      cases depth with
      | zero => simp at hc
      | succ depth =>
        simp only [depthAfter, Char.reduceEq, if_false, if_true, Nat.add_sub_cancel] at ih ⊢
        simp [ih, OperandList.push]
    · simp only [depthAfter, hopen, hclose, if_false] at ih ⊢
      split
      · rw [ih, OperandList.divide, headD_cons_tail_topPieces]
        simp
      · simp [ih, OperandList.push]

/-- A list that is read as closed is a balanced one before a closing parenthesis. -/
theorem OperandList.exists_of_closed {depth : Nat} {cs : List Char}
    (h : (OperandList.read depth cs).closed = true) :
    ∃ params rest, cs = params ++ ')' :: rest ∧ isBalanced depth params = true := by
  induction cs generalizing depth with
  | nil => simp [OperandList.read] at h
  | cons c cs ih =>
    -- in all cases but the last parenthesis, `c` is one more character of the list
    have more : (OperandList.read (depthAfter depth c) cs).closed = true →
        (c = ')' → depth ≠ 0) →
        ∃ params rest, c :: cs = params ++ ')' :: rest ∧ isBalanced depth params = true := by
      intro hr hc
      obtain ⟨params, rest, rfl, hb⟩ := ih hr
      refine ⟨c :: params, rest, rfl, ?_⟩
      simp only [isBalanced, hb, Bool.and_true, Bool.or_eq_true, bne_iff_ne]
      by_cases hcl : c = ')'
      · exact Or.inr (hc hcl)
      · exact Or.inl hcl
    simp only [OperandList.read] at h
    split at h
    · rename_i hc
      subst hc
      exact more h (by simp)
    · rename_i hopen
      split at h
      · rename_i hc
        subst hc
        cases depth with
        | zero => exact ⟨[], cs, rfl, rfl⟩
        | succ depth => exact more h fun _ => Nat.succ_ne_zero depth
      · rename_i hclose
        refine more ?_ fun hc => absurd hc hclose
        simp only [depthAfter, hopen, hclose, if_false]
        split at h <;> exact h

theorem OperandList.length_read_le (depth : Nat) (cs : List Char) :
    (OperandList.read depth cs).length ≤ cs.length := by
  fun_induction OperandList.read depth cs <;>
    simp_all [OperandList.push, OperandList.divide]

/-- A list that is open goes on to the end of the text. -/
theorem OperandList.length_read_of_open {depth : Nat} {cs : List Char}
    (h : (OperandList.read depth cs).closed = false) :
    (OperandList.read depth cs).length = cs.length := by
  fun_induction OperandList.read depth cs <;>
    simp_all [OperandList.push, OperandList.divide]

theorem OperandList.values_of_pieces {l : OperandList} {params : List Char}
    (h : l.first :: l.rest = topPieces 0 params) : l.values = listedValues params := by
  unfold OperandList.values listedValues
  rw [h]
  split
  · rename_i hv; simp [hv]
  · rename_i hv; rw [if_neg hv]

/-- The values of a list that is read as closed are those of the text between its parentheses. -/
theorem OperandList.values_read_append_close {params : List Char} (h : isBalanced 0 params = true)
    (rest : List Char) :
    (OperandList.read 0 (params ++ ')' :: rest)).values = listedValues params := by
  refine OperandList.values_of_pieces ?_
  rw [OperandList.read_append_close h]
  exact headD_cons_tail_topPieces 0 params

/-! ## Pieces that stand by themselves -/

theorem isSealed_cons {depth : Nat} {c : Char} {cs : List Char} :
    isSealed depth (c :: cs) = true ↔
      (c = ')' → depth ≠ 0) ∧ (c = ',' → depth ≠ 0) ∧ isSealed (depthAfter depth c) cs = true := by
  unfold depthAfter
  rw [isSealed]
  split
  · simp_all
  · split
    · simp_all
    · split <;> simp_all

theorem isSealed_replicate (depth : Nat) :
    isSealed depth (List.replicate depth ')') = true := by
  induction depth with
  | zero => rfl
  | succ depth ih => simpa [List.replicate_succ, isSealed] using ih

/-- The piece that is being read closes the parentheses that are open before it; at the end of the
    text they are closed for it. -/
theorem OperandList.isSealed_first (depth : Nat) (cs : List Char) :
    isSealed depth (OperandList.read depth cs).first = true := by
  fun_induction OperandList.read depth cs with
  | case1 depth => exact isSealed_replicate depth
  | case2 depth cs ih => simpa [OperandList.push, isSealed] using ih
  | case3 => rfl
  | case4 cs depth _ ih => simpa [OperandList.push, isSealed] using ih
  | case5 depth c cs _ _ hcomma ih =>
    rw [hcomma.2]
    rfl
  | case6 depth c cs hopen hclose hcomma ih =>
    by_cases hc : c = ','
    · have hd : depth ≠ 0 := fun hd => hcomma ⟨hc, hd⟩
      subst hc
      simpa [OperandList.push, isSealed, hd] using ih
    · simpa [OperandList.push, isSealed, hopen, hclose, hc] using ih

theorem OperandList.isSealed_rest (depth : Nat) (cs : List Char) :
    ∀ p ∈ (OperandList.read depth cs).rest, isSealed 0 p = true := by
  fun_induction OperandList.read depth cs with
  | case1 => simp
  | case2 depth cs ih => exact ih
  | case3 => simp
  | case4 cs depth _ ih => exact ih
  | case5 depth c cs _ _ hcomma ih =>
    intro p hp
    rcases List.mem_cons.1 hp with rfl | hp
    · simpa [hcomma.2] using OperandList.isSealed_first depth cs
    · exact ih p hp
  | case6 depth c cs _ _ _ ih => exact ih

/-- Blanks do not matter to whether a text stands by itself. -/
theorem isSealed_filter (depth : Nat) (cs : List Char) :
    isSealed depth (cs.filter (!isBlank ·)) = isSealed depth cs := by
  induction cs generalizing depth with
  | nil => rfl
  | cons c cs ih =>
    rcases hc : isBlank c with _ | _
    · simp [hc, isSealed, ih]
    · have hne : c ≠ '(' ∧ c ≠ ')' ∧ c ≠ ',' := by
        refine ⟨?_, ?_, ?_⟩ <;> rintro rfl <;> revert hc <;> decide
      simp [hc, isSealed, ih, hne]

theorem isSealed_trim (depth : Nat) (cs : List Char) :
    isSealed depth (trim cs) = isSealed depth cs := by
  rw [← isSealed_filter, filter_trim, isSealed_filter]

theorem isOperandText_iff {v : String} :
    isOperandText v = true ↔ strip v = v ∧ isSealed 0 v.toList = true := by
  simp [isOperandText]

theorem isOperandText_trim {cs : List Char} (h : isSealed 0 cs = true) :
    isOperandText (String.ofList (trim cs)) = true := by
  simp [isOperandText_iff, strip, trim_trim, isSealed_trim, h]

/-- A value is a piece without the blanks around it. -/
theorem OperandList.exists_of_mem_values {l : OperandList} {v : String} (h : v ∈ l.values) :
    ∃ p ∈ l.first :: l.rest, String.ofList (trim p) = v := by
  rw [← List.mem_map]
  unfold OperandList.values at h
  split at h
  · simp at h
  · exact h

/-- Whatever is read as an operand list, its values are operand texts. -/
theorem OperandList.isOperandText_of_mem_values {cs : List Char} {v : String}
    (h : v ∈ (OperandList.read 0 cs).values) : isOperandText v = true := by
  obtain ⟨p, hp, rfl⟩ := OperandList.exists_of_mem_values h
  refine isOperandText_trim ?_
  rcases List.mem_cons.1 hp with rfl | hp
  · exact OperandList.isSealed_first 0 cs
  · exact OperandList.isSealed_rest 0 cs p hp

/-- A list with one blank operand has none. -/
theorem OperandList.values_ne_singleton_empty (l : OperandList) : l.values ≠ [""] := by
  unfold OperandList.values
  split
  · simp
  · rename_i h; exact h

/-! ## Operand texts with commas between them -/

theorem isBalanced_append {depth : Nat} {p : List Char} (h : isSealed depth p = true)
    (rest : List Char) : isBalanced depth (p ++ rest) = isBalanced 0 rest := by
  induction p generalizing depth with
  | nil =>
    obtain rfl : depth = 0 := by simpa [isSealed] using h
    rfl
  | cons c p ih =>
    obtain ⟨hclose, -, hp⟩ := isSealed_cons.1 h
    have hc : (c != ')' || depth != 0) = true := by
      simpa [Bool.or_eq_true, imp_iff_not_or] using hclose
    rw [List.cons_append, isBalanced, hc, Bool.true_and, ih hp]

/-- A text that stands by itself is a piece, or the start of one. -/
theorem topPieces_append {depth : Nat} {p : List Char} (h : isSealed depth p = true)
    (rest : List Char) :
    topPieces depth (p ++ rest) =
      (p ++ (topPieces 0 rest).headD []) :: (topPieces 0 rest).tail := by
  induction p generalizing depth with
  | nil =>
    obtain rfl : depth = 0 := by simpa [isSealed] using h
    exact (headD_cons_tail_topPieces 0 rest).symm
  | cons c p ih =>
    obtain ⟨-, hcomma, hp⟩ := isSealed_cons.1 h
    have hc : ¬ (c = ',' ∧ depth = 0) := fun hc => hcomma hc.1 hc.2
    simp only [List.cons_append, topPieces, if_neg hc, ih hp, List.headD_cons, List.tail_cons]

theorem isBalanced_commaSeparated {pieces : List (List Char)}
    (h : ∀ p ∈ pieces, isSealed 0 p = true) : isBalanced 0 (commaSeparated pieces) = true := by
  fun_induction commaSeparated pieces with
  | case1 => rfl
  | case2 p =>
    have hp := isBalanced_append (h p (by simp)) []
    simpa [isBalanced] using hp
  | case3 p q ps ih =>
    rw [isBalanced_append (h p (by simp))]
    exact ih fun r hr => h r (List.mem_cons_of_mem p hr)

theorem topPieces_commaSeparated {p : List Char} {ps : List (List Char)}
    (h : ∀ q ∈ p :: ps, isSealed 0 q = true) :
    topPieces 0 (commaSeparated (p :: ps)) = p :: ps := by
  induction ps generalizing p with
  | nil =>
    have hp := topPieces_append (h p (by simp)) []
    simpa [topPieces, commaSeparated] using hp
  | cons q ps ih =>
    have hq := ih fun r hr => h r (List.mem_cons_of_mem p hr)
    rw [commaSeparated, topPieces_append (h p (by simp))]
    simp [topPieces, depthAfter, hq]

/-- **Operand texts with commas between them list just these texts**, unless there is a single
    empty one. -/
theorem listedValues_commaSeparated {vs : List String}
    (hv : ∀ v ∈ vs, isOperandText v = true) (hne : vs ≠ [""]) :
    listedValues (commaSeparated (vs.map String.toList)) = vs := by
  have hstrip : vs.map strip = vs := by
    conv_rhs => rw [← List.map_id vs]
    exact List.map_congr_left fun v hm => (isOperandText_iff.1 (hv v hm)).1
  cases vs with
  | nil => rfl
  | cons v vs =>
    have hs : ∀ p ∈ (v :: vs).map String.toList, isSealed 0 p = true :=
      List.forall_mem_map.2 fun u hu => (isOperandText_iff.1 (hv u hu)).2
    have hp : (topPieces 0 (commaSeparated ((v :: vs).map String.toList))).map
        (fun piece => String.ofList (trim piece)) = v :: vs := by
      rw [List.map_cons, topPieces_commaSeparated hs, ← List.map_cons, List.map_map]
      exact hstrip
    rw [listedValues, hp, if_neg hne]

end RelayLadder.RungText

/-! ## Canonical instructions -/

namespace RelayLadder

open RungText

theorem Instruction.exists_toList_eq_cons (i : Instruction) :
    ∃ c name, i.mnemonic.toList = c :: name := by
  refine List.exists_cons_of_ne_nil fun h => i.mnemonic_ne ?_
  rw [← String.ofList_toList (s := i.mnemonic), h]

/-- An instruction is canonical if its mnemonic is a name, its operands are in the form that fits
    their number and not a single empty one, and each is an operand text. -/
theorem Instruction.isCanonical_iff {i : Instruction} :
    i.isCanonical = true ↔ i.mnemonic.toList.all isNameChar = true ∧
      i.operands = .ofValues i.values ∧ i.values ≠ [""] ∧
        ∀ v ∈ i.values, isOperandText v = true := by
  have hempty : i.operands = .ofValues i.values → (i.operands ≠ .unary "" ↔ i.values ≠ [""]) := by
    intro ho
    refine not_congr ⟨fun h => ?_, fun h => ?_⟩
    · rw [Instruction.values, h]; rfl
    · rw [ho, h]; rfl
  simp only [Instruction.isCanonical, Operands.isFitting, Bool.and_eq_true, beq_iff_eq,
    bne_iff_ne, List.all_eq_true]
  constructor
  · rintro ⟨⟨hm, ho, hu⟩, hv⟩
    exact ⟨hm, ho, (hempty ho).1 hu, hv⟩
  · rintro ⟨hm, ho, hu, hv⟩
    exact ⟨⟨hm, ho, (hempty ho).2 hu⟩, hv⟩

end RelayLadder
