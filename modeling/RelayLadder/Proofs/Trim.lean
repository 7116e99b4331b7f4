/-
  Trimming, and what blanks are not.

  A text that neither starts nor ends with a blank is its own trim, trimming twice is trimming once,
  and only blanks are lost.  A blank is no letter or number of any script, so that it ends a word.
-/
import Mathlib.Data.List.DropRight
import RelayLadder.Text.AlphaNum
import RelayLadder.Text.Blank

namespace RelayLadder.Text

/-! ## Trimming -/

theorem trimLeft_eq_self_iff {cs : List Char} :
    trimLeft cs = cs ↔ ∀ c ∈ cs.head?, isBlank c = false := by
  cases cs with
  | nil => simp [trimLeft]
  | cons c cs =>
    rcases hc : isBlank c with _ | _
    · simp [trimLeft, hc]
    · have hne : (cs.dropWhile isBlank).length ≠ (c :: cs).length := by
        have := (List.dropWhile_suffix isBlank (l := cs)).length_le
        simp only [List.length_cons]; omega
      simp only [trimLeft, List.dropWhile_cons, hc, if_true, List.head?_cons, Option.mem_def,
        Option.some.injEq, forall_eq', reduceCtorEq, iff_false]
      exact fun h => hne (congrArg List.length h)

theorem trimRight_eq_reverse (cs : List Char) :
    trimRight cs = (trimLeft cs.reverse).reverse := rfl

theorem trimRight_eq_self_iff {cs : List Char} :
    trimRight cs = cs ↔ ∀ c ∈ cs.getLast?, isBlank c = false := by
  rw [trimRight_eq_reverse, List.reverse_eq_iff, trimLeft_eq_self_iff, List.head?_reverse]

/-- Trimming at the end leaves a start of the text. -/
theorem trimRight_prefix (cs : List Char) : trimRight cs <+: cs :=
  List.rdropWhile_prefix isBlank cs

/-- A text without a blank at its start has none there after trimming at the end. -/
theorem trimLeft_trimRight {cs : List Char} (h : trimLeft cs = cs) :
    trimLeft (trimRight cs) = trimRight cs := by
  rw [trimLeft_eq_self_iff] at h ⊢
  intro c hc
  obtain ⟨rest, hr⟩ := trimRight_prefix cs
  refine h c ?_
  rw [← hr, List.head?_append, hc]
  rfl

/-- Trimming twice is trimming once. -/
theorem trim_trim (cs : List Char) : trim (trim cs) = trim cs := by
  have hl : trimLeft (trimLeft cs) = trimLeft cs := List.dropWhile_idempotent isBlank cs
  unfold trim
  rw [trimLeft_trimRight hl]
  exact List.rdropWhile_idempotent isBlank (trimLeft cs)

theorem head?_trim (cs : List Char) : ∀ c ∈ (trim cs).head?, isBlank c = false := by
  have hl : trimLeft (trimLeft cs) = trimLeft cs := List.dropWhile_idempotent isBlank cs
  exact trimLeft_eq_self_iff.1 (trimLeft_trimRight hl)

theorem getLast?_trim (cs : List Char) : ∀ c ∈ (trim cs).getLast?, isBlank c = false :=
  trimRight_eq_self_iff.1 (List.rdropWhile_idempotent isBlank (trimLeft cs))

/-- A text without blanks at its ends is its own trim. -/
theorem trim_eq_self {cs : List Char} (hl : ∀ c ∈ cs.head?, isBlank c = false)
    (hr : ∀ c ∈ cs.getLast?, isBlank c = false) : trim cs = cs := by
  rw [trim, trimLeft_eq_self_iff.2 hl, trimRight_eq_self_iff.2 hr]

theorem filter_trimLeft (cs : List Char) :
    (trimLeft cs).filter (!isBlank ·) = cs.filter (!isBlank ·) := by
  induction cs with
  | nil => rfl
  | cons c cs ih =>
    rcases hc : isBlank c with _ | _
    · simp [trimLeft, hc]
    · simpa [trimLeft, hc] using ih

/-- Trimming loses blanks only. -/
theorem filter_trim (cs : List Char) : (trim cs).filter (!isBlank ·) = cs.filter (!isBlank ·) := by
  rw [trim, trimRight_eq_reverse, List.filter_reverse, filter_trimLeft, List.filter_reverse,
    List.reverse_reverse, filter_trimLeft]

theorem trimLeft_eq_nil_iff {cs : List Char} : trimLeft cs = [] ↔ cs.all isBlank = true := by
  rw [trimLeft, List.dropWhile_eq_nil_iff, List.all_eq_true]

theorem trimRight_eq_nil_iff {cs : List Char} : trimRight cs = [] ↔ cs.all isBlank = true := by
  rw [trimRight_eq_reverse, List.reverse_eq_nil_iff, trimLeft_eq_nil_iff, List.all_reverse]

/-- The blanks at the start of two texts, one behind the other, may be the whole first one. -/
theorem trimLeft_append (a b : List Char) :
    trimLeft (a ++ b) = if trimLeft a = [] then trimLeft b else trimLeft a ++ b := by
  rw [trimLeft, List.dropWhile_append, ← trimLeft, ← trimLeft]
  by_cases h : trimLeft a = []
  · rw [if_pos h, h]
    rfl
  · rw [if_neg h, if_neg (by simpa using h)]

theorem trimRight_append (a b : List Char) :
    trimRight (a ++ b) = if trimRight b = [] then trimRight a else a ++ trimRight b := by
  simp only [trimRight_eq_reverse, List.reverse_append, trimLeft_append, List.reverse_eq_nil_iff]
  split
  · rfl
  · rw [List.reverse_append, List.reverse_reverse]

/-- What is trimmed at the end are blanks. -/
theorem exists_eq_trimRight_append (cs : List Char) :
    ∃ blanks, cs = trimRight cs ++ blanks ∧ blanks.all isBlank = true := by
  refine ⟨(cs.reverse.takeWhile isBlank).reverse, ?_, ?_⟩
  · rw [trimRight, ← List.reverse_append, List.takeWhile_append_dropWhile, List.reverse_reverse]
  · rw [List.all_reverse]
    exact List.all_takeWhile

theorem trimRight_cons_of_isBlank {c : Char} (h : isBlank c = true) (cs : List Char) :
    trimRight (c :: cs) = if trimRight cs = [] then [] else c :: trimRight cs := by
  have hc : trimRight [c] = [] := trimRight_eq_nil_iff.2 (by simp [h])
  rw [← List.singleton_append, trimRight_append, hc]
  rfl

theorem getLast?_trimRight_cons {c : Char} (h : isBlank c = true) (cs : List Char) :
    (trimRight (c :: cs)).getLast? = (trimRight cs).getLast? := by
  rw [trimRight_cons_of_isBlank h]
  split
  · rename_i hcs
    rw [hcs]
  · rename_i hcs
    obtain ⟨d, ds, hd⟩ := List.exists_cons_of_ne_nil hcs
    rw [hd, List.getLast?_cons_cons]

theorem mem_getLast?_cons {c d : Char} {cs : List Char} (h : d ∈ cs.getLast?) :
    d ∈ (c :: cs).getLast? := by
  rw [Option.mem_def] at h
  rw [List.getLast?_cons, h]
  rfl

/-- A part that does not end with a blank is kept whole. -/
theorem trimRight_append_of_getLast? {a : List Char} (h : ∀ c ∈ a.getLast?, isBlank c = false)
    (b : List Char) : trimRight (a ++ b) = a ++ trimRight b := by
  rw [trimRight_append]
  split
  · rename_i hb
    rw [hb, List.append_nil, trimRight_eq_self_iff.2 h]
  · rfl

theorem trim_append_blanks (cs : List Char) {blanks : List Char} (h : blanks.all isBlank = true) :
    trim (cs ++ blanks) = trim cs := by
  have hnil := trimRight_eq_nil_iff.2 h
  rw [trim, trimLeft_append]
  split
  · rename_i hcs
    rw [trim, hcs, trimLeft_eq_nil_iff.2 h]
  · rw [trimRight_append, if_pos hnil, trim]

theorem trim_blanks_append {blanks : List Char} (h : blanks.all isBlank = true) (cs : List Char) :
    trim (blanks ++ cs) = trim cs := by
  rw [trim, trimLeft_append, if_pos (trimLeft_eq_nil_iff.2 h), trim]

theorem mem_getLast?_of_trimLeft {cs : List Char} {c : Char} (h : c ∈ (trimLeft cs).getLast?) :
    c ∈ cs.getLast? := by
  rw [← List.takeWhile_append_dropWhile (p := isBlank) (l := cs)]
  exact List.mem_getLast?_append_of_mem_getLast? h

/-- It does not matter at which end trimming starts. -/
theorem trim_eq_trimLeft_trimRight (cs : List Char) : trim cs = trimLeft (trimRight cs) := by
  obtain ⟨blanks, hcs, hblanks⟩ := exists_eq_trimRight_append cs
  have hlast : trimRight (trimRight cs) = trimRight cs := List.rdropWhile_idempotent isBlank cs
  have htrim : trim cs = trim (trimRight cs) := by
    conv_lhs => rw [hcs]
    exact trim_append_blanks _ hblanks
  rw [htrim]
  exact trimRight_eq_self_iff.2 fun c hc =>
    trimRight_eq_self_iff.1 hlast c (mem_getLast?_of_trimLeft hc)

/-- Trimming at the end leaves the first character that is not blank. -/
theorem head?_trimLeft_trimRight {cs : List Char} {c : Char} (h : (trimLeft cs).head? ≠ some c) :
    (trimLeft (trimRight cs)).head? ≠ some c := by
  rw [← trim_eq_trimLeft_trimRight, trim]
  obtain ⟨rest, hrest⟩ := trimRight_prefix (trimLeft cs)
  intro hc
  rw [← hrest] at h
  exact h (List.mem_head?_append_of_mem_head? hc)

/-! ## Blanks are no letters or numbers -/

/-- The blanks, as increasing ranges. -/
def blankRanges : List CharRange :=
  [(0x9, 0xD), (0x1C, 0x20), (0x85, 0x85), (0xA0, 0xA0), (0x1680, 0x1680), (0x2000, 0x200A),
    (0x2028, 0x2029), (0x202F, 0x202F), (0x205F, 0x205F), (0x3000, 0x3000)]

theorem inRanges_of_isBlank {c : Char} (h : isBlank c = true) : inRanges blankRanges c = true := by
  simp only [isBlank, Bool.or_eq_true, Bool.and_eq_true, decide_eq_true_eq, beq_iff_eq] at h
  simp only [inRanges, blankRanges, CharRange.contains, List.any_cons, List.any_nil,
    Bool.or_eq_true, Bool.and_eq_true, decide_eq_true_eq]
  omega

/-- A character in one of some ranges is in none of others that lie apart from them. -/
theorem inRanges_eq_false {rs qs : List CharRange} {c : Char}
    (hd : ∀ r ∈ rs, ∀ q ∈ qs, r.2 < q.1 ∨ q.2 < r.1) (h : inRanges rs c = true) :
    inRanges qs c = false := by
  obtain ⟨r, hr, hlo, hhi⟩ := inRanges_iff.1 h
  rw [Bool.eq_false_iff, Ne, inRanges_iff]
  rintro ⟨q, hq, hlo', hhi'⟩
  rcases hd r hr q hq with hlt | hlt <;> omega

theorem toNat_of_isUpper {c : Char} (h : c.isUpper = true) : 65 ≤ c.toNat ∧ c.toNat ≤ 90 := by
  obtain ⟨hlo, hhi⟩ := of_decide_eq_true h
  exact ⟨UInt32.le_iff_toNat_le.1 hlo, UInt32.le_iff_toNat_le.1 hhi⟩

theorem toNat_of_isAlphanum {c : Char} (h : c.isAlphanum = true) :
    (65 ≤ c.toNat ∧ c.toNat ≤ 90) ∨ (97 ≤ c.toNat ∧ c.toNat ≤ 122) ∨
      (48 ≤ c.toNat ∧ c.toNat ≤ 57) := by
  rcases Bool.or_eq_true_iff.1 h with ha | hd
  · rcases Bool.or_eq_true_iff.1 ha with hu | hl
    · exact Or.inl (toNat_of_isUpper hu)
    · obtain ⟨hlo, hhi⟩ := Bool.and_eq_true_iff.1 hl
      exact Or.inr (Or.inl ⟨UInt32.le_iff_toNat_le.1 (of_decide_eq_true hlo),
        UInt32.le_iff_toNat_le.1 (of_decide_eq_true hhi)⟩)
  · obtain ⟨hlo, hhi⟩ := Bool.and_eq_true_iff.1 hd
    exact Or.inr (Or.inr ⟨UInt32.le_iff_toNat_le.1 (of_decide_eq_true hlo),
      UInt32.le_iff_toNat_le.1 (of_decide_eq_true hhi)⟩)

theorem isAlphaNum_of_isBlank {c : Char} (h : isBlank c = true) : isAlphaNum c = false := by
  have hr := inRanges_of_isBlank h
  have hascii : c.isAlphanum = false := by
    rw [Bool.eq_false_iff]
    intro ha
    have hc := toNat_of_isAlphanum ha
    simp only [isBlank, Bool.or_eq_true, Bool.and_eq_true, decide_eq_true_eq, beq_iff_eq] at h
    omega
  rw [isAlphaNum, hascii, Bool.false_or]
  exact inRanges_eq_false (by decide +kernel) hr

end RelayLadder.Text
