/-
  What lower-casing makes of a part of a text.

  Only a capital sigma is lower-cased by what stands around it: it becomes another letter where it
  ends a word.

  * `lowerBetween before after cs`: the small letters of `cs` where it stands between `before` and
    `after`, which lower-casing the whole text puts between those of the rest (`lowerFrom_append`);
  * `lowerBetween_eq_iff`: a part is lower-cased alike in two places if and only if its capital
    sigmas end words alike there;
  * `isSettled`: for each capital sigma of a text, it stands in the text itself what decides whether
    the sigma ends a word.  Where it does not, a letter in front of the text or behind it changes
    this (`of_not_settles`), and there are then too few of the sigmas that the text alone has
    (`eq_or_count_lt`, `not_infix_of_ne`);
  * `isSettled_iff`: so these are the texts that are found in lower case wherever they occur.
-/
import Mathlib.Data.List.Forall2
import RelayLadder.Text.LowerCase

namespace RelayLadder.Text

/-! ## Parts of a text -/

theorem toList_lower (s : String) : (lower s).toList = lowerFrom [] s.toList := by
  rw [lower, String.toList_ofList]

/-- A capital sigma between these characters, the ones before it in reverse, ends a word. -/
def endsWord (before after : List Char) : Bool := meetsCased before && !meetsCased after

/-- The small letter of a capital sigma, which may end a word. -/
def smallSigma (ends : Bool) : Char := if ends then 'ς' else 'σ'

/-- The small letters of `cs` in a text where it stands between (the reversed) `before` and
    `after`. -/
def lowerBetween (before after : List Char) : List Char → List Char
  | [] => []
  | c :: cs =>
    (if c = 'Σ' then [smallSigma (endsWord before (cs ++ after))] else lowerChar c) ++
      lowerBetween (c :: before) after cs

theorem lowerFrom_append (before cs after : List Char) :
    lowerFrom before (cs ++ after) =
      lowerBetween before after cs ++ lowerFrom (cs.reverse ++ before) after := by
  induction cs generalizing before with
  | nil => rfl
  | cons c cs ih =>
    rw [List.cons_append, lowerFrom, ih, lowerBetween, List.reverse_cons, List.append_assoc,
      List.append_assoc, List.singleton_append]
    rfl

theorem lowerFrom_eq_lowerBetween (before cs : List Char) :
    lowerFrom before cs = lowerBetween before [] cs := by
  have h := lowerFrom_append before cs []
  rwa [List.append_nil, lowerFrom, List.append_nil] at h

theorem lowerBetween_append (before after u v : List Char) :
    lowerBetween before after (u ++ v) =
      lowerBetween before (v ++ after) u ++ lowerBetween (u.reverse ++ before) after v := by
  induction u generalizing before with
  | nil => rfl
  | cons c u ih =>
    rw [List.cons_append, lowerBetween, ih, lowerBetween, List.reverse_cons, List.append_assoc,
      List.append_assoc, List.append_assoc, List.singleton_append]

/-! ## One part in two places -/

/-- What relates the small sigmas of a part in two places, and every letter to itself, relates all
    small letters of the part. -/
theorem forall₂_lowerBetween {R : Char → Char → Prop} (hrefl : ∀ c, R c c)
    {before after before' after' cs : List Char}
    (h : ∀ u v, cs = u ++ 'Σ' :: v →
      R (smallSigma (endsWord (u.reverse ++ before) (v ++ after)))
        (smallSigma (endsWord (u.reverse ++ before') (v ++ after')))) :
    List.Forall₂ R (lowerBetween before after cs) (lowerBetween before' after' cs) := by
  induction cs generalizing before before' with
  | nil => exact .nil
  | cons c cs ih =>
    have hrest : List.Forall₂ R (lowerBetween (c :: before) after cs)
        (lowerBetween (c :: before') after' cs) := by
      refine ih fun u v huv => ?_
      have hcons := h (c :: u) v (by rw [huv, List.cons_append])
      rwa [List.reverse_cons, List.append_assoc, List.append_assoc] at hcons
    refine List.rel_append ?_ hrest
    by_cases hc : c = 'Σ'
    · subst hc
      rw [if_pos rfl, if_pos rfl]
      exact .cons (h [] cs rfl) .nil
    · rw [if_neg hc, if_neg hc]
      exact List.forall₂_same.2 fun d _ => hrefl d

theorem length_lowerBetween (before after before' after' cs : List Char) :
    (lowerBetween before after cs).length = (lowerBetween before' after' cs).length :=
  (forall₂_lowerBetween (R := fun _ _ => True) (fun _ => trivial) fun _ _ _ => trivial).length_eq

theorem smallSigma_inj {a b : Bool} : smallSigma a = smallSigma b ↔ a = b := by
  cases a <;> cases b <;> decide

/-- **A part is lower-cased alike in two places if and only if its capital sigmas end words
    alike there.** -/
theorem lowerBetween_eq_iff {before after before' after' cs : List Char} :
    lowerBetween before after cs = lowerBetween before' after' cs ↔
      ∀ u v, cs = u ++ 'Σ' :: v →
        endsWord (u.reverse ++ before) (v ++ after) =
          endsWord (u.reverse ++ before') (v ++ after') := by
  constructor
  · rintro h u v rfl
    rw [lowerBetween_append, lowerBetween_append] at h
    obtain ⟨-, hsigma⟩ := List.append_inj h (length_lowerBetween ..)
    rw [lowerBetween, lowerBetween, if_pos rfl, if_pos rfl] at hsigma
    exact smallSigma_inj.1 (List.cons.inj hsigma).1
  · intro h
    refine List.forall₂_eq_eq_eq ▸ forall₂_lowerBetween (fun _ => rfl) fun u v huv => ?_
    rw [h u v huv]

/-- Between `before` and `after`, the capital sigmas of `cs` end words where they do so in `cs`
    alone. -/
def KeepsWordEnds (before cs after : List Char) : Prop :=
  ∀ u v, cs = u ++ 'Σ' :: v →
    endsWord (u.reverse ++ before.reverse) (v ++ after) = endsWord u.reverse v

theorem keepsWordEnds_iff {before cs after : List Char} :
    KeepsWordEnds before cs after ↔ lowerBetween before.reverse after cs = lowerFrom [] cs := by
  rw [lowerFrom_eq_lowerBetween, lowerBetween_eq_iff]
  simp only [KeepsWordEnds, List.append_nil]

theorem KeepsWordEnds.infix {before cs after : List Char} (h : KeepsWordEnds before cs after) :
    lowerFrom [] cs <:+: lowerFrom [] (before ++ cs ++ after) := by
  rw [List.append_assoc, lowerFrom_append, lowerFrom_append, List.append_nil,
    keepsWordEnds_iff.1 h, ← List.append_assoc]
  exact List.infix_append ..

/-! ## Settled texts -/

/-- It stands between these characters what decides whether a capital sigma there ends a word. -/
def settles (before after : List Char) : Bool :=
  match before.find? (!isCaseIgnorable ·), after.find? (!isCaseIgnorable ·) with
  | some _, some _ => true
  | some c, none => !isCased c
  | none, some d => isCased d
  | none, none => false

/-- For each capital sigma of the text, which stands behind (the reversed) `before`, it is settled
    whether the sigma ends a word. -/
def isSettledFrom (before : List Char) : List Char → Bool
  | [] => true
  | c :: cs => (c != 'Σ' || settles before cs) && isSettledFrom (c :: before) cs

/-- For each capital sigma of the text, it is settled by the text whether the sigma ends a word. -/
def isSettled (cs : List Char) : Bool := isSettledFrom [] cs

theorem isSettledFrom_iff {before cs : List Char} :
    isSettledFrom before cs = true ↔
      ∀ u v, cs = u ++ 'Σ' :: v → settles (u.reverse ++ before) v = true := by
  induction cs generalizing before with
  | nil => simp [isSettledFrom]
  | cons c cs ih =>
    rw [isSettledFrom, Bool.and_eq_true, ih]
    constructor
    · rintro ⟨hfirst, hrest⟩ u v huv
      cases u with
      | nil =>
        obtain ⟨rfl, rfl⟩ := List.cons.inj huv
        simpa using hfirst
      | cons d u =>
        obtain ⟨rfl, hcs⟩ := List.cons.inj huv
        simpa using hrest u v hcs
    · intro h
      refine ⟨?_, fun u v huv => ?_⟩
      · by_cases hc : c = 'Σ'
        · subst hc
          simpa using h [] cs rfl
        · simp [hc]
      · simpa using h (c :: u) v (by rw [huv, List.cons_append])

theorem isSettled_iff_settles {cs : List Char} :
    isSettled cs = true ↔ ∀ u v, cs = u ++ 'Σ' :: v → settles u.reverse v = true := by
  rw [isSettled, isSettledFrom_iff]
  simp only [List.append_nil]

theorem meetsCased_of_some {cs : List Char} {c : Char}
    (h : cs.find? (!isCaseIgnorable ·) = some c) : meetsCased cs = isCased c := by
  rw [meetsCased, h]

theorem meetsCased_of_none {cs : List Char} (h : cs.find? (!isCaseIgnorable ·) = none) :
    meetsCased cs = false := by
  rw [meetsCased, h]

theorem meetsCased_append_of_some {cs : List Char} {c : Char}
    (h : cs.find? (!isCaseIgnorable ·) = some c) (ds : List Char) :
    meetsCased (cs ++ ds) = isCased c := by
  rw [meetsCased, List.find?_append, h]
  rfl

theorem meetsCased_append_of_none {cs : List Char}
    (h : cs.find? (!isCaseIgnorable ·) = none) (ds : List Char) :
    meetsCased (cs ++ ds) = meetsCased ds := by
  rw [meetsCased, List.find?_append, h]
  rfl

theorem meetsCased_append {cs : List Char} (h : meetsCased cs = true) (ds : List Char) :
    meetsCased (cs ++ ds) = true := by
  rcases hcs : cs.find? (!isCaseIgnorable ·) with _ | c
  · rw [meetsCased_of_none hcs] at h
    cases h
  · rw [meetsCased_append_of_some hcs, ← meetsCased_of_some hcs, h]

/-- What is settled stays so, whatever stands around. -/
theorem endsWord_append_of_settles {before after : List Char} (h : settles before after = true)
    (before' after' : List Char) :
    endsWord (before ++ before') (after ++ after') = endsWord before after := by
  unfold settles at h
  rcases hb : before.find? (!isCaseIgnorable ·) with _ | c <;>
    rcases ha : after.find? (!isCaseIgnorable ·) with _ | d <;>
    simp only [hb, ha, Bool.not_eq_true'] at h
  · cases h
  · rw [endsWord, endsWord, meetsCased_append_of_some ha, meetsCased_of_some ha, h, Bool.not_true,
      Bool.and_false, Bool.and_false]
  · rw [endsWord, endsWord, meetsCased_append_of_some hb, meetsCased_of_some hb, h,
      Bool.false_and, Bool.false_and]
  · rw [endsWord, endsWord, meetsCased_append_of_some ha, meetsCased_of_some ha,
      meetsCased_append_of_some hb, meetsCased_of_some hb]

/-- Where it is not settled, a cased letter behind or in front would change it. -/
theorem of_not_settles {before after : List Char} (h : settles before after = false) :
    (meetsCased before = true ∧ after.find? (!isCaseIgnorable ·) = none) ∨
      (before.find? (!isCaseIgnorable ·) = none ∧ meetsCased after = false) := by
  unfold settles at h
  rcases hb : before.find? (!isCaseIgnorable ·) with _ | c <;>
    rcases ha : after.find? (!isCaseIgnorable ·) with _ | d <;>
    simp only [hb, ha, Bool.not_eq_false'] at h
  · exact .inr ⟨rfl, meetsCased_of_none ha⟩
  · exact .inr ⟨rfl, (meetsCased_of_some ha).trans h⟩
  · exact .inl ⟨(meetsCased_of_some hb).trans h, rfl⟩
  · cases h

/-! ## Texts that are not found -/

/-- The characters are the same, but that the second may be the sigma at the end of a word where
    the first is the other one. -/
def MayEnd (c d : Char) : Prop := c = d ∨ c = 'σ' ∧ d = 'ς'

theorem mayEnd_smallSigma {a b : Bool} (h : a = true → b = true) :
    MayEnd (smallSigma a) (smallSigma b) := by
  cases a with
  | true => exact .inl (by rw [h rfl])
  | false => cases b with
    | true => exact .inr ⟨rfl, rfl⟩
    | false => exact .inl rfl

/-- Where more sigmas end words, there are fewer of the others. -/
theorem eq_or_count_lt {xs ys : List Char} (h : List.Forall₂ MayEnd xs ys) :
    xs = ys ∨ (ys.count 'σ' < xs.count 'σ' ∧ xs.count 'ς' < ys.count 'ς') := by
  induction h with
  | nil => exact .inl rfl
  | @cons c d xs ys hcd _ ih =>
    rcases hcd with rfl | ⟨rfl, rfl⟩
    · rcases ih with rfl | ⟨hother, hends⟩
      · exact .inl rfl
      · exact .inr ⟨by simpa [List.count_cons] using hother,
          by simpa [List.count_cons] using hends⟩
    · have hle : ys.count 'σ' ≤ xs.count 'σ' ∧ xs.count 'ς' ≤ ys.count 'ς' := by
        rcases ih with rfl | ⟨hother, hends⟩
        · exact ⟨Nat.le_refl _, Nat.le_refl _⟩
        · exact ⟨Nat.le_of_lt hother, Nat.le_of_lt hends⟩
      right
      rw [List.count_cons_self, List.count_cons_self, List.count_cons_of_ne (by decide),
        List.count_cons_of_ne (by decide)]
      omega

/-- Small letters that differ in where sigmas end words are not found in each other, nor with other
    letters around. -/
theorem not_infix_of_ne {xs ys : List Char} (front back : List Char)
    (h : List.Forall₂ MayEnd xs ys ∨ List.Forall₂ MayEnd ys xs) (hne : xs ≠ ys)
    (haround : ∀ c ∈ ['σ', 'ς'], c ∉ front ++ back) : ¬ xs <:+: front ++ ys ++ back := by
  intro hinfix
  have hcount : ∀ c ∈ ['σ', 'ς'], xs.count c ≤ ys.count c := by
    intro c hc
    have hzero : front.count c + back.count c = 0 := by
      rw [← List.count_append]
      exact List.count_eq_zero.2 (haround c hc)
    have hle := hinfix.count_le c
    rw [List.count_append, List.count_append] at hle
    omega
  have hother := hcount 'σ' (by decide)
  have hends := hcount 'ς' (by decide)
  rcases h with h | h
  · rcases eq_or_count_lt h with heq | hlt
    · exact hne heq
    · omega
  · rcases eq_or_count_lt h with heq | hlt
    · exact hne heq.symm
    · omega

/-- A sigma that ends its word for want of letters behind it does not do so in front of a letter. -/
theorem not_infix_before_letter {u v : List Char} (hbefore : meetsCased u.reverse = true)
    (hafter : v.find? (!isCaseIgnorable ·) = none) :
    ¬ lowerFrom [] (u ++ 'Σ' :: v) <:+: lowerFrom [] (u ++ 'Σ' :: v ++ ['Α']) := by
  have hletter : ∀ before, lowerFrom before ['Α'] = ['α'] := fun _ => rfl
  rw [lowerFrom_append [] _ ['Α'], hletter, lowerFrom_eq_lowerBetween]
  refine not_infix_of_ne [] ['α'] (.inr (forall₂_lowerBetween (fun _ => .inl rfl)
    fun _ v' _ => mayEnd_smallSigma fun hends => ?_)) (fun hsame => ?_) (by simp)
  · obtain ⟨hword, hnone⟩ := Bool.and_eq_true_iff.1 hends
    rw [endsWord, hword, List.append_nil, Bool.true_and, Bool.not_eq_true']
    -- a cased letter that is met behind the sigma is met with more letters there, too
    refine Bool.eq_false_iff.2 fun hcased => ?_
    rw [meetsCased_append hcased] at hnone
    cases hnone
  · have hends := lowerBetween_eq_iff.1 hsame u v rfl
    rw [List.append_nil, List.append_nil] at hends
    rw [endsWord, endsWord, hbefore, meetsCased_of_none hafter, meetsCased_append_of_none hafter]
      at hends
    exact absurd hends (by decide +kernel)

/-- A sigma that ends no word for want of letters in front of it ends one behind a letter. -/
theorem not_infix_behind_letter {u v : List Char}
    (hbefore : u.reverse.find? (!isCaseIgnorable ·) = none) (hafter : meetsCased v = false) :
    ¬ lowerFrom [] (u ++ 'Σ' :: v) <:+: lowerFrom [] ('Α' :: (u ++ 'Σ' :: v)) := by
  have hletter : lowerFrom [] ('Α' :: (u ++ 'Σ' :: v)) =
      ['α'] ++ lowerFrom ['Α'] (u ++ 'Σ' :: v) ++ [] := (List.append_nil _).symm
  rw [hletter, lowerFrom_eq_lowerBetween, lowerFrom_eq_lowerBetween]
  refine not_infix_of_ne ['α'] [] (.inl (forall₂_lowerBetween (fun _ => .inl rfl)
    fun u' _ _ => mayEnd_smallSigma fun hends => ?_)) (fun hsame => ?_) (by simp)
  · obtain ⟨hword, hnone⟩ := Bool.and_eq_true_iff.1 hends
    rw [List.append_nil] at hword
    rw [endsWord, meetsCased_append hword, Bool.true_and, hnone]
  · have hends := lowerBetween_eq_iff.1 hsame u v rfl
    rw [List.append_nil, List.append_nil] at hends
    rw [endsWord, endsWord, hafter, meetsCased_of_none hbefore, meetsCased_append_of_none hbefore]
      at hends
    exact absurd hends (by decide +kernel)

/-- **A text is found in lower case wherever it occurs if and only if it is settled.** -/
theorem isSettled_iff {cs : List Char} :
    isSettled cs = true ↔
      ∀ before after, lowerFrom [] cs <:+: lowerFrom [] (before ++ cs ++ after) := by
  rw [isSettled_iff_settles]
  constructor
  · intro h before after
    refine KeepsWordEnds.infix fun u v huv => ?_
    exact endsWord_append_of_settles (h u v huv) before.reverse after
  · rintro h u v rfl
    by_contra hunsettled
    obtain ⟨hbefore, hafter⟩ | ⟨hbefore, hafter⟩ := of_not_settles (Bool.not_eq_true _ ▸ hunsettled)
    · exact not_infix_before_letter hbefore hafter (h [] ['Α'])
    · have hbehind := h ['Α'] []
      rw [List.append_nil, List.singleton_append] at hbehind
      exact not_infix_behind_letter hbefore hafter hbehind

-- a cased letter behind the first sigma, and nothing but a mark behind the last one
example : isSettled "ΣΤ".toList = true ∧ isSettled "ΣΤΣ'".toList = false := by decide +kernel

/-! ## Texts that are not empty -/

theorem lowerChar_ne_nil (c : Char) : lowerChar c ≠ [] := by
  unfold lowerChar
  split
  · exact List.cons_ne_nil _ _
  split
  · exact List.cons_ne_nil _ _
  split <;> exact List.cons_ne_nil _ _

theorem lowerFrom_eq_nil_iff {before cs : List Char} : lowerFrom before cs = [] ↔ cs = [] := by
  cases cs with
  | nil => simp [lowerFrom]
  | cons c cs =>
    rw [lowerFrom]
    split <;> simp [lowerChar_ne_nil]

theorem lower_eq_empty_iff {s : String} : lower s = "" ↔ s = "" := by
  rw [← String.toList_eq_nil_iff, toList_lower, lowerFrom_eq_nil_iff, String.toList_eq_nil_iff]

end RelayLadder.Text
