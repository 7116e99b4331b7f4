/-
  What is written for a number, and which number that denotes.

  * `decimal?` reads a plain decimal: digits, perhaps with a sign in front and a point among them;
  * `decimalExponent_spec`: the exponent of a number is the power of ten of its first digit;
  * `magnitude?_writePositive`: a number with no more than the digits that are kept, the first of
    which stands near the point, is written as a plain decimal that denotes it;
  * `decimal?_written`: so are multiples of a half whose whole part has fewer digits than are kept;
  * `LawfulWritten`: whatever is written consists of letters, digits, signs and points.
-/
import Mathlib.Algebra.Order.Field.Power
import Mathlib.Algebra.Order.Field.Rat
import Mathlib.Tactic.FieldSimp
import Mathlib.Tactic.Linarith
import Mathlib.Tactic.Positivity
import Mathlib.Tactic.Ring
import RelayLadder.Number.Written
import RelayLadder.Proofs.Lexing

namespace RelayLadder

open RungText (takeWhile_append_of_head dropWhile_append_of_head)

/-! ## Plain decimals -/

/-- The number that digits denote, with or without a point among them. -/
def magnitude? (cs : List Char) : Option Rat :=
  let whole := cs.takeWhile Char.isDigit
  if whole = [] then none
  else match cs.dropWhile Char.isDigit with
    | [] => some ((Nat.ofDigitChars 10 whole 0 : Nat) : Rat)
    | '.' :: fraction =>
      if fraction ≠ [] ∧ fraction.all Char.isDigit = true then
        some (((Nat.ofDigitChars 10 (whole ++ fraction) 0 : Nat) : Rat) / 10 ^ fraction.length)
      else none
    | _ => none

/-- The number that a plain decimal denotes: no blanks, no exponent. -/
def decimal? (s : String) : Option Rat :=
  match s.toList with
  | '-' :: cs => (magnitude? cs).map (- ·)
  | cs => magnitude? cs

/-! ## Digits -/

theorem lt_pow_digitCount (n : Nat) : n < 10 ^ digitCount n :=
  (Nat.length_toDigits_le_iff (by decide) Nat.length_toDigits_pos).1 (Nat.le_refl _)

theorem pow_le_of_lt_digitCount {n k : Nat} (hn : 0 < n) (hk : k < digitCount n) : 10 ^ k ≤ n := by
  by_contra hlt
  rcases Nat.eq_zero_or_pos k with rfl | hpos
  · exact hlt hn
  · exact absurd ((Nat.length_toDigits_le_iff (by decide) hpos).2 (Nat.not_le.1 hlt))
      (Nat.not_le.2 hk)

theorem digitCount_pos (n : Nat) : 0 < digitCount n := Nat.length_toDigits_pos

theorem length_toDigits_eq {n k : Nat} (hlo : 10 ^ k ≤ n) (hhi : n < 10 ^ (k + 1)) :
    (Nat.toDigits 10 n).length = k + 1 := by
  have hle := (Nat.length_toDigits_le_iff (by decide) (Nat.succ_pos k)).2 hhi
  rcases Nat.eq_zero_or_pos k with rfl | hpos
  · exact Nat.le_antisymm hle Nat.length_toDigits_pos
  · have hlt := (Nat.length_toDigits_le_iff (by decide) hpos).not.2 (Nat.not_lt.2 hlo)
    omega

/-! ## Exponents -/

section
variable {num den : Nat}

theorem shiftDecimal_spec (num : Nat) (hden : 0 < den) (k : Int) :
    0 < (shiftDecimal num den k).2 ∧
      ((shiftDecimal num den k).1 : Rat) / (shiftDecimal num den k).2 = num / den * 10 ^ k := by
  unfold shiftDecimal
  split
  · rename_i hk
    obtain ⟨n, rfl⟩ := Int.eq_ofNat_of_zero_le hk
    refine ⟨hden, ?_⟩
    rw [Int.toNat_natCast, zpow_natCast, Nat.pow_eq]
    push_cast
    ring
  · rename_i hk
    obtain ⟨n, hn⟩ := Int.eq_ofNat_of_zero_le (show 0 ≤ -k by omega)
    obtain rfl : k = -n := by omega
    refine ⟨Nat.mul_pos hden (Nat.pow_pos (by decide)), ?_⟩
    rw [neg_neg, Int.toNat_natCast, zpow_neg, zpow_natCast, Nat.pow_eq]
    push_cast
    field_simp

/-- By the numbers of digits, a quotient lies within one place of their difference. -/
theorem quotient_within_place (hnum : 0 < num) (hden : 0 < den) {e : Int}
    (he : e = digitCount num - digitCount den) :
    (10 : Rat) ^ (e - 1) ≤ num / den ∧ (num / den : Rat) < 10 ^ (e + 1) := by
  have hden' : (0 : Rat) < den := by exact_mod_cast hden
  have hten : (10 : Rat) ≠ 0 := by norm_num
  have hcounts := And.intro (digitCount_pos num) (digitCount_pos den)
  constructor
  · have hlo : ((10 ^ (digitCount num - 1) : Nat) : Rat) ≤ num := by
      exact_mod_cast pow_le_of_lt_digitCount hnum (Nat.sub_lt (digitCount_pos num) (by decide))
    have hhi : (den : Rat) ≤ ((10 ^ digitCount den : Nat) : Rat) := by
      exact_mod_cast (lt_pow_digitCount den).le
    have hplace : e - 1 = ((digitCount num - 1 : Nat) : Int) - (digitCount den : Nat) := by omega
    push_cast at hlo hhi
    rw [hplace, zpow_sub₀ hten, zpow_natCast, zpow_natCast]
    exact div_le_div₀ (by positivity) hlo hden' hhi
  · have hhi : (num : Rat) < ((10 ^ digitCount num : Nat) : Rat) := by
      exact_mod_cast lt_pow_digitCount num
    have hlo : ((10 ^ (digitCount den - 1) : Nat) : Rat) ≤ den := by
      exact_mod_cast pow_le_of_lt_digitCount hden (Nat.sub_lt (digitCount_pos den) (by decide))
    have hplace : e + 1 = (digitCount num : Nat) - ((digitCount den - 1 : Nat) : Int) := by omega
    push_cast at hlo hhi
    rw [hplace, zpow_sub₀ hten, zpow_natCast, zpow_natCast]
    exact div_lt_div₀ hhi hlo (by positivity) (by positivity)

/-- **The exponent of a number is the power of ten of its first digit.** -/
theorem decimalExponent_spec (hnum : 0 < num) (hden : 0 < den) :
    (10 : Rat) ^ decimalExponent num den ≤ num / den ∧
      (num / den : Rat) < 10 ^ (decimalExponent num den + 1) := by
  let e : Int := digitCount num - digitCount den
  obtain ⟨hlow, hhigh⟩ := quotient_within_place hnum hden (e := e) rfl
  obtain ⟨hpos, hshift⟩ := shiftDecimal_spec num hden (-e)
  have hpos' : (0 : Rat) < (shiftDecimal num den (-e)).2 := by exact_mod_cast hpos
  -- the comparison tells in which of the two places the quotient lies
  have hreach : (shiftDecimal num den (-e)).2 ≤ (shiftDecimal num den (-e)).1 ↔
      (10 : Rat) ^ e ≤ num / den := by
    rw [← Nat.cast_le (α := Rat), ← one_le_div hpos', hshift, zpow_neg,
      ← div_eq_mul_inv, one_le_div (by positivity)]
  have hexponent : decimalExponent num den =
      if (shiftDecimal num den (-e)).2 ≤ (shiftDecimal num den (-e)).1 then e else e - 1 := rfl
  rw [hexponent]
  split
  · exact ⟨hreach.1 ‹_›, hhigh⟩
  · rename_i h
    rw [sub_add_cancel]
    exact ⟨hlow, not_le.1 (hreach.not.1 h)⟩

theorem decimalExponent_lt (hnum : 0 < num) (hden : 0 < den) {k : Int}
    (h : (num / den : Rat) < 10 ^ k) : decimalExponent num den < k := by
  obtain ⟨hlo, -⟩ := decimalExponent_spec hnum hden
  exact (zpow_lt_zpow_iff_right₀ (by norm_num)).1 (hlo.trans_lt h)

theorem le_decimalExponent (hnum : 0 < num) (hden : 0 < den) {k : Int}
    (h : (10 : Rat) ^ k ≤ num / den) : k ≤ decimalExponent num den := by
  obtain ⟨-, hhi⟩ := decimalExponent_spec hnum hden
  exact Int.lt_add_one_iff.1 ((zpow_lt_zpow_iff_right₀ (by norm_num)).1 (h.trans_lt hhi))

/-! ## Numbers that are written exactly -/

theorem shiftDecimal_of_eq (hden : 0 < den) {k : Int} {m : Nat}
    (hm : (num / den : Rat) * 10 ^ k = m) :
    (shiftDecimal num den k).1 = m * (shiftDecimal num den k).2 := by
  obtain ⟨hpos, hshift⟩ := shiftDecimal_spec num hden k
  have hpos' : ((shiftDecimal num den k).2 : Rat) ≠ 0 := by exact_mod_cast hpos.ne'
  rw [hm, div_eq_iff hpos'] at hshift
  exact_mod_cast hshift

theorem roundHalfEven_mul (m : Nat) (hden : 0 < den) : roundHalfEven (m * den) den = m := by
  unfold roundHalfEven
  rw [Nat.mul_mod_left, Nat.mul_div_cancel m hden]
  exact if_pos (Or.inl (by omega))

section
variable (hnum : 0 < num) (hden : 0 < den) {m : Nat}
  (hm : (num / den : Rat) * 10 ^ (precision - 1 - decimalExponent num den : Int) = m)
include hnum hden hm

/-- A number without digits behind those that are kept has as many digits as are kept. -/
theorem kept_of_eq : 10 ^ (precision - 1) ≤ m ∧ m < 10 ^ precision := by
  obtain ⟨hlo, hhi⟩ := decimalExponent_spec hnum hden
  revert hm hlo hhi
  generalize decimalExponent num den = e
  intro hm hlo hhi
  have hten : (10 : Rat) ≠ 0 := by norm_num
  have hunit : (0 : Rat) < 10 ^ (precision - 1 - e : Int) := by positivity
  have hlow : (10 : Rat) ^ (precision - 1) ≤ m := calc
    (10 : Rat) ^ (precision - 1) = 10 ^ e * 10 ^ (precision - 1 - e : Int) := by
      rw [← zpow_natCast, ← zpow_add₀ hten]
      congr 1
      simp [precision]
    _ ≤ num / den * 10 ^ (precision - 1 - e : Int) := mul_le_mul_of_nonneg_right hlo hunit.le
    _ = m := hm
  have hhigh : (m : Rat) < 10 ^ precision := calc
    (m : Rat) = num / den * 10 ^ (precision - 1 - e : Int) := hm.symm
    _ < 10 ^ (e + 1) * 10 ^ (precision - 1 - e : Int) := mul_lt_mul_of_pos_right hhi hunit
    _ = 10 ^ precision := by
      rw [← zpow_natCast, ← zpow_add₀ hten]
      congr 1
      ring
  exact ⟨by exact_mod_cast hlow, by exact_mod_cast hhigh⟩

/-- It is written with these digits. -/
theorem writePositive_eq :
    writePositive num den = placePoint (Nat.toDigits 10 m) (decimalExponent num den) := by
  obtain ⟨hpos, -⟩ := shiftDecimal_spec num hden (precision - 1 - decimalExponent num den : Int)
  simp only [writePositive, shiftDecimal_of_eq hden hm, roundHalfEven_mul m hpos]
  exact if_neg (kept_of_eq hnum hden hm).2.ne

end

end

/-- Zeros at the end of a fraction are all that is left out of it. -/
theorem exists_eq_dropFinalZeros_append (ds : List Char) :
    ∃ k, ds = dropFinalZeros ds ++ List.replicate k '0' := by
  have hzeros : ds.reverse.takeWhile (· == '0') =
      List.replicate (ds.reverse.takeWhile (· == '0')).length '0' :=
    List.eq_replicate_iff.2 ⟨rfl, fun c hc => by simpa using List.mem_takeWhile_imp hc⟩
  refine ⟨(ds.reverse.takeWhile (· == '0')).length, ?_⟩
  rw [← List.reverse_inj, List.reverse_append, dropFinalZeros, List.reverse_reverse,
    List.reverse_replicate, ← hzeros, List.takeWhile_append_dropWhile]

/-- **Digits with a point among them denote what they denote without it, moved by the places behind
    the point.** -/
theorem magnitude?_append_fractionPart {whole fraction : List Char} (hne : whole ≠ [])
    (hwhole : whole.all Char.isDigit = true) (hfraction : fraction.all Char.isDigit = true) :
    magnitude? (whole ++ fractionPart fraction) =
      some (((Nat.ofDigitChars 10 (whole ++ fraction) 0 : Nat) : Rat) / 10 ^ fraction.length) := by
  obtain ⟨k, hk⟩ := exists_eq_dropFinalZeros_append fraction
  have hkept : (dropFinalZeros fraction).all Char.isDigit = true := by
    rw [hk, List.all_append, Bool.and_eq_true] at hfraction
    exact hfraction.1
  have hvalue : ((Nat.ofDigitChars 10 (whole ++ fraction) 0 : Nat) : Rat) / 10 ^ fraction.length =
      ((Nat.ofDigitChars 10 (whole ++ dropFinalZeros fraction) 0 : Nat) : Rat) /
        10 ^ (dropFinalZeros fraction).length := by
    conv_lhs => rw [hk, ← List.append_assoc, Nat.ofDigitChars_append,
      Nat.ofDigitChars_replicate_zero, List.length_append, List.length_replicate, pow_add]
    push_cast
    field_simp
  rw [hvalue, fractionPart]
  generalize dropFinalZeros fraction = kept at hkept
  have hpoint : ∀ c ∈ ('.' :: kept).head?, c.isDigit = false := by simp
  cases kept with
  | nil =>
    have htake : (whole ++ []).takeWhile Char.isDigit = whole := by
      rw [takeWhile_append_of_head hwhole (by simp)]
    have hdrop : (whole ++ []).dropWhile Char.isDigit = [] := by
      rw [dropWhile_append_of_head hwhole (by simp)]
    simp only [magnitude?, htake, hdrop, if_neg hne]
    simp
  | cons d kept =>
    simp only [magnitude?, takeWhile_append_of_head hwhole hpoint,
      dropWhile_append_of_head hwhole hpoint, if_neg hne]
    rw [if_pos ⟨List.cons_ne_nil d kept, hkept⟩]

/-- **Digits near the point are written as a plain decimal**, the first one at `10^e`. -/
theorem magnitude?_placePoint {ds : List Char} (hds : ds.all Char.isDigit = true)
    (hlength : ds.length = precision) {e : Int} (hlo : -4 ≤ e) (hhi : e < precision) :
    magnitude? (placePoint ds e) =
      some (((Nat.ofDigitChars 10 ds 0 : Nat) : Rat) / 10 ^ (precision - 1 - e : Int)) := by
  unfold placePoint
  split
  · rename_i he
    obtain ⟨k, rfl⟩ := Int.eq_ofNat_of_zero_le he.1
    rw [Int.toNat_natCast]
    have hall : (ds.take (k + 1)).all Char.isDigit = true ∧
        (ds.drop (k + 1)).all Char.isDigit = true := by
      rw [← Bool.and_eq_true, ← List.all_append, List.take_append_drop]
      exact hds
    have hne : ds.take (k + 1) ≠ [] := by
      rw [← List.length_pos_iff, List.length_take, hlength]
      simp [precision]
    have hplaces : (precision - 1 - k : Int) = ((ds.drop (k + 1)).length : Nat) := by
      rw [List.length_drop, hlength]
      omega
    rw [magnitude?_append_fractionPart hne hall.1 hall.2, List.take_append_drop, hplaces,
      zpow_natCast]
  · rename_i he
    have hneg : e < 0 := by omega
    rw [if_pos ⟨hlo, hneg⟩]
    obtain ⟨k, hk⟩ : ∃ k : Nat, e = -(k + 1 : Nat) := ⟨(-e).toNat - 1, by omega⟩
    have hzeros : (List.replicate ((-e).toNat - 1) '0' ++ ds).all Char.isDigit = true := by
      rw [List.all_append, hds, Bool.and_true, List.all_replicate]
      simp
    have hplaces : (precision - 1 - e : Int) =
        ((List.replicate ((-e).toNat - 1) '0' ++ ds).length : Nat) := by
      rw [List.length_append, List.length_replicate, hlength]
      omega
    have hvalue : Nat.ofDigitChars 10 (['0'] ++ (List.replicate ((-e).toNat - 1) '0' ++ ds)) 0 =
        Nat.ofDigitChars 10 ds 0 := by
      rw [Nat.ofDigitChars_append, Nat.ofDigitChars_append, Nat.ofDigitChars_replicate_zero]
      rfl
    have hread := magnitude?_append_fractionPart (List.cons_ne_nil '0' []) (by decide) hzeros
    rw [hvalue, ← zpow_natCast, ← hplaces] at hread
    exact hread

/-- **A number with no more than the digits that are kept is written exactly**, if its first digit
    stands near the point. -/
theorem magnitude?_writePositive {num den : Nat} (hnum : 0 < num) (hden : 0 < den) {m : Nat}
    (hm : (num / den : Rat) * 10 ^ (precision - 1 - decimalExponent num den : Int) = m)
    (hlo : -4 ≤ decimalExponent num den) (hhi : decimalExponent num den < precision) :
    magnitude? (writePositive num den) = some ((num : Rat) / den) := by
  obtain ⟨hmlo, hmhi⟩ := kept_of_eq hnum hden hm
  have hdigits : (Nat.toDigits 10 m).all Char.isDigit = true :=
    List.all_eq_true.2 fun c hc => Nat.isDigit_of_mem_toDigits (by decide) (by decide) hc
  rw [writePositive_eq hnum hden hm,
    magnitude?_placePoint hdigits (length_toDigits_eq hmlo hmhi) hlo hhi,
    Nat.ofDigitChars_ten_toDigits, ← hm, mul_div_cancel_right₀ _ (by positivity)]

/-! ## Multiples of a half -/

/-- The number is a multiple of a half. -/
def IsHalves (v : Rat) : Prop := ∃ n : Int, v = n / 2

theorem magnitude?_writePositive_of_isHalves {v : Rat} (hv : IsHalves v) (hpos : 0 < v)
    (hlt : v < 10 ^ (precision - 1)) :
    magnitude? (writePositive v.num.natAbs v.den) = some v := by
  have hnum : 0 < v.num.natAbs := Int.natAbs_pos.2 (Rat.num_pos.2 hpos).ne'
  have hquotient : ((v.num.natAbs : Nat) : Rat) / (v.den : Rat) = v := by
    rw [Nat.cast_natAbs, abs_of_pos (Rat.num_pos.2 hpos), Rat.num_div_den]
  obtain ⟨n, hn⟩ := hv
  have hn0 : 0 < n := by
    have : (0 : Rat) < n := by linarith
    exact_mod_cast this
  lift n to Nat using hn0.le
  rw [Int.cast_natCast] at hn
  -- the first digit stands at one of the powers 10^-1 to 10^4
  have hlt' : decimalExponent v.num.natAbs v.den < (precision - 1 : Nat) := by
    refine decimalExponent_lt hnum v.den_pos ?_
    rw [hquotient, zpow_natCast]
    exact hlt
  have hge : -1 ≤ decimalExponent v.num.natAbs v.den := by
    refine le_decimalExponent hnum v.den_pos ?_
    have hn1 : (1 : Rat) ≤ n := by exact_mod_cast hn0
    rw [hquotient, hn, zpow_neg_one]
    linarith
  simp only [precision] at hlt'
  obtain ⟨j, hj⟩ : ∃ j : Nat, (precision - 1 - decimalExponent v.num.natAbs v.den : Int) =
      (j + 1 : Nat) := ⟨(4 - decimalExponent v.num.natAbs v.den).toNat, by simp [precision]; omega⟩
  have hm : (v.num.natAbs / v.den : Rat) *
      10 ^ (precision - 1 - decimalExponent v.num.natAbs v.den : Int) =
        (n * 5 * 10 ^ j : Nat) := by
    rw [hquotient, hj, zpow_natCast, hn]
    push_cast
    ring
  rw [magnitude?_writePositive hnum v.den_pos hm (by omega) (by simp [precision]; omega),
    hquotient]

theorem decimal?_ofList {cs : List Char} {v : Rat} (h : magnitude? cs = some v) :
    decimal? (String.ofList cs) = some v := by
  unfold decimal?
  rw [String.toList_ofList]
  split
  · -- digits have no sign in front
    cases h
  · exact h

/-- **A multiple of a half is written as a plain decimal that denotes it**, if its whole part has
    fewer digits than are kept. -/
theorem decimal?_written {v : Rat} (hv : IsHalves v) (hlo : -10 ^ (precision - 1) < v)
    (hhi : v < 10 ^ (precision - 1)) : decimal? (written v) = some v := by
  have hwritten : written v = writeSigned (v.num < 0) v := rfl
  rw [hwritten, writeSigned]
  rcases lt_trichotomy v 0 with hneg | rfl | hpos
  · have hnum : v.num < 0 := Rat.num_neg.2 hneg
    obtain ⟨n, hn⟩ := hv
    have hread := magnitude?_writePositive_of_isHalves (v := -v) ⟨-n, by rw [hn]; push_cast; ring⟩
      (by linarith) (by linarith)
    rw [Rat.num_neg_eq_neg_num, Int.natAbs_neg, Rat.den_neg_eq_den] at hread
    rw [if_neg hnum.ne, decide_eq_true hnum, if_pos rfl, decimal?, String.toList_ofList]
    simp only [hread, Option.map_some, neg_neg]
  · decide
  · have hnum : 0 < v.num := Rat.num_pos.2 hpos
    rw [if_neg hnum.ne', decide_eq_false hnum.not_gt, if_neg Bool.false_ne_true]
    exact decimal?_ofList (magnitude?_writePositive_of_isHalves hv hpos hhi)

example : written (-75 / 2 : Rat) = "-37.5" := by decide +kernel

example : decimal? (written (200001 / 2 : Rat)) = some 100000 := by decide +kernel

/-! ## Characters -/

/-- A letter, a digit, or a sign or point as numbers have it. -/
def isNumberChar (c : Char) : Bool := c.isAlphanum || c == '-' || c == '+' || c == '.'

theorem all_isNumberChar_of_isDigit {cs : List Char} (h : ∀ c ∈ cs, c.isDigit = true) :
    cs.all isNumberChar = true := by
  refine List.all_eq_true.2 fun c hc => ?_
  simp [isNumberChar, Char.isAlphanum, h c hc]

theorem all_isNumberChar_toDigits (n : Nat) : (Nat.toDigits 10 n).all isNumberChar = true :=
  all_isNumberChar_of_isDigit fun _ hc => Nat.isDigit_of_mem_toDigits (by decide) (by decide) hc

theorem all_isNumberChar_replicate (k : Nat) : (List.replicate k '0').all isNumberChar = true :=
  all_isNumberChar_of_isDigit fun _ hc => List.eq_of_mem_replicate hc ▸ rfl

theorem all_isNumberChar_fractionPart {ds : List Char} (h : ds.all isNumberChar = true) :
    (fractionPart ds).all isNumberChar = true := by
  obtain ⟨k, hk⟩ := exists_eq_dropFinalZeros_append ds
  rw [hk, List.all_append, Bool.and_eq_true] at h
  unfold fractionPart
  split
  · rfl
  · rw [List.all_cons, h.1]
    rfl

theorem all_isNumberChar_exponentPart (e : Int) : (exponentPart e).all isNumberChar = true := by
  simp only [exponentPart, List.all_cons, List.all_append, all_isNumberChar_replicate,
    all_isNumberChar_toDigits]
  split <;> rfl

theorem all_isNumberChar_placePoint {ds : List Char} (h : ds.all isNumberChar = true) (e : Int) :
    (placePoint ds e).all isNumberChar = true := by
  have hpart (n : Nat) : (ds.take n).all isNumberChar = true ∧
      (ds.drop n).all isNumberChar = true := by
    rw [← Bool.and_eq_true, ← List.all_append, List.take_append_drop]
    exact h
  unfold placePoint
  split_ifs
  · rw [List.all_append, (hpart _).1, all_isNumberChar_fractionPart (hpart _).2]
    rfl
  · rw [List.all_cons, all_isNumberChar_fractionPart]
    · rfl
    · rw [List.all_append, all_isNumberChar_replicate, h]
      rfl
  · rw [List.all_append, List.all_append, (hpart _).1, all_isNumberChar_fractionPart (hpart _).2,
      all_isNumberChar_exponentPart]
    rfl

theorem all_isNumberChar_writePositive (num den : Nat) :
    (writePositive num den).all isNumberChar = true := by
  simp only [writePositive]
  split <;> exact all_isNumberChar_placePoint (all_isNumberChar_toDigits _) _

theorem all_isNumberChar_writeSigned (negative : Bool) (magnitude : Rat) :
    (writeSigned negative magnitude).toList.all isNumberChar = true := by
  have hdigits : (if magnitude.num = 0 then ['0'] else
      writePositive magnitude.num.natAbs magnitude.den).all isNumberChar = true := by
    split
    · rfl
    · exact all_isNumberChar_writePositive _ _
  simp only [writeSigned, String.toList_ofList]
  split
  · rw [List.all_cons, hdigits]
    rfl
  · exact hdigits

/-- Numbers are written in letters, digits, signs and points. -/
class LawfulWritten (α : Type) [Written α] : Prop where
  isNumberChar (v : α) : (written v).toList.all isNumberChar = true

instance : LawfulWritten Rat where
  isNumberChar _ := all_isNumberChar_writeSigned _ _

instance : LawfulWritten Float where
  isNumberChar x := by
    show (match exactValue x with
      | .finite negative magnitude => writeSigned negative magnitude
      | .infinite negative => if negative then "-inf" else "inf"
      | .undefined => "nan").toList.all _ = true
    split
    · exact all_isNumberChar_writeSigned _ _
    · split <;> decide
    · decide

end RelayLadder
