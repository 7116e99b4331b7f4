/-
  Which texts are numerals, and what numbers they denote.

  * `natOfDigits_eq`: a text of digits is read as a number, if it is a numeral;
  * `natOfDigits_toString`: so a number is read back from its digits, if there are not too many.
-/
import Mathlib.Algebra.Group.Nat.Defs
import Mathlib.Data.List.Infix
import Mathlib.Data.List.ReduceOption
import Mathlib.Data.List.TakeWhile
import RelayLadder.Number.Numeral

namespace RelayLadder

open Text

/-! ## Reading numerals -/

/-- The digits are decimal, and there are not too many. -/
def IsNumeral (s : String) : Prop :=
  (∀ c ∈ s.toList, (decimalValue? c).isSome = true) ∧ s.toList.length ≤ maxDigits

instance (s : String) : Decidable (IsNumeral s) :=
  decidable_of_iff
    (s.toList.all (fun c => (decimalValue? c).isSome) = true ∧ s.toList.length ≤ maxDigits)
    (by rw [IsNumeral, List.all_eq_true])

/-- Why a text of digits is no numeral, if it is none: it starts with too many decimal ones, or some
    are not decimal. -/
def numeralFault? (s : String) : Option Error :=
  if IsNumeral s then none
  else
    let leading := (s.toList.takeWhile fun c => (decimalValue? c).isSome).length
    some (if maxDigits < leading then .longNumeral maxDigits leading else .badNumeral s)

theorem numeralFault?_eq_none_iff {s : String} : numeralFault? s = none ↔ IsNumeral s := by
  unfold numeralFault?
  split <;> simp [*]

/-- The number that decimal digits denote. -/
def numeralValue (s : String) : Nat := ofDecimalValues (s.toList.filterMap decimalValue?)

/-- A text of digits is read as the number that it denotes, if it is a numeral. -/
theorem natOfDigits_eq (s : String) :
    natOfDigits s = (numeralFault? s).elim (.ok (numeralValue s)) .error := by
  have hleading : ((s.toList.map decimalValue?).takeWhile Option.isSome).length =
      (s.toList.takeWhile fun c => (decimalValue? c).isSome).length := by
    rw [List.takeWhile_map, List.length_map]
    rfl
  have hvalue : (s.toList.map decimalValue?).reduceOption = s.toList.filterMap decimalValue? := by
    rw [List.reduceOption, List.filterMap_map]
    rfl
  have hleadingDigits := List.takeWhile_prefix (fun c => (decimalValue? c).isSome) (l := s.toList)
  simp only [natOfDigits, hleading, hvalue, List.length_map]
  by_cases hnumeral : IsNumeral s
  · have hall : s.toList.takeWhile (fun c => (decimalValue? c).isSome) = s.toList :=
      List.takeWhile_eq_self_iff.2 hnumeral.1
    rw [numeralFault?_eq_none_iff.2 hnumeral, hall, if_neg (Nat.not_lt.2 hnumeral.2),
      if_neg (Nat.lt_irrefl _)]
    rfl
  · simp only [numeralFault?, if_neg hnumeral, Option.elim]
    split
    · rfl
    · rename_i hfew
      -- there are few decimal digits in front, so they are not all
      have hless : (s.toList.takeWhile fun c => (decimalValue? c).isSome).length <
          s.toList.length := by
        refine Nat.lt_of_le_of_ne hleadingDigits.length_le fun heq => hnumeral ?_
        have hall := hleadingDigits.eq_of_length heq
        exact ⟨List.takeWhile_eq_self_iff.1 hall, by rw [← heq]; exact Nat.not_lt.1 hfew⟩
      rw [if_pos hless]

/-! ## The digits of a number -/

theorem Text.decimalValue?_of_isDigit {c : Char} (h : c.isDigit = true) :
    decimalValue? c = some (c.toNat - '0'.toNat) := by
  obtain ⟨hlo, hhi⟩ := Bool.and_eq_true_iff.1 h
  have hlo' : 48 ≤ c.toNat := UInt32.le_iff_toNat_le.1 (of_decide_eq_true hlo)
  have hhi' : c.toNat ≤ 57 := UInt32.le_iff_toNat_le.1 (of_decide_eq_true hhi)
  have hfirst : CharRange.contains (0x30, 0x39) c = true := by
    simp [CharRange.contains, hlo', hhi']
  have hmod : (c.toNat - 48) % 10 = c.toNat - 48 := Nat.mod_eq_of_lt (by omega)
  simp only [decimalValue?, decimalRanges, List.find?_cons, hfirst, Option.map_some, hmod]
  rfl

theorem isDigit_of_mem_toString {n : Nat} {c : Char} (h : c ∈ (toString n).toList) :
    c.isDigit = true := by
  rw [Nat.toString_eq_repr, Nat.toList_repr] at h
  exact Nat.isDigit_of_mem_toDigits (by decide) (by decide) h

theorem isNumeral_toString {n : Nat} (h : n < 10 ^ maxDigits) : IsNumeral (toString n) := by
  refine ⟨fun c hc => ?_, ?_⟩
  · rw [decimalValue?_of_isDigit (isDigit_of_mem_toString hc)]
    rfl
  · rw [Nat.toString_eq_repr, Nat.toList_repr]
    exact (Nat.length_toDigits_le_iff (by decide) (by decide)).2 h

theorem numeralValue_toString (n : Nat) : numeralValue (toString n) = n := by
  have hvalues : (toString n).toList.filterMap decimalValue? =
      (toString n).toList.map fun c => c.toNat - '0'.toNat := by
    rw [← List.filterMap_eq_map]
    exact List.filterMap_congr fun c hc => decimalValue?_of_isDigit (isDigit_of_mem_toString hc)
  rw [numeralValue, hvalues, ofDecimalValues, List.foldl_map, Nat.toString_eq_repr, Nat.toList_repr]
  exact (Nat.ofDigitChars_eq_foldl ..).symm.trans Nat.ofDigitChars_ten_toDigits

/-- **The digits of a number are read back**, if there are not too many. -/
theorem natOfDigits_toString {n : Nat} (h : n < 10 ^ maxDigits) :
    natOfDigits (toString n) = .ok n := by
  rw [natOfDigits_eq, numeralFault?_eq_none_iff.2 (isNumeral_toString h), Option.elim_none,
    numeralValue_toString]

end RelayLadder
