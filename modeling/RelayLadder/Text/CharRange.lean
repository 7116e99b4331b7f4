/-
  Ranges of characters: the form in which the larger character classes are given.
-/
namespace RelayLadder.Text

/-- The code points from the first number to the second, both included. -/
abbrev CharRange := Nat × Nat

/-- The character lies in the range. -/
def CharRange.contains (r : CharRange) (c : Char) : Bool :=
  r.1 ≤ c.toNat && c.toNat ≤ r.2

/-- The character lies in one of the ranges. -/
def inRanges (rs : List CharRange) (c : Char) : Bool :=
  rs.any (·.contains c)

theorem inRanges_iff {rs : List CharRange} {c : Char} :
    inRanges rs c = true ↔ ∃ r ∈ rs, r.1 ≤ c.toNat ∧ c.toNat ≤ r.2 := by
  simp [inRanges, CharRange.contains]

end RelayLadder.Text
