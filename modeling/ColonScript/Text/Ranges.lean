/-!
# Ranges of code points

A property of characters is kept as a list of inclusive ranges of code points.
-/

namespace ColonScript
namespace Text

/-- Tests whether a character lies in one of the inclusive ranges. -/
def inRanges (ranges : List (Nat × Nat)) (c : Char) : Bool :=
  ranges.any fun range => range.1 ≤ c.toNat && c.toNat ≤ range.2

/-- Membership in a table of ranges is membership in one of its rows. -/
theorem inRanges_eq_true_iff
    {ranges : List (Nat × Nat)} {c : Char} :
    inRanges ranges c = true ↔
      ∃ range ∈ ranges, range.1 ≤ c.toNat ∧ c.toNat ≤ range.2 := by
  simp [inRanges]

end Text
end ColonScript
