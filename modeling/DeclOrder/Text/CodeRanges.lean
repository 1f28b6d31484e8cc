/-!
# Sets of code points

A class of characters is a list of inclusive ranges of code points, in ascending order.
-/

namespace DeclOrder

/-- A set of code points, as inclusive ranges. -/
abbrev CodeRanges := List (Nat × Nat)

namespace CodeRanges

def has (ranges : CodeRanges) (c : Char) : Bool :=
  ranges.any fun range => range.1 ≤ c.toNat && c.toNat ≤ range.2

theorem has_iff {ranges : CodeRanges} {c : Char} :
    ranges.has c = true ↔ ∃ range ∈ ranges, range.1 ≤ c.toNat ∧ c.toNat ≤ range.2 := by
  simp [has]

end CodeRanges

end DeclOrder
