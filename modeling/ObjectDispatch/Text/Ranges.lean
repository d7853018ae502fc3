/-!
# Sets of numbers as ranges

Properties of characters are given as tables: lists of ranges of code points, in
ascending order.

## Main definitions

* `inRanges rs n` — membership of a number in one of the ranges.

## Main results

* `inRanges_iff` — what membership means.
-/

namespace ObjectDispatch

/-- The number lies in one of the ranges, whose ends belong to them. -/
def inRanges (rs : List (Nat × Nat)) (n : Nat) : Bool :=
  rs.any fun r => decide (r.1 ≤ n) && decide (n ≤ r.2)

/-- A number is a member when some range has it between its ends. -/
theorem inRanges_iff {rs : List (Nat × Nat)} {n : Nat} :
    inRanges rs n = true ↔ ∃ r ∈ rs, r.1 ≤ n ∧ n ≤ r.2 := by
  simp [inRanges]

end ObjectDispatch
