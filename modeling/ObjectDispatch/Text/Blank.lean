import ObjectDispatch.Text.Ranges

/-!
# Blank characters

List text separates words by blanks, so a word that holds a blank has to be
quoted.  Blank means the Unicode property `White_Space`: 25 code points, most of
them outside ASCII.

## Main definitions

* `blankRanges` — the property as a table of ranges.
* `isBlank c` — membership of a character in the table.

## Main results

* `isBlank_of_isWhitespace` — the four ASCII blanks that core knows are in it.
-/

namespace ObjectDispatch

/-- The code points with the property `White_Space`, as ranges with both ends
included. -/
def blankRanges : List (Nat × Nat) :=
  [(0x9, 0xD), (0x20, 0x20), (0x85, 0x85), (0xA0, 0xA0), (0x1680, 0x1680), (0x2000, 0x200A),
    (0x2028, 0x2029), (0x202F, 0x202F), (0x205F, 0x205F), (0x3000, 0x3000)]

/-- A character is blank when its code point lies in one of the ranges. -/
def isBlank (c : Char) : Bool := inRanges blankRanges c.toNat

/-- The blanks of core are blank here as well. -/
theorem isBlank_of_isWhitespace {c : Char} (h : c.isWhitespace = true) : isBlank c = true := by
  simp only [Char.isWhitespace, Bool.or_eq_true, decide_eq_true_eq] at h
  rcases h with ((rfl | rfl) | rfl) | rfl <;> decide

end ObjectDispatch
