/-!
# Ranges of code points

A class of characters outside ASCII is a table of closed ranges of code points. Membership is the
only question asked of a table, so the tables need no order and no search structure. All tables are
those of version 16.0 of the Unicode standard.
-/

namespace ModuleBundler.Text

/-- Whether the code point `n` lies in one of the closed ranges `ranges`. -/
def inRanges (ranges : List (Nat × Nat)) (n : Nat) : Bool :=
  ranges.any fun r => r.1 ≤ n && n ≤ r.2

/-- Whether `c` is an ASCII character. -/
def isAscii (c : Char) : Bool := c.toNat < 0x80

theorem inRanges_eq_true_iff {ranges : List (Nat × Nat)} {n : Nat} :
    inRanges ranges n = true ↔ ∃ r ∈ ranges, r.1 ≤ n ∧ n ≤ r.2 := by
  simp [inRanges]

end ModuleBundler.Text
