import ModuleBundler.Text.Ranges

/-!
# Blanks

The white space of the Unicode standard: what a source text may hold between two tokens, and what
is cut from both ends of a setting.
-/

namespace ModuleBundler.Text

/-- Code points with the property `White_Space`. -/
def blankRanges : List (Nat × Nat) :=
  [(0x9, 0xD), (0x20, 0x20), (0x85, 0x85), (0xA0, 0xA0), (0x1680, 0x1680), (0x2000, 0x200A),
    (0x2028, 0x2029), (0x202F, 0x202F), (0x205F, 0x205F), (0x3000, 0x3000)]

/-- Whether `c` is white space. -/
def isBlank (c : Char) : Bool := inRanges blankRanges c.toNat

/-- `s` without the blanks at its start. -/
def trimStart (s : List Char) : List Char := s.dropWhile isBlank

/-- `s` without the blanks at its end. -/
def trimEnd (s : List Char) : List Char := (s.reverse.dropWhile isBlank).reverse

/-- `s` without the blanks at its two ends. -/
def trim (s : List Char) : List Char := trimEnd (trimStart s)

end ModuleBundler.Text
