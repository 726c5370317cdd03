import BoundSql.Text.Ranges

/-!
# White space

The twenty-five characters with the Unicode property White_Space: the ASCII controls U+0009 to
U+000D, the space, and the separators beyond ASCII. Every trimming and splitting rule of the
library, and the white-space class of patterns, uses this set.
-/

namespace BoundSql.Text

/-- Code points with the property White_Space. -/
def whiteSpaceRanges : List Range :=
  [(0x9, 0xD), (0x20, 0x20), (0x85, 0x85), (0xA0, 0xA0), (0x1680, 0x1680), (0x2000, 0x200A),
   (0x2028, 0x2029), (0x202F, 0x202F), (0x205F, 0x205F), (0x3000, 0x3000)]

/-- Whether a character has the property White_Space. -/
def isWhiteSpace (c : Char) : Bool := inRanges whiteSpaceRanges c.toNat

theorem sorted_whiteSpaceRanges : Sorted whiteSpaceRanges := by
  simp [Sorted, whiteSpaceRanges]

end BoundSql.Text
