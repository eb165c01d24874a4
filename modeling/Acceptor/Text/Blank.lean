import Acceptor.Text.CharSet

/-!
# Blank characters

`Text.isBlank` holds of the characters that separate tokens: the Unicode white space together
with the four information separators.
-/

namespace Acceptor

namespace Text

/-- The characters that separate tokens. -/
def blanks : CharSet where
  ranges :=
   [(0x9, 0xD), (0x1C, 0x20), (0x85, 0x85), (0xA0, 0xA0), (0x1680, 0x1680), (0x2000, 0x200A),
    (0x2028, 0x2029), (0x202F, 0x202F), (0x205F, 0x205F), (0x3000, 0x3000)]

/-- `c` separates tokens. -/
def isBlank (c : Char) : Bool := blanks.contains c

end Text

end Acceptor
