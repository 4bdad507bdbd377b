import Wordcode.Text.Ranges

/-!
# Blank characters

The characters of the Unicode property White_Space: 25 of them, six in ASCII. `trim` removes them
from both ends of a text.
-/

namespace Wordcode.Text

def blankRanges : Ranges := [
  (0x9, 0xd), (0x20, 0x20), (0x85, 0x85), (0xa0, 0xa0), (0x1680, 0x1680), (0x2000, 0x200a),
  (0x2028, 0x2029), (0x202f, 0x202f), (0x205f, 0x205f), (0x3000, 0x3000)]

def isBlank (c : Char) : Bool := blankRanges.has c

/-- A text without the blanks at either end. -/
def trim (cs : List Char) : List Char :=
  ((cs.dropWhile isBlank).reverse.dropWhile isBlank).reverse

end Wordcode.Text
