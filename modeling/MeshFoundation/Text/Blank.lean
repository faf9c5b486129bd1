/-!
# Blank characters

The characters with the Unicode property `White_Space`, and the removal of such
characters from both ends of a text. A payload on the command line may be
surrounded by any of them.
-/

set_option autoImplicit false

namespace MeshFoundation.Text

/-- The property `White_Space`: twenty-five characters, six of them ASCII. -/
def isBlank (c : Char) : Bool :=
  let n := c.toNat
  (9 ≤ n && n ≤ 13) || n == 0x20 || n == 0x85 || n == 0xA0 || n == 0x1680 ||
    (0x2000 ≤ n && n ≤ 0x200A) || n == 0x2028 || n == 0x2029 || n == 0x202F ||
    n == 0x205F || n == 0x3000

/-- A text without the blanks at its two ends. -/
def trim (cs : List Char) : List Char :=
  ((cs.dropWhile isBlank).reverse.dropWhile isBlank).reverse

end MeshFoundation.Text
