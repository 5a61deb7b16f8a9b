/-
# White space

Two notions of white space meet here.  Names and hosts lose the blanks of Unicode at both
ends; numbers lose only the six blanks of ASCII.
-/
import Keyscope.Text.Basic

namespace Keyscope

namespace CodePoint

/-- White space: the blanks of Unicode together with the separators `U+001C .. U+001F`. -/
def isBlank (c : CodePoint) : Bool :=
  let n := c.val
  (9 ≤ n && n ≤ 13) || (28 ≤ n && n ≤ 32) || n == 0x85 || n == 0xA0 || n == 0x1680 ||
    (0x2000 ≤ n && n ≤ 0x200A) || n == 0x2028 || n == 0x2029 || n == 0x202F || n == 0x205F ||
    n == 0x3000

/-- Space, tab, line feed, vertical tab, form feed, carriage return. -/
def isAsciiBlank (c : CodePoint) : Bool := (9 ≤ c.val && c.val ≤ 13) || c.val == 32

end CodePoint

namespace Text

/-- Drops the code points with the property from both ends. -/
def trim (p : CodePoint → Bool) (t : Text) : Text :=
  ((t.dropWhile p).reverse.dropWhile p).reverse

/-- Without the white space at its two ends. -/
def strip (t : Text) : Text := trim CodePoint.isBlank t

/-- Without the ASCII white space at its two ends. -/
def stripAscii (t : Text) : Text := trim CodePoint.isAsciiBlank t

end Text

end Keyscope
