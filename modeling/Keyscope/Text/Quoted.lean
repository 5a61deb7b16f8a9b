/-
# Quoted text

Messages show a text or a byte string between quotes, so that blanks, controls and the quotes
themselves can be told apart.  The quote is a single one unless the text holds single quotes and
no double ones.
-/
import Keyscope.Text.Utf8
import Keyscope.Text.Printable
import Keyscope.Number.Decimal

namespace Keyscope

namespace Quoted

/-- The quote that needs the fewest escapes. -/
def quoteFor (t : Text) : CodePoint :=
  if t.contains ('\'' : CodePoint) && !t.contains ('"' : CodePoint) then '"' else '\''

/-- A code point by number: two, four or eight digits. -/
def numbered (c : CodePoint) : Text :=
  if c.val ≤ 0xFF then "\\x" ++ Decimal.hex 2 c.val
  else if c.val ≤ 0xFFFF then "\\u" ++ Decimal.hex 4 c.val
  else "\\U" ++ Decimal.hex 8 c.val

/-- One code point between quotes. -/
def point (quote c : CodePoint) : Text :=
  if c = quote ∨ c = '\\' then ['\\', c]
  else if c = '\n' then "\\n"
  else if c = '\r' then "\\r"
  else if c = '\t' then "\\t"
  else if c.isPrintable then [c]
  else numbered c

/-- The text between quotes. -/
def text (t : Text) : Text :=
  let quote := quoteFor t
  quote :: t.flatMap (point quote) ++ [quote]

/-- One byte between quotes; only printable ASCII is shown as it is. -/
def byte (escaped : CodePoint) (b : UInt8) : Text :=
  let c := CodePoint.ofNat b.toNat
  if c.val < 0x7F then point escaped c else numbered c

/-- The quote for a byte string. -/
def quoteForBytes (bs : Bytes) : CodePoint := quoteFor (bs.map fun b => CodePoint.ofNat b.toNat)

/-- The byte string between quotes, marked with `b`. -/
def bytes (bs : Bytes) : Text :=
  let quote := quoteForBytes bs
  "b" ++ quote :: bs.flatMap (byte quote) ++ [quote]

/-- A byte string that can be changed.  The single quote is escaped between either quotes. -/
def buffer (bs : Bytes) : Text :=
  let quote := quoteForBytes bs
  "bytearray(b" ++ quote :: bs.flatMap (byte '\'') ++ [quote] ++ ")"

end Quoted

end Keyscope
