/-
# Fixed places

Amounts in reports have a fixed number of decimal places.  The exact value is rounded once, a
half to the even neighbour; a zero keeps its sign.
-/
import Keyscope.Number.Binary64
import Keyscope.Number.Decimal

namespace Keyscope

/-- Digits of `units · 10 ^ -places` with exactly that many places. -/
def Decimal.withPlaces (places units : Nat) : Text :=
  let whole := Decimal.ofNat (units / tenTo places)
  if places = 0 then whole
  else whole ++ "." ++ Decimal.padded places (units % tenTo places)

namespace Binary64

/-- The nearest multiple of `10 ^ -places`, counted in those units. -/
def units (places m : Nat) (q : Int) : Nat :=
  let (n, d) := ratio m q
  roundDiv (n * tenTo places) d

/-- The number with a fixed number of places. -/
def fixed (places : Nat) : Binary64 → Text
  | nan => "nan"
  | infinite s => Decimal.sign s ++ "inf"
  | finite s m q => Decimal.sign s ++ Decimal.withPlaces places (units places m q)

/-- The number nearest to the given one rounded to so many decimal places. -/
def roundPlaces (places : Nat) : Binary64 → Binary64
  | finite s m q => ofRatio s (units places m q) (tenTo places)
  | x => x

end Binary64

end Keyscope
