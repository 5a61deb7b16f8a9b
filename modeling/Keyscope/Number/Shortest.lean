/-
# The shortest decimal of a binary number

A finite number is written with the fewest decimal digits that read back as it, and among
those with the ones nearest to it.  On the grid of `k`-digit decimals only the two neighbours of
the number can be nearest, so `k = 1, 2, ..` is tried until one of the two lies in the
interval of reals that round to the number.
-/
import Keyscope.Number.Binary64
import Keyscope.Number.Decimal

namespace Keyscope

namespace Shortest

/-! ## 1. The interval and the grid -/

/-- Exact order of `a · 2 ^ i` and `b · 10 ^ j`. -/
def compareScaled (a : Nat) (i : Int) (b : Nat) (j : Int) : Ordering :=
  compare (a * twoTo i * tenTo (-j)) (b * tenTo j * twoTo (-i))

/-- Whether the decimal `c · 10 ^ x` reads as `m · 2 ^ q`: it lies between the midpoints to
the two neighbours, which belong to the number with the even significand. -/
def readsAs (m : Nat) (q : Int) (c : Nat) (x : Int) : Bool :=
  let below := if m = twoTo 52 ∧ -1074 < q then 4 * m - 1 else 4 * m - 2
  let closed := m % 2 == 0
  let low := compareScaled below (q - 2) c x
  let high := compareScaled (4 * m + 2) (q - 2) c x
  (low == .lt || (closed && low == .eq)) && (high == .gt || (closed && high == .eq))

/-- The exponent `e` with `10 ^ (e - 1) ≤ n / d < 10 ^ e`, for positive numbers.  It is the number of
digits in front of the point, or follows from that of `d / n`. -/
def decimalExponent (n d : Nat) : Int :=
  if d ≤ n then (Nat.toDigits 10 (n / d)).length
  else
    let size := (Nat.toDigits 10 (d / n)).length
    if n * tenTo (size - 1) = d then 2 - size else 1 - size

/-- The grid point of `10 ^ x` below or at `n / d`, and whether it is at it. -/
def floorOnGrid (n d : Nat) (x : Int) : Nat × Bool :=
  let a := n * tenTo (-x)
  let b := d * tenTo x
  (a / b, a % b == 0)

/-- The `k`-digit decimal nearest to the number that reads as it, as coefficient and
exponent; of two at the same distance the even coefficient. -/
def onGrid? (m : Nat) (q : Int) (e : Int) (k : Nat) : Option (Nat × Int) :=
  let (n, d) := Binary64.ratio m q
  let x := e - k
  let (c, exact) := floorOnGrid n d x
  if exact then some (c, x)
  else
    match readsAs m q c x, readsAs m q (c + 1) x with
    | false, false => none
    | true, false => some (c, x)
    | false, true => some (c + 1, x)
    | true, true =>
      match compareScaled (2 * m) q (2 * c + 1) x with
      | .lt => some (c, x)
      | .gt => some (c + 1, x)
      | .eq => some (if c % 2 = 0 then c else c + 1, x)

/-- Coefficient and exponent of the shortest decimal of `m · 2 ^ q`, for `m` not zero.
Seventeen digits always suffice. -/
def decimal (m : Nat) (q : Int) : Nat × Int :=
  let (n, d) := Binary64.ratio m q
  let e := decimalExponent n d
  ((List.range 17).findSome? fun k => onGrid? m q e (k + 1)).getD (n / d, 0)

/-! ## 2. Writing it -/

/-- The digits without zeros at the end, and the exponent `e` with value `0.digits · 10 ^ e`. -/
def significant (c : Nat) (x : Int) : Text × Int :=
  let ds := Decimal.ofNat c
  ((ds.reverse.dropWhile (· = ('0' : CodePoint))).reverse, ds.length + x)

/-- How a shortest decimal is laid out: positionally when its decimal exponent lies in a
range, with an exponent of at least so many digits otherwise. -/
structure Layout where
  /-- Smallest `e`, of `d.ddd · 10 ^ e`, that is written positionally. -/
  leastPositional : Int
  /-- First `e` above that is not. -/
  leastLarge : Int
  /-- Digits of an exponent, at least. -/
  exponentDigits : Nat

/-- Positional from `0.0001` up to below `10 ^ 16`; exponents have a sign and two digits. -/
def layout : Layout := ⟨-4, 16, 2⟩

/-- Lays out `0.digits · 10 ^ point`.  A positional number always has a point with a digit
after it. -/
def Layout.write (l : Layout) (digits : Text) (point : Int) : Text :=
  let e := point - 1
  if l.leastPositional ≤ e ∧ e < l.leastLarge then
    if point ≤ 0 then "0." ++ Text.replicate (-point).toNat '0' ++ digits
    else
      let whole := digits.take point.toNat
      let rest := digits.drop point.toNat
      whole ++ Text.replicate (point.toNat - whole.length) '0' ++ "." ++ (if rest.isEmpty then ↑"0" else rest)
  else
    let fraction : Text := if digits.length ≤ 1 then [] else '.' :: digits.drop 1
    digits.take 1 ++ fraction ++ "e" ++ (if e < 0 then "-" else "+") ++
      Decimal.padded l.exponentDigits e.natAbs

end Shortest

/-- The text of a number: the shortest decimal that reads back as it. -/
def Binary64.toText : Binary64 → Text
  | nan => "nan"
  | infinite s => Decimal.sign s ++ "inf"
  | finite s m q =>
    if m = 0 then Decimal.sign s ++ "0.0"
    else
      let (c, x) := Shortest.decimal m q
      let (digits, point) := Shortest.significant c x
      Decimal.sign s ++ Shortest.layout.write digits point

end Keyscope
