/-
# Reading numbers

Numbers arrive as text: cursors, ports, lifetimes, telemetry columns.  Two readers cover them.

* `Numeral.integer`: an optional sign and decimal digits, at most 4300 of them.
* `Numeral.real`: digits, a point, an exponent; or `inf`, `infinity`, `nan` in any case.

Both allow blanks at the two ends, single underscores between digits, and the decimal digits
of every script.
-/
import Keyscope.Text.Blank
import Keyscope.Text.Digit
import Keyscope.Number.Binary64
import Keyscope.Number.Decimal

namespace Keyscope

namespace Numeral

/-! ## 1. Digits and blanks of other scripts -/

/-- ASCII forms of blanks and decimal digits; reading stops at the first code point that is
neither, which is put down as `?`. -/
def fold : Text → Text
  | [] => []
  | c :: t =>
    if c.val < 127 then c :: fold t
    else if c.isBlank then ' ' :: fold t
    else
      match c.decimalDigit? with
      | some d => .ofNat (48 + d) :: fold t
      | none => ['?']

/-- A text as the readers see it.  Pure ASCII stays as it is. -/
def plain (t : Text) : Text := if t.all (·.val < 128) then t else fold t

/-- A sign in front, and the rest. -/
def sign : Text → Bool × Text
  | c :: t => if c = '-' then (true, t) else if c = '+' then (false, t) else (false, c :: t)
  | [] => (false, [])

/-! ## 2. Whole numbers -/

/-- Why a text is no whole number. -/
inductive Refusal where
  | malformed
  | tooLong (digits : Nat)
  deriving DecidableEq, Repr

/-- The largest number of digits that is read or written. -/
def maxDigits : Nat := 4300

/-- An ASCII digit or an underscore. -/
def inRun (c : CodePoint) : Bool := c.isAsciiDigit || c = '_'

/-- Digits with single underscores between them: every underscore has a digit on both sides. -/
def isDigitRun : Text → Bool
  | [] => false
  | [c] => c.isAsciiDigit
  | c :: d :: t =>
    c.isAsciiDigit && (if d = '_' then isDigitRun t else isDigitRun (d :: t))

/-- The whole number that a folded text spells. -/
def integerOf (t : Text) : Except Refusal Int :=
  let (negative, t) := sign (t.dropWhile CodePoint.isAsciiBlank)
  let run := t.takeWhile inRun
  let rest := t.dropWhile inRun
  let digits := run.filter CodePoint.isAsciiDigit
  if !isDigitRun run then .error .malformed
  else if maxDigits < digits.length then .error (.tooLong digits.length)
  else if rest.all CodePoint.isAsciiBlank then
    .ok (if negative then -(Decimal.value digits : Int) else Decimal.value digits)
  else .error .malformed

/-- The whole number that a text spells. -/
def integer (t : Text) : Except Refusal Int := integerOf (plain t)

/-! ## 3. Real numbers -/

/-- Drops underscores that stand between digits; `none` if one stands elsewhere. -/
def dropUnderscores : Bool → Text → Option Text
  | _, [] => some []
  | afterDigit, c :: t =>
    if c = '_' then
      match t with
      | d :: _ => if afterDigit && d.isAsciiDigit then dropUnderscores false t else none
      | [] => none
    else (dropUnderscores c.isAsciiDigit t).map (c :: ·)

/-- More digits than the middle between two neighbouring numbers of the format can have. -/
def enoughDigits : Nat := 800

/-- A value `± m · 10 ^ e` by the digits of `m`, the first of which is not zero.  Far outside the
range of the format the digits do not matter.  What is left out of a long number can only tell it
from the middle between two neighbours, and one more digit does so too. -/
def realOfDigits (negative : Bool) (digits : Text) (e : Int) : Binary64 :=
  let n := digits.length
  if n + e < -400 then .ofRatio negative 0 1
  else if 400 < n + e then .infinite negative
  else if n ≤ enoughDigits then .ofDecimal negative (Decimal.value digits) e
  else
    let last := if (digits.drop enoughDigits).all (· = ('0' : CodePoint)) then 0 else 1
    .ofDecimal negative (10 * Decimal.value (digits.take enoughDigits) + last)
      (e + n - enoughDigits - 1)

/-- A value `± m · 10 ^ e` by the digits of `m`. -/
def realOf (negative : Bool) (digits : Text) (e : Int) : Binary64 :=
  let digits := digits.dropWhile (· = ('0' : CodePoint))
  if digits.isEmpty then .ofRatio negative 0 1 else realOfDigits negative digits e

/-- The number of an exponent.  From twenty digits on it is beyond what any digits can make up for. -/
def exponentValue (digits : Text) : Nat :=
  Decimal.value ((digits.dropWhile (· = ('0' : CodePoint))).take 20)

/-- An exponent mark with its number, up to the end of the text. -/
def exponent? : Text → Option Int
  | [] => some 0
  | c :: t =>
    if c = 'e' ∨ c = 'E' then
      let (negative, ds) := sign t
      if ds.isEmpty || !ds.all CodePoint.isAsciiDigit then none
      else some (if negative then -(exponentValue ds : Int) else exponentValue ds)
    else none

/-- Unsigned digits with at most one point and at most one exponent. -/
def unsigned? (negative : Bool) (t : Text) : Option Binary64 :=
  let whole := t.takeWhile CodePoint.isAsciiDigit
  let rest := t.dropWhile CodePoint.isAsciiDigit
  let (fraction, rest) :=
    match rest with
    | c :: u =>
      if c = '.' then (u.takeWhile CodePoint.isAsciiDigit, u.dropWhile CodePoint.isAsciiDigit)
      else ([], rest)
    | [] => ([], [])
  if whole.isEmpty && fraction.isEmpty then none
  else (exponent? rest).map fun e => realOf negative (whole ++ fraction) (e - fraction.length)

/-- The number that a folded text spells. -/
def realOfPlain (t : Text) : Option Binary64 :=
  (dropUnderscores false (Text.stripAscii t)).bind fun t =>
    let (negative, t) := sign t
    let word := Text.asciiLower t
    if word = "inf" ∨ word = "infinity" then some (.infinite negative)
    else if word = "nan" then some .nan
    else unsigned? negative t

/-- The number that a text spells. -/
def real (t : Text) : Option Binary64 := realOfPlain (plain t)

end Numeral

end Keyscope
