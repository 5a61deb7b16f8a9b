/-
# Decimal digits of whole numbers
-/
import Keyscope.Text.Basic

namespace Keyscope

namespace Decimal

/-- The decimal digits of a number, most significant first; `0` has one. -/
def ofNat (n : Nat) : Text := (Nat.toDigits 10 n).map CodePoint.ofChar

/-- A minus sign, or nothing. -/
def sign (negative : Bool) : Text := if negative then "-" else []

/-- The decimal text of a whole number: a minus sign when it is negative, and its digits. -/
def ofInt (n : Int) : Text := sign (n < 0) ++ ofNat n.natAbs

/-- The number that ASCII digits spell; the empty text spells `0`. -/
def value (ds : Text) : Nat := ds.foldl (fun n c => 10 * n + (c.val - 48)) 0

/-- The digits with zeros in front up to the width. -/
def padded (width n : Nat) : Text :=
  let ds := ofNat n
  Text.replicate (width - ds.length) '0' ++ ds

/-- Digits in groups of three from the right, a comma between groups. -/
def group (ds : Text) : Text :=
  let rec fromRight : Nat → Text → Text
    | _, [] => []
    | 0, c :: cs => c :: fromRight 1 cs
    | n + 1, c :: cs => if (n + 1) % 3 = 0 then ',' :: c :: fromRight (n + 2) cs else c :: fromRight (n + 2) cs
  (fromRight 0 ds.reverse).reverse

/-- The decimal text with a comma between groups of three digits. -/
def grouped (n : Int) : Text := sign (n < 0) ++ group (ofNat n.natAbs)

/-- Digits of a number in base sixteen, small letters, zeros in front up to the width. -/
def hex (width n : Nat) : Text :=
  let ds : Text := (Nat.toDigits 16 n).map CodePoint.ofChar
  Text.replicate (width - ds.length) '0' ++ ds

/-- Digits of a number in base sixteen, large letters, zeros in front up to the width. -/
def hexUpper (width n : Nat) : Text :=
  (hex width n).map fun c => if 97 ≤ c.val then .ofNat (c.val - 32) else c

end Decimal

end Keyscope
