/-
# Digits

A decimal digit of any script counts as that digit when a number is read.  The wider class
of digits also holds superscripts and circled digits, which no number may contain.
-/
import Keyscope.Text.Basic

namespace Keyscope

namespace CodePoint

/-- The zero of every script that has decimal digits.  The other nine digits follow it
directly (Unicode 14.0, property `Nd`). -/
def decimalZeros : List Nat := [
  48, 1632, 1776, 1984, 2406, 2534, 2662, 2790, 2918, 3046, 3174, 3302,
  3430, 3558, 3664, 3792, 3872, 4160, 4240, 6112, 6160, 6470, 6608, 6784,
  6800, 6992, 7088, 7232, 7248, 42528, 43216, 43264, 43472, 43504, 43600, 44016,
  65296, 66720, 68912, 69734, 69872, 69942, 70096, 70384, 70736, 70864, 71248, 71360,
  71472, 71904, 72016, 72784, 73040, 73120, 92768, 92864, 93008, 120782, 120792, 120802,
  120812, 120822, 123200, 123632, 125264, 130032]

/-- The digits that are not decimal digits: first and last of each run. -/
def otherDigits : List (Nat × Nat) := [
  (178, 179), (185, 185), (4969, 4977), (6618, 6618), (8304, 8304), (8308, 8313), (8320, 8329),
  (9312, 9320), (9332, 9340), (9352, 9360), (9450, 9450), (9461, 9469), (9471, 9471), (10102, 10110),
  (10112, 10120), (10122, 10130), (68160, 68163), (69216, 69224), (69714, 69722), (127232, 127242)]

/-- The value of a decimal digit of any script. -/
def decimalDigit? (c : CodePoint) : Option Nat :=
  (decimalZeros.find? fun z => z ≤ c.val && c.val < z + 10).map (c.val - ·)

/-- A digit in the wide sense, superscripts and the like included. -/
def isDigit (c : CodePoint) : Bool :=
  c.decimalDigit?.isSome || otherDigits.any fun (first, last) => first ≤ c.val && c.val ≤ last

end CodePoint

/-- A text of digits, in the wide sense, with at least one of them. -/
def Text.isDigits (t : Text) : Bool := !t.isEmpty && t.all CodePoint.isDigit

end Keyscope
