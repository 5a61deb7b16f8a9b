/-
# Text

Key names are byte strings that only usually are UTF-8.  A name that is not still has to be
shown, sorted and sent back, so text here is a list of code points that may hold surrogates:
the escape `U+DC80 .. U+DCFF` of an undecodable byte is one.  `String` cannot hold those.

The order of text is the order of its code points, first difference first (`Text.before`).
-/

namespace Keyscope

/-- A Unicode code point, surrogates included. -/
abbrev CodePoint := Fin 0x110000

/-- A finite sequence of code points. -/
abbrev Text := List CodePoint

namespace CodePoint

/-! ## 1. Single code points -/

/-- The code point of a character. -/
def ofChar (c : Char) : CodePoint :=
  ⟨c.toNat, by
    have h := c.valid
    simp only [UInt32.isValidChar, Nat.isValidChar] at h
    simp only [Char.toNat]
    omega⟩

instance : Coe Char CodePoint := ⟨ofChar⟩

@[simp] theorem val_ofChar (c : Char) : (ofChar c).val = c.toNat := rfl

/-- The code point of a number; one beyond the last code point becomes `U+FFFD`. -/
def ofNat (n : Nat) : CodePoint := if h : n < 0x110000 then ⟨n, h⟩ else ⟨0xFFFD, by decide⟩

/-- `U+0000`, which no path can hold. -/
def nul : CodePoint := ofNat 0

/-- `U+D800 .. U+DFFF`: a code point that no encoding form gives a place of its own. -/
def isSurrogate (c : CodePoint) : Bool := 0xD800 ≤ c.val && c.val < 0xE000

/-- The character `c` stands for.  A surrogate stands for none. -/
def toChar? (c : CodePoint) : Option Char :=
  if h : c.val.isValidChar then some (Char.ofNatAux c.val h) else none

/-- ASCII `0 .. 9`. -/
def isAsciiDigit (c : CodePoint) : Bool := 48 ≤ c.val && c.val ≤ 57

/-- The value of a digit in base sixteen, either case; ASCII only. -/
def hexDigit? (c : CodePoint) : Option Nat :=
  if 48 ≤ c.val && c.val ≤ 57 then some (c.val - 48)
  else if 97 ≤ c.val && c.val ≤ 102 then some (c.val - 87)
  else if 65 ≤ c.val && c.val ≤ 70 then some (c.val - 55)
  else none

/-- The ASCII letter `A .. Z` becomes its small letter; every other code point stays. -/
def asciiLower (c : CodePoint) : CodePoint :=
  if 65 ≤ c.val ∧ c.val ≤ 90 then ofNat (c.val + 32) else c

end CodePoint

namespace Text

/-! ## 2. Literals and joins -/

/-- The code points of a string. -/
def ofString (s : String) : Text := s.toList.map CodePoint.ofChar

instance : Coe String Text := ⟨ofString⟩

/-- The string with these code points; a surrogate, which no string holds, becomes `U+FFFD`. -/
def toString (t : Text) : String := String.ofList (t.map fun c => c.toChar?.getD '\uFFFD')

/-- The same code point, so many times. -/
def replicate (n : Nat) (c : CodePoint) : Text := List.replicate n c

/-- Joins the pieces, `separator` between each two. -/
def joinWith (separator : Text) : List Text → Text
  | [] => []
  | [t] => t
  | t :: u :: ts => t ++ separator ++ joinWith separator (u :: ts)

/-- One line per piece. -/
def unlines (ts : List Text) : Text := joinWith ['\n'] ts

/-- The part before the first `c`, and, if there is a `c`, the part after it. -/
def splitFirst (c : CodePoint) : Text → Text × Option Text
  | [] => ([], none)
  | d :: t =>
    if d = c then ([], some t)
    else
      let (before, after) := splitFirst c t
      (d :: before, after)

/-- All parts between the occurrences of `c`; one part more than there are occurrences. -/
def splitAll (c : CodePoint) : Text → List Text
  | [] => [[]]
  | d :: t =>
    match splitAll c t with
    | [] => [[]]
    | part :: parts => if d = c then [] :: part :: parts else (d :: part) :: parts

/-- Whether the text starts with the given one. -/
def startsWith (t u : Text) : Bool := u.isPrefixOf t

/-- Small ASCII letters for large ones. -/
def asciiLower (t : Text) : Text := t.map CodePoint.asciiLower

/-! ## 3. Order -/

/-- Whether the first text comes first: it has the smaller code point at the first difference, or
it ends there. -/
def before : Text → Text → Bool
  | [], u => !u.isEmpty
  | _ :: _, [] => false
  | c :: t, d :: u => c.val < d.val || (c = d && before t u)

/-- Whether the first text may stand in front of the second. -/
def le (t u : Text) : Bool := !before u t

/-- Ascending code-point order; equal texts keep their places. -/
def sort (ts : List Text) : List Text := ts.mergeSort le

/-- Ascending order of pairs: by the first text, and by the second where the first are equal. -/
def pairLe (a b : Text × Text) : Bool := before a.1 b.1 || (le a.1 b.1 && le a.2 b.2)

/-- Pairs in ascending order. -/
def sortPairs (ps : List (Text × Text)) : List (Text × Text) := ps.mergeSort pairLe

/-! ## 4. Line ends -/

/-- Every line end becomes a line feed: a carriage return, alone or before a line feed. -/
def universalNewlines : Text → Text
  | [] => []
  | c :: t =>
    if c.val = 13 then
      match t with
      | [] => ['\n']
      | d :: u => if d.val = 10 then '\n' :: universalNewlines u else '\n' :: universalNewlines (d :: u)
    else c :: universalNewlines t

end Text

end Keyscope
