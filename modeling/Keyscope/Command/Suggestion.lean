/-
# Suggestions

A word that is not known may be meant for one that is.  Two words are close if most of their
characters match: the longest common part, and then the longest common parts before and after it.
-/
import Keyscope.Text.Basic

namespace Keyscope

namespace Suggestion

/-- The length of the common front of two texts. -/
def commonFront : Text → Text → Nat
  | c :: t, d :: u => if c = d then commonFront t u + 1 else 0
  | _, _ => 0

/-- The longest common part, as its two positions and its length: the first one in the first
text, and the first one in the second. -/
def longestCommon (a b : Text) : Nat × Nat × Nat :=
  (List.range a.length).foldl (fun best i =>
    (List.range b.length).foldl (fun best j =>
      let n := commonFront (a.drop i) (b.drop j)
      if best.2.2 < n then (i, j, n) else best) best) (0, 0, 0)

/-- How many characters match.  The number bounds the steps. -/
def matching : Nat → Text → Text → Nat
  | 0, _, _ => 0
  | steps + 1, a, b =>
    let (i, j, n) := longestCommon a b
    if n = 0 then 0
    else matching steps (a.take i) (b.take j) + n + matching steps (a.drop (i + n)) (b.drop (j + n))

/-- Twice the number of matching characters, and the number of all characters. -/
def similarity (a b : Text) : Nat × Nat :=
  (2 * matching (a.length + 1) a b, a.length + b.length)

/-- Whether so many of all characters match that at least three fifths do. -/
def isMost (n d : Nat) : Bool := d * 3 ≤ n * 5

/-- At least three fifths of the characters match.  No more can match than the shorter text has. -/
def isClose (a b : Text) : Bool :=
  isMost (2 * min a.length b.length) (a.length + b.length) &&
    isMost (similarity a b).1 (similarity a b).2

/-- Whether the first word is closer to a text, or as close and not smaller. -/
def isCloser (t a b : Text) : Bool :=
  let (m, c) := similarity a t
  let (n, d) := similarity b t
  n * c < m * d || (n * c = m * d && Text.le b a)

/-- The known words that are close, at most the three closest ones, in ascending order. -/
def closeTo (known : List Text) (t : Text) : List Text :=
  Text.sort (((known.filter fun w => isClose w t).mergeSort (isCloser t)).take 3)

end Suggestion

end Keyscope
