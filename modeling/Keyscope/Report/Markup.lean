/-
# Markup

Reports are written with markup: words in square brackets that change how the text after them
looks.  Text that was stored by somebody else is escaped, so that it is shown as it is.
-/
import Keyscope.Text.Basic

namespace Keyscope

namespace Markup

/-- What markup may start with behind its bracket. -/
def isStart (c : CodePoint) : Bool := (97 ≤ c.val && c.val ≤ 122) || c = '#' || c = '/' || c = '@'

/-- The rest of markup up to its closing bracket; there is no opening one before it. -/
def closing? : Text → Option (Text × Text)
  | [] => none
  | c :: t =>
    if c = ']' then some ([c], t)
    else if c = '[' then none
    else (closing? t).map fun (inside, rest) => (c :: inside, rest)

/-- Markup at the front of a text, and what follows it. -/
def group? : Text → Option (Text × Text)
  | a :: b :: t =>
    if a = '[' && isStart b then (closing? t).map fun (inside, rest) => (a :: b :: inside, rest)
    else none
  | _ => none

/-- So many backslashes. -/
def backslashes (n : Nat) : Text := Text.replicate n '\\'

/-- A text with its markup escaped, after so many backslashes: each of them is written twice, and
one more in front of the markup.  The first number bounds the steps. -/
def escapeFrom : Nat → Nat → Text → Text
  | 0, n, t => backslashes n ++ t
  | steps + 1, n, t =>
    match group? t with
    | some (group, rest) => backslashes (2 * n + 1) ++ group ++ escapeFrom steps 0 rest
    | none =>
      match t with
      | [] => backslashes n
      | c :: u =>
        if c = '\\' then escapeFrom steps (n + 1) u
        else backslashes n ++ c :: escapeFrom steps 0 u

/-- Whether the text ends in one backslash and not in two. -/
def endsInBackslash (t : Text) : Bool :=
  match t.reverse with
  | c :: d :: _ => c = '\\' && d != '\\'
  | [c] => c = '\\'
  | [] => false

/-- The text that is shown as the given one. -/
def escape (t : Text) : Text :=
  let escaped := escapeFrom (t.length + 1) 0 t
  if endsInBackslash escaped then escaped ++ "\\" else escaped

end Markup

end Keyscope
