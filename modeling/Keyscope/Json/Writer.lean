/-
# Writing JSON

A value is written on one line, or with one line per member.  Everything outside printable ASCII
is escaped, so a written document has no character above `~`.  What JSON has no form for is
written as its text.
-/
import Keyscope.Value.Shown

namespace Keyscope

namespace Json

/-! ## 1. Scalars -/

/-- Four digits in base sixteen after the mark of an escape. -/
def unitEscape (n : Nat) : Text := "\\u" ++ Decimal.hex 4 n

/-- One code point between quotes; beyond the first plane it is a pair of surrogates. -/
def escapePoint (c : CodePoint) : Text :=
  if c = '"' then "\\\""
  else if c = '\\' then "\\\\"
  else if c = '\n' then "\\n"
  else if c = '\r' then "\\r"
  else if c = '\t' then "\\t"
  else if c.val = 8 then "\\b"
  else if c.val = 12 then "\\f"
  else if 32 ≤ c.val ∧ c.val ≤ 126 then [c]
  else if c.val < 0x10000 then unitEscape c.val
  else
    let n := c.val - 0x10000
    unitEscape (0xD800 + n / 0x400) ++ unitEscape (0xDC00 + n % 0x400)

/-- A text between quotes. -/
def quoted (t : Text) : Text := "\"" ++ t.flatMap escapePoint ++ "\""

/-- A real number; those that are no number have names. -/
def realText : Binary64 → Text
  | .nan => "NaN"
  | .infinite s => Decimal.sign s ++ "Infinity"
  | x => x.toText

/-- The name of an entry.  Numbers and constants serve as names. -/
def nameOf : Value → Except Failure Text
  | .text t => .ok t
  | .null => .ok "null"
  | .bool b => .ok (if b then "true" else "false")
  | .int n => Value.integerText n
  | .real x => .ok (realText x)
  | v => .error (.notAName v.kind)

/-! ## 2. Containers -/

/-- Whether members have lines of their own, and how far each level is moved in. -/
structure Layout where
  indent : Option Nat

namespace Layout

/-- All on one line. -/
def line : Layout := ⟨none⟩

/-- A line per member, two blanks per level. -/
def pages : Layout := ⟨some 2⟩

/-- The start of a line at a level; nothing in a document of one line. -/
def newLine (l : Layout) (level : Nat) : Text :=
  match l.indent with
  | some width => "\n" ++ Text.replicate (width * level) ' '
  | none => []

/-- Members between brackets. -/
def enclose (l : Layout) (level : Nat) (opening closing : Text) (members : List Text) : Text :=
  let separator : Text := if l.indent.isSome then "," ++ l.newLine (level + 1) else ", "
  opening ++ l.newLine (level + 1) ++ Text.joinWith separator members ++ l.newLine level ++ closing

end Layout

mutual

/-- A value inside so many containers. -/
def writeAt (l : Layout) (level : Nat) : Value → Except Failure Text
  | .null => .ok "null"
  | .bool b => .ok (if b then "true" else "false")
  | .int n => Value.integerText n
  | .real x => .ok (realText x)
  | .text t => .ok (quoted t)
  | .list [] => .ok "[]"
  | .list vs => do return l.enclose level "[" "]" (← writeEach l (level + 1) vs)
  | .tuple [] => .ok "[]"
  | .tuple vs => do return l.enclose level "[" "]" (← writeEach l (level + 1) vs)
  | .dict [] => .ok "\x7b\x7d"
  | .dict items => do return l.enclose level "\x7b" "\x7d" (← writeEntries l (level + 1) items)
  | v => do return quoted (← v.toText)

/-- The members of a list. -/
def writeEach (l : Layout) (level : Nat) : List Value → Except Failure (List Text)
  | [] => .ok []
  | v :: vs => do return (← writeAt l level v) :: (← writeEach l level vs)

/-- The entries of an object. -/
def writeEntries (l : Layout) (level : Nat) : List (Value × Value) → Except Failure (List Text)
  | [] => .ok []
  | (k, v) :: items => do
    let name ← nameOf k
    let text ← writeAt l level v
    return (quoted name ++ ": " ++ text) :: (← writeEntries l level items)

end

/-- The document of a value. -/
def write (l : Layout) (v : Value) : Except Failure Text := writeAt l 0 v

end Json

end Keyscope
