/-
# A place in a YAML text

Tokens depend on where they start: on the line, on the column, and on how far they are from a
possible key.  A cursor knows these for what is left of the text.

A readable text holds no `U+0000`, so that code point stands for the end of the text.
-/
import Keyscope.Text.Basic

namespace Keyscope

namespace Yaml

/-! ## 1. Classes of code points -/

/-- What a YAML text may hold: no controls but tab and line ends, and no surrogates. -/
def isReadable (c : CodePoint) : Bool :=
  let n := c.val
  n = 9 || n = 10 || n = 13 || (0x20 ≤ n && n ≤ 0x7E) || n = 0x85 || (0xA0 ≤ n && n ≤ 0xD7FF) ||
    (0xE000 ≤ n && n ≤ 0xFFFD) || 0x10000 ≤ n

/-- A line end. -/
def isBreak (c : CodePoint) : Bool :=
  c.val = 10 || c.val = 13 || c.val = 0x85 || c.val = 0x2028 || c.val = 0x2029

/-- A line end or the end of the text. -/
def isBreakOrEnd (c : CodePoint) : Bool := isBreak c || c.val = 0

/-- A space, a line end or the end of the text. -/
def isSpaceOrEnd (c : CodePoint) : Bool := isBreakOrEnd c || c = ' '

/-- A space, a tab, a line end or the end of the text. -/
def isGapOrEnd (c : CodePoint) : Bool := isSpaceOrEnd c || c = '\t'

/-- Whether the code point is one of those in the string. -/
def isOneOf (c : CodePoint) (s : String) : Bool := (s : Text).contains c

/-- What names of anchors and tag handles are made of. -/
def isWord (c : CodePoint) : Bool :=
  c.isAsciiDigit || (65 ≤ c.val && c.val ≤ 90) || (97 ≤ c.val && c.val ≤ 122) || c = '-' || c = '_'

/-! ## 2. Cursors -/

/-- What is left of a text, and where it starts. -/
structure Cursor where
  rest : Text
  index : Nat
  line : Nat
  column : Nat
  /-- How long the whole text is, which bounds the steps of whatever goes on from here. -/
  size : Nat
  deriving Repr

namespace Cursor

/-- The front of a text. -/
def start (t : Text) : Cursor := ⟨t, 0, 0, 0, t.length⟩

/-- The code point so many places ahead. -/
def peek (c : Cursor) (k : Nat) : CodePoint := (c.rest[k]?).getD (.ofNat 0)

/-- The code point at the cursor. -/
def head (c : Cursor) : CodePoint := c.peek 0

/-- One code point further.  A carriage return before a line feed does not end a line, and a byte
order mark takes no column. -/
def next (c : Cursor) : Cursor :=
  match c.rest with
  | [] => c
  | d :: rest =>
    if isBreak d && !(d.val = 13 && (rest.head?.map Fin.val) = some 10) then
      ⟨rest, c.index + 1, c.line + 1, 0, c.size⟩
    else if d.val = 0xFEFF then ⟨rest, c.index + 1, c.line, c.column, c.size⟩
    else ⟨rest, c.index + 1, c.line, c.column + 1, c.size⟩

/-- So many code points further. -/
def forward : Nat → Cursor → Cursor
  | 0, c => c
  | n + 1, c => forward n c.next

/-- The code points with the property at the cursor, and the cursor after them. -/
def takeWhile (c : Cursor) (p : CodePoint → Bool) : Text × Cursor :=
  let run := c.rest.takeWhile p
  (run, c.forward run.length)

/-- The cursor after the code points with the property. -/
def skipWhile (c : Cursor) (p : CodePoint → Bool) : Cursor := (c.takeWhile p).2

def skipSpaces (c : Cursor) : Cursor := c.skipWhile (· = (' ' : CodePoint))

/-- The cursor at the end of its line. -/
def skipLine (c : Cursor) : Cursor := c.skipWhile (!isBreakOrEnd ·)

/-- The cursor at the end of its line, if only a comment is left there. -/
def skipComment (c : Cursor) : Cursor := if c.head = '#' then c.skipLine else c

/-- A line end and the cursor after it; no text where there is none.  All but the two Unicode
separators count as a line feed. -/
def lineBreak (c : Cursor) : Text × Cursor :=
  let d := c.head
  if d.val = 13 && (c.peek 1).val = 10 then (['\n'], c.forward 2)
  else if d.val = 10 || d.val = 13 || d.val = 0x85 then (['\n'], c.next)
  else if d.val = 0x2028 || d.val = 0x2029 then ([d], c.next)
  else ([], c)

/-- Whether the three marks stand here, with a gap behind them. -/
def hasMark (c : Cursor) (mark : String) : Bool :=
  c.rest.startsWith (mark : Text) && isGapOrEnd (c.peek 3)

/-- Whether a mark between documents stands here. -/
def hasSeparator (c : Cursor) : Bool := c.hasMark "---" || c.hasMark "..."

end Cursor

end Yaml

end Keyscope
