/-
# Tokens of YAML

A text is cut into tokens.  Indentation becomes tokens of its own, and so does the start of a
key, which is only known when the colon after it is seen: a place where a key may have started is
kept until its line ends.
-/
import Keyscope.Yaml.Cursor
import Keyscope.Text.Utf8

namespace Keyscope

namespace Yaml

/-- What a line that starts with `%` says. -/
inductive Directive where
  | version (major : Nat)
  | handle (name expansion : Text)
  | other
  deriving DecidableEq, Repr

inductive Token where
  | directive (d : Directive)
  | documentStart
  | documentEnd
  | blockSequenceStart
  | blockMappingStart
  | blockEnd
  | flowSequenceStart
  | flowSequenceEnd
  | flowMappingStart
  | flowMappingEnd
  | blockEntry
  | flowEntry
  | key
  | value
  | alias (name : Text)
  | anchor (name : Text)
  | tag (handle : Option Text) (suffix : Text)
  /-- Plain means without quotes and without a header. -/
  | scalar (text : Text) (plain : Bool)
  deriving DecidableEq, Repr

/-! ## 1. Directives, anchors and tags -/

namespace Cursor

/-- The largest number of digits in the number of a version. -/
def maxVersionDigits : Nat := 4300

/-- A run of ASCII digits, not empty. -/
def number? (c : Cursor) : Option (Nat × Cursor) :=
  let (ds, c) := c.takeWhile CodePoint.isAsciiDigit
  if ds.isEmpty || maxVersionDigits < ds.length then none else some (ds.foldl (fun n d => 10 * n + (d.val - 48)) 0, c)

/-- Nothing but blanks and a comment up to the end of the line; the cursor on the next line. -/
def endLine? (c : Cursor) : Option Cursor :=
  let c := c.skipSpaces.skipComment
  if isBreakOrEnd c.head then some c.lineBreak.2 else none

/-- Bytes written as `%xx`. -/
def uriBytes : Nat → Cursor → Option (Bytes × Cursor)
  | 0, c => some ([], c)
  | steps + 1, c =>
    if c.head = '%' then
      match (c.peek 1).hexDigit?, (c.peek 2).hexDigit? with
      | some a, some b => do
        let (bytes, c) ← uriBytes steps (c.forward 3)
        return (.ofNat (16 * a + b) :: bytes, c)
      | _, _ => none
    else some ([], c)

/-- What a tag may hold. -/
def isUri (c : CodePoint) : Bool := (isWord c) || isOneOf c ";/?:@&=+$,.!~*'()[]%"

/-- The text of a tag, escapes resolved. -/
def uriFrom : Nat → Cursor → Option (Text × Cursor)
  | 0, c => some ([], c)
  | steps + 1, c =>
    if c.head = '%' then do
      let (bytes, c) ← uriBytes (c.size + 1) c
      match Utf8.decodeStrict bytes with
      | .error _ => none
      | .ok t =>
        let (rest, c) ← uriFrom steps c
        return (t ++ rest, c)
    else if isUri c.head then do
      let (rest, d) ← uriFrom steps c.next
      return (c.head :: rest, d)
    else some ([], c)

/-- The text of a tag, which is not empty. -/
def uri? (c : Cursor) : Option (Text × Cursor) :=
  if isUri c.head then uriFrom (c.size + 1) c else none

/-- A handle: a mark, or a word between two marks. -/
def handle? (c : Cursor) : Option (Text × Cursor) :=
  if c.head = '!' then
    if c.peek 1 = ' ' then some (['!'], c.next)
    else
      let (word, d) := c.next.takeWhile isWord
      if d.head = '!' then some ("!" ++ word ++ "!", d.next) else none
  else none

/-- What a directive says, by its name. -/
def directiveBody? (name : Text) (c : Cursor) : Option (Directive × Cursor) :=
  if name = "YAML" then do
    let (major, c) ← c.skipSpaces.number?
    if c.head ≠ '.' then none
    else
      let (_, c) ← c.next.number?
      if isSpaceOrEnd c.head then some (.version major, c) else none
  else if name = "TAG" then do
    let (handle, c) ← c.skipSpaces.handle?
    if c.head ≠ ' ' then none
    else
      let (expansion, c) ← c.skipSpaces.uri?
      if isSpaceOrEnd c.head then some (.handle handle expansion, c) else none
  else some (.other, c.skipLine)

/-- A directive with its line. -/
def directive? (c : Cursor) : Option (Token × Cursor) := do
  let (name, c) := c.next.takeWhile isWord
  if name.isEmpty || !isSpaceOrEnd c.head then none
  else
    let (d, c) ← directiveBody? name c
    let c ← c.endLine?
    return (.directive d, c)

/-- The name of an anchor or an alias after its mark. -/
def anchorName? (c : Cursor) : Option (Text × Cursor) :=
  let (name, c) := c.next.takeWhile isWord
  if name.isEmpty then none
  else if isGapOrEnd c.head || isOneOf c.head "?:,]\x7d%@`" then some (name, c)
  else none

/-- A tag without its end. -/
def tagBody? (c : Cursor) : Option (Token × Cursor) :=
  let d := c.peek 1
  if d = '<' then do
    let (suffix, c) ← (c.forward 2).uri?
    if c.head = '>' then some (.tag none suffix, c.next) else none
  else if isGapOrEnd d then some (.tag none ['!'], c.next)
  else if (c.next.rest.takeWhile (!isSpaceOrEnd ·)).contains '!' then do
    let (handle, c) ← c.handle?
    let (suffix, c) ← c.uri?
    return (.tag (some handle) suffix, c)
  else do
    let (suffix, c) ← c.next.uri?
    return (.tag (some ['!']) suffix, c)

/-- A tag, with a blank or a line end behind it. -/
def tag? (c : Cursor) : Option (Token × Cursor) := do
  let (t, c) ← c.tagBody?
  if isSpaceOrEnd c.head then some (t, c) else none

/-! ## 2. Quoted scalars -/

/-- What the letter after a backslash stands for. -/
def escaped? (c : CodePoint) : Option CodePoint :=
  let table : List (Char × Nat) := [('0', 0), ('a', 7), ('b', 8), ('t', 9), ('\t', 9), ('n', 10),
    ('v', 11), ('f', 12), ('r', 13), ('e', 27), (' ', 32), ('"', 34), ('\\', 92), ('/', 47),
    ('N', 0x85), ('_', 0xA0), ('L', 0x2028), ('P', 0x2029)]
  (table.find? fun e => c = e.1).map fun e => .ofNat e.2

/-- How many digits in base sixteen follow the letter of a numeric escape. -/
def escapeDigits? (c : CodePoint) : Option Nat :=
  if c = 'x' then some 2 else if c = 'u' then some 4 else if c = 'U' then some 8 else none

/-- The value of digits in base sixteen. -/
def hexValue? (ds : Text) : Option Nat :=
  ds.foldl (fun n d => do return 16 * (← n) + (← d.hexDigit?)) (some 0)

/-- The code point of a numeric escape of so many digits. -/
def numericEscape? (digits : Nat) (c : Cursor) : Option (CodePoint × Cursor) := do
  let ds := c.rest.take digits
  if ds.length < digits then none
  else
    let n ← hexValue? ds
    if n < 0x110000 then some (.ofNat n, c.forward digits) else none

/-- The line ends between two lines of a quoted scalar, blanks around them dropped. -/
def quotedBreaks : Nat → Cursor → Option (Text × Cursor)
  | 0, c => some ([], c)
  | steps + 1, c =>
    if c.hasSeparator then none
    else
      let c := c.skipWhile fun d => d = ' ' || d = '\t'
      if isBreak c.head then do
        let (b, c) := c.lineBreak
        let (rest, c) ← quotedBreaks steps c
        return (b ++ rest, c)
      else some ([], c)

/-- Folds a line end: a single line feed becomes a space, further ones stay. -/
def folded (lineBreak breaks : Text) : Text :=
  if lineBreak ≠ "\n" then lineBreak ++ breaks else if breaks.isEmpty then [' '] else breaks

/-- A quoted scalar from behind its opening quote to behind its closing quote. -/
def quotedFrom (double : Bool) : Nat → Cursor → Option (Text × Cursor)
  | 0, _ => none
  | steps + 1, c =>
    let d := c.head
    if d.val = 0 then none
    else if double && d = '"' then some ([], c.next)
    else if !double && d = '\'' then
      if c.peek 1 = '\'' then do
        let (rest, c) ← quotedFrom double steps (c.forward 2)
        return ("'" ++ rest, c)
      else some ([], c.next)
    else if double && d = '\\' then
      let e := c.peek 1
      match escaped? e, escapeDigits? e with
      | some point, _ => do
        let (rest, c) ← quotedFrom double steps (c.forward 2)
        return (point :: rest, c)
      | none, some digits => do
        let (point, c) ← (c.forward 2).numericEscape? digits
        let (rest, c) ← quotedFrom double steps c
        return (point :: rest, c)
      | none, none =>
        if isBreak e then do
          let (breaks, c) ← quotedBreaks (c.size + 1) c.next.lineBreak.2
          let (rest, c) ← quotedFrom double steps c
          return (breaks ++ rest, c)
        else none
    else if d = ' ' || d = '\t' || isBreak d then
      let (blanks, c) := c.takeWhile fun d => d = ' ' || d = '\t'
      if c.head.val = 0 then none
      else if isBreak c.head then do
        let (b, c) := c.lineBreak
        let (breaks, c) ← quotedBreaks (c.size + 1) c
        let (rest, c) ← quotedFrom double steps c
        return (folded b breaks ++ rest, c)
      else do
        let (rest, c) ← quotedFrom double steps c
        return (blanks ++ rest, c)
    else do
      let (rest, c) ← quotedFrom double steps c.next
      return (d :: rest, c)

/-- A quoted scalar. -/
def quoted? (c : Cursor) : Option (Token × Cursor) := do
  let (t, c) ← quotedFrom (c.head = '"') (c.size + 1) c.next
  return (.scalar t false, c)

/-! ## 3. Block scalars -/

/-- What happens to the line ends at the end of a block scalar. -/
inductive Chomping where
  | strip
  | clip
  | keep
  deriving DecidableEq, Repr

/-- A sign in the header of a block scalar. -/
def chomping? (c : CodePoint) : Option Chomping :=
  if c = '+' then some .keep else if c = '-' then some .strip else none

/-- A digit in the header of a block scalar; zero is an error, anything else is no digit. -/
def increment? (c : CodePoint) : Option (Option Nat) :=
  if c.isAsciiDigit then (if c = '0' then none else some (some (c.val - 48))) else some none

/-- The header of a block scalar after its mark: a sign and a digit in either order. -/
def header? (c : Cursor) : Option (Chomping × Option Nat × Cursor) := do
  match chomping? c.head with
  | some chomping =>
    let c := c.next
    match ← increment? c.head with
    | some n => return (chomping, some n, c.next)
    | none => return (chomping, none, c)
  | none =>
    match ← increment? c.head with
    | some n =>
      let c := c.next
      match chomping? c.head with
      | some chomping => return (chomping, some n, c.next)
      | none => return (.clip, some n, c)
    | none => return (.clip, none, c)

/-- Blank lines before the first line, and the largest column that blanks reach. -/
def leadingBreaks : Nat → Cursor → Nat → Text × Nat × Cursor
  | 0, c, widest => ([], widest, c)
  | steps + 1, c, widest =>
    if c.head = ' ' then
      let c := c.next
      leadingBreaks steps c (max widest c.column)
    else if isBreak c.head then
      let (b, c) := c.lineBreak
      let (rest, widest, c) := leadingBreaks steps c widest
      (b ++ rest, widest, c)
    else ([], widest, c)

/-- Blanks up to a column. -/
def skipIndent (indent : Nat) (c : Cursor) : Cursor :=
  c.forward (min (indent - c.column) (c.rest.takeWhile (· = (' ' : CodePoint))).length)

/-- Blank lines, and the blanks before the next line up to a column. -/
def blockBreaks (indent : Nat) : Nat → Cursor → Text × Cursor
  | 0, c => ([], c)
  | steps + 1, c =>
    let c := c.skipIndent indent
    if isBreak c.head then
      let (b, c) := c.lineBreak
      let (rest, c) := blockBreaks indent steps c
      (b ++ rest, c)
    else ([], c)

/-- The lines of a block scalar from its first line on: their text, the line end of the last
one, and the blank lines after it. -/
def blockLines (folding : Bool) (indent : Nat) : Nat → Cursor → Text × Text × Text × Cursor
  | 0, c => ([], [], [], c)
  | steps + 1, c =>
    let flush := !isOneOf c.head " \t"
    let (line, c) := c.takeWhile (!isBreakOrEnd ·)
    let (b, c) := c.lineBreak
    let (breaks, c) := blockBreaks indent (c.size + 1) c
    if c.column = indent && c.head.val ≠ 0 then
      let joint : Text :=
        if folding && b = "\n" && flush && !isOneOf c.head " \t" then
          (if breaks.isEmpty then [' '] else breaks)
        else b ++ breaks
      let (rest, last, after, c) := blockLines folding indent steps c
      (line ++ joint ++ rest, last, after, c)
    else (line, b, breaks, c)

/-- A block scalar inside a block with the given indent. -/
def block? (outer : Int) (c : Cursor) : Option (Token × Cursor) := do
  let folding := c.head = '>'
  let (chomping, increment, c) ← c.next.header?
  if !isSpaceOrEnd c.head then none
  else
    let c ← c.endLine?
    let least := (max (outer + 1) 1).toNat
    let (breaks, indent, c) :=
      match increment with
      | some n =>
        let indent := least + n - 1
        let (breaks, c) := blockBreaks indent (c.size + 1) c
        (breaks, indent, c)
      | none =>
        let (breaks, widest, c) := leadingBreaks (c.size + 1) c 0
        (breaks, max least widest, c)
    let (text, last, after, c) :=
      if c.column = indent && c.head.val ≠ 0 then
        let (text, last, after, c) := blockLines folding indent (c.size + 1) c
        (breaks ++ text, last, after, c)
      else ([], [], breaks, c)
    let tail := match chomping with
      | .strip => []
      | .clip => last
      | .keep => last ++ after
    return (.scalar (text ++ tail) false, c)

/-! ## 4. Plain scalars -/

/-- Whether a plain scalar ends at this code point, given the next one. -/
def endsPlain (flow : Bool) (d next : CodePoint) : Bool :=
  isGapOrEnd d || (d = ':' && (isGapOrEnd next || (flow && isOneOf next ",[]\x7b\x7d"))) ||
    (flow && isOneOf d ",?[]\x7b\x7d")

/-- One word of a plain scalar. -/
def plainWord (flow : Bool) : Text → Text
  | [] => []
  | d :: t => if endsPlain flow d ((t.head?).getD 0) then [] else d :: plainWord flow t

/-- Blank lines inside a plain scalar; a mark between documents ends it. -/
def plainBreaks : Nat → Cursor → Option Text × Cursor
  | 0, c => (some [], c)
  | steps + 1, c =>
    if c.head = ' ' then plainBreaks steps c.next
    else if isBreak c.head then
      let (b, c) := c.lineBreak
      if c.hasSeparator then (none, c)
      else
        let (rest, c) := plainBreaks steps c
        (rest.map (b ++ ·), c)
    else (some [], c)

/-- What joins two words of a plain scalar, if another one may follow, and whether a line ended
before it. -/
def plainGap (c : Cursor) : Option Text × Bool × Cursor :=
  let (blanks, c) := c.takeWhile (· = (' ' : CodePoint))
  if isBreak c.head then
    let (b, c) := c.lineBreak
    if c.hasSeparator then (none, true, c)
    else
      let (breaks, c) := plainBreaks (c.size + 1) c
      (breaks.map (folded b), true, c)
  else (if blanks.isEmpty then none else some blanks, false, c)

/-- A plain scalar inside a block with the given indent, and whether a key may start after
it. -/
def plainFrom (flow : Bool) (indent : Int) : Nat → Cursor → Text × Bool × Cursor
  | 0, c => ([], false, c)
  | steps + 1, c =>
    let word := if c.head = '#' then [] else plainWord flow c.rest
    if word.isEmpty then ([], false, c)
    else
      let (gap, broken, d) := plainGap (c.forward word.length)
      match gap with
      | none => (word, broken, d)
      | some gap =>
        if d.head = '#' || (!flow && (d.column : Int) < indent) then (word, broken, d)
        else
          let more := if d.head = '#' then [] else plainWord flow d.rest
          if more.isEmpty then (word, broken, d)
          else
            let (rest, later, d) := plainFrom flow indent steps d
            (word ++ gap ++ rest, later, d)

end Cursor

end Yaml

end Keyscope
