/-
# Token streams

The tokens of a whole text.  Two things need memory.

* *Indentation.*  A block is open as long as lines are indented at least as far as it; deeper
  lines open blocks, and lines further out close them.
* *Keys.*  A colon makes a key of what stands before it on its line, at most 1024 code points
  back, so the token that starts a key is put in front of tokens that are already there.

Brackets switch both off: inside them a key may be anywhere.
-/
import Keyscope.Yaml.Token

namespace Keyscope

namespace Yaml

/-- A place where a key may have started. -/
structure KeyPlace where
  /-- How many tokens were there before it. -/
  before : Nat
  /-- Whether the block has no meaning unless a key starts here. -/
  required : Bool
  index : Nat
  line : Nat
  column : Nat
  deriving Repr

/-- A text that is cut into tokens as far as the cursor. -/
structure Stream where
  cursor : Cursor
  /-- The last one first. -/
  tokens : List Token
  /-- How many there are. -/
  count : Nat
  /-- How many brackets are open. -/
  flow : Nat
  indent : Int
  /-- The indents of the blocks around this one, the innermost first. -/
  outer : List Int
  /-- Whether a key may start here. -/
  allowsKey : Bool
  /-- Places where a key may have started, by the number of open brackets. -/
  places : List (Nat × KeyPlace)
  deriving Repr

namespace Stream

/-- Before the first token. -/
def start (t : Text) : Stream := ⟨.start t, [], 0, 0, -1, [], true, []⟩

/-! ## 1. Keys and indentation -/

def push (s : Stream) (t : Token) : Stream :=
  { s with tokens := t :: s.tokens, count := s.count + 1 }

/-- Puts a token in front of all but the first ones. -/
def insertAfter (s : Stream) (before : Nat) (t : Token) : Stream :=
  { s with tokens := s.tokens.insertIdx (s.count - before) t, count := s.count + 1 }

/-- Whether the line of the place has ended, or the place is too far back. -/
def isStale (s : Stream) (p : KeyPlace) : Bool :=
  p.line ≠ s.cursor.line || 1024 < s.cursor.index - p.index

/-- Forgets the places where no key can start any more. -/
def dropStale (s : Stream) : Option Stream :=
  if s.places.any fun p => s.isStale p.2 && p.2.required then none
  else some { s with places := s.places.filter fun p => !s.isStale p.2 }

/-- Forgets the place at the present depth. -/
def dropPlace (s : Stream) : Option Stream :=
  match s.places.lookup s.flow with
  | none => some s
  | some p =>
    if p.required then none else some { s with places := s.places.filter (·.1 ≠ s.flow) }

/-- Notes that a key may start here. -/
def notePlace (s : Stream) : Option Stream :=
  if s.allowsKey then do
    let required := s.flow = 0 && s.indent = s.cursor.column
    let place : KeyPlace :=
      ⟨s.count, required, s.cursor.index, s.cursor.line, s.cursor.column⟩
    let s ← s.dropPlace
    return { s with places := (s.flow, place) :: s.places }
  else some s

/-- Closes the blocks that are indented further than a column; the number of blocks bounds the
steps. -/
def closeBlocks (column : Int) : Nat → Stream → Stream
  | 0, s => s
  | n + 1, s =>
    if column < s.indent then
      closeBlocks column n
        { s.push .blockEnd with indent := s.outer.headD (-1), outer := s.outer.tail }
    else s

/-- Closes blocks, unless a bracket is open. -/
def unwind (s : Stream) (column : Int) : Stream :=
  if s.flow = 0 then closeBlocks column (s.outer.length + 1) s else s

/-- Opens a block at a column that is further in than the present one. -/
def openBlock? (s : Stream) (column : Nat) : Option Stream :=
  if s.indent < column then some { s with outer := s.indent :: s.outer, indent := column } else none

/-! ## 2. Tokens -/

/-- The stream after one more token that ends at the cursor. -/
def after (s : Stream) (t : Token) (c : Cursor) : Stream := { s.push t with cursor := c }

/-- A token of so many code points. -/
def mark (s : Stream) (t : Token) (n : Nat) : Stream := s.after t (s.cursor.forward n)

/-- The end of all blocks, before a mark between documents. -/
def endBlocks (s : Stream) : Option Stream := do
  let s ← (s.unwind (-1)).dropPlace
  return { s with allowsKey := false }

/-- An opening bracket. -/
def openFlow (s : Stream) (t : Token) : Option Stream := do
  let s ← s.notePlace
  return { s.mark t 1 with flow := s.flow + 1, allowsKey := true }

/-- A closing bracket; one that closes nothing is an error. -/
def closeFlow (s : Stream) (t : Token) : Option Stream := do
  let s ← s.dropPlace
  if s.flow = 0 then none else some { s.mark t 1 with flow := s.flow - 1, allowsKey := false }

/-- A comma between brackets. -/
def flowEntry (s : Stream) : Option Stream := do
  let s ← s.dropPlace
  return { s.mark .flowEntry 1 with allowsKey := true }

/-- A dash in front of an entry. -/
def blockEntry (s : Stream) : Option Stream := do
  if s.flow = 0 && !s.allowsKey then none
  else
    let s := if s.flow = 0 then
        match s.openBlock? s.cursor.column with
        | some s => s.push .blockSequenceStart
        | none => s
      else s
    let s ← { s with allowsKey := true }.dropPlace
    return s.mark .blockEntry 1

/-- Opens a mapping at the cursor if it is further in. -/
def openMapping (s : Stream) : Stream :=
  match s.openBlock? s.cursor.column with
  | some s => s.push .blockMappingStart
  | none => s

/-- A question mark in front of a key. -/
def explicitKey (s : Stream) : Option Stream := do
  if s.flow = 0 && !s.allowsKey then none
  else
    let s := if s.flow = 0 then s.openMapping else s
    let s ← { s with allowsKey := s.flow = 0 }.dropPlace
    return s.mark .key 1

/-- A colon: it makes a key of what stands before it, or starts the value of an explicit key. -/
def valueMark (s : Stream) : Option Stream := do
  match s.places.lookup s.flow with
  | some p =>
    let s := { s with places := s.places.filter (·.1 ≠ s.flow) }
    let s := s.insertAfter p.before .key
    let s := if s.flow = 0 then
        match s.openBlock? p.column with
        | some s => s.insertAfter p.before .blockMappingStart
        | none => s
      else s
    return { s.mark .value 1 with allowsKey := false }
  | none =>
    if s.flow = 0 && !s.allowsKey then none
    else
      let s := if s.flow = 0 then s.openMapping else s
      let s ← { s with allowsKey := s.flow = 0 }.dropPlace
      return s.mark .value 1

/-- A token that may be a key or start one. -/
def node (s : Stream) (read : Cursor → Option (Token × Cursor)) : Option Stream := do
  let s ← s.notePlace
  let (t, c) ← read s.cursor
  return { s.after t c with allowsKey := false }

/-- A plain scalar. -/
def plain (s : Stream) : Option Stream := do
  let s ← s.notePlace
  let (t, broken, c) := Cursor.plainFrom (s.flow ≠ 0) (s.indent + 1) (s.cursor.size + 1) s.cursor
  return { s.after (.scalar t true) c with allowsKey := broken }

/-- A block scalar. -/
def blockScalar (s : Stream) : Option Stream := do
  let s ← { s with allowsKey := true }.dropPlace
  let (t, c) ← s.cursor.block? s.indent
  return s.after t c

/-- Whether a plain scalar starts with this code point, given the next one. -/
def startsPlain (flow : Bool) (d next : CodePoint) : Bool :=
  !(isGapOrEnd d || isOneOf d "-?:,[]\x7b\x7d#&*!|>'\"%@`") ||
    (!isGapOrEnd next && (d = '-' || (!flow && isOneOf d "?:")))

/-! ## 3. The whole text -/

/-- Skips spaces, comments and line ends; after a line end a key may start. -/
def skipToToken : Nat → Stream → Stream
  | 0, s => s
  | steps + 1, s =>
    let c := s.cursor.skipSpaces.skipComment
    if isBreak c.head then
      skipToToken steps { s with cursor := c.lineBreak.2, allowsKey := s.allowsKey || s.flow = 0 }
    else { s with cursor := c }

/-- The stream with one more token, which starts at the cursor. -/
def token (s : Stream) : Option Stream :=
  let c := s.cursor
  let d := c.head
  let next := c.peek 1
  let flow : Bool := s.flow ≠ 0
  if d = '%' && c.column = 0 then do
    let s ← s.endBlocks
    let (t, c) ← c.directive?
    return s.after t c
  else if c.column = 0 && c.hasMark "---" then do return (← s.endBlocks).mark .documentStart 3
  else if c.column = 0 && c.hasMark "..." then do return (← s.endBlocks).mark .documentEnd 3
  else if d = '[' then s.openFlow .flowSequenceStart
  else if d = '\x7b' then s.openFlow .flowMappingStart
  else if d = ']' then s.closeFlow .flowSequenceEnd
  else if d = '\x7d' then s.closeFlow .flowMappingEnd
  else if d = ',' then s.flowEntry
  else if d = '-' && isGapOrEnd next then s.blockEntry
  else if d = '?' && (flow || isGapOrEnd next) then s.explicitKey
  else if d = ':' && (flow || isGapOrEnd next) then s.valueMark
  else if d = '*' then s.node fun c => c.anchorName?.map fun (t, c) => (.alias t, c)
  else if d = '&' then s.node fun c => c.anchorName?.map fun (t, c) => (.anchor t, c)
  else if d = '!' then s.node Cursor.tag?
  else if (d = '|' || d = '>') && !flow then s.blockScalar
  else if d = '\'' || d = '"' then s.node Cursor.quoted?
  else if startsPlain flow d next then s.plain
  else none

/-- Reads tokens up to the end of the text. -/
def run : Nat → Stream → Option Stream
  | 0, _ => none
  | steps + 1, s => do
    let s ← (skipToToken (s.cursor.size + 1) s).dropStale
    let s := s.unwind s.cursor.column
    if s.cursor.head.val = 0 then s.endBlocks
    else run steps (← s.token)

end Stream

/-- Skips a byte order mark at the front. -/
def skipMark (t : Text) : Cursor :=
  let c := Cursor.start t
  if c.head.val = 0xFEFF then c.next else c

/-- The tokens of a text, if it can be cut into tokens. -/
def Token.listOf (t : Text) : Option (List Token) :=
  if t.all isReadable then do
    let s ← Stream.run (t.length + 2) { Stream.start t with cursor := skipMark t }
    return s.tokens.reverse
  else none

end Yaml

end Keyscope
