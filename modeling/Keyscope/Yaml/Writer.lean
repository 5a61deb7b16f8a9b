/-
# Writing YAML

A dictionary is written with one line per entry, a list with one dash per element, lists no
further in than their key.  A text is written plain where that reads back as the same text, with
single quotes where it does not, and with double quotes where it holds anything but printable
ASCII and line feeds.  Long scalars are folded at blanks once a line is longer than eighty
columns.

A value that is not of one of the usual kinds has a tag in front.  A key stands on the line of its
value unless it is long or has several lines; then a question mark stands in front of it.
-/
import Keyscope.Yaml.Tag
import Keyscope.Value.Shown

namespace Keyscope

namespace Yaml

namespace Writer

/-! ## 1. Styles -/

inductive Style where
  | plain
  | single
  | double
  deriving DecidableEq, Repr

/-- Printable ASCII, or a line feed. -/
def isSimple (c : CodePoint) : Bool := c = '\n' || (0x20 ≤ c.val && c.val ≤ 0x7E)

/-- Whether two code points follow each other somewhere. -/
def hasPair (a b : CodePoint) : Text → Bool
  | c :: d :: t => (c = a && d = b) || hasPair a b (d :: t)
  | _ => false

/-- Whether the code point starts or ends the text. -/
def isAtEnd (c : CodePoint) (t : Text) : Bool := t.head? = some c || t.getLast? = some c

/-- Marks that mean something at the front of a plain scalar outside brackets. -/
def startsWithMark (t : Text) : Bool :=
  t.startsWith "---" || t.startsWith "..." ||
    match t with
    | [] => false
    | c :: u =>
      isOneOf c "#,[]\x7b\x7d&*!|>'\"%@`" || (isOneOf c "?:-" && (u.head?.all isGapOrEnd))

/-- A colon with a blank or nothing behind it, or a hash with a blank in front of it. -/
def holdsMark : Text → Bool
  | c :: d :: t =>
    (d = ':' && t.head?.all isGapOrEnd) || (d = '#' && isGapOrEnd c) || holdsMark (d :: t)
  | _ => false

/-- The style for a text. -/
def styleOf (t : Text) : Style :=
  if t.all isSimple && !hasPair ' ' '\n' t && !hasPair '\n' ' ' t then
    if t.contains '\n' || isAtEnd ' ' t || startsWithMark t || holdsMark t || Tag.ofForm t ≠ .text then
      .single
    else .plain
  else .double

/-! ## 2. Folding -/

/-- Lines longer than this are folded. -/
def width : Nat := 80

/-- A line end and the blanks before the next line. -/
def newLine (indent : Nat) : Text := "\n" ++ Text.replicate indent ' '

/-- Whether a blank at this column is replaced by a line end: it stands alone between two other
code points of the text. -/
def folds (column : Nat) (before next : Option CodePoint) : Bool :=
  width < column && before.any (fun c => c ≠ (' ' : CodePoint)) && next.any (fun c => c ≠ (' ' : CodePoint))

/-- A plain scalar from a column on, after a given code point. -/
def plainFrom (indent : Nat) : Nat → Option CodePoint → Text → Text
  | _, _, [] => []
  | column, before, c :: t =>
    if c = ' ' && folds column before t.head? then newLine indent ++ plainFrom indent indent (some c) t
    else c :: plainFrom indent (column + 1) (some c) t

/-- The inside of single quotes.  A line feed is written as an empty line. -/
def singleFrom (indent : Nat) : Nat → Option CodePoint → Text → Text
  | _, _, [] => []
  | column, before, c :: t =>
    if c = ' ' && folds column before t.head? then newLine indent ++ singleFrom indent indent (some c) t
    else if c = '\n' then
      let first : Text := if before = some ('\n' : CodePoint) then [] else "\n"
      let last : Text := if t.head? = some ('\n' : CodePoint) then [] else Text.replicate indent ' '
      first ++ "\n" ++ last ++ singleFrom indent indent (some c) t
    else if c = '\'' then "''" ++ singleFrom indent (column + 2) (some c) t
    else c :: singleFrom indent (column + 1) (some c) t

/-- The letters of escapes. -/
def letters : List (Nat × Char) := [(0, '0'), (7, 'a'), (8, 'b'), (9, 't'), (10, 'n'), (11, 'v'),
  (12, 'f'), (13, 'r'), (27, 'e'), (34, '"'), (92, '\\'), (0x85, 'N'), (0xA0, '_'),
  (0x2028, 'L'), (0x2029, 'P')]

/-- Whether a code point is escaped between double quotes. -/
def isEscaped (c : CodePoint) : Bool :=
  c = '"' || c = '\\' || c.val < 0x20 || 0x7E < c.val

/-- A code point with its escape. -/
def escape (c : CodePoint) : Text :=
  match letters.lookup c.val with
  | some l => "\\" ++ [CodePoint.ofChar l]
  | none =>
    if c.val ≤ 0xFF then "\\x" ++ Decimal.hexUpper 2 c.val
    else if c.val ≤ 0xFFFF then "\\u" ++ Decimal.hexUpper 4 c.val
    else "\\U" ++ Decimal.hexUpper 8 c.val

/-- The inside of double quotes.  `pending` are code points that are not written yet, the last one
first; a line is broken at a blank or behind an escape, with a backslash at its end, and another
one where the next line starts with a blank. -/
def doubleFrom (indent : Nat) : Nat → Bool → Text → Text → Text
  | _, _, pending, [] => pending.reverse
  | column, first, pending, c :: t =>
    let inside := !first && !t.isEmpty
    if isEscaped c then
      let data := pending.reverse ++ escape c
      let column := column + data.length
      if inside && width + 1 < column then
        let lead : Text := if t.head? = some (' ' : CodePoint) then "\\" else []
        data ++ "\\" ++ newLine indent ++ lead ++ doubleFrom indent (indent + lead.length) false [] t
      else data ++ doubleFrom indent column false [] t
    else if inside && (c = ' ' || pending.isEmpty) && width < column + pending.length then
      let lead : Text := if c = ' ' then "\\" else []
      pending.reverse ++ "\\" ++ newLine indent ++ lead ++
        doubleFrom indent (indent + lead.length) false [c] t
    else doubleFrom indent column false (c :: pending) t

/-! ## 3. Values -/

/-- A text that starts at a column. -/
def scalarText (indent column : Nat) (t : Text) : Text :=
  match styleOf t with
  | .plain => plainFrom indent column none t
  | .single => "'" ++ singleFrom indent (column + 1) none t ++ "'"
  | .double => "\"" ++ doubleFrom indent (column + 1) true [] t ++ "\""

/-- A real number; it always has a point, so that it reads back as one. -/
def realText (x : Binary64) : Text :=
  match x with
  | .nan => ".nan"
  | .infinite s => Decimal.sign s ++ ".inf"
  | _ =>
    let t := x.toText
    if t.contains '.' then t
    else
      match Text.splitFirst 'e' t with
      | (digits, some exponent) => digits ++ ".0e" ++ exponent
      | (digits, none) => digits

/-- The sixty-four letters for six bits each. -/
def letter (n : Nat) : CodePoint :=
  if n < 26 then .ofNat (65 + n) else if n < 52 then .ofNat (71 + n) else if n < 62 then .ofNat (n - 4)
  else if n = 62 then '+' else '/'

/-- Bytes in base sixty-four, three of them in four letters. -/
def base64 : Bytes → Text
  | [] => []
  | [a] => [letter (a.toNat / 4), letter (a.toNat % 4 * 16), '=', '=']
  | [a, b] =>
    [letter (a.toNat / 4), letter (a.toNat % 4 * 16 + b.toNat / 16), letter (b.toNat % 16 * 4), '=']
  | a :: b :: c :: bs =>
    letter (a.toNat / 4) :: letter (a.toNat % 4 * 16 + b.toNat / 16) ::
      letter (b.toNat % 16 * 4 + c.toNat / 64) :: letter (c.toNat % 64) :: base64 bs

/-- The letters of bytes in lines of seventy-six; the number bounds the lines. -/
def base64Lines (indent : Nat) : Nat → Bytes → Text
  | 0, _ => []
  | steps + 1, bs =>
    if bs.isEmpty then []
    else newLine indent ++ base64 (bs.take 57) ++ base64Lines indent steps (bs.drop 57)

/-- Bytes as a block of lines. -/
def bytesText (indent : Nat) (bs : Bytes) : Text :=
  if bs.isEmpty then "!!binary \"\"" else "!!binary |" ++ base64Lines indent bs.length bs

/-- The text of a value that is no container, if it has a text. -/
def scalar (indent column : Nat) : Value → Except Failure Text
  | .null => .ok "null"
  | .bool b => .ok (if b then "true" else "false")
  | .int n => Value.integerText n
  | .real x => .ok (realText x)
  | .text t => .ok (scalarText indent column t)
  | .bytes bs => .ok (bytesText indent bs)
  | v => do return scalarText indent column (← v.toText)

/-- The tag of a value that is made by a call, and the arguments of the call. -/
def call? : Value → Option (Text × List Text)
  | .buffer bs => some ("!!python/object/apply:builtins.bytearray",
      [bs.map fun b => .ofNat b.toNat, "latin-1"])
  | .error e => some ("!!python/object/apply:builtins." ++ e.name, e.detail.toList)
  | _ => none

/-- Texts behind one dash each, all on lines of their own. -/
def textLines (indent : Nat) (ts : List Text) : Text :=
  if ts.isEmpty then " []"
  else ts.flatMap fun t => newLine indent ++ "- " ++ scalarText (indent + 2) (indent + 2) t

/-! ## 4. Keys -/

/-- A code point between single quotes. -/
def doubledQuote (c : CodePoint) : Text := if c = '\'' then "''" else [c]

/-- A code point between double quotes. -/
def escapedOrSelf (c : CodePoint) : Text := if isEscaped c then escape c else [c]

/-- A text on one line. -/
def lineText (t : Text) : Text :=
  match styleOf t with
  | .plain => t
  | .single => "'" ++ t.flatMap doubledQuote ++ "'"
  | .double => "\"" ++ t.flatMap escapedOrSelf ++ "\""

/-- The longest key on the line of its value, its tag included. -/
def maxKey : Nat := 127

/-- A text that may be a key on the line of its value, given the length of its tag. -/
def shortKey? (tag : Nat) (t written : Text) : Option Text :=
  if t.isEmpty || t.any isBreak || maxKey < tag + t.length then none else some written

/-- The text of a key that may stand on the line of its value. -/
def key? : Value → Except Failure (Option Text)
  | .null => .ok (some "null")
  | .bool b => .ok (some (if b then "true" else "false"))
  | .int n => do
    let t ← Value.integerText n
    return shortKey? 5 t t
  | .real x => .ok (some (realText x))
  | .text t => .ok (shortKey? 5 t (lineText t))
  | .tuple [] => .ok (some "!!python/tuple []")
  | _ => .ok none

/-! ## 5. Containers -/

mutual

/-- What stands behind a key that ends at a column: a scalar on the same line, a list on lines no
further in, a dictionary on lines further in. -/
def behind (indent column : Nat) : Value → Except Failure Text
  | .list [] => .ok " []"
  | .list (v :: vs) => do return newLine indent ++ (← elements indent (v :: vs))
  | .tuple [] => .ok " !!python/tuple []"
  | .tuple (v :: vs) => do
    return " !!python/tuple" ++ newLine indent ++ (← elements indent (v :: vs))
  | .dict [] => .ok " \x7b\x7d"
  | .dict (item :: items) => do
    return newLine (indent + 2) ++ (← entries (indent + 2) (item :: items))
  | .set [] => .ok " !!set \x7b\x7d"
  | .set (v :: vs) => do return " !!set" ++ newLine (indent + 2) ++ (← members (indent + 2) (v :: vs))
  | v =>
    match call? v with
    | some (tag, texts) => .ok (" " ++ tag ++ textLines indent texts)
    | none => do return " " ++ (← scalar (indent + 2) (column + 1) v)

/-- The elements of a list, the first one on the present line. -/
def elements (indent : Nat) : List Value → Except Failure Text
  | [] => .ok []
  | v :: vs => do
    let text ← element (indent + 2) v
    let rest ← elements indent vs
    return "- " ++ text ++ (if vs.isEmpty then rest else newLine indent ++ rest)

/-- An element behind its dash. -/
def element (indent : Nat) : Value → Except Failure Text
  | .dict [] => .ok "\x7b\x7d"
  | .dict (item :: items) => entries indent (item :: items)
  | .set [] => .ok "!!set \x7b\x7d"
  | .set (v :: vs) => do return "!!set" ++ newLine indent ++ (← members indent (v :: vs))
  | .list [] => .ok "[]"
  | .list (v :: vs) => elements indent (v :: vs)
  | .tuple [] => .ok "!!python/tuple []"
  | .tuple (v :: vs) => do return "!!python/tuple" ++ newLine indent ++ (← elements indent (v :: vs))
  | v =>
    match call? v with
    | some (tag, texts) => .ok (tag ++ textLines indent texts)
    | none => scalar indent indent v

/-- The entries of a dictionary, the first one on the present line. -/
def entries (indent : Nat) : List (Value × Value) → Except Failure Text
  | [] => .ok []
  | (k, v) :: items => do
    let entry ← match ← key? k with
      | some key => do pure (key ++ ":" ++ (← behind indent (indent + key.length + 1) v))
      | none => do
        let key ← element (indent + 2) k
        let value ← element (indent + 2) v
        pure ("? " ++ key ++ newLine indent ++ ": " ++ value)
    let rest ← entries indent items
    return entry ++ (if items.isEmpty then rest else newLine indent ++ rest)

/-- The members of a set: keys without values. -/
def members (indent : Nat) : List Value → Except Failure Text
  | [] => .ok []
  | v :: vs => do
    let entry ← match ← key? v with
      | some key => pure (key ++ ": null")
      | none => do pure ("? " ++ (← element (indent + 2) v) ++ newLine indent ++ ": null")
    let rest ← members indent vs
    return entry ++ (if vs.isEmpty then rest else newLine indent ++ rest)

end

end Writer

/-- The document of a dictionary. -/
def write (items : List (Value × Value)) : Except Failure Text :=
  if items.isEmpty then .ok "\x7b\x7d\n" else do return (← Writer.entries 0 items) ++ "\n"

end Yaml

end Keyscope
