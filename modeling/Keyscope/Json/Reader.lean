/-
# Reading JSON

A document is read from the front.  Every step takes what is left of the text and answers with
a value and what is left after it, so the place of a fault is the length of what was left there.

The grammar is the usual one with two liberties: `NaN`, `Infinity` and `-Infinity` are
numbers, and a text may hold surrogates that are no pair.  The first one is a list of words that the
reader is given.  Of two entries of an object with one name the later one counts, in the place of the
earlier one.
-/
import Keyscope.Value.Numeric

namespace Keyscope

namespace Json

/-! ## 1. Faults -/

/-- What is wrong, and how much of the text was left there. -/
inductive Fault where
  | problem (words : Text) (left : Nat)
  /-- Wrong in a way that has no place. -/
  | failure (f : Failure)
  deriving Repr

/-- A result, or a fault. -/
abbrev Read := Except Fault

/-- A fault at the front of what is left. -/
def fault {α : Type} (words : String) (rest : Text) : Read (α × Text) := .error (.problem words rest.length)

/-! ## 2. Blanks and texts -/

/-- Space, tab, line feed, carriage return. -/
def isBlank (c : CodePoint) : Bool := c = ' ' || c = '\t' || c = '\n' || c = '\r'

def skipBlanks (t : Text) : Text := t.dropWhile isBlank

/-- Reads `n` digits in base sixteen. -/
def hexDigits : Nat → Text → Option (Nat × Text)
  | 0, t => some (0, t)
  | n + 1, c :: t =>
    match c.hexDigit?, hexDigits n t with
    | some d, some (value, rest) => some (d * Nat.pow 16 n + value, rest)
    | _, _ => none
  | _, [] => none

/-- The four digits of an escape; the closing quote must follow at some point. -/
def unit? (t : Text) : Option (Nat × Text) := if (t.drop 4).isEmpty then none else hexDigits 4 t

def isHighSurrogate (n : Nat) : Bool := 0xD800 ≤ n && n ≤ 0xDBFF
def isLowSurrogate (n : Nat) : Bool := 0xDC00 ≤ n && n ≤ 0xDFFF

/-- The code point of a surrogate pair. -/
def joinSurrogates (high low : Nat) : CodePoint :=
  .ofNat (0x10000 + (high - 0xD800) * 0x400 + (low - 0xDC00))

/-- The second half of a pair, if an escape for one follows. -/
def lowHalf (high : Nat) (t : Text) : Read (CodePoint × Text) :=
  match t with
  | a :: b :: u =>
    if isHighSurrogate high && a = '\\' && b = 'u' && !(u.drop 4).isEmpty then
      match hexDigits 4 u with
      | none => fault "Invalid \\uXXXX escape" (b :: u)
      | some (low, rest) =>
        if isLowSurrogate low then .ok (joinSurrogates high low, rest) else .ok (.ofNat high, t)
    else .ok (.ofNat high, t)
  | _ => .ok (.ofNat high, t)

/-- What the letter after a backslash stands for. -/
def escaped? (c : CodePoint) : Option CodePoint :=
  if c = '"' then some '"'
  else if c = '\\' then some '\\'
  else if c = '/' then some '/'
  else if c = 'b' then some (.ofNat 8)
  else if c = 'f' then some (.ofNat 12)
  else if c = 'n' then some '\n'
  else if c = 'r' then some '\r'
  else if c = 't' then some '\t'
  else none

/-- The rest of a text up to its closing quote; `opening` is what was left at its opening quote.  The
first number bounds the steps. -/
def textFrom (opening : Text) : Nat → Text → Read (Text × Text)
  | 0, _ => fault "Unterminated string starting at" opening
  | _ + 1, [] => fault "Unterminated string starting at" opening
  | steps + 1, c :: t =>
    if c = '"' then .ok ([], t)
    else if c = '\\' then
      match t with
      | [] => fault "Unterminated string starting at" opening
      | d :: u =>
        if d = 'u' then
          match unit? u with
          | none => fault "Invalid \\uXXXX escape" (d :: u)
          | some (n, v) => do
            let (point, v) ← lowHalf n v
            let (rest, v) ← textFrom opening steps v
            return (point :: rest, v)
        else
          match escaped? d with
          | none => fault "Invalid \\escape" (c :: t)
          | some point => do
            let (rest, v) ← textFrom opening steps u
            return (point :: rest, v)
    else if c.val ≤ 0x1F then fault "Invalid control character at" (c :: t)
    else do
      let (rest, v) ← textFrom opening steps t
      return (c :: rest, v)

/-! ## 3. Numbers -/

/-- The digits at the front, and what follows them. -/
def digits (t : Text) : Text × Text := (t.takeWhile CodePoint.isAsciiDigit, t.dropWhile CodePoint.isAsciiDigit)

/-- The digits of a whole part: a single zero, or digits that do not start with one. -/
def wholeDigits (t : Text) : Text × Text :=
  match t with
  | c :: u => if c = '0' then ([c], u) else digits t
  | [] => ([], [])

/-- A point with digits, if there is one. -/
def fraction (t : Text) : Text × Text :=
  match t with
  | c :: u =>
    let (ds, rest) := digits u
    if c = '.' && !ds.isEmpty then (c :: ds, rest) else ([], t)
  | [] => ([], [])

/-- An exponent with digits, if there is one. -/
def exponent (t : Text) : Text × Text :=
  match t with
  | c :: u =>
    if c = 'e' ∨ c = 'E' then
      let (mark, v) : Text × Text := match u with
        | d :: v => if d = '+' ∨ d = '-' then ([d], v) else ([], u)
        | [] => ([], [])
      let (ds, rest) := digits v
      if ds.isEmpty then ([], t) else (c :: mark ++ ds, rest)
    else ([], t)
  | [] => ([], [])

/-- A number at the front of a text, which is whole unless it has a point or an exponent. -/
def number (t : Text) : Read (Value × Text) :=
  let (mark, u) : Text × Text := match t with
    | c :: u => if c = '-' then ([c], u) else ([], t)
    | [] => ([], [])
  let (ds, u) := wholeDigits u
  if ds.isEmpty then fault "Expecting value" t
  else
    let (f, u) := fraction u
    let (e, u) := exponent u
    if f.isEmpty && e.isEmpty then
      match Numeral.integerOf (mark ++ ds) with
      | .ok n => .ok (.int n, u)
      | .error (.tooLong n) => .error (.failure (.integerTextTooLong n))
      | .error .malformed => fault "Expecting value" t
    else .ok (.real ((Numeral.realOfPlain (mark ++ ds ++ f ++ e)).getD .nan), u)

/-! ## 4. Values -/

/-- The rest after a word at the front. -/
def word? (word : String) (t : Text) : Option Text :=
  let w : Text := word
  if t.startsWith w then some (t.drop w.length) else none

/-- The words that are values in the usual grammar. -/
def words : List (String × Value) := [("null", .null), ("true", .bool true), ("false", .bool false)]

/-- Those that are read, with names for the real numbers that are not finite. -/
def constants : List (String × Value) :=
  words ++
    [("NaN", .real .nan), ("Infinity", .real (.infinite false)), ("-Infinity", .real (.infinite true))]

section

variable (known : List (String × Value))

/-- A value that is neither text nor container. -/
def scalar (t : Text) : Read (Value × Text) :=
  match known.findSome? fun c => (word? c.1 t).map fun rest => (c.2, rest) with
  | some found => .ok found
  | none => number t

/-- How deep containers may be nested. -/
def maxDepth : Nat := 970

mutual

/-- A value at the front of a text.  The first number bounds the steps, those in a text included, and
the second one the depth of nesting. -/
def value : Nat → Nat → Text → Read (Value × Text)
  | 0, _, t => fault "Expecting value" t
  | _, _, [] => fault "Expecting value" []
  | steps + 1, depth, c :: t =>
    if c = '"' then do
      let (text, rest) ← textFrom (c :: t) steps t
      return (.text text, rest)
    else if c = '[' then
      match depth with
      | 0 => .error (.failure (.nestedTooDeep "decoding a JSON array from a unicode string"))
      | depth + 1 =>
        match skipBlanks t with
        | d :: u =>
          if d = ']' then .ok (.list [], u)
          else do
            let (vs, rest) ← elements steps depth (d :: u)
            return (.list vs, rest)
        | [] => fault "Expecting value" []
    else if c = '\x7b' then
      match depth with
      | 0 => .error (.failure (.nestedTooDeep "decoding a JSON object from a unicode string"))
      | depth + 1 =>
        match skipBlanks t with
        | d :: u =>
          if d = '\x7d' then .ok (.dict [], u)
          else do
            let (items, rest) ← entries steps depth (d :: u)
            return (Value.dictOf items, rest)
        | [] => fault "Expecting property name enclosed in double quotes" []
    else scalar known (c :: t)

/-- The elements of an array up to its end. -/
def elements : Nat → Nat → Text → Read (List Value × Text)
  | 0, _, t => fault "Expecting value" t
  | steps + 1, depth, t => do
    let (v, rest) ← value steps depth t
    match skipBlanks rest with
    | c :: u =>
      if c = ']' then return ([v], u)
      else if c = ',' then do
        let (vs, rest) ← elements steps depth (skipBlanks u)
        return (v :: vs, rest)
      else fault "Expecting ',' delimiter" (c :: u)
    | [] => fault "Expecting ',' delimiter" []

/-- The entries of an object up to its end. -/
def entries : Nat → Nat → Text → Read (List (Value × Value) × Text)
  | 0, _, t => fault "Expecting value" t
  | _, _, [] => fault "Expecting property name enclosed in double quotes" []
  | steps + 1, depth, c :: t =>
    if c = '"' then do
      let (key, rest) ← textFrom (c :: t) steps t
      match skipBlanks rest with
      | [] => fault "Expecting ':' delimiter" []
      | d :: u =>
        if d = ':' then do
          let (v, rest) ← value steps depth (skipBlanks u)
          match skipBlanks rest with
          | [] => fault "Expecting ',' delimiter" []
          | e :: w =>
            if e = '\x7d' then return ([(.text key, v)], w)
            else if e = ',' then do
              let (items, rest) ← entries steps depth (skipBlanks w)
              return ((.text key, v) :: items, rest)
            else fault "Expecting ',' delimiter" (e :: w)
        else fault "Expecting ':' delimiter" (d :: u)
    else fault "Expecting property name enclosed in double quotes" (c :: t)

end

/-! ## 5. Documents -/

/-- The place in a text at which so much of it is left. -/
def place (words t : Text) (left : Nat) : JsonError :=
  let before := t.take (t.length - left)
  let line := before.reverse.takeWhile (· ≠ ('\n' : CodePoint))
  ⟨words, before.count ('\n' : CodePoint) + 1, line.length + 1, before.length⟩

/-- The value of a document. -/
def document (t : Text) : Read (Value × Text) := do
  if (t.head?.map Fin.val) = some 0xFEFF then fault "Unexpected UTF-8 BOM (decode using utf-8-sig)" t
  else
    let (v, rest) ← value known (3 * t.length + 3) maxDepth (skipBlanks t)
    match skipBlanks rest with
    | [] => return (v, [])
    | rest => fault "Extra data" rest

end

/-- The value that a text is a document of. -/
def parse (t : Text) : Except Failure Value :=
  match document constants t with
  | .ok (v, _) => .ok v
  | .error (.failure f) => .error f
  | .error (.problem words left) => .error (.malformedJson (place words t left))

end Json

end Keyscope
