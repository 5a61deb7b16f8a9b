/-
# Tags

A tag says what a node is.  A plain scalar without one gets the first tag whose form it has: a
truth value, a number, a time, and so on; it is text if it has none of these forms.

Numbers have more forms than usual: octal, binary and hexadecimal digits, underscores, and groups
of base sixty between colons.
-/
import Keyscope.Yaml.Cursor

namespace Keyscope

namespace Yaml

/-- What a node is. -/
inductive Tag where
  | null
  | bool
  | int
  | float
  | binary
  | timestamp
  | text
  | sequence
  | mapping
  | set
  | orderedMap
  | pairs
  /-- The key of entries that are to be merged in. -/
  | merge
  /-- The key of the value that stands for a mapping. -/
  | value
  | unknown
  deriving DecidableEq, Repr

namespace Tag

/-- The expansion of the handle `!!`. -/
def standard : Text := "tag:yaml.org,2002:"

/-- The tags that have names. -/
def named : List (String × Tag) :=
  [("null", null), ("bool", bool), ("int", int), ("float", float), ("binary", binary),
    ("timestamp", timestamp), ("str", text), ("seq", sequence), ("map", mapping), ("set", set),
    ("omap", orderedMap), ("pairs", pairs), ("merge", merge), ("value", value)]

/-- The tag that is written out in full. -/
def ofText (t : Text) : Tag :=
  ((named.find? fun n => t = standard ++ n.1).map (·.2)).getD unknown

end Tag

/-! ## 1. Forms of numbers -/

namespace Form

def isOctal (c : CodePoint) : Bool := 48 ≤ c.val && c.val ≤ 55
def isBinary (c : CodePoint) : Bool := 48 ≤ c.val && c.val ≤ 49
def isHex (c : CodePoint) : Bool := c.hexDigit?.isSome

/-- The text without a sign at its front. -/
def unsigned (t : Text) : Text :=
  match t with
  | c :: u => if c = '+' ∨ c = '-' then u else t
  | [] => []

/-- At least one code point, all of them with the property or underscores. -/
def isRun (p : CodePoint → Bool) (t : Text) : Bool := !t.isEmpty && t.all fun c => p c || c = '_'

/-- Possibly none. -/
def isRun? (p : CodePoint → Bool) (t : Text) : Bool := t.all fun c => p c || c = '_'

/-- A digit of the first class, then such digits and underscores. -/
def startsWithDigit (first : CodePoint → Bool) (t : Text) : Bool :=
  match t with
  | c :: u => first c && isRun? CodePoint.isAsciiDigit u
  | [] => false

def isNonZero (c : CodePoint) : Bool := c.isAsciiDigit && c != '0'

/-- A group of base sixty: one digit, or two of which the first is at most five. -/
def isGroup (t : Text) : Bool :=
  match t with
  | [c] => c.isAsciiDigit
  | [c, d] => 48 ≤ c.val && c.val ≤ 53 && d.isAsciiDigit
  | _ => false

/-- Groups of base sixty after a first group of any size. -/
def isSexagesimal (first : CodePoint → Bool) (t : Text) : Bool :=
  match Text.splitAll ':' t with
  | head :: group :: groups => startsWithDigit first head && (group :: groups).all isGroup
  | _ => false

/-- Whether the text has the form of a whole number. -/
def isInt (t : Text) : Bool :=
  let u := unsigned t
  let body := u.drop 2
  (u.startsWith "0b" && isRun isBinary body) || (u.startsWith "0" && isRun isOctal (u.drop 1)) ||
    u = "0" || startsWithDigit isNonZero u || (u.startsWith "0x" && isRun isHex body) ||
    isSexagesimal isNonZero u

/-- Nothing, or an exponent with a sign. -/
def isExponent? (t : Text) : Bool :=
  match t with
  | [] => true
  | e :: s :: ds =>
    (e = 'e' || e = 'E') && (s = '+' || s = '-') && !ds.isEmpty && ds.all CodePoint.isAsciiDigit
  | _ => false

/-- Digits and underscores, and nothing or an exponent behind them. -/
def isFraction (t : Text) : Bool :=
  isExponent? (t.dropWhile fun c => c.isAsciiDigit || c = '_')

/-- Whether the text has the form of a real number. -/
def isFloat (t : Text) : Bool :=
  let u := unsigned t
  match Text.splitFirst '.' u with
  | (_, none) => false
  | ([], some after) =>
    (t = u && (after.head?.any CodePoint.isAsciiDigit) && isFraction after) ||
      after = "inf" || after = "Inf" || after = "INF" ||
      (t = u && (after = "nan" || after = "NaN" || after = "NAN"))
  | (whole, some after) =>
    (startsWithDigit CodePoint.isAsciiDigit whole && isFraction after) ||
      (isSexagesimal CodePoint.isAsciiDigit whole && isRun? CodePoint.isAsciiDigit after)

end Form

/-! ## 2. Forms of times -/

/-- The parts of a time as written. -/
structure TimeParts where
  year : Nat
  month : Nat
  day : Nat
  /-- Hour, minute and second. -/
  clock : Option (Nat × Nat × Nat)
  /-- The digits of the fraction of a second. -/
  fraction : Text
  /-- The sign, hours and minutes of the zone; `Z` has no sign. -/
  zone : Option (Option Bool × Nat × Nat)
  /-- Whether month and day have two digits each. -/
  fullDate : Bool
  deriving Repr

namespace TimeParts

/-- So many digits at least and at most. -/
def digits? (least most : Nat) (t : Text) : Option (Nat × Nat × Text) :=
  let ds := (t.take most).takeWhile CodePoint.isAsciiDigit
  if ds.length < least then none
  else some (ds.foldl (fun n d => 10 * n + (d.val - 48)) 0, ds.length, t.drop ds.length)

/-- The text after a code point at its front. -/
def after? (c : CodePoint) (t : Text) : Option Text :=
  match t with
  | d :: u => if d = c then some u else none
  | [] => none

def isGap (c : CodePoint) : Bool := c = ' ' || c = '\t'

/-- The zone at the end of a time. -/
def zone? (t : Text) : Option (Option (Option Bool × Nat × Nat)) :=
  if t.isEmpty then some none
  else
    match t.dropWhile isGap with
    | [] => none
    | c :: u =>
      if c = 'Z' then (if u.isEmpty then some (some (none, 0, 0)) else none)
      else if c = '+' ∨ c = '-' then do
        let (hours, _, u) ← digits? 1 2 u
        if u.isEmpty then some (some (some (c = '-'), hours, 0))
        else
          let u ← after? ':' u
          let (minutes, _, u) ← digits? 2 2 u
          if u.isEmpty then some (some (some (c = '-'), hours, minutes)) else none
      else none

/-- The fraction of a second, if there is one. -/
def splitFraction (t : Text) : Text × Text :=
  match t with
  | c :: u =>
    if c = '.' then (u.takeWhile CodePoint.isAsciiDigit, u.dropWhile CodePoint.isAsciiDigit)
    else ([], t)
  | [] => ([], [])

/-- The gap between date and clock. -/
def gap? (t : Text) : Option Text :=
  match t with
  | c :: u =>
    if c = 'T' ∨ c = 't' then some u
    else if isGap c then some (u.dropWhile isGap)
    else none
  | [] => none

/-- The parts of a text that has the form of a time. -/
def ofText? (t : Text) : Option TimeParts := do
  let (year, _, u) ← digits? 4 4 t
  let u ← after? '-' u
  let (month, a, u) ← digits? 1 2 u
  let u ← after? '-' u
  let (day, b, u) ← digits? 1 2 u
  let fullDate := a = 2 && b = 2
  if u.isEmpty then return ⟨year, month, day, none, [], none, fullDate⟩
  else
    let u ← gap? u
    let (hour, _, u) ← digits? 1 2 u
    let u ← after? ':' u
    let (minute, _, u) ← digits? 2 2 u
    let u ← after? ':' u
    let (second, _, u) ← digits? 2 2 u
    let (fraction, u) := splitFraction u
    let zone ← zone? u
    return ⟨year, month, day, some (hour, minute, second), fraction, zone, fullDate⟩

/-- Whether a plain scalar with these parts is a time: a date alone needs all its digits. -/
def isPlain (p : TimeParts) : Bool := p.clock.isSome || p.fullDate

end TimeParts

/-! ## 3. The tag of a plain scalar -/

/-- Without a line feed at the end, which no form minds. -/
def withoutBreak (t : Text) : Text := if t.getLast? = some ('\n' : CodePoint) then t.dropLast else t

/-- Truth values, in the spellings that count. -/
def boolWords : List String :=
  ["yes", "Yes", "YES", "no", "No", "NO", "true", "True", "TRUE", "false", "False", "FALSE", "on",
    "On", "ON", "off", "Off", "OFF"]

def nullWords : List String := ["", "~", "null", "Null", "NULL"]

/-- The tag of a scalar by its form alone.  A line feed by itself has no form. -/
def Tag.ofForm (text : Text) : Tag :=
  let t := withoutBreak text
  if text = "\n" then Tag.text
  else if boolWords.any fun w => t = w then bool
  else if Form.isFloat t then float
  else if Form.isInt t then int
  else if t = "<<" then merge
  else if nullWords.any fun w => t = w then null
  else if (TimeParts.ofText? t).any TimeParts.isPlain then timestamp
  else if t = "=" then value
  else if t = "!" ∨ t = "&" ∨ t = "*" then unknown
  else Tag.text

end Yaml

end Keyscope
