/-
# Scalars of YAML

The value of a scalar with a given tag.  A scalar whose text does not have the form that its tag
asks for has no value.
-/
import Keyscope.Yaml.Tag
import Keyscope.Value.Numeric

namespace Keyscope

namespace Yaml

namespace Scalar

/-! ## 1. Numbers -/

/-- The text without underscores. -/
def compact (t : Text) : Text := t.filter (· ≠ ('_' : CodePoint))

/-- A sign at the front, and the rest. -/
def signed (t : Text) : Bool × Text :=
  match t with
  | c :: u => if c = '-' then (true, u) else if c = '+' then (false, u) else (false, t)
  | [] => (false, [])

/-- The number that digits of a base spell, of which there is at least one. -/
def digits? (base : Nat) (t : Text) : Option Nat :=
  if t.isEmpty then none
  else t.foldl (fun n c => do
    let n ← n
    let d ← c.hexDigit?
    if d < base then some (base * n + d) else none) (some 0)

/-- The letter that may stand behind a zero in front of digits of a base. -/
def baseLetters (base : Nat) : String := if base = 2 then "bB" else if base = 8 then "oO" else "xX"

/-- Digits of a base with an optional sign and an optional mark of the base.  Decimal digits and
blanks of all scripts count. -/
def inBase? (base : Nat) (t : Text) : Option Int :=
  let (negative, u) := signed (Numeral.plain t).stripAscii
  let u := match u with
    | z :: l :: v => if z = '0' && isOneOf l (baseLetters base) then v else u
    | _ => u
  (digits? base u).map fun n => if negative then -(n : Int) else n

/-- A whole number in decimal digits. -/
def decimal? (t : Text) : Option Int := (Numeral.integer t).toOption

/-- The sum of groups, each worth sixty times the next one. -/
def sixties (groups : List Int) : Int := groups.foldl (fun n g => 60 * n + g) 0

/-- A whole number without its sign. -/
def unsignedInt? (t : Text) : Option Int :=
  if t.isEmpty then none
  else if t = "0" then some 0
  else if t.startsWith "0b" then inBase? 2 (t.drop 2)
  else if t.startsWith "0x" then inBase? 16 (t.drop 2)
  else if t.startsWith "0" then inBase? 8 t
  else if t.contains ':' then (Text.splitAll ':' t).mapM decimal? |>.map sixties
  else decimal? t

/-- A whole number. -/
def int? (t : Text) : Option Int :=
  let u := compact t
  let (negative, v) := signed u
  (unsignedInt? v).map fun n => if negative then -n else n

/-- The sum of real groups, the last one first, each worth sixty times the one before.  What a
group is worth must be in the range of real numbers. -/
def realSixties? : Int → Binary64 → List Binary64 → Option Binary64
  | _, sum, [] => some sum
  | weight, sum, g :: groups =>
    match Binary64.ofInt weight with
    | .infinite _ => none
    | w => realSixties? (weight * 60) (sum + g * w) groups

/-- A real number without its sign. -/
def unsignedReal? (t : Text) : Option Binary64 :=
  if t = ".inf" then some (.infinite false)
  else if t = ".nan" then some .nan
  else if t.contains ':' then do realSixties? 1 0 (← (Text.splitAll ':' t).mapM Numeral.real).reverse
  else Numeral.real t

/-- Whether a text is the word for what is no number.  It spells one and the same value in every
place. -/
def isNaNWord (t : Text) : Bool := (signed (compact t).asciiLower).2 = ".nan"

/-- A real number. -/
def real? (t : Text) : Option Binary64 :=
  let u := (compact t).asciiLower
  if u.isEmpty then none
  else
    let (negative, v) := signed u
    (unsignedReal? v).map fun x => if negative then -x else x

/-! ## 2. Truth values and times -/

def bool? (t : Text) : Option Bool :=
  let u := t.asciiLower
  if ["yes", "true", "on"].any fun w => u = Text.ofString w then some true
  else if ["no", "false", "off"].any fun w => u = Text.ofString w then some false
  else none

/-- The first six digits of a fraction of a second. -/
def microseconds (fraction : Text) : Nat :=
  Decimal.value ((fraction ++ Text.replicate 6 '0').take 6)

/-- Seconds of a zone. -/
def zoneSeconds : Option Bool × Nat × Nat → Int
  | (none, _, _) => 0
  | (some negative, hours, minutes) =>
    let n : Int := 3600 * hours + 60 * minutes
    if negative then -n else n

/-- A date, or a date with a time. -/
def time? (t : Text) : Option Value := do
  let p ← TimeParts.ofText? (withoutBreak t)
  let date ← Date.make? p.year p.month p.day
  match p.clock with
  | none => return .date date
  | some (hour, minute, second) =>
    let m ← Moment.make? date hour minute second (microseconds p.fraction) (p.zone.map zoneSeconds)
    return .moment m

/-! ## 3. Bytes -/

/-- The six bits of a letter of base sixty-four. -/
def sextet? (c : CodePoint) : Option Nat :=
  let n := c.val
  if 65 ≤ n && n ≤ 90 then some (n - 65)
  else if 97 ≤ n && n ≤ 122 then some (n - 71)
  else if 48 ≤ n && n ≤ 57 then some (n + 4)
  else if c = '+' then some 62
  else if c = '/' then some 63
  else none

/-- The bytes of letters, given how many of a group of four were read, the bits that are left of
them, and how many pads followed.  Other characters are skipped; a group must not end early. -/
def base64From : Nat → Nat → Nat → Text → Option Bytes
  | count, _, _, [] => if count = 0 then some [] else none
  | count, bits, pads, c :: t =>
    if c = '=' then
      if 2 ≤ count && 4 ≤ count + pads + 1 then some []
      else base64From count bits (if 2 ≤ count then pads + 1 else pads) t
    else
      match sextet? c with
      | none => base64From count bits pads t
      | some n =>
        match count with
        | 0 => base64From 1 n 0 t
        | 1 => (base64From 2 (n % 16) 0 t).map (.ofNat (bits * 4 + n / 16) :: ·)
        | 2 => (base64From 3 (n % 4) 0 t).map (.ofNat (bits * 16 + n / 4) :: ·)
        | _ => (base64From 0 0 0 t).map (.ofNat (bits * 64 + n) :: ·)

/-- The bytes of an ASCII text in base sixty-four. -/
def bytes? (t : Text) : Option Bytes :=
  if t.all fun c => c.val < 128 then base64From 0 0 0 t else none

end Scalar

/-- The value of a scalar with a tag. -/
def Scalar.value? (tag : Tag) (t : Text) : Option Value :=
  match tag with
  | .null => some .null
  | .bool => (bool? t).map .bool
  | .int => (int? t).map .int
  | .float => (real? t).map .real
  | .binary => (bytes? t).map .bytes
  | .timestamp => time? t
  | .text => some (.text t)
  | _ => none

end Yaml

end Keyscope
