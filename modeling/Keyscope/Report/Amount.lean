/-
# Amounts

How times, rates, counts and long texts are shown in a table.  They may come from outside, so each
of them is a value of any kind; one that cannot be shown this way is refused.
-/
import Keyscope.Number.Places
import Keyscope.Preview

namespace Keyscope

namespace Amount

/-! ## 1. Numbers -/

/-- A quantity as a real number, if it is in the range of these. -/
def realOf (q : Quantity) : Except Failure Binary64 :=
  match q.real? with
  | some x => .ok x
  | none => .error .integerTooLarge

/-- One place behind the point. -/
def onePlace (q : Quantity) : Except Failure Text := do return (← realOf q).fixed 1

/-- The number that an amount must be. -/
def quantityOf (v : Value) : Except Failure Quantity :=
  match v with
  | .text _ => .error .textAsAmount
  | _ =>
    match v.quantity? with
    | some q => .ok q
    | none => .error (.notAnAmount v.kind)

/-- Milliseconds, or a dash where there are none. -/
def latency (v : Value) : Except Failure Text := do
  if v.isNull then return "-" else return (← onePlace (← quantityOf v)) ++ " ms"

/-- The text of a real number with its whole part in groups of three digits. -/
def groupedReal (x : Binary64) : Text :=
  let t := x.toText
  let minus := t.takeWhile (· = ('-' : CodePoint))
  let rest := t.drop minus.length
  let digits := rest.takeWhile CodePoint.isAsciiDigit
  minus ++ Decimal.group digits ++ rest.drop digits.length

/-- A count in groups of three digits. -/
def count (v : Value) : Except Failure Text :=
  match v with
  | .text _ => .error .groupedText
  | _ =>
    match v.quantity? with
    | some (.whole n) => do
      let _ ← Value.integerText n
      return Decimal.grouped n
    | some (.real x) => .ok (groupedReal x)
    | none => .error (.notAnAmount v.kind)

/-! ## 2. Times and rates -/

/-- A number of seconds in a unit of so many seconds. -/
def inUnits (q : Quantity) (unit : Nat) (name : Text) : Except Failure Text :=
  match q.over? unit with
  | none => .error .quotientTooLarge
  | some x => .ok (x.fixed 1 ++ name)

/-- A lifetime in the largest unit that fits. -/
def span (v : Value) (q : Quantity) : Except Failure Text :=
  if q.lt 60 then do return (← v.toText) ++ "s"
  else if q.lt 3600 then inUnits q 60 "m"
  else inUnits q 3600 "h"

/-- A lifetime: without end, unknown, or a number of seconds. -/
def lifetime (v : Value) : Except Failure Text :=
  match v.quantity? with
  | none => .error (.notComparable "<" v.kind "int")
  | some q =>
    if q.same (.whole (-1)) then .ok "∞"
    else if q.lt 0 then .ok "?"
    else span v q

/-- The units of a rate, each 1024 of the one before. -/
def rateUnits : List String := ["B/s", "KB/s", "MB/s", "GB/s"]

/-- The magnitude is below 1024. -/
def isSmall : Quantity → Bool
  | .whole n => n.natAbs < 1024
  | .real x => x.abs.lt 1024

/-- A rate in the first unit in which it is small, or in the largest one. -/
def rateIn : List String → Quantity → Except Failure Text
  | [], q => do return (← onePlace q) ++ " TB/s"
  | unit :: units, q => do
    if isSmall q then return (← onePlace q) ++ " " ++ (unit : Text)
    else rateIn units (.real ((← realOf q) / 1024))

/-- A number of bytes per second. -/
def rate (v : Value) : Except Failure Text := do
  if (← v.number).isNaN then return "n/a" else rateIn rateUnits (v.quantity?.getD 0)

/-! ## 3. Long texts -/

/-- A line cut at a width, which must be a whole number. -/
def cut (line : Text) (width : Value) : Except Failure Text :=
  match width.quantity? with
  | some (.whole n) => .ok (Preview.upTo line n ++ "…")
  | _ => .error .notAPosition

/-- The text of a payload. -/
def payloadOf (v : Value) : Except Failure Text :=
  match v with
  | .text t => .ok t
  | .bytes _ => .error .textForBytes
  | .buffer _ => .error .textForBytes
  | _ => .error (.noAttribute v.kind "split")

/-- The first line of a payload up to a width, with a mark if that is not all. -/
def firstLine (payload width : Value) : Except Failure Text := do
  let (line, rest) := Text.splitFirst '\n' (← payloadOf payload)
  if (← (Value.int line.length).gt width) || rest.isSome then cut line width else return line

end Amount

end Keyscope
