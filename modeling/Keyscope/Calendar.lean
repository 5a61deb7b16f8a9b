/-
# Dates and times

A configuration may hold dates and times where a name is expected.  They have two written
forms: the one a person reads, and the one that messages show.
-/
import Keyscope.Number.Decimal

namespace Keyscope

/-- A day of the proleptic Gregorian calendar. -/
structure Date where
  year : Nat
  month : Nat
  day : Nat
  deriving DecidableEq, Repr

namespace Date

def isLeap (year : Nat) : Bool := year % 4 == 0 && (year % 100 != 0 || year % 400 == 0)

/-- The number of days of a month. -/
def daysIn (year month : Nat) : Nat :=
  if month = 2 then (if isLeap year then 29 else 28)
  else if month = 4 ∨ month = 6 ∨ month = 9 ∨ month = 11 then 30
  else 31

/-- The day, if there is one: years run from 1 to 9999. -/
def make? (year month day : Nat) : Option Date :=
  if 1 ≤ year ∧ year ≤ 9999 ∧ 1 ≤ month ∧ month ≤ 12 ∧ 1 ≤ day ∧ day ≤ daysIn year month then
    some ⟨year, month, day⟩
  else none

/-- `2024-01-02`. -/
def toText (d : Date) : Text :=
  Decimal.padded 4 d.year ++ "-" ++ Decimal.padded 2 d.month ++ "-" ++ Decimal.padded 2 d.day

/-- The number of days before the first day of a year. -/
def daysBefore (year : Nat) : Nat :=
  let n := year - 1
  365 * n + n / 4 - n / 100 + n / 400

/-- The number of the day, counted from the first day of the year 1. -/
def index (d : Date) : Nat :=
  let before := (List.range (d.month - 1)).foldl (fun days m => days + daysIn d.year (m + 1)) 0
  daysBefore d.year + (before + (d.day - 1))

/-- The three numbers, as messages list them. -/
def parts (d : Date) : List Text := [d.year, d.month, d.day].map Decimal.ofNat

end Date

/-- A day with a time, and the offset of its zone from universal time in seconds, if it has a
zone. -/
structure Moment where
  date : Date
  hour : Nat
  minute : Nat
  second : Nat
  microsecond : Nat
  zone : Option Int
  deriving DecidableEq, Repr

namespace Moment

/-- The moment, if the clock has such a time and the zone is less than a day away. -/
def make? (date : Date) (hour minute second microsecond : Nat) (zone : Option Int) :
    Option Moment :=
  if hour < 24 ∧ minute < 60 ∧ second < 60 ∧ microsecond < 1000000 ∧
      zone.all (fun z => -86400 < z && z < 86400) then
    some ⟨date, hour, minute, second, microsecond, zone⟩
  else none

/-- The number of seconds since the first day of the year 1, as the clock shows them. -/
def clockSeconds (m : Moment) : Int :=
  86400 * (m.date.index : Int) + (3600 * m.hour + 60 * m.minute + m.second : Nat)

/-- Whether two moments are the same one.  The clocks of two zones may differ; a moment without a
zone is never the same as one with a zone. -/
def same (a b : Moment) : Bool :=
  match a.zone, b.zone with
  | some y, some z => a.clockSeconds - y = b.clockSeconds - z && a.microsecond = b.microsecond
  | none, none => a = b
  | _, _ => false

/-- `+01:30`. -/
def zoneText (z : Int) : Text :=
  let n := z.natAbs
  (if z < 0 then "-" else "+") ++ Decimal.padded 2 (n / 3600) ++ ":" ++ Decimal.padded 2 (n / 60 % 60)

/-- `2024-01-02 03:04:05.000006+01:30`; the fraction and the zone only where there are any. -/
def toText (m : Moment) : Text :=
  let fraction : Text := if m.microsecond = 0 then [] else "." ++ Decimal.padded 6 m.microsecond
  let zone : Text := match m.zone with
    | some z => zoneText z
    | none => []
  m.date.toText ++ " " ++ Decimal.padded 2 m.hour ++ ":" ++ Decimal.padded 2 m.minute ++ ":" ++
    Decimal.padded 2 m.second ++ fraction ++ zone

/-- The numbers, as messages list them: no zero second or microsecond at the end. -/
def parts (m : Moment) : List Text :=
  let small : List Nat :=
    if m.microsecond = 0 then (if m.second = 0 then [] else [m.second])
    else [m.second, m.microsecond]
  m.date.parts ++ ([m.hour, m.minute] ++ small).map Decimal.ofNat

end Moment

end Keyscope
