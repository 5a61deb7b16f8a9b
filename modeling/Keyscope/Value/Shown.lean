/-
# The text of a value

A value has two texts: the one it stands for (`toText`), and the one that shows what it is
(`shown`), with quotes and brackets.  They differ only for text, errors, dates and times; a
container shows its members.

A number of more than 4300 digits has no text.
-/
import Keyscope.Value.Basic
import Keyscope.Number.Shortest
import Keyscope.Number.Numeral

namespace Keyscope

namespace Value

/-! ## 1. Numbers and times -/

/-- The decimal text of a whole number, unless it is too long. -/
def integerText (n : Int) : Except Failure Text :=
  if n.natAbs < tenTo Numeral.maxDigits then .ok (Decimal.ofInt n) else .error .integerTooLong

/-- Seconds as a span of days and seconds. -/
def spanText (z : Int) : Text :=
  let days := z.fdiv 86400
  let seconds := z.fmod 86400
  let parts : List Text :=
    (if days = 0 then [] else ["days=" ++ Decimal.ofInt days]) ++
      (if seconds = 0 then [] else ["seconds=" ++ Decimal.ofInt seconds])
  "datetime.timedelta(" ++ (if parts.isEmpty then ↑"0" else Text.joinWith ", " parts) ++ ")"

/-- The zone of a moment, as messages list it. -/
def zoneShown (z : Int) : Text :=
  if z = 0 then "datetime.timezone.utc" else "datetime.timezone(" ++ spanText z ++ ")"

def dateShown (d : Date) : Text := "datetime.date(" ++ Text.joinWith ", " d.parts ++ ")"

def momentShown (m : Moment) : Text :=
  let zone : List Text := match m.zone with
    | some z => ["tzinfo=" ++ zoneShown z]
    | Option.none => []
  "datetime.datetime(" ++ Text.joinWith ", " (m.parts ++ zone) ++ ")"

/-! ## 2. All values -/

mutual

/-- The text that shows what a value is. -/
def shown : Value → Except Failure Text
  | null => .ok "None"
  | bool b => .ok (if b then "True" else "False")
  | int n => integerText n
  | real x => .ok x.toText
  | text t => .ok (Quoted.text t)
  | bytes bs => .ok (Quoted.bytes bs)
  | buffer bs => .ok (Quoted.buffer bs)
  | list vs => do return "[" ++ Text.joinWith ", " (← shownAll vs) ++ "]"
  | tuple [v] => do return "(" ++ (← shown v) ++ ",)"
  | tuple vs => do return "(" ++ Text.joinWith ", " (← shownAll vs) ++ ")"
  | set [] => .ok "set()"
  | set vs => do return "\x7b" ++ Text.joinWith ", " (← shownAll vs) ++ "\x7d"
  | dict items => do return "\x7b" ++ Text.joinWith ", " (← shownItems items) ++ "\x7d"
  | error e => .ok e.shown
  | date d => .ok (dateShown d)
  | moment m => .ok (momentShown m)

/-- The shown texts of several values. -/
def shownAll : List Value → Except Failure (List Text)
  | [] => .ok []
  | v :: vs => do return (← shown v) :: (← shownAll vs)

/-- The shown texts of the entries of a dictionary. -/
def shownItems : List (Value × Value) → Except Failure (List Text)
  | [] => .ok []
  | (k, v) :: items => do return ((← shown k) ++ ": " ++ (← shown v)) :: (← shownItems items)

end

/-- The text that a value stands for. -/
def toText : Value → Except Failure Text
  | text t => .ok t
  | error e => .ok e.message
  | date d => .ok d.toText
  | moment m => .ok m.toText
  | v => shown v

/-! ## 3. Byte strings -/

/-- The text to display: byte strings are decoded, each broken run replaced. -/
def decoded : Value → Except Failure Text
  | bytes bs => .ok (Utf8.decodeLossy bs)
  | buffer bs => .ok (Utf8.decodeLossy bs)
  | v => toText v

/-- The text of a key name: byte strings are decoded, each broken byte escaped, so that the
name can be sent back. -/
def keyName : Value → Except Failure Text
  | bytes bs => .ok (Utf8.decodeEscaped bs)
  | buffer bs => .ok (Utf8.decodeEscaped bs)
  | v => toText v

end Value

/-- The bytes of a key name. -/
def encodeKey (key : Text) : Except Failure Bytes :=
  match Utf8.encodeEscaped key with
  | .ok bs => .ok bs
  | .error e => .error (.unencodable e)

end Keyscope
