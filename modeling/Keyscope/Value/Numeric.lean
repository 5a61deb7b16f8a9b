/-
# Values as numbers

Whole numbers are read from numbers, booleans, text and bytes; a real number loses its
fraction.  Real numbers are read from the same values.

Only numbers and booleans are numbers themselves: these can be compared and added up.
-/
import Keyscope.Value.Shown

namespace Keyscope

namespace Value

/-! ## 1. Numbers that values give -/

/-- Bytes taken as code points, one each. -/
def latin (bs : Bytes) : Text := bs.map fun b => .ofNat b.toNat

/-- A whole number, or why there is none: how to show the text is up to the reader. -/
def integerOr (shown : Text) : Except Numeral.Refusal Int → Except Failure Int
  | .ok n => .ok n
  | .error .malformed => .error (.malformedInteger shown)
  | .error (.tooLong digits) => .error (.integerTextTooLong digits)

/-- The whole number that a value gives. -/
def toInteger (v : Value) : Except Failure Int :=
  match v with
  | int n => .ok n
  | bool b => .ok (if b then 1 else 0)
  | real .nan => .error .nanToInteger
  | real (.infinite _) => .error .infinityToInteger
  | real x => .ok (x.truncate?.getD 0)
  | text t => integerOr (Quoted.text t) (Numeral.integer t)
  | bytes bs => integerOr (Quoted.bytes (bs.take 200)) (Numeral.integerOf (latin bs))
  | buffer bs => integerOr (Quoted.bytes (bs.take 200)) (Numeral.integerOf (latin bs))
  | _ => .error (.notAnInteger v.kind)

/-- A real number, or the text that is none. -/
def realOr (shown : Text) : Option Binary64 → Except Failure Binary64
  | some x => .ok x
  | Option.none => .error (.malformedReal shown)

/-- The real number that a value gives. -/
def toReal (v : Value) : Except Failure Binary64 :=
  match v with
  | real x => .ok x
  | int n =>
    match Binary64.ofInt n with
    | .infinite _ => .error .integerTooLarge
    | x => .ok x
  | bool b => .ok (if b then 1 else 0)
  | text t => realOr (Quoted.text t) (Numeral.real t)
  | bytes bs => realOr (Quoted.bytes bs) (Numeral.realOfPlain (latin bs))
  | buffer bs => realOr (Quoted.buffer bs) (Numeral.realOfPlain (latin bs))
  | _ => .error (.notAReal v.kind)

/-! ## 2. Numbers that values are -/

/-- The number that a value is; a truth value is one or zero. -/
def quantity? : Value → Option Quantity
  | bool b => some (.whole (if b then 1 else 0))
  | int n => some (.whole n)
  | real x => some (.real x)
  | _ => Option.none

/-- Compares two values, which must be numbers. -/
def compare (sign : Text) (test : Quantity → Quantity → Bool) (a b : Value) : Except Failure Bool :=
  match a.quantity?, b.quantity? with
  | some x, some y => .ok (test x y)
  | _, _ => .error (.notComparable sign a.kind b.kind)

/-- Whether the first number is smaller. -/
def lt (a b : Value) : Except Failure Bool := compare "<" Quantity.lt a b

/-- Whether the first number is smaller or equal. -/
def le (a b : Value) : Except Failure Bool := compare "<=" Quantity.le a b

/-- Whether the first number is larger. -/
def gt (a b : Value) : Except Failure Bool := compare ">" (fun x y => Quantity.lt y x) a b

/-- Whether the first number is larger or equal. -/
def ge (a b : Value) : Except Failure Bool := compare ">=" (fun x y => Quantity.le y x) a b

/-- A number as a real number. -/
def number (v : Value) : Except Failure Binary64 :=
  match v.quantity? with
  | Option.none => .error (.notANumber v.kind)
  | some q =>
    match q.real? with
    | Option.none => .error .integerTooLarge
    | some x => .ok x

/-! ## 3. Sums and means -/

/-- Adds a value to a sum so far. -/
def addTo (sum : Quantity) (v : Value) : Except Failure Quantity :=
  match v.quantity? with
  | Option.none => .error (.notAddable (ofQuantity sum).kind v.kind)
  | some q =>
    match sum.add? q with
    | Option.none => .error .integerTooLarge
    | some next => .ok next

/-- The sum from left to right, starting at zero. -/
def total (vs : List Value) : Except Failure Quantity := vs.foldlM addTo 0

/-- The mean of values, of which there are so many. -/
def meanOf (n : Nat) (sum : Quantity) : Except Failure Binary64 :=
  match sum.over? n with
  | Option.none => .error .quotientTooLarge
  | some x => .ok x

end Value

end Keyscope
