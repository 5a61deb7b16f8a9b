/-
# Values

What a server answers, what a configuration holds and what a telemetry dump lists has no fixed
shape.  A value is one of a few scalars, a container of values, or an error that came back in
the place of a value.

The order of a dictionary is the order in which its keys arrived; `Value.put` is the only way
one grows, so no key is there twice.
-/
import Keyscope.Failure
import Keyscope.Calendar
import Keyscope.Number.Quantity

namespace Keyscope

/-- A value of no particular shape. -/
inductive Value where
  | null
  | bool (b : Bool)
  | int (n : Int)
  | real (x : Binary64)
  | text (t : Text)
  /-- A byte string. -/
  | bytes (bs : Bytes)
  /-- A byte string that could be changed. -/
  | buffer (bs : Bytes)
  | list (vs : List Value)
  | tuple (vs : List Value)
  | set (vs : List Value)
  | dict (items : List (Value × Value))
  /-- An error in the place of a value. -/
  | error (e : RemoteError)
  | date (d : Date)
  | moment (m : Moment)
  deriving Inhabited, Repr

namespace Value

/-! ## 1. Kinds -/

/-- The name of a value's kind, as messages give it. -/
def kind : Value → Text
  | null => "NoneType"
  | bool _ => "bool"
  | int _ => "int"
  | real _ => "float"
  | text _ => "str"
  | bytes _ => "bytes"
  | buffer _ => "bytearray"
  | list _ => "list"
  | tuple _ => "tuple"
  | set _ => "set"
  | dict _ => "dict"
  | error e => e.name
  | date _ => "datetime.date"
  | moment _ => "datetime.datetime"

/-- The last part of the name of a value's kind. -/
def shortKind : Value → Text
  | date _ => "date"
  | moment _ => "datetime"
  | v => kind v

/-- Null, zero, and whatever is empty count as missing. -/
def isPresent : Value → Bool
  | null => false
  | bool b => b
  | int n => n != 0
  | real x => !x.same 0
  | text t => !t.isEmpty
  | bytes bs => !bs.isEmpty
  | buffer bs => !bs.isEmpty
  | list vs => !vs.isEmpty
  | tuple vs => !vs.isEmpty
  | set vs => !vs.isEmpty
  | dict items => !items.isEmpty
  | error _ => true
  | date _ => true
  | moment _ => true

def isNull : Value → Bool
  | null => true
  | _ => false

def isBool : Value → Bool
  | bool _ => true
  | _ => false

/-- The error in the place of a value, if it means that something failed. -/
def failure? : Value → Option Failure
  | error e => if h : e.isFailure = true then some (.remote e h) else Option.none
  | _ => Option.none

/-- The value of a quantity. -/
def ofQuantity : Quantity → Value
  | .whole n => int n
  | .real x => real x

/-! ## 2. Keys -/

/-- A boolean, a whole number or a real number as an exact number; two such keys are one key
when the numbers are equal. -/
def numberEq (a : Int) : Binary64 → Bool
  | .finite s m q => Binary64.same (.finite s m q) (Binary64.ofInt a) && (Binary64.truncate? (.finite s m q) == some a)
  | _ => false

mutual

/-- Whether two values are the same key. -/
def sameKey : Value → Value → Bool
  | null, null => true
  | bool a, bool b => a == b
  | bool a, int b => (if a then 1 else 0) == b
  | int a, bool b => a == (if b then 1 else 0)
  | int a, int b => a == b
  | bool a, real y => numberEq (if a then 1 else 0) y
  | real x, bool b => numberEq (if b then 1 else 0) x
  | int a, real y => numberEq a y
  | real x, int b => numberEq b x
  | real x, real y => x.same y
  | text a, text b => a == b
  | bytes a, bytes b => a == b
  | tuple a, tuple b => sameKeys a b
  | date a, date b => a == b
  | moment a, moment b => a.same b
  | _, _ => false

/-- Whether two tuples of keys are the same one. -/
def sameKeys : List Value → List Value → Bool
  | [], [] => true
  | a :: as, b :: bs => sameKey a b && sameKeys as bs
  | _, _ => false

end

mutual

/-- The kind that keeps a value from being a key, if there is one: keys cannot change. -/
def changeable? : Value → Option Text
  | buffer bs => some (kind (buffer bs))
  | list vs => some (kind (list vs))
  | set vs => some (kind (set vs))
  | dict items => some (kind (dict items))
  | tuple vs => anyChangeable? vs
  | _ => Option.none

/-- The first such kind in a tuple. -/
def anyChangeable? : List Value → Option Text
  | [] => Option.none
  | v :: vs => (changeable? v).or (anyChangeable? vs)

end

/-! ## 3. Dictionaries -/

/-- The value under a key. -/
def find? (key : Value) : List (Value × Value) → Option Value
  | [] => Option.none
  | (k, v) :: items => if sameKey k key then some v else find? key items

/-- The value under a name. -/
def field? (name : Text) (items : List (Value × Value)) : Option Value := find? (text name) items

/-- Sets the value under a key: in the key's place, or at the end. -/
def put (key value : Value) : List (Value × Value) → List (Value × Value)
  | [] => [(key, value)]
  | (k, v) :: items => if sameKey k key then (k, value) :: items else (k, v) :: put key value items

/-- The dictionary of pairs in order; a later pair replaces the value of an earlier one. -/
def dictOf (pairs : List (Value × Value)) : Value :=
  dict (pairs.foldl (fun items p => put p.1 p.2 items) [])

end Value

end Keyscope
