/-
# Taking values apart

A reply is only expected to have a shape.  Each way of taking one apart says what is wrong with
a value that has another shape.
-/
import Keyscope.Value.Basic

namespace Keyscope

namespace Value

/-- The members one after the other: of a text its characters, of a byte string its bytes as
numbers, of a dictionary its keys. -/
def members? : Value → Option (List Value)
  | list vs => some vs
  | tuple vs => some vs
  | set vs => some vs
  | dict items => some (items.map (·.1))
  | text t => some (t.map fun c => text [c])
  | bytes bs => some (bs.map fun b => int b.toNat)
  | buffer bs => some (bs.map fun b => int b.toNat)
  | _ => Option.none

/-- The members of a value that must have some. -/
def members (v : Value) : Except Failure (List Value) :=
  match v.members? with
  | some vs => .ok vs
  | Option.none => .error (.notIterable v.kind)

/-- The two members of a value that must have exactly two. -/
def pair (v : Value) : Except Failure (Value × Value) :=
  match v.members? with
  | Option.none => .error (.notUnpackable v.kind)
  | some [a, b] => .ok (a, b)
  | some [] => .error (.tooFewParts 2 0)
  | some [_] => .error (.tooFewParts 2 1)
  | some _ => .error (.tooManyParts 2)

/-- How many members a value has. -/
def size (v : Value) : Except Failure Nat :=
  match v.members? with
  | some vs => .ok vs.length
  | Option.none => .error (.noLength v.kind)

/-- What messages call a sequence that is too short. -/
def sequenceName : Value → Text
  | list _ => "list "
  | tuple _ => "tuple "
  | text _ => "string "
  | buffer _ => "bytearray "
  | _ => []

/-- The member of a sequence at a position, or the value that a dictionary has under that
number. -/
def memberAt (v : Value) (i : Nat) : Except Failure Value :=
  match v with
  | dict items =>
    match find? (int i) items with
    | some w => .ok w
    | Option.none => .error (.missingKey (Decimal.ofNat i))
  | set _ => .error (.notIndexable v.kind)
  | _ =>
    match v.members? with
    | Option.none => .error (.notIndexable v.kind)
    | some vs =>
      match vs[i]? with
      | some w => .ok w
      | Option.none => .error (.indexOutOfRange v.sequenceName)

/-- Member `i` of a sequence; one that is missing is null. -/
def memberOrNull (v : Value) (i : Nat) : Except Failure Value := do
  if i < (← v.size) then v.memberAt i else return null

/-- The entries of a dictionary. -/
def entries (v : Value) : Except Failure (List (Value × Value)) :=
  match v with
  | dict items => .ok items
  | _ => .error (.noAttribute v.kind "items")

end Value

end Keyscope
