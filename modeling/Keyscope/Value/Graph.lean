/-
# Values that share parts

The parts of a document may stand in several places at once, and a container may even be a part of
itself.  Such values are kept apart from each other in the cells of a graph, and a container only
names the cells of its parts.

A text that shows such a value shows a shared part in every place; where a container is met again
inside itself, three dots stand for it.
-/
import Keyscope.Value.Numeric

namespace Keyscope

/-- One value of a graph. -/
inductive Cell where
  /-- A value with no parts of its own in the graph. -/
  | leaf (v : Value)
  | list (places : List Nat)
  | tuple (places : List Nat)
  /-- The keys of a dictionary are leaves. -/
  | dict (entries : List (Nat × Nat))
  deriving Inhabited, Repr

/-- Cells by their places. -/
abbrev Graph := Array Cell

/-- A value of a graph, by its place. -/
structure Ref where
  graph : Graph
  place : Nat
  deriving Repr

namespace Graph

/-- The cell at a place. -/
def cell (g : Graph) (place : Nat) : Cell := g.getD place (.leaf .null)

/-- The leaf at a place; a container is no leaf. -/
def leaf? (g : Graph) (place : Nat) : Option Value :=
  match g.cell place with
  | .leaf v => some v
  | _ => none

/-- Sets the value under a key: in the key's place, or at the end.  Two keys are one if they are
in one place or if they are the same value. -/
def put (g : Graph) (key value : Nat) : List (Nat × Nat) → List (Nat × Nat)
  | [] => [(key, value)]
  | (k, v) :: entries =>
    let same := k = key ||
      match g.leaf? k, g.leaf? key with
      | some a, some b => a.sameKey b
      | _, _ => false
    if same then (k, value) :: entries else (k, v) :: put g key value entries

/-! ## 1. Texts -/

/-- How many containers that lie in each other a text can show. -/
def maxShown : Nat := 980

/-- The text that shows the value at a place.  `inside` are the containers that it is a part of;
the first number says how many more may lie in each other. -/
def shownFrom (g : Graph) : Nat → List Nat → Nat → Except Failure Text
  | 0, _, _ => .error (.nestedTooDeep "getting the repr of an object")
  | depth + 1, inside, place =>
    let part := shownFrom g depth (place :: inside)
    match g.cell place with
    | .leaf v => v.shown
    | .list places =>
      if inside.contains place then .ok "[...]"
      else do return "[" ++ Text.joinWith ", " (← places.mapM part) ++ "]"
    | .tuple places =>
      if inside.contains place then .ok "(...)"
      else do
        let parts ← places.mapM part
        return "(" ++ Text.joinWith ", " parts ++ (if parts.length = 1 then ",)" else ")")
    | .dict entries =>
      if inside.contains place then .ok "\x7b...\x7d"
      else do
        let items ← entries.mapM fun e => do return (← part e.1) ++ ": " ++ (← part e.2)
        return "\x7b" ++ Text.joinWith ", " items ++ "\x7d"

end Graph

namespace Ref

/-- A value with no parts in the graph. -/
def ofValue (v : Value) : Ref := ⟨#[.leaf v], 0⟩

/-- The cell of a value. -/
def cell (r : Ref) : Cell := r.graph.cell r.place

/-- Another value of the same graph. -/
def part (r : Ref) (place : Nat) : Ref := ⟨r.graph, place⟩

/-! ## 2. What a value is -/

/-- The name of a value's kind, as messages give it. -/
def kind (r : Ref) : Text :=
  match r.cell with
  | .leaf v => v.kind
  | .list _ => "list"
  | .tuple _ => "tuple"
  | .dict _ => "dict"

/-- The last part of the name of a value's kind. -/
def shortKind (r : Ref) : Text :=
  match r.cell with
  | .leaf v => v.shortKind
  | _ => r.kind

/-- Null, zero, and whatever is empty count as missing. -/
def isPresent (r : Ref) : Bool :=
  match r.cell with
  | .leaf v => v.isPresent
  | .list places => !places.isEmpty
  | .tuple places => !places.isEmpty
  | .dict entries => !entries.isEmpty

/-- The text that shows what a value is. -/
def shown (r : Ref) : Except Failure Text := r.graph.shownFrom Graph.maxShown [] r.place

/-- The text that a value stands for. -/
def toText (r : Ref) : Except Failure Text :=
  match r.cell with
  | .leaf v => v.toText
  | _ => r.shown

/-- The whole number that a value gives. -/
def toInteger (r : Ref) : Except Failure Int :=
  match r.cell with
  | .leaf v => v.toInteger
  | _ => .error (.notAnInteger r.kind)

/-- The real number that a value gives. -/
def toReal (r : Ref) : Except Failure Binary64 :=
  match r.cell with
  | .leaf v => v.toReal
  | _ => .error (.notAReal r.kind)

/-! ## 3. Parts -/

def isDict (r : Ref) : Bool :=
  match r.cell with
  | .leaf (.dict _) => true
  | .dict _ => true
  | _ => false

/-- The elements of a list; what is no list has none. -/
def elements? (r : Ref) : Option (List Ref) :=
  match r.cell with
  | .leaf (.list vs) => some (vs.map ofValue)
  | .list places => some (places.map r.part)
  | _ => none

/-- The value that a dictionary has under a name. -/
def field? (name : Text) (r : Ref) : Option Ref :=
  match r.cell with
  | .leaf (.dict items) => (Value.field? name items).map ofValue
  | .dict entries =>
    (entries.find? fun e => (r.graph.leaf? e.1).any (·.sameKey (.text name))).map fun e => r.part e.2
  | _ => none

end Ref

end Keyscope
