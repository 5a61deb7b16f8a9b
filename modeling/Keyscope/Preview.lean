/-
# Previews

A preview is the text of a stored value and the number of its entries.  Columns are separated
by tabs and rows by line feeds.  The order of a hash or a set on the server means nothing, so
their rows are sorted by what is displayed; lists and sorted sets keep the server's order.
-/
import Keyscope.Value.Access
import Keyscope.Value.Numeric

namespace Keyscope

/-- The text of a stored value, and how many entries the value has. -/
structure Preview where
  payload : Text
  count : Nat
  deriving DecidableEq, Repr

namespace Preview

/-! ## 1. One layout per type of value -/

/-- Two columns. -/
def row (left right : Text) : Text := left ++ "\t" ++ right

/-- A string is one entry, unless there is none. -/
def ofString (v : Value) : Except Failure Preview :=
  match v with
  | .null => .ok ⟨[], 0⟩
  | _ => do return ⟨← v.decoded, 1⟩

/-- The displayed texts of field and value. -/
def field (item : Value × Value) : Except Failure (Text × Text) := do
  let name ← item.1.decoded
  let value ← item.2.decoded
  return (name, value)

/-- A hash is a row per field, sorted by field and value. -/
def ofHash (v : Value) : Except Failure Preview := do
  let items ← if v.isPresent then v.entries else .ok []
  let pairs ← items.mapM field
  return ⟨Text.unlines ((Text.sortPairs pairs).map fun p => row p.1 p.2), pairs.length⟩

/-- A set is a sorted row per member. -/
def ofSet (v : Value) : Except Failure Preview := do
  let members ← if v.isPresent then v.members else .ok []
  let texts ← members.mapM Value.decoded
  return ⟨Text.unlines (Text.sort texts), texts.length⟩

/-- Member and score of a sorted set. -/
def scored (item : Value) : Except Failure Text := do
  let member ← item.memberAt 0
  let score ← item.memberAt 1
  return row (← member.decoded) (← score.decoded)

/-- A sorted set is a row per member with its score. -/
def ofSortedSet (v : Value) : Except Failure Preview := do
  let members ← if v.isPresent then v.members else .ok []
  let rows ← members.mapM scored
  return ⟨Text.unlines rows, rows.length⟩

/-- A list is a row per element after its position. -/
def ofList (v : Value) : Except Failure Preview := do
  let elements ← if v.isPresent then v.members else .ok []
  let texts ← elements.mapM Value.decoded
  return ⟨Text.unlines (texts.mapIdx fun i t => row (Decimal.ofNat i) t), texts.length⟩

/-- A document is one entry, unless it is empty. -/
def ofDocument (v : Value) : Except Failure Preview := do
  let payload ← v.decoded
  return ⟨payload, if payload = "null" ∨ payload = [] then 0 else 1⟩

/-! ## 2. Placeholders -/

/-- A text in the place of a payload: there are no entries to count. -/
def placeholder (t : Text) : Preview := ⟨t, 0⟩

/-- The key was there for the scan and gone afterwards. -/
def expired : Preview := placeholder "<key expired>"

/-- No layout shows values of this kind. -/
def unsupported : Preview := placeholder "<unsupported type>"

/-- The type is known and is not shown. -/
def notImplementedText (type : Text) : Text := "<" ++ type ++ " preview not implemented>"

def notImplemented (type : Text) : Preview := placeholder (notImplementedText type)

/-- The value could not be read. -/
def readErrorText (f : Failure) : Text := "<read error: " ++ f.label ++ ">"

def readError (f : Failure) : Preview := placeholder (readErrorText f)

/-! ## 3. The budget -/

/-- What follows a payload that was cut. -/
def cutMark (elided : Int) : Text := "\n...[truncated " ++ Decimal.ofInt elided ++ " chars]"

/-- The beginning of a text up to a position; a negative position counts from the end. -/
def upTo (t : Text) (position : Int) : Text :=
  if position < 0 then t.take (t.length + position).toNat else t.take position.toNat

/-- A text within a budget, or its beginning and how much was left out. -/
def clip (budget : Int) (t : Text) : Text :=
  if (t.length : Int) ≤ budget then t else upTo t budget ++ cutMark (t.length - budget)

/-- A text within a budget of any kind.  The budget must be a number, and a text that is longer can
only be cut at a whole one. -/
def clipTo (budget : Value) (t : Text) : Except Failure Text :=
  match budget.quantity? with
  | none => .error (.notComparable "<=" "int" budget.kind)
  | some (.whole n) => .ok (clip n t)
  | some (.real x) => if Quantity.le (.whole t.length) (.real x) then .ok t else .error .notAPosition

/-- A stored payload within a budget; what is no text is no payload. -/
def clipValue (budget : Value) : Value → Except Failure Text
  | .text t => clipTo budget t
  | _ => .ok []

@[simp] theorem clipValue_text (budget : Value) (t : Text) :
    clipValue budget (.text t) = clipTo budget t := rfl

/-- The preview with its payload within a budget. -/
def within (budget : Value) (p : Preview) : Except Failure Preview := do
  return { p with payload := ← clipValue budget (.text p.payload) }

end Preview

end Keyscope
