/-
# Sources of telemetry

A source says which shards are live and has rows of connections.  It is a fixed set of both, or
a file that is read again for every question.
-/
import Keyscope.Telemetry.Shard
import Keyscope.Json.Reader
import Keyscope.Disk

namespace Keyscope

/-- Where telemetry comes from. -/
inductive TelemetrySource where
  | fixed (identities : List Identity) (rows : List (List Text))
  | file (path : Text)
  deriving Repr

namespace TelemetrySource

/-- The texts of the columns of a row. -/
def columnTexts (row : Value) : Except Failure (List Text) := do (← row.members).mapM Value.toText

/-- A fixed source from values. -/
def ofValues (identities : List Identity) (rows : Value) : Except Failure TelemetrySource := do
  let rows ← if rows.isPresent then rows.members else .ok []
  return .fixed identities (← rows.mapM columnTexts)

/-- The source in a file, whose path may start in a home. -/
def ofPath (homeOf : Text → Option Text) (path : Text) : Except Failure TelemetrySource := do
  return .file (← Path.expandHome homeOf path)

/-! ## 1. Files -/

/-- The entries of the object in a file. -/
def load (disk : Disk) (path : Text) : Except Failure (List (Value × Value)) := do
  match ← Json.parse (← disk.readText path) with
  | .dict items => return items
  | _ => throw (.notAnObject path)

/-- The members under a name; a missing entry has none. -/
def membersOf (name : Text) (items : List (Value × Value)) : Except Failure (List Value) :=
  match Value.field? name items with
  | some v => if v.isPresent then v.members else .ok []
  | none => .ok []

/-- The identity that an entry describes: an object with an identifier. -/
def identity? (v : Value) : Except Failure (Option Identity) :=
  match v with
  | .dict items =>
    match Value.field? "id" items with
    | none => .ok none
    | some .null => .ok none
    | some id => do
      let id ← id.toText
      let health ← ((Value.field? "health" items).getD (.text [])).toText
      return some ⟨.text id, .text health⟩
  | _ => .ok none

/-- The identities that a file lists, as objects or as two lists. -/
def identitiesOf (items : List (Value × Value)) : Except Failure (List Identity) := do
  match Value.field? "identities" items with
  | some v =>
    let entries ← if v.isPresent then v.members else .ok []
    return (← entries.mapM identity?).filterMap id
  | none => Identity.pairs (← membersOf "ids" items) (← membersOf "health" items)

/-- The rows that a file lists; what is no list is no row. -/
def rowsOf (items : List (Value × Value)) : Except Failure (List (List Text)) := do
  let rows ← membersOf "rows" items
  (rows.filter fun row => match row with
    | .list _ => true
    | _ => false).mapM columnTexts

/-! ## 2. Questions -/

/-- The live shards. -/
def identities (disk : Disk) : TelemetrySource → Except Failure (List Identity)
  | fixed identities _ => .ok identities
  | file path => do identitiesOf (← load disk path)

/-- The rows of connections. -/
def rows (disk : Disk) : TelemetrySource → Except Failure (List (List Text))
  | fixed _ rows => .ok rows
  | file path => do rowsOf (← load disk path)

/-- A row of texts as a value. -/
def rowValue (row : List Text) : Value := .list (row.map Value.text)

/-- The summaries of all live shards. -/
def shards (disk : Disk) (s : TelemetrySource) : Except Failure (List Shard) := do
  let identities ← s.identities disk
  let rows ← s.rows disk
  Shard.summarize identities (← Connection.group (rows.map rowValue))

end TelemetrySource

end Keyscope
