/-
# Listings

What a report shows of a response or of a shard.  A listing is made of what the service found, or
of what somebody else wrote down; a field may therefore hold a value of any kind.  A document can
show all of them, a table cannot.
-/
import Keyscope.Service

namespace Keyscope

/-! ## 1. Records -/

/-- What is shown of a record. -/
structure RecordLine where
  source : Value
  key : Value
  type : Value
  lifetime : Value
  count : Value
  payload : Value
  deriving Repr

namespace RecordLine

def toValue (r : RecordLine) : Value :=
  Record.entry r.source r.key r.type r.count r.lifetime r.payload

end RecordLine

/-- What is shown of a record that the service found. -/
def Record.line (r : Record) : RecordLine :=
  ⟨.text r.source, .text r.key, .text r.type, .int r.lifetime, .int r.count, .text r.payload⟩

/-- What is shown of a response. -/
structure Listing where
  sources : List Probe
  /-- Null where no source was selected. -/
  selected : Value
  records : List RecordLine
  truncated : Bool
  deriving Repr

namespace Listing

def toValue (l : Listing) : Value :=
  Response.entry l.sources l.selected (l.records.map RecordLine.toValue) l.truncated

end Listing

/-- What is shown of a response of the service. -/
def Response.listing (r : Response) : Listing :=
  ⟨r.sources, r.selectedValue, r.records.map Record.line, r.truncated⟩

/-! ## 2. Shards -/

/-- What is shown of a shard.  A row that describes no connection leaves a gap. -/
structure ShardLine where
  id : Value
  download : Value
  upload : Value
  connections : List (Option Connection)
  deriving Repr

namespace ShardLine

/-- The connections, if there is no gap; a gap is found by what is looked for in it. -/
def allConnections (name : Text) (s : ShardLine) : Except Failure (List Connection) :=
  s.connections.mapM fun c =>
    match c with
    | some c => .ok c
    | none => .error (.noAttribute Value.null.kind name)

def toValue (s : ShardLine) : Except Failure Value := do
  return Shard.entry s.id s.download s.upload (← s.allConnections "to_dict")

end ShardLine

/-- What is shown of a shard that the service found. -/
def Shard.line (s : Shard) : ShardLine :=
  ⟨s.id, .real s.download, .real s.upload, s.connections.map some⟩

end Keyscope
