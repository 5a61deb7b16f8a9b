/-
# Tables

Probes, records and shards as tables.
-/
import Keyscope.Report.Amount
import Keyscope.Report.Basic
import Keyscope.Report.Listing
import Keyscope.Report.Markup

namespace Keyscope

namespace Tables

/-- A column without a style, on the left. -/
def plain (header : Text) : Column := ⟨header, .left, [], false⟩

def styled (header style : Text) : Column := ⟨header, .left, style, false⟩

/-- The column that names the rows. -/
def naming (header : Text) : Column := ⟨header, .left, "cyan", true⟩

def onTheRight (header : Text) : Column := ⟨header, .right, [], false⟩

/-- A table with rows that may fail. -/
def build {α : Type} (title : Text) (columns : List Column) (row : α → Except Failure (List Text))
    (xs : List α) : Except Failure Report := do
  return .ofEvent (.table ⟨title, columns, ← xs.mapM row⟩)

/-- A cell must be a text; null leaves it empty. -/
def cell (v : Value) : Except Failure Text :=
  match v with
  | .text t => .ok t
  | .null => .ok []
  | _ => .error (.notACell v.shortKind)

/-- A stored value as markup, which only a text can be. -/
def escaped (v : Value) : Except Failure Text :=
  match v with
  | .text t => .ok (Markup.escape t)
  | .bytes _ => .error .bytesForText
  | .buffer _ => .error .bytesForText
  | _ => .error (.notText v.kind)

/-! ## 1. Sources -/

def statusText (running : Bool) : Text :=
  if running then "[green]✓ running[/green]" else "[red]✗ down[/red]"

def sourceRow (p : Probe) : Except Failure (List Text) := do
  return [p.id, p.name, p.host ++ ":" ++ Decimal.ofInt p.port, statusText p.running,
    ← Amount.latency p.latency]

def sourceColumns : List Column :=
  [naming "ID", styled "Name" "blue", styled "Address" "dim", ⟨"Status", .center, [], false⟩,
    onTheRight "Latency"]

/-- All targets that were probed. -/
def sources (ps : List Probe) : Except Failure Report :=
  if ps.isEmpty then .ok (.ofMarkup "[yellow]No targets configured[/yellow]")
  else build "Database Targets" sourceColumns sourceRow ps

/-! ## 2. Snapshots -/

/-- The width of a payload in a table. -/
def payloadWidth : Nat := 60

def recordRow (r : RecordLine) : Except Failure (List Text) := do
  let key ← escaped r.key
  let lifetime ← Amount.lifetime r.lifetime
  let count ← Amount.count r.count
  let payload ← Amount.firstLine r.payload (.int payloadWidth)
  return [key, ← cell r.type, lifetime, count, Markup.escape payload]

def recordColumns : List Column :=
  [naming "Key", styled "Type" "blue", onTheRight "TTL", onTheRight "Entries", plain "Payload"]

def snapshotTitle (source : Text) (n : Nat) : Text :=
  "Keyspace of " ++ source ++ " (" ++ Decimal.ofNat n ++ " keys)"

/-- The records of the selected source. -/
def snapshot (l : Listing) : Except Failure Report := do
  if l.selected.isNull then return .ofMarkup "[yellow]No running database sources[/yellow]"
  else
    let title := snapshotTitle (← l.selected.toText) l.records.length
    let table ← build title recordColumns recordRow l.records
    return if l.truncated then
        table ++ Report.warning "Key limit reached; the keyspace has more keys than shown"
      else table

/-! ## 3. Shards -/

/-- The mean ping of a shard, or a dash. -/
def pingText (cs : List Connection) : Text :=
  if cs.isEmpty then "-" else (Connection.mean (cs.map (·.ping))).fixed 0 ++ " ms"

def shardRow (s : ShardLine) : Except Failure (List Text) := do
  let ping := pingText (← s.allConnections "ping_ms")
  let download ← Amount.rate s.download
  let upload ← Amount.rate s.upload
  return [← cell s.id, Decimal.ofNat s.connections.length, download, upload, ping]

def shardColumns : List Column :=
  [naming "Shard", onTheRight "Connections", onTheRight "Download", onTheRight "Upload",
    onTheRight "Avg Ping"]

/-- All live shards. -/
def shards (ss : List ShardLine) : Except Failure Report :=
  if ss.isEmpty then .ok (.ofMarkup "[yellow]No live shards[/yellow]")
  else build "Network Telemetry" shardColumns shardRow ss

end Tables

end Keyscope
