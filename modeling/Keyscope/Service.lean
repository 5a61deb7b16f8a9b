/-
# The service

The service answers what callers ask of the configured targets: which are running, what is in one
of them, and how the shards of the network are doing.  Nothing is kept between two questions.

Limits are fixed when the service is made; targets and the source of telemetry may change.
-/
import Keyscope.Keyspace.Snapshot
import Keyscope.Probe
import Keyscope.Settings.Basic
import Keyscope.Telemetry.Source

namespace Keyscope

/-- The running sources, and what is in the selected one. -/
structure Response where
  sources : List Probe
  selected : Option Text
  records : List Record
  truncated : Bool
  deriving Repr

namespace Response

/-- Nothing is running. -/
def empty (sources : List Probe) : Response := ⟨sources, none, [], false⟩

/-- A snapshot of the selected source. -/
def ofSnapshot (sources : List Probe) (selected : Probe) (s : Snapshot) : Response :=
  ⟨sources, some selected.id, s.records, s.truncated⟩

/-- The selected source; null where there is none. -/
def selectedValue (r : Response) : Value := (r.selected.map Value.text).getD .null

/-- The entry that describes a response with such fields. -/
def entry (sources : List Probe) (selected : Value) (records : List Value) (truncated : Bool) : Value :=
  .dict [(.text "sources", .list (sources.map Probe.toValue)), (.text "selectedSource", selected),
    (.text "records", .list records), (.text "truncated", .bool truncated)]

def toValue (r : Response) : Value :=
  entry r.sources r.selectedValue (r.records.map Record.toValue) r.truncated

end Response

structure Service where
  targets : List Target
  probeLimit : Value
  plan : Snapshot.Plan
  telemetry : Option TelemetrySource

namespace Service

/-- The service for targets and limits, if a snapshot may have any keys at all. -/
def make (targets : List Target) (l : Limits) (telemetry : Option TelemetrySource) :
    Except Failure Service := do
  let limits ← Scan.limits l.maxKeys l.pageSize
  return ⟨targets, l.probeLimit, ⟨limits, l.maxPayload, l.snapshotLimit⟩, telemetry⟩

variable {σ : Type}

/-- Which targets are running. -/
def probe (s : Service) (net : Network σ) : Session σ (List Probe) :=
  Probe.runAll net s.probeLimit s.targets

/-- What is in a target, running or not, unless the sweep of its keys is still under way. -/
def read (s : Service) (net : Network σ) (rounds : Nat) (t : Target) : Session σ (Option Snapshot) :=
  Snapshot.take (net.server t) s.plan rounds t

/-- The running sources, and what is in the one that is asked for, or else in the first one. -/
def list (s : Service) (net : Network σ) (rounds : Nat) (requested : Value) :
    Session σ (Option Response) := do
  let probes ← s.probe net
  let running := probes.filter (·.running)
  match Probe.select running (← Session.ofExcept (Probe.requestedText requested)) with
  | none => return some (.empty running)
  | some selected =>
    return (← s.read net rounds selected.target).map (.ofSnapshot running selected)

/-- How the shards are doing. -/
def shards (s : Service) (disk : Disk) : Except Failure (List Shard) :=
  match s.telemetry with
  | some source => source.shards disk
  | none => .error .noTelemetrySource

end Service

end Keyscope
