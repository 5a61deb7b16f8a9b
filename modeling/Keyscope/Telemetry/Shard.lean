/-
# Shards

Connections are grouped by shard, in order of first appearance.  A summary has the mean rates of
a shard's connections; every live shard has one, also a shard without connections.
-/
import Keyscope.Telemetry.Connection

namespace Keyscope

/-! ## 1. Groups -/

namespace Connection

/-- Connections by shard. -/
abbrev Groups := List (Text × List Connection)

/-- Adds a connection at the end of its group, or starts a group for it. -/
def addTo (c : Connection) : Groups → Groups
  | [] => [(c.shardKey, [c])]
  | (key, cs) :: groups =>
    if key = c.shardKey then (key, cs ++ [c]) :: groups else (key, cs) :: addTo c groups

/-- Adds what the rows describe; rows that describe nothing are dropped. -/
def groupFrom : Groups → List Value → Except Failure Groups
  | groups, [] => .ok groups
  | groups, row :: rows =>
    match ofRow row with
    | .error e => .error e
    | .ok none => groupFrom groups rows
    | .ok (some c) => groupFrom (c.addTo groups) rows

/-- The connections that rows describe, by shard. -/
def group (rows : List Value) : Except Failure Groups := groupFrom [] rows

/-- The connections of a shard; a shard that has none may be anything that can be looked up. -/
def ofShard (groups : Groups) (shard : Value) : Except Failure (List Connection) :=
  match shard with
  | .text t => .ok ((groups.lookup t).getD [])
  | _ =>
    match shard.changeable? with
    | some kind => .error (.unhashable kind)
    | none => .ok []

/-! ## 2. Means -/

/-- The sum from left to right, starting at zero. -/
def total (xs : List Binary64) : Binary64 := xs.foldl (· + ·) 0

/-- The sum divided by the number of summands. -/
def mean (xs : List Binary64) : Binary64 := total xs / Binary64.ofInt xs.length

/-- The mean rates in and out; zero without connections. -/
def means (cs : List Connection) : Binary64 × Binary64 :=
  if cs.isEmpty then (0, 0) else (mean (cs.map (·.inRate)), mean (cs.map (·.outRate)))

/-- The means of rates in and out that may be values of any kind and must be numbers; zero without
any. -/
def meansOf (rates : List (Value × Value)) : Except Failure (Binary64 × Binary64) := do
  if rates.isEmpty then return (0, 0)
  let inSum ← Value.total (rates.map (·.1))
  let outSum ← Value.total (rates.map (·.2))
  return (← Value.meanOf rates.length inSum, ← Value.meanOf rates.length outSum)

end Connection

/-! ## 3. Summaries -/

/-- A live shard, as its source names it, and how it says it is. -/
structure Identity where
  id : Value
  health : Value
  deriving Repr

namespace Identity

/-- Identities from a list of names and a list of states; the shorter list ends both. -/
def pairs : List Value → List Value → Except Failure (List Identity)
  | id :: ids, health :: healths => do
    let id ← id.toText
    let health ← health.toText
    return ⟨.text id, .text health⟩ :: (← pairs ids healths)
  | _, _ => .ok []

/-- Identities from two values that list names and states. -/
def pair (ids health : Value) : Except Failure (List Identity) := do
  let ids ← ids.members
  let health ← health.members
  pairs ids health

end Identity

/-- What is reported of a shard. -/
structure Shard where
  id : Value
  /-- Mean rate in. -/
  download : Binary64
  /-- Mean rate out. -/
  upload : Binary64
  connections : List Connection
  deriving Repr

namespace Shard

/-- The summary of a shard's connections. -/
def ofConnections (id : Value) (cs : List Connection) : Shard :=
  let (inMean, outMean) := Connection.means cs
  ⟨id, inMean, outMean, cs⟩

/-- One summary for each identity, in order. -/
def summarize (identities : List Identity) (groups : Connection.Groups) : Except Failure (List Shard) :=
  identities.mapM fun identity => do
    return ofConnections identity.id (← Connection.ofShard groups identity.id)

/-- The entry that describes a shard with such fields. -/
def entry (id download upload : Value) (cs : List Connection) : Value :=
  .dict [(.text "shardId", id), (.text "downloadKbps", download), (.text "uploadKbps", upload),
    (.text "connections", .list (cs.map Connection.toValue))]

def toValue (s : Shard) : Value := entry s.id (.real s.download) (.real s.upload) s.connections

end Shard

end Keyscope
