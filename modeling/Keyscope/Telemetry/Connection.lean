/-
# Connections

A row of telemetry describes one connection in thirteen columns, or in fourteen with the shard in
front.  A column that should be a number and is none is not a number; a row that is too short
describes nothing.
-/
import Keyscope.Value.Access
import Keyscope.Value.Numeric

namespace Keyscope

/-- One connection of a shard. -/
structure Connection where
  shard : Option Text
  identity : Text
  target : Text
  /-- Milliseconds. -/
  ping : Binary64
  /-- Bytes per second. -/
  inRate : Binary64
  /-- Bytes per second. -/
  outRate : Binary64
  /-- Packets per second. -/
  packetRate : Binary64
  pendingReliable : Binary64
  pendingUnreliable : Binary64
  sentUnacked : Binary64
  /-- Microseconds. -/
  queueTime : Binary64
  localQuality : Binary64
  remoteQuality : Binary64
  state : Text
  deriving DecidableEq, Repr

namespace Connection

/-- The number in a column.  What is no number becomes one that is none; a whole number too
large for the format is refused. -/
def number (v : Value) : Except Failure Binary64 :=
  match v.toReal with
  | .ok x => .ok x
  | .error .integerTooLarge => .error .integerTooLarge
  | .error _ => .ok .nan

/-- The least number of columns. -/
def columns : Nat := 13

/-- The shard a connection belongs to; without one, its own identity is the shard. -/
def shardKey (c : Connection) : Text := c.shard.getD c.identity

/-- The text of a column. -/
def textAt (row : Value) (i : Nat) : Except Failure Text := do (← row.memberAt i).toText

/-- The number of a column. -/
def numberAt (row : Value) (i : Nat) : Except Failure Binary64 := do number (← row.memberAt i)

/-- The connection that a row describes, if it has enough columns. -/
def ofRow (row : Value) : Except Failure (Option Connection) := do
  let size ← row.size
  if size < columns then return none
  let k := if columns < size then 1 else 0
  let shard ← if columns < size then some <$> textAt row 0 else pure none
  let identity ← textAt row k
  let target ← textAt row (k + 1)
  let ping ← numberAt row (k + 2)
  let inRate ← numberAt row (k + 3)
  let outRate ← numberAt row (k + 4)
  let packetRate ← numberAt row (k + 5)
  let pendingReliable ← numberAt row (k + 6)
  let pendingUnreliable ← numberAt row (k + 7)
  let sentUnacked ← numberAt row (k + 8)
  let queueTime ← numberAt row (k + 9)
  let localQuality ← numberAt row (k + 10)
  let remoteQuality ← numberAt row (k + 11)
  let state ← textAt row (k + 12)
  return some ⟨shard, identity, target, ping, inRate, outRate, packetRate, pendingReliable,
    pendingUnreliable, sentUnacked, queueTime, localQuality, remoteQuality, state⟩

def toValue (c : Connection) : Value :=
  .dict [(.text "shardId", (c.shard.map Value.text).getD .null),
    (.text "identityId", .text c.identity), (.text "targetId", .text c.target),
    (.text "pingMs", .real c.ping), (.text "inBytesPerSec", .real c.inRate),
    (.text "outBytesPerSec", .real c.outRate), (.text "inPacketsPerSec", .real c.packetRate),
    (.text "pendingReliableBytes", .real c.pendingReliable),
    (.text "pendingUnreliableBytes", .real c.pendingUnreliable),
    (.text "sentUnackedReliableBytes", .real c.sentUnacked),
    (.text "queueTimeUsec", .real c.queueTime), (.text "qualityLocal", .real c.localQuality),
    (.text "qualityRemote", .real c.remoteQuality), (.text "state", .text c.state)]

end Connection

end Keyscope
