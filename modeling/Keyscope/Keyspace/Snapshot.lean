/-
# Snapshots

A snapshot is a sweep of the keys of a server, what is known of them, and their values, all
over one connection, which is ended whatever happens.  Only a failed sweep fails a snapshot: all
that goes wrong later is told in the records.  A sweep that is still under way after the rounds for
which it is followed has not got to the values, and the connection is open.
-/
import Keyscope.Keyspace.Payload
import Keyscope.Keyspace.Scan
import Keyscope.Network

namespace Keyscope

/-- The records of a server, and whether it has more keys than were read. -/
structure Snapshot where
  source : Text
  records : List Record
  truncated : Bool
  deriving DecidableEq, Repr

namespace Snapshot

/-- How snapshots are taken. -/
structure Plan where
  limits : Scan.Limits
  /-- How many characters of a payload are kept. -/
  budget : Value
  /-- Seconds for connecting. -/
  connectLimit : Value
  deriving Repr

variable {σ : Type}

/-- The sweep of a target's keys; the failure of a sweep names the target. -/
def sweep (server : Server σ) (plan : Plan) (rounds : Nat) (target : Target) :
    Session σ (Option Scan) := do
  match ← (Scan.run server plan.limits rounds).outcome with
  | .ok scan => return scan
  | .error e => throw (.scanFailed target.name e)

/-- What a sweep found, with the values of its keys. -/
def ofScan (server : Server σ) (plan : Plan) (target : Target) (scan : Scan) : Session σ Snapshot := do
  let infos ← KeyInfo.load server scan.keys
  let records ← Payload.materialize server plan.budget infos (Record.listOfInfos target.name infos)
  return ⟨target.name, records, scan.truncated⟩

/-- The snapshot over an open connection. -/
def read (server : Server σ) (plan : Plan) (rounds : Nat) (target : Target) :
    Session σ (Option Snapshot) := do
  match ← sweep server plan rounds target with
  | some scan => return some (← ofScan server plan target scan)
  | none => return none

/-- The snapshot of a target: connects, reads, and ends the connection. -/
def take (server : Server σ) (plan : Plan) (rounds : Nat) (target : Target) :
    Session σ (Option Snapshot) := do
  let _ ← server.ask (Pool.ofTarget target plan.connectLimit none).opening
  server.hangUpAfter (read server plan rounds target)

def toValue (s : Snapshot) : Value :=
  .dict [(.text "source", .text s.source), (.text "records", .list (s.records.map Record.toValue)),
    (.text "truncated", .bool s.truncated)]

end Snapshot

end Keyscope
