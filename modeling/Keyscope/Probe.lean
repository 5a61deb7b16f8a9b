/-
# Probes

A probe connects to a target and pings it.  Whatever goes wrong means that the target is not
running; a probe itself never fails.  Only the answer `true` counts as one.
-/
import Keyscope.Network
import Keyscope.Number.Places

namespace Keyscope

/-- Whether a target is running, and how many milliseconds its answer took. -/
structure Probe where
  id : Text
  name : Text
  host : Text
  port : Int
  running : Bool
  /-- Null where there was no answer. -/
  latency : Value
  deriving Repr

namespace Probe

/-- A target that answered. -/
def reachable (t : Target) (latency : Binary64) : Probe :=
  ⟨t.id, t.name, t.host, t.port, true, .real latency⟩

/-- A target that did not. -/
def unreachable (t : Target) : Probe := ⟨t.id, t.name, t.host, t.port, false, .null⟩

/-- The target of a probe. -/
def target (p : Probe) : Target := ⟨p.id, p.name, p.host, p.port⟩

/-- Milliseconds, to three places, for a number of seconds. -/
def latencyOf (seconds : Binary64) : Binary64 := (seconds * 1000).roundPlaces 3

/-- Milliseconds between two readings of the clock, if both show numbers and their difference is in
the range of real numbers. -/
def latencyBetween (start stop : Option Quantity) : Option Binary64 := do
  let seconds ← (← stop).sub? (← start)
  return latencyOf (← seconds.real?)

/-- What an answer to a ping says, if it says that the target is running. -/
def isAlive : Value → Bool
  | .bool b => b
  | _ => false

variable {σ : Type}

/-- Pings over an open connection: the reading of the clock after the answer, if it is one. -/
def ping (net : Network σ) (t : Target) : Session σ (Option Quantity) := do
  let pong ← (net.server t).ask .ping
  let stop ← net.now t
  return if isAlive pong then stop else none

/-- One attempt to reach a target.  A limit counts for connecting and for the answer. -/
def attempt (net : Network σ) (limit : Value) (t : Target) : Session σ (Option Binary64) := do
  let start ← net.now t
  let _ ← (net.server t).ask (Pool.ofTarget t limit (some limit)).opening
  let stop ← (net.server t).thenHangUp (ping net t)
  return latencyBetween start stop

/-- What an attempt means. -/
def ofAttempt (t : Target) : Except Failure (Option Binary64) → Probe
  | .ok (some latency) => reachable t latency
  | _ => unreachable t

/-- Probes one target. -/
def run (net : Network σ) (limit : Value) (t : Target) : Session σ Probe := do
  return ofAttempt t (← (attempt net limit t).outcome)

/-- Probes every target; one result each, in order. -/
def runAll (net : Network σ) (limit : Value) (ts : List Target) : Session σ (List Probe) :=
  ts.mapM (run net limit)

def toValue (p : Probe) : Value :=
  .dict [(.text "id", .text p.id), (.text "name", .text p.name), (.text "host", .text p.host),
    (.text "port", .int p.port), (.text "running", .bool p.running),
    (.text "latencyMs", p.latency)]

/-! ## Selection -/

/-- The text that a value asks for a source by.  What counts as missing asks for none; bytes may ask,
but no source is called by them. -/
def requestedText : Value → Except Failure (Option Text)
  | .text t => .ok (some t)
  | .bytes _ => .ok none
  | .buffer _ => .ok none
  | v => if v.isPresent then .error (.noAttribute v.kind "strip") else .ok none

/-- Whether a probe is of the source that a text asks for, by identifier or name. -/
def answersTo (requested : Text) (p : Probe) : Bool := requested = p.id || requested = p.name

/-- The source to read: the first one that is asked for, or else the first one. -/
def select (running : List Probe) (requested : Option Text) : Option Probe :=
  let requested := (requested.getD []).strip
  if requested.isEmpty then running.head?
  else (running.find? (answersTo requested)).or running.head?

end Probe

end Keyscope
