/-
# Targets

A target is a server that the configuration names.  Its identifier is what a caller selects it
by; its name is what people see.
-/
import Keyscope.Text.Blank
import Keyscope.Value.Graph

namespace Keyscope

/-- A configured server. -/
structure Target where
  id : Text
  name : Text
  host : Text
  port : Int
  deriving DecidableEq, Repr

namespace Target

/-- The port of a target that names none. -/
def defaultPort : Int := 6379

/-- The largest number that a port can have. -/
def lastPort : Int := 65535

/-- The text under a name; a missing one is empty. -/
def entry (name : Text) (r : Ref) : Except Failure Text :=
  match r.field? name with
  | some v => if v.isPresent then v.toText else .ok []
  | none => .ok []

/-- The name that an entry gives; without one the identifier serves. -/
def nameOr (id : Text) (r : Ref) : Except Failure Text :=
  match r.field? "name" with
  | some v => if v.isPresent then v.toText else .ok id
  | none => .ok id

/-- The port that an entry gives. -/
def portOr (standard : Int) (r : Ref) : Except Failure Int :=
  match r.field? "port" with
  | some v => v.toInteger
  | none => .ok standard

/-- The target that an entry of a configuration describes. -/
def ofRef (r : Ref) : Except Failure Target := do
  if r.isDict then
    let id := (← entry "id" r).strip
    let host := (← entry "host" r).strip
    if id.isEmpty then throw .targetWithoutId
    if host.isEmpty then throw (.targetWithoutHost id)
    let port ← portOr defaultPort r
    if port ≤ 0 ∨ lastPort < port then
      let _ ← Value.integerText port
      throw (.invalidPort id port)
    return ⟨id, ← nameOr id r, host, port⟩
  else throw (.noAttribute r.kind "get")

/-- The target that a value describes. -/
def ofValue (v : Value) : Except Failure Target := ofRef (.ofValue v)

/-- The entry that describes a target. -/
def toValue (t : Target) : Value :=
  .dict [(.text "id", .text t.id), (.text "name", .text t.name), (.text "host", .text t.host),
    (.text "port", .int t.port)]

end Target

end Keyscope
