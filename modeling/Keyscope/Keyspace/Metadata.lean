/-
# Types and lifetimes

Type and lifetime of all keys are asked for in one batch, two commands per key in the order of
the keys.  Answer `2 i` is the type of key `i` and answer `2 i + 1` its lifetime.  An answer that
is missing or wrong costs its own key one field; a failed batch costs all keys both.
-/
import Keyscope.Server
import Keyscope.Value.Access
import Keyscope.Value.Numeric

namespace Keyscope

/-- What is known of a key before its value is read. -/
structure KeyInfo where
  key : Text
  type : Text
  /-- Seconds to live: `-1` for a key that stays, `-2` where it is not known. -/
  lifetime : Int
  deriving DecidableEq, Repr

namespace KeyInfo

/-- The lifetime that stands for an unknown one. -/
def unknownLifetime : Int := -2

/-- The type of a key whose type could not be read. -/
def unknownType : Text := "unknown"

/-- The key of which nothing else is known. -/
def unknown (key : Text) : KeyInfo := ⟨key, unknownType, unknownLifetime⟩

/-! ## 1. Reading the answers -/

/-- The lifetime in an answer: its text, read as a number, without its fraction. -/
def lifetimeOf (v : Value) : Int :=
  if v.isNull || v.isBool || v.failure?.isSome then unknownLifetime
  else
    match v.decoded with
    | .error _ => unknownLifetime
    | .ok t => ((Numeral.real t).bind Binary64.truncate?).getD unknownLifetime

/-- The type in an answer. -/
def typeOf (v : Value) : Except Failure Text :=
  if v.isNull || v.failure?.isSome then .ok unknownType else v.decoded

/-- The key at position `i` with what the answers say about it. -/
def ofReplies (replies : Value) (i : Nat) (key : Text) : Except Failure KeyInfo := do
  let type ← replies.memberOrNull (2 * i)
  let lifetime ← replies.memberOrNull (2 * i + 1)
  return ⟨key, ← typeOf type, lifetimeOf lifetime⟩

/-- All keys from a position on. -/
def listOfReplies (replies : Value) : Nat → List Text → Except Failure (List KeyInfo)
  | _, [] => .ok []
  | i, key :: keys => do
    let info ← ofReplies replies i key
    let infos ← listOfReplies replies (i + 1) keys
    return info :: infos

/-! ## 2. Asking -/

/-- The two commands for a key. -/
def commands (key : Bytes) : List (Command × Bytes) := [(.type, key), (.ttl, key)]

variable {σ : Type}

/-- Type and lifetime of every key, in the order of the keys. -/
def load (server : Server σ) (keys : List Text) : Session σ (List KeyInfo) := do
  if keys.isEmpty then return []
  let names ← Session.ofExcept (keys.mapM encodeKey)
  match ← (server.ask (.batch (names.flatMap commands))).outcome with
  | .error _ => return keys.map unknown
  | .ok replies => Session.ofExcept (listOfReplies replies 0 keys)

end KeyInfo

end Keyscope
