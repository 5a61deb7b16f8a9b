/-
# Servers

A server is whatever answers requests.  It may change with every request and may answer
anything, so it is a state machine: a request and a state give an outcome and the next state.
Nothing else is assumed of a server anywhere.

A session is a computation that sends requests and may fail; what it sent before it failed
stays sent.  `Server.recorded` is the same server with a record of the requests it got.
-/
import Keyscope.Value.Basic

namespace Keyscope

/-! ## 1. Requests -/

/-- What is asked about one key in a batch. -/
inductive Command where
  | type
  | ttl
  | hashFields
  | setMembers
  /-- All members of a sorted set with their scores. -/
  | sortedMembers
  | listElements
  /-- A document as a whole. -/
  | document
  deriving DecidableEq, Repr

/-- What is sent to a server. -/
inductive Request where
  /-- Opens a connection; the limits are for connecting and for each reply. -/
  | connect (limit : Value) (replyLimit : Option Value)
  | ping
  /-- The page of keys at a cursor, and how many keys it should have. -/
  | scan (cursor : Int) (count : Value)
  /-- The strings under several keys. -/
  | strings (keys : List Bytes)
  /-- One command after the other, answered together. -/
  | batch (commands : List (Command × Bytes))
  | close
  /-- Gives up the connections that are kept open. -/
  | disconnect
  deriving Repr

/-! ## 2. Servers and sessions -/

/-- What answers requests. -/
abbrev Server (σ : Type) := Request → σ → Except Failure Value × σ

/-- Requests in order, and a result unless one of them fails. -/
abbrev Session (σ : Type) := ExceptT Failure (StateM σ)

namespace Server

variable {σ : Type}

/-- Sends a request. -/
def ask (server : Server σ) (r : Request) : Session σ Value := ExceptT.mk (server r)

/-- The same server, which also keeps the requests it got, the last one first. -/
def recorded (server : Server σ) : Server (σ × List Request) := fun r s =>
  let (outcome, next) := server r s.1
  (outcome, next, r :: s.2)

end Server

namespace Session

variable {σ α : Type}

/-- The outcome of a session, failed or not; this itself never fails. -/
def outcome (x : Session σ α) : Session σ (Except Failure α) := ExceptT.mk fun s =>
  let (result, next) := x.run s
  (.ok result, next)

/-- Goes on with a result that is already known. -/
def ofExcept (result : Except Failure α) : Session σ α := ExceptT.mk fun s => (result, s)

end Session

namespace Server

variable {σ α : Type}

/-- Ends a connection: closes it and, if that works, disconnects.  A broken connection may
refuse either, which does not matter any more. -/
def hangUp (server : Server σ) : Session σ Unit := do
  let _ ← (do
    let _ ← server.ask .close
    server.ask .disconnect : Session σ Value).outcome
  return ()

/-- Runs a session on an open connection and ends the connection, also after a failure. -/
def thenHangUp (server : Server σ) (x : Session σ α) : Session σ α := do
  let result ← x.outcome
  server.hangUp
  Session.ofExcept result

/-- Runs a session that may be still under way, and ends the connection once it is over, also after
a failure. -/
def hangUpAfter (server : Server σ) (x : Session σ (Option α)) : Session σ (Option α) := do
  match ← x.outcome with
  | .ok none => return none
  | result =>
    server.hangUp
    Session.ofExcept result

end Server

end Keyscope
