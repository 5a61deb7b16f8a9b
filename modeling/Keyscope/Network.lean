/-
# Networks

A network has a server for every target, and a clock.  All of them share one state, so the
servers need not be independent of each other.  A clock need not show a number.

A target is reached through a pool of its own, which has one connection: the requests of one client
wait for each other.
-/
import Keyscope.Server
import Keyscope.Target

namespace Keyscope

/-! ## 1. Pools -/

/-- How the connections of a client are set up. -/
structure Pool where
  host : Text
  port : Int
  /-- How many of them may be open at the same time. -/
  connections : Nat
  /-- Seconds of waiting for one that is free; null means as long as it takes. -/
  waitLimit : Value
  /-- Seconds for connecting. -/
  connectLimit : Value
  /-- Seconds for each reply, if there is a limit. -/
  replyLimit : Option Value
  /-- How often a request that failed is sent again. -/
  retries : Nat
  /-- Whether replies are texts and not bytes. -/
  decoded : Bool
  deriving Repr

namespace Pool

/-- The pool of a client of a target. -/
def ofTarget (t : Target) (connectLimit : Value) (replyLimit : Option Value) : Pool where
  host := t.host
  port := t.port
  connections := 1
  waitLimit := .null
  connectLimit := connectLimit
  replyLimit := replyLimit
  retries := 0
  decoded := false

/-- The request that opens a connection. -/
def opening (p : Pool) : Request := .connect p.connectLimit p.replyLimit

@[simp] theorem opening_ofTarget (t : Target) (limit : Value) (replyLimit : Option Value) :
    (ofTarget t limit replyLimit).opening = .connect limit replyLimit := rfl

end Pool

/-! ## 2. Networks -/

/-- The servers of all targets, and a clock that is read around a request to a target. -/
structure Network (σ : Type) where
  server : Target → Server σ
  /-- Seconds on the clock, if it shows a number. -/
  clock : Target → σ → Option Quantity × σ

namespace Network

variable {σ : Type}

/-- Reads the clock. -/
def now (net : Network σ) (target : Target) : Session σ (Option Quantity) := ExceptT.mk fun s =>
  let (time, next) := net.clock target s
  (.ok time, next)

/-- The network of a machine without connections: every request fails. -/
def unplugged : Network Unit where
  server t _ s :=
    (.error (.remote ⟨"ConnectionError", some ("No way to " ++ t.host), some .network⟩), s)
  clock _ s := (some 0, s)

/-- The same network, which also keeps the requests that each target got, the last one first. -/
def recorded (net : Network σ) : Network (σ × List (Target × Request)) where
  server target r s :=
    let (outcome, next) := net.server target r s.1
    (outcome, next, (target, r) :: s.2)
  clock target s :=
    let (time, next) := net.clock target s.1
    (time, next, s.2)

end Network

end Keyscope
