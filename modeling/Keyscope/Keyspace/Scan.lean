/-
# Sweeping the keys of a server

A server hands out its keys page by page; a cursor says where the next page starts, and the
cursor zero that there is none.  A sweep keeps the keys it has seen, because pages may repeat
keys, and how many more it may take.  It ends with the last page or with the last key that it
may take, and the keys come out sorted.

A server need not ever send the cursor zero, and then a sweep never ends.  So a sweep is followed for
a number of rounds only; it has no result yet where it is under way after them.
-/
import Keyscope.Server
import Keyscope.Value.Access
import Keyscope.Value.Numeric

namespace Keyscope

/-- The keys of a server in ascending order, and whether there are more of them. -/
structure Scan where
  keys : List Text
  truncated : Bool
  deriving DecidableEq, Repr

namespace Scan

/-! ## 1. Limits -/

/-- How many keys are taken, and how many a page should have. -/
structure Limits where
  /-- Without a number, all of them. -/
  maxKeys : Option Nat
  pageSize : Value
  deriving Repr

/-- How many things it takes to be as many as a number says; none are enough where it is no finite
number. -/
def countFor : Quantity → Option Nat
  | .whole n => some n.toNat
  | .real x => x.truncate?.map fun n => if Quantity.wholeLt n x then (n + 1).toNat else n.toNat

/-- Limits that allow at least one key. -/
def limits (maxKeys pageSize : Value) : Except Failure Limits :=
  match maxKeys.quantity? with
  | none => .error (.notComparable "<=" maxKeys.kind "int")
  | some most => if most.le 0 then .error .capNotPositive else .ok ⟨countFor most, pageSize⟩

/-! ## 2. Pages -/

/-- A sweep between two pages: the cursor, how many more keys fit, and the keys so far, the
last one first. -/
structure Sweep where
  cursor : Int
  /-- Without a number, any. -/
  room : Option Nat
  seen : List Text
  deriving DecidableEq, Repr

/-- Takes the new keys of a page, at most as many as fit.  The second part of the answer is what
is left of the page after the key that filled the sweep, if one did. -/
def collect : Option Nat → List Text → List Value →
    Except Failure (Option Nat × List Text × Option (List Value))
  | room, seen, [] => .ok (room, seen, none)
  | room, seen, raw :: page =>
    match raw.keyName with
    | .error e => .error e
    | .ok key =>
      if seen.contains key then collect room seen page
      else if room.any (· ≤ 1) then .ok (some 0, key :: seen, some page)
      else collect (room.map (· - 1)) (key :: seen) page

/-- The result of a sweep that ends here. -/
def ofSeen (seen : List Text) (truncated : Bool) : Scan := ⟨Text.sort seen, truncated⟩

namespace Sweep

/-- A sweep before the first page. -/
def start (limits : Limits) : Sweep := ⟨0, limits.maxKeys, []⟩

/-- The cursor and the page of an answer. -/
def parts (reply : Value) : Except Failure (Int × List Value) := do
  let (cursor, page) ← reply.pair
  let cursor ← cursor.toInteger
  let page ← page.members
  return (cursor, page)

/-- What an answer makes of a sweep: a sweep that goes on, or the result. -/
def absorb (s : Sweep) (reply : Value) : Except Failure (Sweep ⊕ Scan) :=
  match parts reply with
  | .error e => .error e
  | .ok (cursor, page) =>
    match collect s.room s.seen page with
    | .error e => .error e
    | .ok (_, seen, some rest) => .ok (.inr (ofSeen seen (!rest.isEmpty || cursor != 0)))
    | .ok (room, seen, none) =>
      if cursor = 0 then .ok (.inr (ofSeen seen false)) else .ok (.inl ⟨cursor, room, seen⟩)

end Sweep

/-! ## 3. The whole sweep -/

variable {σ : Type}

/-- Asks for pages until the sweep ends; without a result it is still under way after so many
rounds. -/
def resume (server : Server σ) (pageSize : Value) : Nat → Sweep → Session σ (Option Scan)
  | 0, _ => return none
  | rounds + 1, s => do
    let reply ← server.ask (.scan s.cursor pageSize)
    match ← Session.ofExcept (s.absorb reply) with
    | .inl next => resume server pageSize rounds next
    | .inr scan => return some scan

/-- The keys of a server, as many as the limits allow. -/
def run (server : Server σ) (limits : Limits) (rounds : Nat) : Session σ (Option Scan) :=
  resume server limits.pageSize rounds (Sweep.start limits)

end Scan

end Keyscope
