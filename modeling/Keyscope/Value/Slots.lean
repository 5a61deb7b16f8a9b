/-
# The order of sets

A set keeps its members in a table of slots and lists them slot by slot.  The hash of a member says
which slot is tried first; if it is taken, the next few are, and then one further away that the
rest of the hash decides.  When more than three fifths of the slots are taken, the members move, in
their order, to a larger table.

Numbers, empty texts and tuples of these have hashes that never change.  All other hashes differ
from run to run; a set with such a member lists its members as they came.
-/
import Keyscope.Value.Basic

namespace Keyscope

namespace Value

/-! ## 1. Hashes -/

/-- Numbers that differ by a multiple of this prime have the same hash. -/
def hashPrime : Nat := twoTo 61 - 1

/-- The hash of a whole number, given its sign and its size.  Minus one is no hash. -/
def hashOfWhole (negative : Bool) (size : Nat) : UInt64 :=
  let h := UInt64.ofNat (size % hashPrime)
  if !negative then h else if h = 1 then -2 else -h

/-- The hash of a real number: that of the fraction it is, in the field of the prime, where the
sixty-first power of two is one. -/
def hashOfReal? : Binary64 → Option UInt64
  | .nan => none
  | .infinite s => some (hashOfWhole s 314159)
  | .finite s m q => some (hashOfWhole s (m * twoTo (q % 61)))

/-- The hash of a tuple so far, and the hash of one more element. -/
def mixHash (h element : UInt64) : UInt64 :=
  let h := h + element * 14029467366897019727
  (h <<< 31 ||| h >>> 33) * 11400714785074694791

/-- The hash of a tuple of so many elements, when all of them are mixed. -/
def finishHash (h : UInt64) (n : Nat) : UInt64 :=
  let h := h + (UInt64.ofNat n ^^^ (2870177450012600261 ^^^ 3527539))
  if h = -1 then 1546275796 else h

mutual

/-- The hash of a value, if it is always the same. -/
def hash? : Value → Option UInt64
  | bool b => some (if b then 1 else 0)
  | int n => some (hashOfWhole (n < 0) n.natAbs)
  | real x => hashOfReal? x
  | text [] => some 0
  | bytes [] => some 0
  | tuple vs => (mixAll 2870177450012600261 vs).map (finishHash · vs.length)
  | _ => Option.none

/-- The hash of a tuple after some more of its elements. -/
def mixAll (h : UInt64) : List Value → Option UInt64
  | [] => some h
  | v :: vs => (hash? v).bind fun e => mixAll (mixHash h e) vs

end

/-- The same hashes for all values, if all have one. -/
def hashed? (vs : List Value) : Option (List (Nat × Value)) :=
  vs.mapM fun v => (hash? v).map fun h => (h.toNat, v)

/-! ## 2. Tables -/

end Value

/-- Slots for values with their hashes.  Their number is a power of two. -/
abbrev SlotTable := Array (Option (Nat × Value))

namespace SlotTable

/-- A table without members. -/
def empty (size : Nat) : SlotTable := Array.replicate size none

/-- The size of a table for more than a number of members. -/
def sizeFor (n : Nat) : Nat := max 8 (twoTo (n.log2 + 1))

/-- How many slots behind a taken one are tried, where the table is long enough. -/
def neighbours : Nat := 9

/-- The first free slot for a hash, from a slot on.  The first number bounds the steps: once the
hash is used up, the slots that are tried go through the whole table. -/
def freeFrom (t : SlotTable) : Nat → Nat → Nat → Nat
  | 0, i, _ => i
  | steps + 1, i, rest =>
    let tried := if i + neighbours < t.size then neighbours + 1 else 1
    match (List.range' i tried).find? fun j => (t.getD j none).isNone with
    | some j => j
    | none => freeFrom t steps ((i * 5 + 1 + rest / 32) % t.size) (rest / 32)

/-- Puts a value in its slot. -/
def put (t : SlotTable) (entry : Nat × Value) : SlotTable :=
  t.setIfInBounds (freeFrom t (t.size + 16) (entry.1 % t.size) entry.1) (some entry)

/-- The values in the order of their slots. -/
def entries (t : SlotTable) : List (Nat × Value) := t.toList.filterMap id

/-- Adds a value to a table that has a number of them, and moves all to a larger table if this one
is too full. -/
def add (t : SlotTable) (count : Nat) (entry : Nat × Value) : SlotTable :=
  let t := t.put entry
  let count := count + 1
  if count * 5 < (t.size - 1) * 3 then t
  else t.entries.foldl put (empty (sizeFor (if 50000 < count then count * 2 else count * 4)))

/-- Adds values, which are all different, to a table that has a number of them. -/
def addAll : SlotTable → Nat → List (Nat × Value) → SlotTable
  | t, _, [] => t
  | t, count, entry :: rest => addAll (t.add count entry) (count + 1) rest

end SlotTable

/-! ## 3. Sets -/

namespace Value

/-- Values that are all different, in the order of a set that started with a number of slots. -/
def inSlots (size : Nat) (vs : List Value) : List Value :=
  match hashed? vs with
  | some entries => ((SlotTable.empty size).addAll 0 entries).entries.map (·.2)
  | Option.none => vs

/-- The set of the keys of a dictionary, which has room for all of them from the start. -/
def setOfKeys (keys : List Value) : Value :=
  set (inSlots (if keys.length < 5 then 8 else SlotTable.sizeFor (keys.length * 2)) keys)

end Value

end Keyscope
