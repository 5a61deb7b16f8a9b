/-
# Buckets

Keys of one type are read together, with one request.  A key whose type has no request of its
own is tried as a document.  Some keys are not read at all: those that are gone, and those of
types that are never shown.
-/
import Keyscope.Keyspace.Record

namespace Keyscope

/-- Keys that are read with one request. -/
inductive Bucket where
  | strings
  | hashes
  | sets
  | sortedSets
  | lists
  | documents
  deriving DecidableEq, Repr

/-- What becomes of a key. -/
inductive Fate where
  | expired
  | notImplemented
  | read (bucket : Bucket)
  deriving DecidableEq, Repr

/-- What becomes of a key of a type. -/
def Fate.ofType (type : Text) : Fate :=
  if type = "none" then expired
  else if type = "stream" ∨ type = "vectorset" then notImplemented
  else if type = "string" then read .strings
  else if type = "hash" then read .hashes
  else if type = "set" then read .sets
  else if type = "zset" then read .sortedSets
  else if type = "list" then read .lists
  else read .documents

namespace Bucket

/-- All buckets, in the order in which they are read. -/
def all : List Bucket := [strings, hashes, sets, sortedSets, lists, documents]

/-! ## 1. The request of a bucket -/

/-- The request for several keys. -/
def request (b : Bucket) (keys : List Bytes) : Request :=
  match b with
  | strings => .strings keys
  | hashes => .batch (keys.map fun k => (.hashFields, k))
  | sets => .batch (keys.map fun k => (.setMembers, k))
  | sortedSets => .batch (keys.map fun k => (.sortedMembers, k))
  | lists => .batch (keys.map fun k => (.listElements, k))
  | documents => .batch (keys.map fun k => (.document, k))

/-- The layout of the values of a bucket. -/
def layout : Bucket → Value → Except Failure Preview
  | strings => Preview.ofString
  | hashes => Preview.ofHash
  | sets => Preview.ofSet
  | sortedSets => Preview.ofSortedSet
  | lists => Preview.ofList
  | documents => Preview.ofDocument

/-- The keys of a bucket, in the order given. -/
def keysOf (b : Bucket) (infos : List KeyInfo) : List Text :=
  (infos.filter fun info => Fate.ofType info.type = .read b).map (·.key)

/-! ## 2. What the answers mean -/

/-- A finding that is no document. -/
def plain (p : Preview) : Finding := ⟨p, false⟩

/-- What one answer of a typed bucket shows.  Whatever is wrong with it concerns its key only. -/
def findValue (b : Bucket) (v : Value) : Finding :=
  match v.failure? with
  | some e => plain (.readError e)
  | none =>
    match b.layout v with
    | .ok p => plain p
    | .error e => plain (.readError e)

/-- What one answer to the attempt to read a document shows. -/
def findDocument (v : Value) : Except Failure Finding :=
  if v.isNull || v.failure?.isSome then .ok (plain .unsupported)
  else do return ⟨← Preview.ofDocument v, true⟩

/-- What one answer shows. -/
def find (b : Bucket) (v : Value) : Except Failure Finding :=
  match b with
  | documents => findDocument v
  | _ => .ok (b.findValue v)

/-- What a failed request shows of each of its keys. -/
def findFailure (b : Bucket) (e : Failure) : Finding :=
  match b with
  | documents => plain .unsupported
  | _ => plain (.readError e)

/-- The findings for keys from a position on: the answer at a key's position is its own. -/
def findEach (b : Bucket) (replies : Value) : Nat → List Text → Except Failure (List (Text × Finding))
  | _, [] => .ok []
  | i, key :: keys => do
    let v ← replies.memberOrNull i
    let f ← b.find v
    let rest ← findEach b replies (i + 1) keys
    return (key, f) :: rest

/-- The findings for all keys of a bucket from the outcome of its request. -/
def findings (b : Bucket) (keys : List Text) : Except Failure Value → Except Failure (List (Text × Finding))
  | .error e => .ok (keys.map fun key => (key, b.findFailure e))
  | .ok replies => b.findEach replies 0 keys

/-! ## 3. Reading a bucket -/

variable {σ : Type}

/-- The outcome of the request for a bucket.  A key that has no bytes fails it before anything
is sent. -/
def fetch (server : Server σ) (b : Bucket) (keys : List Text) : Session σ (Except Failure Value) :=
  match keys.mapM encodeKey with
  | .error e => return .error e
  | .ok names => (server.ask (b.request names)).outcome

end Bucket

end Keyscope
