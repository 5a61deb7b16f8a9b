/-
# Payloads

Filling in records: every key that has one and is to be read goes into its bucket, every bucket
with keys is read with one request, and what is found goes into the records.  What is found in
one bucket is found whatever happens to the others.
-/
import Keyscope.Keyspace.Bucket

namespace Keyscope

namespace Payload

variable {σ : Type}

/-- The finding for a key that is not read. -/
def unread? (info : KeyInfo) : Option (Text × Finding) :=
  match Fate.ofType info.type with
  | .expired => some (info.key, Bucket.plain .expired)
  | .notImplemented => some (info.key, Bucket.plain (.notImplemented info.type))
  | .read _ => none

/-- The keys that have a record. -/
def wanted (records : List Record) (infos : List KeyInfo) : List KeyInfo :=
  infos.filter fun info => records.any (·.key = info.key)

/-- The buckets that have keys, with their keys. -/
def buckets (infos : List KeyInfo) : List (Bucket × List Text) :=
  (Bucket.all.map fun b => (b, b.keysOf infos)).filter fun p => !p.2.isEmpty

/-- The outcome of the request for every bucket. -/
def fetchAll (server : Server σ) :
    List (Bucket × List Text) → Session σ (List (Bucket × List Text × Except Failure Value))
  | [] => return []
  | (b, keys) :: rest => do
    let outcome ← b.fetch server keys
    let others ← fetchAll server rest
    return (b, keys, outcome) :: others

/-- The findings in all buckets. -/
def findings : List (Bucket × List Text × Except Failure Value) → Except Failure (List (Text × Finding))
  | [] => .ok []
  | (b, keys, outcome) :: rest => do
    let found ← b.findings keys outcome
    let others ← findings rest
    return found ++ others

/-- The records with everything filled in that the server has for them.  The keys that are not read
come first. -/
def materialize (server : Server σ) (budget : Value) (infos : List KeyInfo) (records : List Record) :
    Session σ (List Record) := do
  let infos := wanted records infos
  let records ← Session.ofExcept (records.mapM (Record.settle budget (infos.filterMap unread?)))
  let outcomes ← fetchAll server (buckets infos)
  let found ← Session.ofExcept (findings outcomes)
  Session.ofExcept (records.mapM (Record.settle budget found))

end Payload

end Keyscope
