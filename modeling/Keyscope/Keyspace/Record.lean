/-
# Records

A record is what is shown of one key.  It is made from what is known of the key, without a
payload; payload and entry count are filled in together.
-/
import Keyscope.Keyspace.Metadata
import Keyscope.Preview

namespace Keyscope

/-- One key of a server with the preview of its value. -/
structure Record where
  /-- The name of the server. -/
  source : Text
  key : Text
  type : Text
  lifetime : Int
  count : Int
  payload : Text
  deriving DecidableEq, Repr

/-- What was found under a key: a preview, and whether the value turned out to be a document. -/
structure Finding where
  preview : Preview
  isDocument : Bool
  deriving DecidableEq, Repr

namespace Record

/-- The type of a key that holds a document. -/
def documentType : Text := "json"

/-- The record of a key, not yet filled in. -/
def ofInfo (source : Text) (info : KeyInfo) : Record :=
  ⟨source, info.key, info.type, info.lifetime, 0, []⟩

/-- The record with a finding filled in, its payload within the budget. -/
def fill (budget : Value) (r : Record) (f : Finding) : Except Failure Record := do
  let p ← f.preview.within budget
  return { r with
    type := if f.isDocument then documentType else r.type
    count := p.count
    payload := p.payload }

/-- The record with all findings for its key filled in, one after the other. -/
def settle (budget : Value) (found : List (Text × Finding)) (r : Record) : Except Failure Record :=
  found.foldlM (fun r f => if f.1 = r.key then fill budget r f.2 else .ok r) r

/-- The entry that describes a record with such fields. -/
def entry (source key type count lifetime payload : Value) : Value :=
  .dict [(.text "source", source), (.text "key", key), (.text "type", type),
    (.text "entryCount", count), (.text "ttlSeconds", lifetime), (.text "payload", payload)]

def toValue (r : Record) : Value :=
  entry (.text r.source) (.text r.key) (.text r.type) (.int r.count) (.int r.lifetime)
    (.text r.payload)

/-- One record per key: a later record takes the place of an earlier one with its key. -/
def replaceOrAdd (r : Record) : List Record → List Record
  | [] => [r]
  | s :: rs => if s.key = r.key then r :: rs else s :: replaceOrAdd r rs

/-- The records of keys, one for each, in order of first appearance. -/
def listOfInfos (source : Text) (infos : List KeyInfo) : List Record :=
  infos.foldl (fun rs info => replaceOrAdd (ofInfo source info) rs) []

end Record

end Keyscope
