/-
# Snapshots of a database

A database has entries under different keys, each with a value of its type.  A client that reads it
without faults hands out the keys page by page and answers every read from the entry
(`Database.ServedBy`).

The snapshot of such a database is what a reader would expect who knows nothing of pages, batches
and buckets: a record for each of the first entries, as many as the cap allows, made from that entry
alone (`Entry.record`), in the order of the keys (`Snapshot.take_database`).
-/
import Mathlib.Data.List.Nodup
import Keyscope.Proofs.Keyspace.Batching
import Keyscope.Proofs.Preview

namespace Keyscope

variable {σ : Type}

/-! ## 1. Entries -/

/-- A value as it is stored. -/
inductive Stored where
  | string (bs : Bytes)
  | hash (fields : List (Bytes × Bytes))
  | set (members : List Bytes)
  /-- Members with their scores as the server writes them, in their order. -/
  | sortedSet (members : List (Bytes × Bytes))
  | list (elements : List Bytes)
  | document (bs : Bytes)
  /-- A value that no command reads. -/
  | hidden

/-- The types under which a value can be stored. -/
def Stored.IsOf (type : Text) : Stored → Prop
  | string _ => type = "string"
  | hash _ => type = "hash"
  | set _ => type = "set"
  | sortedSet _ => type = "zset"
  | list _ => type = "list"
  | document _ => type ∉ Payload.neverRead ++ Payload.typed.map Prod.fst
  | hidden => type ≠ "none" ∧ type ∉ Payload.typed.map Prod.fst

/-- A key with its type, its time to live and its value. -/
structure Entry where
  key : Bytes
  type : Text
  ttl : Int
  value : Stored
  typed : value.IsOf type

namespace Entry

/-- The preview of an entry: the layout of its type. -/
def preview (e : Entry) : Preview :=
  match e.value with
  | .string bs => ⟨Utf8.decodeLossy bs, 1⟩
  | .hash fields =>
    ⟨Text.unlines ((Text.sortPairs (fields.map fun f =>
        (Utf8.decodeLossy f.1, Utf8.decodeLossy f.2))).map fun p => p.1 ++ "\t" ++ p.2),
      fields.length⟩
  | .set members => ⟨Text.unlines (Text.sort (members.map Utf8.decodeLossy)), members.length⟩
  | .sortedSet members =>
    ⟨Text.unlines (members.map fun m => Utf8.decodeLossy m.1 ++ "\t" ++ Utf8.decodeLossy m.2),
      members.length⟩
  | .list elements =>
    ⟨Text.unlines ((elements.map Utf8.decodeLossy).mapIdx fun i t => Decimal.ofNat i ++ "\t" ++ t),
      elements.length⟩
  | .document bs =>
    ⟨Utf8.decodeLossy bs, if Utf8.decodeLossy bs = "null" ∨ Utf8.decodeLossy bs = [] then 0 else 1⟩
  | .hidden =>
    if e.type = "stream" ∨ e.type = "vectorset" then
      ⟨"<" ++ e.type ++ " preview not implemented>", 0⟩
    else ⟨"<unsupported type>", 0⟩

/-- Whether the value of an entry is a document. -/
def isDocument (e : Entry) : Bool :=
  match e.value with
  | .document _ => true
  | _ => false

/-- **The record of an entry.** -/
def record (source : Text) (budget : Int) (e : Entry) : Record where
  source := source
  key := Utf8.decodeEscaped e.key
  type := if e.isDocument then "json" else e.type
  lifetime := KeyInfo.lifetimeOf (.int e.ttl)
  count := e.preview.count
  payload := Preview.clip budget e.preview.payload

end Entry

/-- What a client answers to the read of a value.  Scores come as texts: a read asks the client to
decode them. -/
def Stored.ReadBy (a : Answers) (key : Bytes) : Stored → Prop
  | string bs => a.string key = .bytes bs
  | hash fields => a.command .hashFields key = .dict (fields.map fun f => (.bytes f.1, .bytes f.2))
  | set members =>
    ∃ vs : List Bytes, vs.Perm members ∧ a.command .setMembers key = .set (vs.map .bytes)
  | sortedSet members =>
    a.command .sortedMembers key =
      .list (members.map fun m => .tuple [.bytes m.1, .text (Utf8.decodeLossy m.2)])
  | list elements => a.command .listElements key = .list (elements.map .bytes)
  | document bs => a.command .document key = .bytes bs
  | hidden => ∃ e, a.command .document key = .error e ∧ e.isFailure = true

/-- Answers that are those of an entry. -/
structure Entry.AnsweredBy (e : Entry) (a : Answers) : Prop where
  type : a.command .type e.key = .text e.type ∨
    ∃ bs, a.command .type e.key = .bytes bs ∧ Utf8.decodeLossy bs = e.type
  ttl : a.command .ttl e.key = .int e.ttl
  value : e.value.ReadBy a e.key

/-- A database, in the order in which its keys are handed out. -/
structure Database where
  entries : List Entry
  nodup : (entries.map Entry.key).Nodup

/-- **A client that reads a database without faults**, in pages of a size. -/
structure Database.ServedBy (db : Database) (server : Server σ) (size : Nat) (cursor : Nat → Int)
    (a : Answers) : Prop where
  connects : ∀ limit s, ∃ client next, server (.connect limit none) s = (.ok client, next)
  pages : server.Pages (db.entries.map Entry.key) size cursor
  answers : server.AnswersBy a
  entries : ∀ e ∈ db.entries, e.AnsweredBy a

/-! ## 2. A client -/

/-- What is answered to a command for an entry; a command for another type is an error. -/
def Entry.reply (e : Entry) (c : Command) : Value :=
  match c, e.value with
  | .type, _ => .text e.type
  | .ttl, _ => .int e.ttl
  | .hashFields, .hash fields => .dict (fields.map fun f => (.bytes f.1, .bytes f.2))
  | .setMembers, .set members => .set (members.map .bytes)
  | .sortedMembers, .sortedSet members =>
    .list (members.map fun m => .tuple [.bytes m.1, .text (Utf8.decodeLossy m.2)])
  | .listElements, .list elements => .list (elements.map .bytes)
  | .document, .document bs => .bytes bs
  | _, _ => .error (.plain "ResponseError" (some "WRONGTYPE"))

/-- The string under the key of an entry. -/
def Entry.stringReply (e : Entry) : Value :=
  match e.value with
  | .string bs => .bytes bs
  | _ => .null

namespace Database

/-- The answers for the keys of a database. -/
def answers (db : Database) : Answers where
  string name := ((db.entries.find? (·.key = name)).map Entry.stringReply).getD .null
  command c name := ((db.entries.find? (·.key = name)).map (·.reply c)).getD .null

/-- The page at a place in the list of keys; the cursor is the place of the next page. -/
def page (db : Database) (size : Nat) (cursor : Int) : Value :=
  let place := cursor.toNat
  .tuple [.int (if place + size < db.entries.length then (place + size : Nat) else 0),
    .list ((((db.entries.map Entry.key).drop place).take size).map .bytes)]

theorem find?_entry (db : Database) {e : Entry} (he : e ∈ db.entries) :
    db.entries.find? (·.key = e.key) = some e := by
  cases hfind : db.entries.find? (·.key = e.key) with
  | none =>
    have hne := List.find?_eq_none.mp hfind e he
    simp at hne
  | some other =>
    have hkey : other.key = e.key := by simpa using List.find?_some hfind
    rw [List.inj_on_of_nodup_map db.nodup (List.mem_of_find?_eq_some hfind) he hkey]

theorem command_entry (db : Database) {e : Entry} (he : e ∈ db.entries) (c : Command) :
    db.answers.command c e.key = e.reply c := by
  simp only [answers, find?_entry db he, Option.map_some, Option.getD_some]

theorem string_entry (db : Database) {e : Entry} (he : e ∈ db.entries) :
    db.answers.string e.key = e.stringReply := by
  simp only [answers, find?_entry db he, Option.map_some, Option.getD_some]

/-- The answers for a database are those of its entries. -/
theorem answeredBy_answers (db : Database) {e : Entry} (he : e ∈ db.entries) :
    e.AnsweredBy db.answers where
  type := .inl (db.command_entry he .type)
  ttl := db.command_entry he .ttl
  value := by
    have hstring := db.string_entry he
    have hcommand := db.command_entry he
    obtain ⟨key, type, ttl, value, htyped⟩ := e
    cases value with
    | string bs => exact hstring
    | hash fields => exact hcommand .hashFields
    | set members => exact ⟨members, .rfl, hcommand .setMembers⟩
    | sortedSet members => exact hcommand .sortedMembers
    | list elements => exact hcommand .listElements
    | document bs => exact hcommand .document
    | hidden => exact ⟨_, hcommand .document, by decide⟩

/-- **Every database can be read**, in pages of any size. -/
theorem servedBy_server (db : Database) (size : Nat) :
    db.ServedBy (db.answers.server (db.page size)) size (fun i => i) db.answers where
  connects := fun _ s => ⟨.null, s, rfl⟩
  pages :=
    { start := rfl
      inside := fun i hi _ => by omega
      page := fun i _ _ _ => by
        simp only [Answers.server, page, Int.toNat_natCast, List.length_map] }
  answers := db.answers.server_answersBy _
  entries := fun _ he => db.answeredBy_answers he

end Database

/-! ## 3. What is read of an entry -/

namespace Entry

variable {a : Answers} {e : Entry}

/-- The key of an entry, as it is shown. -/
def keyText (e : Entry) : Text := Utf8.decodeEscaped e.key

/-- What is known of the key of an entry. -/
def info (e : Entry) : KeyInfo := ⟨e.keyText, e.type, KeyInfo.lifetimeOf (.int e.ttl)⟩

/-- What is found for the key of an entry. -/
def finding (e : Entry) : Finding := ⟨e.preview, e.isDocument⟩

/-- A key can be sent back. -/
theorem encode_keyText (e : Entry) : encodeKey e.keyText = .ok e.key :=
  encodeKey_decodeEscaped e.key

/-- The record of an entry is its fresh record, filled in. -/
theorem filled_finding (source : Text) (budget : Int) (e : Entry) :
    (Record.ofInfo source e.info).filled budget e.finding = e.record source budget := by
  simp only [record, Record.filled, Record.ofInfo, info, finding, keyText, Record.documentType]
  congr

/-- Type and time to live are those of the entry. -/
theorem info_answered (h : e.AnsweredBy a) : a.info e.keyText = .ok e.info := by
  have htype : KeyInfo.typeOf (a.command .type e.key) = .ok e.type := by
    rcases h.type with hreply | ⟨bs, hreply, hbs⟩
    · rw [hreply]
      rfl
    · rw [hreply, ← hbs]
      rfl
  rw [a.info_of_name e.encode_keyText, KeyInfo.ofPair, htype, h.ttl]
  rfl

/-- A typed value that is delivered as it is stored has its layout. -/
theorem finding_typed {b : Bucket} {v : Value} {p : Preview} (htype : (e.type, b) ∈ Payload.typed)
    (hreply : a.reply b e.key = v) (hfailure : v.failure? = none) (hlayout : b.layout v = .ok p) :
    a.finding e.info = .ok ⟨p, false⟩ := by
  have hfate : Fate.ofType e.info.type = .read b := Fate.ofType_typed htype
  rw [a.finding_of_name e.encode_keyText, hfate]
  simp only [hreply]
  rw [Bucket.find_typed (Payload.typed_ne_documents htype), Bucket.findValue, hfailure]
  simp only [hlayout]
  rfl

/-- A value of any other type is read as a document. -/
theorem finding_document (htype : e.type ∉ Payload.neverRead ++ Payload.typed.map Prod.fst) :
    a.finding e.info = Bucket.findDocument (a.command .document e.key) := by
  have hfate : Fate.ofType e.info.type = .read .documents := Fate.ofType_document htype
  rw [a.finding_of_name e.encode_keyText, hfate]
  rfl

/-- A value that no command reads is shown as what it is not: its type is never asked for, or what it
was asked for as a document is a failure. -/
theorem finding_hidden {key : Bytes} {type : Text} {ttl : Int} (htyped : Stored.hidden.IsOf type)
    (hread : Stored.hidden.ReadBy a key) :
    a.finding (info ⟨key, type, ttl, .hidden, htyped⟩) = .ok (finding ⟨key, type, ttl, .hidden, htyped⟩) := by
  simp only [finding, preview, isDocument]
  by_cases hnever : type = "stream" ∨ type = "vectorset"
  · have hfate : Fate.ofType type = .notImplemented := by
      rw [Fate.ofType, if_neg htyped.1, if_pos hnever]
    rw [a.finding_of_name (encodeKey_decodeEscaped key)]
    simp only [info, hfate, if_pos hnever]
    rfl
  · obtain ⟨error, hreply, hfailure⟩ := hread
    have htype : type ∉ Payload.neverRead ++ Payload.typed.map Prod.fst := by
      rw [List.mem_append, not_or]
      refine ⟨?_, htyped.2⟩
      rw [not_or] at hnever
      simp [Payload.neverRead, htyped.1, hnever]
    rw [finding_document (e := ⟨key, type, ttl, .hidden, htyped⟩) htype, Bucket.findDocument]
    simp only [if_neg hnever]
    rw [hreply, if_pos (by simp [Value.failure?, hfailure])]
    rfl

/-- **What is found is the preview of the entry.** -/
theorem finding_answered (h : e.AnsweredBy a) : a.finding e.info = .ok e.finding := by
  obtain ⟨key, type, ttl, value, htyped⟩ := e
  have hvalue := h.value
  cases value with
  | string bs =>
    obtain rfl : type = "string" := htyped
    exact finding_typed (b := .strings) (by simp [Payload.typed]) hvalue rfl rfl
  | hash fields =>
    obtain rfl : type = "hash" := htyped
    exact finding_typed (b := .hashes) (by simp [Payload.typed]) hvalue rfl
      (Preview.ofHash_bytes fields)
  | set members =>
    obtain rfl : type = "set" := htyped
    obtain ⟨vs, hperm, hreply⟩ := hvalue
    exact finding_typed (b := .sets) (by simp [Payload.typed]) hreply rfl
      (Preview.ofSet_bytes hperm)
  | sortedSet members =>
    obtain rfl : type = "zset" := htyped
    exact finding_typed (b := .sortedSets) (by simp [Payload.typed]) hvalue rfl
      (Preview.ofSortedSet_bytes members)
  | list elements =>
    obtain rfl : type = "list" := htyped
    exact finding_typed (b := .lists) (by simp [Payload.typed]) hvalue rfl
      (Preview.ofList_bytes elements)
  | document bs =>
    have hreply : a.command .document key = .bytes bs := hvalue
    rw [finding_document (e := ⟨key, type, ttl, .document bs, htyped⟩) htyped, hreply]
    rfl
  | hidden => exact finding_hidden htyped hvalue

end Entry

/-! ## 4. A whole snapshot -/

/-- A cap that is a whole number is the number of keys that are taken. -/
theorem Scan.maxKeys_of_limits {most : Nat} {pageSize : Value} {limits : Limits}
    (h : Scan.limits (.int most) pageSize = .ok limits) : limits.maxKeys = some most := by
  rw [Scan.limits] at h
  simp only [Value.quantity?] at h
  split at h
  · cases h
  · obtain rfl := Except.ok.inj h
    rfl

namespace Database

/-- The first entries, as many as a cap allows, in the order of their keys. -/
def firstSorted (db : Database) (most : Nat) : List Entry :=
  (db.entries.take most).mergeSort fun x y => Text.le x.keyText y.keyText

variable (db : Database) (most : Nat)

theorem firstSorted_perm : (db.firstSorted most).Perm (db.entries.take most) :=
  List.mergeSort_perm _ _

/-- Sorting the keys is sorting the entries by them. -/
theorem sort_keys :
    Text.sort (((db.entries.map Entry.key).take most).map Utf8.decodeEscaped) =
      (db.firstSorted most).map Entry.keyText := by
  have hsort : (db.firstSorted most).map Entry.keyText =
      Text.sort ((db.entries.take most).map Entry.keyText) := List.map_mergeSort fun _ _ _ _ => rfl
  rw [hsort, ← List.map_take, List.map_map]
  rfl

/-- The keys are different as texts, too. -/
theorem ascending_keys : ((db.firstSorted most).map Entry.keyText).Pairwise (· < ·) := by
  rw [← sort_keys]
  refine Text.sort_strict (List.Nodup.map (fun _ _ h => Utf8.decodeEscaped_injective h) ?_)
  exact db.nodup.sublist (List.take_sublist _ _)

end Database

namespace Snapshot

variable {server : Server σ} {plan : Plan} {rounds : Nat} {target : Target} {db : Database}
  {size : Nat} {cursor : Nat → Int} {a : Answers}

/-- The snapshot of some entries, whose keys a sweep has brought back. -/
theorem read_entries (target : Target) (hanswers : server.AnswersBy a) {es : List Entry}
    (hes : ∀ e ∈ es, e.AnsweredBy a) {budget : Int} (hbudget : plan.budget = .int budget)
    {s next : σ} {truncated : Bool} (hscan : (Scan.run server plan.limits rounds).run s =
      (.ok (some ⟨es.map Entry.keyText, truncated⟩), next)) :
    ((read server plan rounds target).run s).1 =
      .ok (some ⟨target.name, es.map (Entry.record target.name budget), truncated⟩) := by
  have hnames : (es.map Entry.keyText).mapM encodeKey = .ok (es.map Entry.key) := by
    rw [List.mapM_map]
    exact Outcome.mapM_ok fun e _ => e.encode_keyText
  have hinfos : (es.map Entry.keyText).mapM a.info = .ok (es.map Entry.info) := by
    rw [List.mapM_map]
    exact Outcome.mapM_ok fun e he => Entry.info_answered (hes e he)
  have hfound : (es.map Entry.info).mapM a.found =
      .ok (es.map fun e => (e.keyText, e.finding)) := by
    rw [List.mapM_map]
    refine Outcome.mapM_ok fun e he => ?_
    rw [Function.comp_apply, Answers.found, Entry.finding_answered (hes e he)]
    rfl
  have hkeys : ((es.map fun e => (e.keyText, e.finding)).map Prod.fst).Nodup := by
    rw [List.map_map]
    exact Scan.run_nodup hscan
  have hrecords : ((es.map Entry.info).map (Record.ofInfo target.name)).map (Record.settled budget
      (es.map fun e => (e.keyText, e.finding))) = es.map (Entry.record target.name budget) := by
    rw [List.map_map, List.map_map]
    refine List.map_congr_left fun e he => ?_
    have hmem : (e.keyText, e.finding) ∈ es.map fun e => (e.keyText, e.finding) :=
      List.mem_map_of_mem he
    exact (Record.settled_of_mem budget hkeys hmem).trans (e.filled_finding target.name budget)
  rw [read_answers hanswers hbudget hscan, hnames, hinfos, ← hrecords]
  show (es.map Entry.info).mapM a.found >>= _ = _
  rw [hfound]
  rfl

/-- **The snapshot of a database.**  It has one record for each of the first entries, as many as the
cap allows: the record of that entry and of no other, in strictly ascending order of the keys.  It
says that there is more exactly when there is. -/
theorem take_database (hserved : db.ServedBy server size cursor a) (hsize : 0 < size) {most : Nat}
    (hmost : 0 < most) {pageSize : Value}
    (hlimits : Scan.limits (.int most) pageSize = .ok plan.limits)
    {budget : Int} (hbudget : plan.budget = .int budget) (hpos : 0 < rounds)
    (hrounds : db.entries.length ≤ rounds * size) (s : σ) :
    ∃ records last, (take server plan rounds target).run s =
        (.ok (some ⟨target.name, records, decide (most < db.entries.length)⟩), last) ∧
      records.Pairwise (fun r r' => r.key < r'.key) ∧
      records.Perm ((db.entries.take most).map (Entry.record target.name budget)) := by
  obtain ⟨client, opened, hconnect⟩ := hserved.connects plan.connectLimit s
  obtain ⟨swept, hscan⟩ := Scan.run_pages hserved.pages hsize db.nodup
    (Scan.maxKeys_of_limits hlimits) hmost hpos (by rwa [List.length_map]) opened
  rw [db.sort_keys, List.length_map] at hscan
  have hes : ∀ e ∈ db.firstSorted most, e.AnsweredBy a := fun e he =>
    hserved.entries e (List.mem_of_mem_take ((db.firstSorted_perm most).mem_iff.mp he))
  have hread := read_entries target hserved.answers hes hbudget hscan
  have hascending : ((db.firstSorted most).map (Entry.record target.name budget)).Pairwise
      fun r r' => r.key < r'.key :=
    List.pairwise_map.mpr (List.pairwise_map.mp (db.ascending_keys most))
  exact ⟨_, _, Prod.ext ((run_take_fst hconnect).trans hread) rfl, hascending,
    (db.firstSorted_perm most).map _⟩

end Snapshot

/-- A hash, a string under a key that is not UTF-8, and a document. -/
def Database.threeEntries : Database where
  entries := [⟨[98], "hash", -1, .hash [([102], [49])], rfl⟩,
    ⟨[0xFF], "string", 30, .string [118], rfl⟩,
    ⟨[97], "ReJSON-RL", -1, .document [123, 125],
      show _ ∉ Payload.neverRead ++ Payload.typed.map Prod.fst by decide⟩]
  nodup := by decide

/-- Two of three entries, in pages of two. -/
theorem Snapshot.take_threeEntries :
    ∃ records last,
      (take (Database.threeEntries.answers.server (Database.threeEntries.page 2)) Plan.ofTwo 2
        here).run () = (.ok (some ⟨"Here", records, true⟩), last) ∧
      records.Pairwise (fun r r' => r.key < r'.key) ∧
      records.Perm ((Database.threeEntries.entries.take 2).map (Entry.record "Here" 10)) :=
  take_database (Database.threeEntries.servedBy_server 2) (by decide) (by decide)
    (show Scan.limits (.int (2 : Nat)) (.int 100) = .ok Plan.ofTwo.limits from rfl)
    (show Plan.ofTwo.budget = .int 10 from rfl) (by decide) (by decide) ()

end Keyscope
