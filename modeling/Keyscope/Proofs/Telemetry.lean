/-
# What is reported of a shard

Rows are grouped in one pass, in order of first appearance, and each identity is then looked up among
the groups.  What comes out is what a look at all rows would find for each identity by itself: the
rows whose first column is its name (`shards_by_filter`).

A fixed source is one that keeps the rows it was made of (`TelemetrySource.ofValues_rows`), and the means
of rates that may be any values are those of numbers where they are numbers
(`TelemetrySource.meansOf_rates`).
-/
import Mathlib.Data.List.Forall2
import Keyscope.Proofs.Outcome
import Keyscope.Proofs.Telemetry.Groups
import Keyscope.Proofs.Value.Parts

namespace Keyscope

open TelemetrySource (rowValue)

/-! ## 1. Identities -/

/-- The identities of a source are texts: those of a file always are, and fixed ones may be. -/
def TelemetrySource.NamesTexts : TelemetrySource → Prop
  | .fixed identities _ => ∀ i ∈ identities, ∃ name, i.id = .text name
  | .file _ => True

namespace TelemetrySource

/-- An identity has the text of the identifier in its entry. -/
theorem identifier_of_identity? {v : Value} {i : Identity} (h : identity? v = .ok (some i)) :
    ∃ items id name, v = .dict items ∧ Value.field? "id" items = some id ∧ id.toText = .ok name ∧
      i.id = .text name := by
  unfold identity? at h
  split at h
  · rename_i items
    split at h
    · cases h
    · cases h
    · rename_i id _ hid
      obtain ⟨name, hname, h⟩ := Outcome.exists_of_bind h
      obtain ⟨health, -, h⟩ := Outcome.exists_of_bind h
      obtain rfl := Option.some.inj (Except.ok.inj h)
      exact ⟨items, id, name, rfl, hid, hname, rfl⟩
  · cases h

/-- So do those of two lists. -/
theorem identifier_of_pairs : ∀ {ids healths : List Value} {identities : List Identity},
    Identity.pairs ids healths = .ok identities →
      ∀ i ∈ identities, ∃ id ∈ ids, ∃ name, id.toText = .ok name ∧ i.id = .text name
  | id :: ids, health :: healths, identities, h => by
    rw [Identity.pairs] at h
    obtain ⟨name, hname, h⟩ := Outcome.exists_of_bind h
    obtain ⟨shown, -, h⟩ := Outcome.exists_of_bind h
    obtain ⟨rest, hrest, h⟩ := Outcome.exists_of_bind h
    obtain rfl := Except.ok.inj h
    intro i hi
    rcases List.mem_cons.mp hi with rfl | hi
    · exact ⟨id, List.mem_cons_self, name, hname, rfl⟩
    · obtain ⟨other, hother, hnamed⟩ := identifier_of_pairs hrest i hi
      exact ⟨other, List.mem_cons_of_mem _ hother, hnamed⟩
  | [], _, identities, h => by
    obtain rfl : [] = identities := Except.ok.inj h
    simp
  | _ :: _, [], identities, h => by
    obtain rfl : [] = identities := Except.ok.inj h
    simp

/-- Entries that are listed as objects are read one by one. -/
theorem identitiesOf_some {items : List (Value × Value)} {v : Value}
    (h : Value.field? "identities" items = some v) :
    identitiesOf items = v.parts >>= Outcome.collect identity? := by
  simp only [identitiesOf, h]
  unfold Value.parts
  split <;> rfl

/-- An identifier that a file lists: one of an object, or one of a list. -/
inductive Identifies (items : List (Value × Value)) : Value → Prop
  | object {v id : Value} {entries : List Value} {entry : List (Value × Value)}
    (hv : Value.field? "identities" items = some v) (hentries : v.parts = .ok entries)
    (hentry : .dict entry ∈ entries) (hid : Value.field? "id" entry = some id) : Identifies items id
  | listed {id : Value} {ids : List Value} (hids : membersOf "ids" items = .ok ids) (hid : id ∈ ids) :
    Identifies items id

/-- **The identities of a file are named by the texts of its identifiers.** -/
theorem identifier_of_identitiesOf {items : List (Value × Value)} {identities : List Identity}
    (h : identitiesOf items = .ok identities) :
    ∀ i ∈ identities, ∃ id name, Identifies items id ∧ id.toText = .ok name ∧ i.id = .text name := by
  intro i hi
  cases hfield : Value.field? "identities" items with
  | some v =>
    rw [identitiesOf_some hfield] at h
    obtain ⟨entries, hentries, h⟩ := Outcome.exists_of_bind h
    obtain ⟨w, hw, hidentity⟩ := Outcome.exists_of_collect h hi
    obtain ⟨entry, id, name, rfl, hid, hnamed⟩ := identifier_of_identity? hidentity
    exact ⟨id, name, .object hfield hentries hw hid, hnamed⟩
  | none =>
    simp only [identitiesOf, hfield] at h
    obtain ⟨ids, hids, h⟩ := Outcome.exists_of_bind h
    obtain ⟨healths, -, h⟩ := Outcome.exists_of_bind h
    obtain ⟨id, hid, name, hnamed⟩ := identifier_of_pairs h i hi
    exact ⟨id, name, .listed hids hid, hnamed⟩

/-- **The identities of a source that names texts are texts.** -/
theorem exists_names {source : TelemetrySource} (hnames : source.NamesTexts) {disk : Disk}
    {identities : List Identity} (h : source.identities disk = .ok identities) :
    ∀ i ∈ identities, ∃ name, i.id = .text name := by
  cases source with
  | fixed fixed rows =>
    obtain rfl := Except.ok.inj h
    exact hnames
  | file path =>
    obtain ⟨items, -, h⟩ := Outcome.exists_of_bind h
    intro i hi
    obtain ⟨_, name, -, -, hname⟩ := identifier_of_identitiesOf h i hi
    exact ⟨name, hname⟩

/-! ## 2. Fixed sources -/

theorem columnTexts_rowValue (row : List Text) : columnTexts (rowValue row) = .ok row :=
  Outcome.mapM_map_ok fun _ _ => rfl

/-- A fixed source that is made of rows of texts keeps them as they are. -/
theorem ofValues_rows (identities : List Identity) (rows : List (List Text)) :
    ofValues identities (.list (rows.map rowValue)) = .ok (.fixed identities rows) := by
  have hvalues : ofValues identities (.list (rows.map rowValue)) = do
      return .fixed identities (← (rows.map rowValue).mapM columnTexts) := by
    cases rows <;> rfl
  rw [hvalues, Outcome.mapM_map_ok fun row _ => columnTexts_rowValue row]
  rfl

/-! ## 3. Summaries -/

/-- The summary of the rows of an identity that is a text. -/
def summaryOf (rows : List (List Text)) (i : Identity) : Shard :=
  match i.id with
  | .text name => Shard.ofConnections i.id (Connection.ofRows name rows)
  | _ => Shard.ofConnections i.id []

/-- Identities that are texts have a summary each, of the rows of their own. -/
theorem summarize_texts {identities : List Identity}
    (htexts : ∀ i ∈ identities, ∃ name, i.id = .text name) (rows : List (List Text)) :
    (do Shard.summarize identities (← Connection.group (rows.map rowValue))) =
      .ok (identities.map (summaryOf rows)) := by
  obtain ⟨grouped, hgrouped, hconnections⟩ := Connection.exists_grouped rows
  rw [hgrouped, Outcome.ok_bind]
  refine Outcome.mapM_ok fun i hi => ?_
  obtain ⟨name, hname⟩ := htexts i hi
  simp only [summaryOf, hname, Connection.ofShard, hconnections.lookup name, Outcome.ok_bind]
  rfl

/-- The sum of values that are real numbers is that of the numbers, if there are any. -/
theorem total_reals {xs : List Binary64} (h : xs ≠ []) :
    Value.total (xs.map .real) = .ok (.real (Connection.total xs)) := by
  have hfrom : ∀ (xs : List Binary64) (sum : Binary64),
      (xs.map Value.real).foldlM Value.addTo (.real sum) = .ok (.real (xs.foldl (· + ·) sum)) := by
    intro xs
    induction xs with
    | nil => exact fun _ => rfl
    | cons x xs ih => exact fun sum => ih (sum + x)
  cases xs with
  | nil => exact absurd rfl h
  | cons x xs => exact hfrom xs (0 + x)

/-- The means of rates that are values are those of the connections that have them. -/
theorem meansOf_rates (cs : List Connection) :
    Connection.meansOf (cs.map fun c => (.real c.inRate, .real c.outRate)) =
      .ok (Connection.means cs) := by
  cases cs with
  | nil => rfl
  | cons c cs =>
    have htotal : ∀ f : Connection → Binary64, Value.total ((c :: cs).map fun c => .real (f c)) =
        .ok (.real (Connection.total ((c :: cs).map f))) := by
      intro f
      have hrates : (c :: cs).map f ≠ [] := by simp
      have hsum := total_reals hrates
      rwa [List.map_map] at hsum
    simp only [Connection.meansOf, List.map_map, Function.comp_def, htotal, Outcome.ok_bind,
      Value.meanOf, Quantity.over?, Connection.means, Connection.mean, List.isEmpty_map,
      List.isEmpty_cons, List.length_map]
    rfl

/-- The means of no rates are zero, and others are sums divided by their number. -/
theorem ofConnections_rates (id : Value) (cs : List Connection) :
    (Shard.ofConnections id cs).download =
        (if cs = [] then 0 else (cs.map (·.inRate)).foldl (· + ·) 0 / Binary64.ofInt cs.length) ∧
      (Shard.ofConnections id cs).upload =
        (if cs = [] then 0 else (cs.map (·.outRate)).foldl (· + ·) 0 / Binary64.ofInt cs.length) := by
  cases cs with
  | nil => exact ⟨rfl, rfl⟩
  | cons c cs =>
    simp only [Shard.ofConnections, Connection.means, Connection.mean, Connection.total,
      List.isEmpty_cons, List.length_map]
    exact ⟨rfl, rfl⟩

/-- **What is reported of a shard is found among its own rows.**  A source that names its shards by
texts has a summary for each identity, in order, also for one that comes twice or has no rows.  Its
connections are those that the rows with thirteen columns describe whose first column is the name,
in the order of the rows; its rates are the sums of theirs from left to right, divided by their
number, or zero without any.

So the other rows do not matter: another source with the same identities, and with the same rows of
a shard in the same order among any others, has the same summary of it. -/
theorem shards_by_filter {source : TelemetrySource} (hnames : source.NamesTexts) {disk : Disk}
    {identities : List Identity} {rows : List (List Text)}
    (hidentities : source.identities disk = .ok identities) (hrows : source.rows disk = .ok rows) :
    (∀ row, Connection.ofRow (rowValue row) = .ok (Connection.ofTexts row)) ∧
    ∃ shards, source.shards disk = .ok shards ∧
      List.Forall₂ (fun i shard => ∃ name, i.id = .text name ∧ shard.id = .text name ∧
          shard.connections = (rows.filter (Connection.isRowOf name)).filterMap Connection.ofTexts ∧
          shard.download = (if shard.connections = [] then 0
            else (shard.connections.map (·.inRate)).foldl (· + ·) 0 /
              Binary64.ofInt shard.connections.length) ∧
          shard.upload = (if shard.connections = [] then 0
            else (shard.connections.map (·.outRate)).foldl (· + ·) 0 /
              Binary64.ofInt shard.connections.length))
        identities shards ∧
      ∀ (other : TelemetrySource) (disk' : Disk) (rows' : List (List Text)),
        other.identities disk' = .ok identities → other.rows disk' = .ok rows' →
        ∃ shards', other.shards disk' = .ok shards' ∧
          ∀ (place : Nat) (name : Text), identities[place]?.map (·.id) = some (.text name) →
            rows'.filter (Connection.isRowOf name) = rows.filter (Connection.isRowOf name) →
            shards'[place]? = shards[place]? := by
  have htexts := exists_names hnames hidentities
  have hall : ∀ (source : TelemetrySource) (disk : Disk) (rows : List (List Text)),
      source.identities disk = .ok identities → source.rows disk = .ok rows →
      source.shards disk = .ok (identities.map (summaryOf rows)) := by
    intro source disk rows hidentities hrows
    rw [shards, hidentities, hrows]
    exact summarize_texts htexts rows
  refine ⟨Connection.ofRow_texts, _, hall source disk rows hidentities hrows, ?_, ?_⟩
  · rw [List.forall₂_map_right_iff, List.forall₂_same]
    intro i hi
    obtain ⟨name, hname⟩ := htexts i hi
    simp only [summaryOf, hname]
    obtain ⟨hdownload, hupload⟩ :=
      ofConnections_rates (.text name) (Connection.ofRows name rows)
    exact ⟨name, rfl, rfl, Connection.ofRows_eq_filter name rows, hdownload, hupload⟩
  · intro other disk' rows' hidentities' hrows'
    refine ⟨_, hall other disk' rows' hidentities' hrows', ?_⟩
    intro place name hplace hsame
    rw [List.getElem?_map, List.getElem?_map]
    cases hi : identities[place]? with
    | none => rfl
    | some i =>
      rw [hi] at hplace
      have hname : i.id = .text name := Option.some.inj hplace
      simp only [Option.map_some, summaryOf, hname, Connection.ofRows_eq_filter, hsame]

/-- A row of fourteen columns. -/
def rowOf (shard identity : Text) : List Text :=
  [shard, identity, "peer", "12", "100", "50", "5", "0", "0", "0", "7", "1", "1", "up"]

/-- A live shard that is named twice and one without rows; among the rows are one of the empty shard,
one of thirteen columns, and a short one. -/
def ofThree : TelemetrySource :=
  .fixed [⟨.text "a", .text "ok"⟩, ⟨.text "b", .text "ok"⟩, ⟨.text "a", .text "ok"⟩]
    [rowOf "a" "x", rowOf [] "a", (rowOf [] "a").tail, ["a", "x"], rowOf "a" "y"]

/-- The row of the empty shard is not taken for one of the identity behind it; the row of thirteen
columns is. -/
theorem shards_ofThree :
    ∃ shards, ofThree.shards .empty = .ok shards ∧
      shards.map (fun shard => shard.connections.map (·.identity)) =
        ([["x", "a", "y"], [], ["x", "a", "y"]] : List (List Text)) := by
  have hnames : ofThree.NamesTexts := by
    simp [ofThree, NamesTexts]
  obtain ⟨-, shards, hshards, hall, -⟩ :=
    shards_by_filter hnames (show ofThree.identities .empty = .ok _ from rfl)
      (show ofThree.rows .empty = .ok _ from rfl)
  refine ⟨shards, hshards, ?_⟩
  rcases hall with _ | ⟨⟨_, hname₁, -, h₁, -⟩, _ | ⟨⟨_, hname₂, -, h₂, -⟩,
    _ | ⟨⟨_, hname₃, -, h₃, -⟩, _ | _⟩⟩⟩
  obtain rfl := Value.text.inj hname₁
  obtain rfl := Value.text.inj hname₂
  obtain rfl := Value.text.inj hname₃
  simp only [List.map_cons, List.map_nil, h₁, h₂, h₃]
  rfl

end TelemetrySource

end Keyscope
