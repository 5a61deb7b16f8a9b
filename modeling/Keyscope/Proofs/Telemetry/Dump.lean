/-
# Malformed entries of a dump

A dump lists identities and rows, and there may be anything among them.  What describes nothing is passed
over in three places: an entry that is no object with an identifier is no identity, what is no list is no
row, and a row that is too short is not grouped.  Without all of these a dump has the same summaries
(`shardsOf_pruned`).

* The columns of a row are turned into texts before anything looks at how many there are.  That cannot
  fail, because all that is read from a document has a text.
* An identifier need not be a text, and neither need a first column.  Both are turned into texts in the
  same way, so an identity has the rows that begin with its identifier (`own_rows`).
-/
import Mathlib.Data.List.Permutation
import Keyscope.Json.Writer
import Keyscope.Proofs.Json.Reader
import Keyscope.Proofs.Telemetry

namespace Keyscope

/-! ## 1. Lists in an object -/

namespace Value

/-- A list without the members that do not pass; what is no list stays as it is. -/
def keep (p : Value → Bool) : Value → Value
  | list vs => list (vs.filter p)
  | v => v

/-- The entries of an object with the list under a name cut down in this way. -/
def keepUnder (name : Text) (p : Value → Bool) (items : List (Value × Value)) : List (Value × Value) :=
  items.map fun item => if sameKey item.1 (text name) then (item.1, keep p item.2) else item

theorem keep_cases (p : Value → Bool) (v : Value) :
    (∃ vs, v = list vs ∧ keep p v = list (vs.filter p)) ∨ keep p v = v := by
  cases v with
  | list vs => exact .inl ⟨vs, rfl, rfl⟩
  | _ => exact .inr rfl

theorem eq_text_of_sameKey {k : Value} {name : Text} (h : sameKey k (text name) = true) :
    k = text name := by
  cases k with
  | text t =>
    rw [sameKey, beq_iff_eq] at h
    rw [h]
  | _ => simp [sameKey] at h

theorem field?_keepUnder (name : Text) (p : Value → Bool) (items : List (Value × Value)) :
    field? name (keepUnder name p items) = (field? name items).map (keep p) := by
  induction items with
  | nil => rfl
  | cons item items ih =>
    unfold field? keepUnder at ih ⊢
    by_cases h : sameKey item.1 (text name) = true
    · rw [List.map_cons, if_pos h, find?, if_pos h, find?, if_pos h]
      rfl
    · rw [List.map_cons, if_neg h, find?, if_neg h, find?, if_neg h]
      exact ih

theorem field?_keepUnder_of_ne {name other : Text} (hne : other ≠ name) (p : Value → Bool)
    (items : List (Value × Value)) : field? other (keepUnder name p items) = field? other items := by
  induction items with
  | nil => rfl
  | cons item items ih =>
    unfold field? keepUnder at ih ⊢
    by_cases h : sameKey item.1 (text name) = true
    · have hother : ¬ sameKey item.1 (text other) = true := fun h' =>
        hne (text.inj ((eq_text_of_sameKey h').symm.trans (eq_text_of_sameKey h)))
      rw [List.map_cons, if_pos h, find?, if_neg hother, find?, if_neg hother]
      exact ih
    · rw [List.map_cons, if_neg h, find?, find?, ih]

end Value

namespace TelemetrySource

open Value (keep keepUnder field? parts)

/-! ## 2. What a dump is without its malformed entries -/

/-- The identifier of an entry that describes an identity. -/
def idOf? : Value → Option Value
  | .dict items => (field? "id" items).filter fun id => !id.isNull
  | _ => none

/-- Whether a value is a row: a list with enough columns. -/
def isRow : Value → Bool
  | .list columns => Connection.columns ≤ columns.length
  | _ => false

/-- The entries of a dump without the identities that have no identifier and without what is no row. -/
def pruned (items : List (Value × Value)) : List (Value × Value) :=
  keepUnder "identities" (fun v => (idOf? v).isSome) (keepUnder "rows" isRow items)

section Names

variable (items : List (Value × Value))

theorem field?_identities_pruned : field? "identities" (pruned items) =
    (field? "identities" items).map (keep fun v => (idOf? v).isSome) := by
  rw [pruned, Value.field?_keepUnder, Value.field?_keepUnder_of_ne (by decide)]

theorem field?_rows_pruned : field? "rows" (pruned items) = (field? "rows" items).map (keep isRow) := by
  rw [pruned, Value.field?_keepUnder_of_ne (by decide), Value.field?_keepUnder]

theorem membersOf_pruned {name : Text} (hidentities : name ≠ "identities") (hrows : name ≠ "rows") :
    membersOf name (pruned items) = membersOf name items := by
  rw [membersOf, pruned, Value.field?_keepUnder_of_ne hidentities, Value.field?_keepUnder_of_ne hrows,
    membersOf]

end Names

/-! ## 3. Identities -/

/-- How an entry says its shard is; nothing if it does not say so. -/
def healthOf : Value → Value
  | .dict items => (field? "health" items).getD (.text [])
  | _ => .text []

theorem identity?_eq (v : Value) : identity? v =
    match idOf? v with
    | none => .ok none
    | some id => do
      let name ← id.toText
      let health ← (healthOf v).toText
      return some ⟨.text name, .text health⟩ := by
  cases v with
  | dict items =>
    unfold identity? idOf? healthOf
    dsimp only
    cases field? "id" items with
    | none => rfl
    | some id => cases id <;> rfl
  | _ => rfl

theorem showable_idOf? {v id : Value} (hv : v.Showable) (h : idOf? v = some id) : id.Showable := by
  cases v with
  | dict items => exact hv.field? (Option.filter_eq_some_iff.mp h).1
  | _ => cases h

theorem showable_healthOf {v : Value} (hv : v.Showable) : (healthOf v).Showable := by
  cases v with
  | dict items =>
    rw [healthOf]
    cases hhealth : field? "health" items with
    | none => exact ⟨_, rfl⟩
    | some health => exact hv.field? hhealth
  | _ => exact ⟨_, rfl⟩

theorem identitiesOf_objects {items : List (Value × Value)} {entries : List Value}
    (h : field? "identities" items = some (.list entries)) :
    identitiesOf items = Outcome.collect identity? entries := by
  rw [identitiesOf_some h, Value.parts_of_members rfl, Outcome.ok_bind]

/-- **Entries without an identifier may be left out** of the identities. -/
theorem identitiesOf_pruned (items : List (Value × Value)) :
    identitiesOf (pruned items) = identitiesOf items := by
  have hpruned := field?_identities_pruned items
  cases h : field? "identities" items with
  | none =>
    rw [h] at hpruned
    simp only [identitiesOf, h, hpruned, Option.map_none]
    rw [membersOf_pruned items (by decide) (by decide), membersOf_pruned items (by decide) (by decide)]
  | some v =>
    rw [h] at hpruned
    rcases Value.keep_cases (fun v => (idOf? v).isSome) v with ⟨entries, rfl, hkeep⟩ | hkeep
    · rw [Option.map_some, hkeep] at hpruned
      rw [identitiesOf_objects h, identitiesOf_objects hpruned]
      refine Outcome.collect_filter fun v _ hv => ?_
      rw [identity?_eq, Option.isNone_iff_eq_none.mp (Option.isSome_eq_false_iff.mp hv)]
    · rw [Option.map_some, hkeep] at hpruned
      simp only [identitiesOf, h, hpruned]

/-- An identity is named after its identifier, of whatever kind that is. -/
def NamedAfter (v : Value) (i : Identity) : Prop := ∃ name, v.toText = .ok name ∧ i.id = .text name

/-- The identities of entries that can be shown are named after their identifiers, in order. -/
theorem exists_identities {entries : List Value} (h : ∀ v ∈ entries, v.Showable) :
    ∃ identities, Outcome.collect identity? entries = .ok identities ∧
      List.Forall₂ NamedAfter (entries.filterMap idOf?) identities := by
  induction entries with
  | nil => exact ⟨[], rfl, .nil⟩
  | cons v entries ih =>
    rw [List.forall_mem_cons] at h
    obtain ⟨identities, hidentities, hnamed⟩ := ih h.2
    rw [Outcome.collect_cons, identity?_eq]
    cases hid : idOf? v with
    | none =>
      rw [hidentities, List.filterMap_cons_none hid]
      exact ⟨identities, rfl, hnamed⟩
    | some id =>
      obtain ⟨name, hname⟩ := (showable_idOf? h.1 hid).toText
      obtain ⟨health, hhealth⟩ := (showable_healthOf h.1).toText
      rw [hidentities, List.filterMap_cons_some hid]
      dsimp only
      rw [hname, hhealth]
      exact ⟨⟨.text name, .text health⟩ :: identities, rfl, .cons ⟨name, hname, rfl⟩ hnamed⟩

/-- So are those of a list of names and one of states, as long as the shorter one. -/
theorem exists_pairs {ids healths : List Value} (hids : ∀ v ∈ ids, v.Showable)
    (hhealths : ∀ v ∈ healths, v.Showable) : ∃ identities, Identity.pairs ids healths = .ok identities ∧
      List.Forall₂ NamedAfter (ids.take healths.length) identities := by
  induction ids generalizing healths with
  | nil =>
    rw [List.take_nil]
    exact ⟨[], rfl, .nil⟩
  | cons id ids ih =>
    cases healths with
    | nil => exact ⟨[], rfl, .nil⟩
    | cons health healths =>
      rw [List.forall_mem_cons] at hids hhealths
      obtain ⟨name, hname⟩ := hids.1.toText
      obtain ⟨shown, hshown⟩ := hhealths.1.toText
      obtain ⟨identities, hidentities, hnamed⟩ := ih hids.2 hhealths.2
      rw [Identity.pairs, hname, hshown, hidentities]
      exact ⟨⟨.text name, .text shown⟩ :: identities, rfl, .cons ⟨name, hname, rfl⟩ hnamed⟩

/-! ## 4. Rows -/

/-- The columns of a row; what is no list has none. -/
def columns? : Value → Option (List Value)
  | .list columns => some columns
  | _ => none

/-- The text of a value that has one. -/
def textOf (v : Value) : Text := v.toText.toOption.getD []

theorem toText_eq {v : Value} (h : v.Showable) : v.toText = .ok (textOf v) := by
  obtain ⟨t, ht⟩ := h.toText
  rw [textOf, ht]
  rfl

/-- The texts of the columns of all rows that are lists. -/
def rowTexts (rows : List Value) : List (List Text) := (rows.filterMap columns?).map (·.map textOf)

theorem rowTexts_list (columns rows : List Value) :
    rowTexts (.list columns :: rows) = columns.map textOf :: rowTexts rows := rfl

theorem rowsOf_eq {items : List (Value × Value)} {rows : List Value}
    (hrows : membersOf "rows" items = .ok rows) (h : ∀ row ∈ rows, row.Showable) :
    rowsOf items = .ok (rowTexts rows) := by
  rw [rowsOf, hrows, Outcome.ok_bind]
  clear hrows
  induction rows with
  | nil => rfl
  | cons row rows ih =>
    rw [List.forall_mem_cons] at h
    have ih := ih h.2
    cases row with
    | list columns =>
      have htexts : columnTexts (.list columns) = .ok (columns.map textOf) :=
        Outcome.mapM_ok fun v hv => toText_eq (Value.showable_list.mp h.1 v hv)
      rw [List.filter_cons_of_pos rfl, List.mapM_cons, htexts, ih]
      rfl
    | _ => exact ih

/-- Leaving out what is no row leaves out the texts that are too short. -/
theorem rowTexts_filter (rows : List Value) :
    rowTexts (rows.filter isRow) = (rowTexts rows).filter (Connection.columns ≤ ·.length) := by
  induction rows with
  | nil => rfl
  | cons row rows ih =>
    cases row with
    | list columns =>
      rw [rowTexts_list, List.filter_cons, List.filter_cons, List.length_map, ← ih]
      by_cases hlong : Connection.columns ≤ columns.length
      · rw [isRow, if_pos (decide_eq_true hlong), if_pos (decide_eq_true hlong), rowTexts_list]
      · rw [isRow, if_neg (by simpa using hlong), if_neg (by simpa using hlong)]
    | _ => exact ih

/-- Texts that are too short are not grouped. -/
theorem groupFrom_filter (rows : List (List Text)) : ∀ groups : Connection.Groups,
    Connection.groupFrom groups ((rows.filter (Connection.columns ≤ ·.length)).map rowValue) =
      Connection.groupFrom groups (rows.map rowValue) := by
  induction rows with
  | nil => exact fun _ => rfl
  | cons row rows ih =>
    intro groups
    by_cases hlong : Connection.columns ≤ row.length
    · rw [List.filter_cons_of_pos (by simpa using hlong), List.map_cons, List.map_cons]
      simp only [Connection.groupFrom, Connection.ofRow_texts]
      cases Connection.ofTexts row with
      | none => exact ih groups
      | some c => exact ih (c.addTo groups)
    · have hnone : Connection.ofTexts row = none :=
        Connection.ofTexts_eq_none.mpr (Nat.lt_of_not_le hlong)
      rw [List.filter_cons_of_neg (by simpa using hlong), List.map_cons, ih]
      simp only [Connection.groupFrom, Connection.ofRow_texts, hnone]

/-! ## 5. Summaries -/

/-- The summaries of a dump. -/
def shardsOf (items : List (Value × Value)) : Except Failure (List Shard) := do
  let identities ← identitiesOf items
  let rows ← rowsOf items
  Shard.summarize identities (← Connection.group (rows.map rowValue))

theorem shards_file {disk : Disk} {path : Text} {items : List (Value × Value)}
    (h : load disk path = .ok items) : (file path).shards disk = shardsOf items := by
  simp only [shards, identities, rows, h, Outcome.ok_bind]
  rfl

/-- All that a dump lists can be shown. -/
theorem showable_of_load {disk : Disk} {path : Text} {items : List (Value × Value)}
    (h : load disk path = .ok items) : (Value.dict items).Showable := by
  obtain ⟨t, -, h⟩ := Outcome.exists_of_bind h
  obtain ⟨v, hv, h⟩ := Outcome.exists_of_bind h
  have hshown := Json.showable_of_parse hv
  split at h
  · obtain rfl := Except.ok.inj h
    exact hshown
  · cases h

theorem showable_membersOf {items : List (Value × Value)} (h : (Value.dict items).Showable) {name : Text}
    {vs : List Value} (hvs : membersOf name items = .ok vs) : ∀ v ∈ vs, v.Showable := by
  unfold membersOf at hvs
  split at hvs
  · rename_i v hv
    exact fun w hw => (h.field? hv).parts hvs hw
  · obtain rfl := Except.ok.inj hvs
    exact fun w hw => by cases hw

/-- Without what is no row, the rows are those that are long enough. -/
theorem rowsOf_pruned {items : List (Value × Value)} (h : (Value.dict items).Showable) :
    rowsOf (pruned items) = rowsOf items ∨ ∃ texts, rowsOf items = .ok texts ∧
      rowsOf (pruned items) = .ok (texts.filter (Connection.columns ≤ ·.length)) := by
  have hpruned := field?_rows_pruned items
  have hsame : field? "rows" (pruned items) = field? "rows" items →
      rowsOf (pruned items) = rowsOf items := fun hsame => by
    rw [rowsOf, membersOf, hsame]
    rfl
  cases hrows : field? "rows" items with
  | none =>
    rw [hrows] at hpruned
    exact .inl (hsame (hpruned.trans hrows.symm))
  | some v =>
    rw [hrows, Option.map_some] at hpruned
    rcases Value.keep_cases isRow v with ⟨rows, rfl, hkeep⟩ | hkeep
    · rw [hkeep] at hpruned
      have hmembers : ∀ {items : List (Value × Value)} {vs : List Value},
          field? "rows" items = some (.list vs) → membersOf "rows" items = .ok vs := fun hvs => by
        rw [membersOf, hvs]
        exact Value.parts_of_members rfl
      have hshown : ∀ row ∈ rows, row.Showable := showable_membersOf h (hmembers hrows)
      refine .inr ⟨rowTexts rows, rowsOf_eq (hmembers hrows) hshown, ?_⟩
      rw [← rowTexts_filter]
      exact rowsOf_eq (hmembers hpruned) fun row hrow => hshown row (List.mem_filter.mp hrow).1
    · rw [hkeep] at hpruned
      exact .inl (hsame (hpruned.trans hrows.symm))

/-- **Without what describes nothing the summaries are the same.** -/
theorem shardsOf_pruned {items : List (Value × Value)} (h : (Value.dict items).Showable) :
    shardsOf (pruned items) = shardsOf items := by
  rw [shardsOf, shardsOf, identitiesOf_pruned]
  rcases rowsOf_pruned h with hrows | ⟨texts, htexts, hpruned⟩
  · rw [hrows]
  · simp only [htexts, hpruned, Outcome.ok_bind, Connection.group, groupFrom_filter]

/-- The identifiers of the live shards that a dump lists: those of its objects, or as many names as
there are states. -/
inductive ListsIds (items : List (Value × Value)) : List Value → Prop
  | objects {entries : List Value} (h : field? "identities" items = some (.list entries)) :
      ListsIds items (entries.filterMap idOf?)
  | pairs {ids healths : List Value} (hnone : field? "identities" items = none)
      (hids : membersOf "ids" items = .ok ids) (hhealths : membersOf "health" items = .ok healths) :
      ListsIds items (ids.take healths.length)

theorem ListsIds.exists_identities {items : List (Value × Value)} {ids : List Value}
    (hids : ListsIds items ids) (h : (Value.dict items).Showable) :
    ∃ identities, identitiesOf items = .ok identities ∧ List.Forall₂ NamedAfter ids identities := by
  cases hids with
  | objects hentries =>
    rw [identitiesOf_objects hentries]
    exact TelemetrySource.exists_identities (Value.showable_list.mp (h.field? hentries))
  | pairs hnone hnames hhealths =>
    simp only [identitiesOf, hnone, hnames, hhealths]
    exact exists_pairs (showable_membersOf h hnames) (showable_membersOf h hhealths)

/-- **What begins with a value is a row of the identity with that value.**  Its connection is there for
each such row, and they are in the order of the rows. -/
theorem own_rows {rows : List Value} (h : ∀ row ∈ rows, row.Showable) {v : Value} {name : Text}
    (hname : v.toText = .ok name) {own : List (List Value)} (hown : (own.map Value.list).Sublist rows)
    (hfirst : ∀ row ∈ own, Connection.columns ≤ row.length ∧ row.head? = some v) :
    ∃ (texts : List (List Text)) (connections : List Connection),
      own.mapM (List.mapM Value.toText) = .ok texts ∧
      texts.map Connection.ofTexts = connections.map some ∧
      connections.Sublist
        (((rowTexts rows).filter (Connection.isRowOf name)).filterMap Connection.ofTexts) := by
  have hlists : (own.map Value.list).filterMap columns? = own := by
    rw [List.filterMap_map]
    exact List.filterMap_some
  have hsub : (own.map (·.map textOf)).Sublist (rowTexts rows) := by
    have hsub := (hown.filterMap columns?).map (·.map textOf)
    rwa [hlists] at hsub
  have htext : textOf v = name := by
    rw [textOf, hname]
    rfl
  have hall : ∀ texts ∈ own.map (·.map textOf), Connection.isRowOf name texts = true := by
    intro texts htexts
    obtain ⟨row, hrow, rfl⟩ := List.mem_map.mp htexts
    obtain ⟨hlong, hhead⟩ := hfirst row hrow
    simp [Connection.isRowOf, hlong, hhead, htext]
  refine ⟨own.map (·.map textOf), (own.map (·.map textOf)).filterMap Connection.ofTexts, ?_, ?_, ?_⟩
  · refine Outcome.mapM_ok fun row hrow => Outcome.mapM_ok fun w hw => toText_eq ?_
    exact Value.showable_list.mp (h _ (hown.subset (List.mem_map_of_mem hrow))) w hw
  · rw [List.map_filterMap_some_eq_filter_map_isSome, List.filter_eq_self.mpr]
    intro c hc
    obtain ⟨texts, htexts, rfl⟩ := List.mem_map.mp hc
    have hlong : Connection.columns ≤ texts.length := by
      simpa [Connection.isRowOf] using (Bool.and_eq_true_iff.mp (hall texts htexts)).1
    rw [Option.isSome_iff_ne_none, Ne, Connection.ofTexts_eq_none]
    exact Nat.not_lt_of_le hlong
  · have hsub := (hsub.filter (Connection.isRowOf name)).filterMap Connection.ofTexts
    rwa [List.filter_eq_self.mpr hall] at hsub

/-- **What describes nothing in a dump has no effect on the rest.**  The summaries of a file are those of
any file with the same object but without the identities that are no objects with an identifier and
without the rows that are no lists or too short, wherever these are.

There always are summaries, one for each identifier, in order.  The name of the shard is the text of the
identifier, and its connections are those of the rows whose first column has that text, in order.  Among
them are those of all rows that begin with the identifier itself, of whatever kind that is; an object has
its entries in one order. -/
theorem shards_pruned {disk : Disk} {path : Text} {items : List (Value × Value)}
    (hload : load disk path = .ok items) :
    (∀ (disk' : Disk) (path' : Text), load disk' path' = .ok (pruned items) →
      (file path').shards disk' = (file path).shards disk) ∧
    ∀ {ids rows : List Value}, ListsIds items ids → membersOf "rows" items = .ok rows →
      ∃ texts shards, (file path).rows disk = .ok texts ∧ (file path).shards disk = .ok shards ∧
        List.Forall₂ (fun v shard => ∃ name, v.toText = .ok name ∧ shard.id = .text name ∧
            shard.connections =
              (texts.filter (Connection.isRowOf name)).filterMap Connection.ofTexts ∧
            ∀ own : List (List Value), (own.map Value.list).Sublist rows →
              (∀ row ∈ own, Connection.columns ≤ row.length ∧ row.head? = some v) →
              ∃ (ownTexts : List (List Text)) (connections : List Connection),
                own.mapM (List.mapM Value.toText) = .ok ownTexts ∧
                ownTexts.map Connection.ofTexts = connections.map some ∧
                connections.Sublist shard.connections)
          ids shards := by
  have hshown := showable_of_load hload
  refine ⟨fun disk' path' hload' => ?_, fun {ids rows} hids hrows => ?_⟩
  · rw [shards_file hload', shards_file hload, shardsOf_pruned hshown]
  · obtain ⟨identities, hidentities, hnamed⟩ := hids.exists_identities hshown
    have hrowsShown := showable_membersOf hshown hrows
    have htexts := rowsOf_eq hrows hrowsShown
    have hnames : ∀ i ∈ identities, ∃ name, i.id = .text name := by
      intro i hi
      obtain ⟨v, -, name, -, hname⟩ := Outcome.exists_of_forall₂ hnamed hi
      exact ⟨name, hname⟩
    refine ⟨rowTexts rows, identities.map (summaryOf (rowTexts rows)), ?_, ?_, ?_⟩
    · rw [TelemetrySource.rows, hload]
      exact htexts
    · rw [shards_file hload, shardsOf, hidentities, htexts]
      exact summarize_texts hnames (rowTexts rows)
    · rw [List.forall₂_map_right_iff]
      refine hnamed.imp fun v i hv => ?_
      obtain ⟨name, htext, hname⟩ := hv
      have hconnections : (summaryOf (rowTexts rows) i).connections =
          ((rowTexts rows).filter (Connection.isRowOf name)).filterMap Connection.ofTexts := by
        rw [← Connection.ofRows_eq_filter, summaryOf, hname]
        rfl
      refine ⟨name, htext, ?_, hconnections, fun own hown hfirst => ?_⟩
      · rw [summaryOf, hname]
        rfl
      · rw [hconnections]
        exact own_rows hrowsShown htext hown hfirst

/-- A file with an object. -/
def dumpOf (items : List (Value × Value)) : Disk :=
  let text := (Json.write .line (.dict items)).toOption.getD []
  ⟨[([("dump" : Text)], .file (text.flatMap Utf8.encodePoint))]⟩

/-- A row that begins with what is no text, among what is no row. -/
def dumpRows : List Value :=
  [.text "x", .list (.bool true :: List.replicate 12 (.text [])), .list [.bool true]]

/-- These rows, and an identity with the same beginning among what is no identity. -/
def mixedDump : List (Value × Value) :=
  [(.text "identities", .list [.null, .dict [(.text "id", .bool true)], .dict [(.text "id", .null)]]),
    (.text "rows", .list dumpRows)]

theorem load_mixedDump : load (dumpOf mixedDump) "/dump" = .ok mixedDump := by cbv

theorem load_pruned_mixedDump :
    load (dumpOf (pruned mixedDump)) "/dump" = .ok (pruned mixedDump) := by cbv

/-- The identity has its row, with the others or without them. -/
theorem shards_mixedDump :
    (file "/dump").shards (dumpOf (pruned mixedDump)) = (file "/dump").shards (dumpOf mixedDump) ∧
    ∃ shards, (file "/dump").shards (dumpOf mixedDump) = .ok shards ∧
      shards.map (fun shard => shard.connections.map (·.identity)) = ([["True"]] : List (List Text)) := by
  have hids : ListsIds mixedDump [.bool true] :=
    .objects (show field? "identities" mixedDump = some (.list _) from rfl)
  have hrows : membersOf "rows" mixedDump = .ok dumpRows := by cbv
  have hall : rowsOf mixedDump = .ok [↑"True" :: List.replicate 12 [], [↑"True"]] := by decide +kernel
  obtain ⟨hsame, hshards⟩ := shards_pruned load_mixedDump
  obtain ⟨texts, shards, htexts, hshards, hnamed⟩ := hshards hids hrows
  obtain rfl : [↑"True" :: List.replicate 12 [], [↑"True"]] = texts := by
    rw [TelemetrySource.rows, load_mixedDump, Outcome.ok_bind, hall] at htexts
    exact Except.ok.inj htexts
  refine ⟨hsame _ _ load_pruned_mixedDump, shards, hshards, ?_⟩
  rcases hnamed with _ | ⟨⟨name, hname, -, hconnections, -⟩, _ | _⟩
  obtain rfl : ↑"True" = name := Except.ok.inj hname
  rw [List.map_singleton, hconnections]
  rfl

end TelemetrySource

end Keyscope
