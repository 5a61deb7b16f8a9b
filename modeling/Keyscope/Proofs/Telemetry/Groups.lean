/-
# Rows by shard

Rows are grouped in one pass: the connection of a row joins the group of its shard, or starts one
behind all others.  After any rows the groups are these (`Grouped`): they are named by the shards that
have come up, in order of first appearance, and the group of a shard holds its connections in the order
of their rows.  One more connection keeps that (`Grouped.addTo`), and so does a run over any number of
rows (`Grouped.groupFrom`).  So no connection is lost, none is in two groups, and no group is empty
(`group_partitions`).

A row of texts is never refused, so its connection is a plain function of its columns
(`ofRow_texts`).  Its shard, the one in front of fourteen columns or more, or else the identity in front
of thirteen, is the first column in both layouts (`shardKey_ofTexts`).
-/
import Mathlib.Data.List.GetD
import Keyscope.Proofs.Classes
import Keyscope.Proofs.Outcome
import Keyscope.Telemetry.Source

namespace Keyscope

open TelemetrySource (rowValue)

namespace Connection

/-! ## 1. Rows of texts -/

/-- The number in a column of text; what is no number is not a number. -/
def numberOf (t : Text) : Binary64 := (Numeral.real t).getD .nan

/-- The connection that a row of texts describes, if it has enough columns. -/
def ofTexts (row : List Text) : Option Connection :=
  if row.length < columns then none
  else
    let k := if columns < row.length then 1 else 0
    let text := fun i => row.getD (k + i) []
    let number := fun i => numberOf (text i)
    some ⟨if columns < row.length then row.head? else none, text 0, text 1, number 2, number 3,
      number 4, number 5, number 6, number 7, number 8, number 9, number 10, number 11, text 12⟩

/-- A text is a number or it is none; it is never too large for one. -/
theorem number_text (t : Text) : number (.text t) = .ok (numberOf t) := by
  unfold number numberOf
  simp only [Value.toReal]
  cases Numeral.real t with
  | none => rfl
  | some x => rfl

section Columns

variable {row : List Text} {i : Nat}

theorem memberAt_rowValue (h : i < row.length) :
    (rowValue row).memberAt i = .ok (.text (row.getD i [])) := by
  have hmember : (row.map Value.text)[i]? = some (.text (row.getD i [])) := by
    rw [List.getElem?_map, List.getElem?_eq_getElem h, List.getD_eq_getElem _ _ h]
    rfl
  simp only [rowValue, Value.memberAt, Value.members?, hmember]

theorem textAt_rowValue (h : i < row.length) : textAt (rowValue row) i = .ok (row.getD i []) := by
  rw [textAt, memberAt_rowValue h]
  rfl

theorem numberAt_rowValue (h : i < row.length) :
    numberAt (rowValue row) i = .ok (numberOf (row.getD i [])) := by
  rw [numberAt, memberAt_rowValue h]
  exact number_text _

end Columns

/-- **A row of texts is never refused.** -/
theorem ofRow_texts (row : List Text) : ofRow (rowValue row) = .ok (ofTexts row) := by
  have hsize : (rowValue row).size = .ok row.length := by
    simp [rowValue, Value.size, Value.members?]
  unfold ofRow ofTexts
  rw [hsize, Outcome.ok_bind]
  by_cases hshort : row.length < columns
  · simp only [if_pos hshort]
    rfl
  · have hcolumns : columns = 13 := rfl
    rw [if_neg hshort, if_neg hshort]
    -- the shard in front moves all other columns by one, and the last of them is still there
    by_cases hshard : columns < row.length
    · have hhead : row.head? = some (row.getD 0 []) := by
        rw [List.head?_eq_getElem?, List.getD_eq_getElem?_getD, List.getElem?_eq_getElem (by omega)]
        rfl
      simp (disch := omega) only [if_pos hshard, hhead, textAt_rowValue, numberAt_rowValue,
        Outcome.ok_bind]
      rfl
    · simp (disch := omega) only [if_neg hshard, textAt_rowValue, numberAt_rowValue,
        Outcome.ok_bind]
      rfl

/-- A row describes a connection if and only if it has thirteen columns. -/
theorem ofTexts_eq_none {row : List Text} : ofTexts row = none ↔ row.length < columns := by
  unfold ofTexts
  constructor
  · intro h
    by_contra hlong
    rw [if_neg hlong] at h
    cases h
  · intro h
    rw [if_pos h]

/-- **The shard of a connection is the first column of its row**, in either layout. -/
theorem shardKey_ofTexts {row : List Text} {c : Connection} (h : ofTexts row = some c) :
    row.head? = some c.shardKey := by
  cases row with
  | nil => cases h
  | cons first rest =>
    unfold ofTexts at h
    split at h
    · cases h
    · obtain rfl := Option.some.inj h
      by_cases hshard : columns < (first :: rest).length
      · simp only [shardKey, if_pos hshard, List.head?_cons, Option.getD_some]
      · simp only [shardKey, if_neg hshard]
        rfl

/-! ## 2. Groups -/

/-- **Adding a connection lengthens the group of its shard** and leaves all other groups alone. -/
theorem lookup_addTo (c : Connection) (groups : Groups) (shard : Text) :
    ((c.addTo groups).lookup shard).getD [] =
      (groups.lookup shard).getD [] ++ if c.shardKey = shard then [c] else [] := by
  induction groups with
  | nil =>
    by_cases h : c.shardKey = shard
    · simp [addTo, h]
    · have hne : (shard == c.shardKey) = false := by simpa using Ne.symm h
      simp [addTo, h, List.lookup_cons, hne]
  | cons group groups ih =>
    obtain ⟨key, cs⟩ := group
    simp only [addTo]
    by_cases hkey : key = c.shardKey
    · subst hkey
      by_cases h : c.shardKey = shard
      · simp [h]
      · have hne : (shard == c.shardKey) = false := by simpa using Ne.symm h
        simp [h, List.lookup_cons, hne]
    · rw [if_neg hkey]
      by_cases h : shard = key
      · subst h
        simp [Ne.symm hkey]
      · have hne : (shard == key) = false := by simpa using h
        simp only [List.lookup_cons, hne]
        exact ih

/-- A group that is there stays where it is. -/
theorem names_addTo_of_mem {c : Connection} {groups : Groups} (h : c.shardKey ∈ groups.map (·.1)) :
    (c.addTo groups).map (·.1) = groups.map (·.1) := by
  induction groups with
  | nil => cases h
  | cons group groups ih =>
    obtain ⟨key, cs⟩ := group
    rw [addTo]
    by_cases hkey : key = c.shardKey
    · rw [if_pos hkey, List.map_cons, List.map_cons]
    · have hmem := (List.mem_cons.mp h).resolve_left (Ne.symm hkey)
      rw [if_neg hkey, List.map_cons, ih hmem, List.map_cons]

/-- A group that is new stands behind all others. -/
theorem names_addTo_of_not_mem {c : Connection} {groups : Groups}
    (h : c.shardKey ∉ groups.map (·.1)) :
    (c.addTo groups).map (·.1) = groups.map (·.1) ++ [c.shardKey] := by
  induction groups with
  | nil => rfl
  | cons group groups ih =>
    obtain ⟨key, cs⟩ := group
    rw [List.map_cons, List.mem_cons, not_or] at h
    rw [addTo, if_neg (Ne.symm h.1), List.map_cons, ih h.2, List.map_cons, List.cons_append]

/-- **Groups hold exactly these connections.**  They are named by their shards in order of first
appearance, and each shard has its own connections in order. -/
structure Grouped (cs : List Connection) (groups : Groups) : Prop where
  names : groups.map (·.1) = (cs.map shardKey).eraseDups
  lookup : ∀ name, (groups.lookup name).getD [] = cs.filter (·.shardKey = name)

namespace Grouped

variable {cs : List Connection} {groups : Groups}

theorem nil : Grouped [] [] := ⟨rfl, fun _ => rfl⟩

/-- **One more connection** goes to the end of its group. -/
theorem addTo (h : Grouped cs groups) (c : Connection) : Grouped (cs ++ [c]) (c.addTo groups) where
  names := by
    have hmem : c.shardKey ∈ groups.map (·.1) ↔ c.shardKey ∈ cs.map shardKey := by
      rw [h.names, List.mem_eraseDups]
    rw [List.map_append, List.map_singleton, eraseDups_concat, ← h.names]
    by_cases hnew : c.shardKey ∈ cs.map shardKey
    · rw [if_pos hnew, names_addTo_of_mem (hmem.mpr hnew)]
    · rw [if_neg hnew, names_addTo_of_not_mem (mt hmem.mp hnew)]
  lookup name := by
    rw [lookup_addTo, h.lookup, List.filter_append]
    by_cases hname : c.shardKey = name <;> simp [hname]

/-- **Any more rows** of any kind: those that describe a connection add it, and the others nothing. -/
theorem groupFrom {α : Type} {value : α → Value} {describe : α → Option Connection} :
    ∀ {rows : List α}, (∀ row ∈ rows, ofRow (value row) = .ok (describe row)) →
    ∀ {cs : List Connection} {groups : Groups}, Grouped cs groups →
      ∃ grouped, Connection.groupFrom groups (rows.map value) = .ok grouped ∧
        Grouped (cs ++ rows.filterMap describe) grouped := by
  intro rows hrows
  induction rows with
  | nil =>
    intro cs groups h
    exact ⟨groups, rfl, by simpa using h⟩
  | cons row rows ih =>
    intro cs groups h
    rw [List.forall_mem_cons] at hrows
    simp only [List.map_cons, Connection.groupFrom, hrows.1]
    cases hrow : describe row with
    | none =>
      rw [List.filterMap_cons_none hrow]
      exact ih hrows.2 h
    | some c =>
      rw [List.filterMap_cons_some hrow, List.append_cons]
      exact ih hrows.2 (h.addTo c)

/-- Each name is there once, so a group is the one that is found under its name. -/
theorem connections (h : Grouped cs groups) {g : Text × List Connection} (hg : g ∈ groups) :
    g.2 = cs.filter (·.shardKey = g.1) := by
  have hnodup : (groups.map (·.1)).Nodup := by
    rw [h.names]
    exact nodup_eraseDups _
  rw [← h.lookup, lookup_of_mem hnodup hg]
  rfl

theorem ne_nil (h : Grouped cs groups) {g : Text × List Connection} (hg : g ∈ groups) : g.2 ≠ [] := by
  have hname : g.1 ∈ cs.map shardKey := by
    rw [← List.mem_eraseDups, ← h.names]
    exact List.mem_map_of_mem hg
  obtain ⟨c, hc, hkey⟩ := List.mem_map.mp hname
  rw [h.connections hg]
  exact List.ne_nil_of_mem (List.mem_filter.mpr ⟨hc, by simpa using hkey⟩)

/-- The groups one after the other have all connections, each as often as it came. -/
theorem flatMap_perm (h : Grouped cs groups) : (groups.flatMap (·.2)).Perm cs := by
  have hgroups : groups.flatMap (·.2) =
      (cs.map shardKey).eraseDups.flatMap fun name => cs.filter (·.shardKey = name) := by
    rw [← h.names, List.flatMap_map]
    exact List.flatMap_congr fun g hg => h.connections hg
  rw [hgroups]
  refine flatMap_filter_perm shardKey (nodup_eraseDups _) fun c hc => ?_
  rw [List.mem_eraseDups]
  exact List.mem_map_of_mem hc

end Grouped

/-- **The groups of rows hold their connections**, and rows of texts always have groups. -/
theorem exists_grouped (rows : List (List Text)) :
    ∃ groups, group (rows.map rowValue) = .ok groups ∧ Grouped (rows.filterMap ofTexts) groups :=
  Grouped.nil.groupFrom fun row _ => ofRow_texts row

/-! ## 3. The rows of a shard -/

/-- The connections of a shard among those that rows describe. -/
def ofRows (shard : Text) (rows : List (List Text)) : List Connection :=
  (rows.filterMap ofTexts).filter (·.shardKey = shard)

/-- Whether a row is one of a shard: it has enough columns, and the first of them names the shard. -/
def isRowOf (shard : Text) (row : List Text) : Bool :=
  columns ≤ row.length && row.head? = some shard

/-- **The connections of a shard are those of its rows.** -/
theorem ofRows_eq_filter (shard : Text) (rows : List (List Text)) :
    ofRows shard rows = (rows.filter (isRowOf shard)).filterMap ofTexts := by
  unfold ofRows
  induction rows with
  | nil => rfl
  | cons row rows ih =>
    cases hrow : ofTexts row with
    | none =>
      have hshort : ¬ columns ≤ row.length := by
        have := ofTexts_eq_none.mp hrow
        omega
      rw [List.filterMap_cons_none hrow, List.filter_cons_of_neg (by simp [isRowOf, hshort]), ih]
    | some c =>
      have hlong : columns ≤ row.length := by
        by_contra hshort
        rw [ofTexts_eq_none.mpr (by omega)] at hrow
        cases hrow
      have hhead := shardKey_ofTexts hrow
      rw [List.filterMap_cons_some hrow]
      by_cases h : c.shardKey = shard
      · rw [List.filter_cons_of_pos (by simpa using h),
          List.filter_cons_of_pos (by simp [isRowOf, hlong, hhead, h]), List.filterMap_cons_some hrow,
          ih]
      · rw [List.filter_cons_of_neg (by simpa using h),
          List.filter_cons_of_neg (by simp [isRowOf, hhead, h]), ih]

/-! ## 4. A partition -/

/-- **Groups are a partition of the rows.**  A row of texts describes a connection if it has thirteen
columns, and its shard is its first column.

The groups are named by the shards of these connections, in order of first appearance.  None is empty,
each has the connections of its shard in the order of their rows, and together they have every
connection as often as it came.  Where more rows follow, each group goes on with what the later rows
would give by themselves. -/
theorem group_partitions :
    (∀ row, ofRow (rowValue row) = .ok (ofTexts row) ∧
      (ofTexts row = none ↔ row.length < columns) ∧
      ∀ c, ofTexts row = some c → row.head? = some c.shardKey) ∧
    (∀ rows : List (List Text), ∃ groups, group (rows.map rowValue) = .ok groups ∧
      groups.map (·.1) = ((rows.filterMap ofTexts).map shardKey).eraseDups ∧
      (∀ g ∈ groups, g.2 ≠ [] ∧ g.2 = (rows.filterMap ofTexts).filter (·.shardKey = g.1)) ∧
      (groups.flatMap (·.2)).Perm (rows.filterMap ofTexts)) ∧
    ∀ rows more : List (List Text), ∃ groups later all, group (rows.map rowValue) = .ok groups ∧
      group (more.map rowValue) = .ok later ∧ group ((rows ++ more).map rowValue) = .ok all ∧
      ∀ name, (all.lookup name).getD [] =
        (groups.lookup name).getD [] ++ (later.lookup name).getD [] := by
  refine ⟨fun row => ⟨ofRow_texts row, ofTexts_eq_none, fun c hc => shardKey_ofTexts hc⟩,
    fun rows => ?_, fun rows more => ?_⟩
  · obtain ⟨groups, hgroups, h⟩ := exists_grouped rows
    exact ⟨groups, hgroups, h.names, fun g hg => ⟨h.ne_nil hg, h.connections hg⟩, h.flatMap_perm⟩
  · obtain ⟨groups, hgroups, h⟩ := exists_grouped rows
    obtain ⟨later, hlater, h'⟩ := exists_grouped more
    obtain ⟨all, hall, hboth⟩ := exists_grouped (rows ++ more)
    refine ⟨groups, later, all, hgroups, hlater, hall, fun name => ?_⟩
    rw [hboth.lookup, h.lookup, h'.lookup, List.filterMap_append, List.filter_append]

/-- Rows of a shard, of the empty shard with the same name behind it, without a shard, and too short. -/
def mixedRows : List (List Text) :=
  [↑"a" :: List.replicate 13 "1", [] :: ↑"a" :: List.replicate 12 "1", ↑"a" :: List.replicate 12 "1",
    ↑"a" :: List.replicate 11 "1"]

/-- The row without a shard is one of the shard that its identity names, and the row of the empty shard
is not. -/
theorem group_mixedRows :
    ∃ groups, group (mixedRows.map rowValue) = .ok groups ∧
      groups.map (fun g => (g.1, g.2.map (·.identity))) =
        ([("a", ["1", "a"]), ([], ["a"])] : List (Text × List Text)) := by
  obtain ⟨-, hrows, -⟩ := group_partitions
  obtain ⟨groups, hgroups, hnames, hconnections, -⟩ := hrows mixedRows
  have hnames : groups.map (·.1) = (["a", []] : List Text) := hnames
  obtain ⟨g, rest, rfl, hg, hrest⟩ := List.map_eq_cons_iff.mp hnames
  obtain ⟨g', nothing, rfl, hg', hnothing⟩ := List.map_eq_cons_iff.mp hrest
  obtain rfl := List.map_eq_nil_iff.mp hnothing
  refine ⟨[g, g'], hgroups, ?_⟩
  rw [List.map_cons, List.map_singleton, (hconnections g (by simp)).2,
    (hconnections g' (by simp)).2, hg, hg']
  rfl

end Connection

end Keyscope
