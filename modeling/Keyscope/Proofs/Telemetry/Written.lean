/-
# Shards as documents

What is reported of the shards of a file can be told from the document that is written of it
(`TelemetrySource.sound_of_shards`).  All its texts were read from the file, or are texts of what was, so
they have no pairs of surrogates.  All its numbers are numbers of the format: a column is the number that
its text is nearest to, or else a NaN, and a mean is a quotient of such numbers.

Neither a NaN nor an infinity keeps a row from being read.  So such a document is one of finite numbers if
and only if all columns and means are (`Shard.finite_iff`).
-/
import Keyscope.Proofs.Json.Paired
import Keyscope.Proofs.Json.Written
import Keyscope.Proofs.Number.Canonical
import Keyscope.Proofs.Telemetry.Dump

namespace Keyscope

open Json (Unpaired Sound named)

/-! ## 1. Records -/

/-- **A record can be told from its document**: its names are different and have only letters. -/
theorem Json.Sound.record {depth : Nat} {names : List Text} {items : List (Text × Value)}
    (hitems : items.map Prod.fst = names) (hnodup : names.Nodup)
    (hsimple : ∀ name ∈ names, Yaml.Writer.Simple name) (h : ∀ p ∈ items, Sound depth p.2) :
    Sound (depth + 1) (.dict (named items)) := by
  subst hitems
  refine .dict hnodup (fun p hp => ?_) h
  exact Json.unpaired_of_characters (Text.characters_of_simple (hsimple p.1 (List.mem_map_of_mem hp)))

namespace Connection

/-- The texts of a connection. -/
def texts (c : Connection) : List Text := c.shard.toList ++ [c.identity, c.target, c.state]

/-- The numbers of a connection. -/
def numbers (c : Connection) : List Binary64 :=
  [c.ping, c.inRate, c.outRate, c.packetRate, c.pendingReliable, c.pendingUnreliable, c.sentUnacked,
    c.queueTime, c.localQuality, c.remoteQuality]

theorem sound {c : Connection} (htexts : ∀ t ∈ c.texts, Unpaired t)
    (hnumbers : ∀ x ∈ c.numbers, x.IsCanonical) {depth : Nat} : Sound (depth + 1) c.toValue := by
  simp only [texts, List.mem_append, or_imp, forall_and, List.forall_mem_cons] at htexts
  simp only [numbers, List.forall_mem_cons] at hnumbers
  obtain ⟨hshard, hidentity, htarget, hstate, -⟩ := htexts
  obtain ⟨h₁, h₂, h₃, h₄, h₅, h₆, h₇, h₈, h₉, h₁₀, -⟩ := hnumbers
  have hfirst : Sound depth ((c.shard.map Value.text).getD .null) := by
    cases hc : c.shard with
    | none => exact .null
    | some t => exact .text (hshard t (by rw [hc]; exact List.mem_singleton_self t))
  refine @Sound.record _ ["shardId", "identityId", "targetId", "pingMs", "inBytesPerSec", "outBytesPerSec",
    "inPacketsPerSec", "pendingReliableBytes", "pendingUnreliableBytes", "sentUnackedReliableBytes",
    "queueTimeUsec", "qualityLocal", "qualityRemote", "state"]
    [("shardId", (c.shard.map Value.text).getD .null), ("identityId", .text c.identity),
    ("targetId", .text c.target), ("pingMs", .real c.ping), ("inBytesPerSec", .real c.inRate),
    ("outBytesPerSec", .real c.outRate), ("inPacketsPerSec", .real c.packetRate),
    ("pendingReliableBytes", .real c.pendingReliable),
    ("pendingUnreliableBytes", .real c.pendingUnreliable),
    ("sentUnackedReliableBytes", .real c.sentUnacked), ("queueTimeUsec", .real c.queueTime),
    ("qualityLocal", .real c.localQuality), ("qualityRemote", .real c.remoteQuality),
    ("state", .text c.state)] rfl (by decide +kernel) (by decide +kernel) ?_
  simp only [List.forall_mem_cons]
  exact ⟨hfirst, .text hidentity, .text htarget, .real h₁, .real h₂, .real h₃, .real h₄, .real h₅,
    .real h₆, .real h₇, .real h₈, .real h₉, .real h₁₀, .text hstate, List.forall_mem_nil _⟩

theorem finite_iff (c : Connection) : Json.Finite c.toValue ↔ ∀ x ∈ c.numbers, x.isFinite = true := by
  have hshard : Json.Finite ((c.shard.map Value.text).getD .null) := by
    cases c.shard with
    | none => exact .null
    | some t => exact .text t
  have htext : ∀ t : Text, Json.Finite (.text t) := .text
  simp only [toValue, Json.finite_dict_iff, numbers, List.forall_mem_cons, Json.finite_real_iff, htext, hshard,
    true_and, List.not_mem_nil, false_imp_iff, implies_true, and_true]

/-- A column is a number of the format. -/
theorem isCanonical_numberOf (t : Text) : (numberOf t).IsCanonical := by
  unfold numberOf
  cases h : Numeral.real t with
  | none => trivial
  | some x => exact Numeral.isCanonical_real h

/-- Texts and numbers of a connection are those of the columns of its row. -/
theorem texts_ofTexts {row : List Text} {c : Connection} (h : ofTexts row = some c)
    (hrow : ∀ t ∈ row, Unpaired t) :
    (∀ t ∈ c.texts, Unpaired t) ∧ ∀ x ∈ c.numbers, x.IsCanonical := by
  have hcolumn : ∀ i, Unpaired (row.getD i []) := by
    intro i
    rw [List.getD_eq_getElem?_getD]
    cases hi : row[i]? with
    | none => exact .nil
    | some t => exact hrow t (List.mem_of_getElem? hi)
  unfold ofTexts at h
  split at h
  · cases h
  · obtain rfl := Option.some.inj h
    refine ⟨?_, ?_⟩
    · simp only [texts, List.mem_append, or_imp, forall_and, List.forall_mem_cons]
      refine ⟨fun t ht => ?_, hcolumn _, hcolumn _, hcolumn _, List.forall_mem_nil _⟩
      split at ht
      · exact hrow t (List.mem_of_mem_head? (Option.mem_toList.mp ht))
      · cases ht
    · simp only [numbers, List.forall_mem_cons]
      exact ⟨isCanonical_numberOf _, isCanonical_numberOf _, isCanonical_numberOf _, isCanonical_numberOf _,
        isCanonical_numberOf _, isCanonical_numberOf _, isCanonical_numberOf _, isCanonical_numberOf _,
        isCanonical_numberOf _, isCanonical_numberOf _, List.forall_mem_nil _⟩

/-- A mean is a number of the format. -/
theorem isCanonical_means (cs : List Connection) : (means cs).1.IsCanonical ∧ (means cs).2.IsCanonical := by
  unfold means
  split
  · exact ⟨Binary64.isCanonical_ofInt 0, Binary64.isCanonical_ofInt 0⟩
  · exact ⟨Binary64.isCanonical_div _ _, Binary64.isCanonical_div _ _⟩

end Connection

namespace Shard

/-- All numbers that are reported of a shard are finite. -/
def Finite (s : Shard) : Prop :=
  s.download.isFinite = true ∧ s.upload.isFinite = true ∧
    ∀ c ∈ s.connections, ∀ x ∈ c.numbers, x.isFinite = true

theorem finite_iff {s : Shard} (h : ∃ name, s.id = .text name) : Json.Finite s.toValue ↔ s.Finite := by
  obtain ⟨name, hname⟩ := h
  have hid : Json.Finite s.id := hname ▸ .text name
  simp only [toValue, entry, Json.finite_dict_iff, List.forall_mem_cons, hid, Json.finite_real_iff,
    Json.finite_list_iff, List.forall_mem_map, Connection.finite_iff, Finite, true_and, List.not_mem_nil,
    false_imp_iff, implies_true, and_true]

theorem sound {s : Shard} {name : Text} (hid : s.id = .text name) (hname : Unpaired name)
    (hdownload : s.download.IsCanonical) (hupload : s.upload.IsCanonical) {depth : Nat}
    (h : ∀ c ∈ s.connections, Sound (depth + 1) c.toValue) : Sound (depth + 3) s.toValue := by
  refine @Sound.record _ ["shardId", "downloadKbps", "uploadKbps", "connections"]
    [("shardId", s.id), ("downloadKbps", .real s.download), ("uploadKbps", .real s.upload),
    ("connections", .list (s.connections.map Connection.toValue))] rfl (by decide +kernel)
    (by decide +kernel) ?_
  simp only [List.forall_mem_cons, hid]
  exact ⟨.text hname, .real hdownload, .real hupload, .list (List.forall_mem_map.mpr h),
    List.forall_mem_nil _⟩

end Shard

/-! ## 2. Files -/

namespace TelemetrySource

variable {disk : Disk} {path : Text} {items : List (Value × Value)}

/-- No text that a dump lists has a pair of surrogates. -/
theorem unpaired_of_load (h : load disk path = .ok items) : (Value.dict items).Unpaired := by
  obtain ⟨t, ht, h⟩ := Outcome.exists_of_bind h
  obtain ⟨v, hv, h⟩ := Outcome.exists_of_bind h
  have hunpaired := Json.unpaired_of_parse hv (Disk.characters_of_readText ht)
  split at h
  · obtain rfl := Except.ok.inj h
    exact hunpaired
  · cases h

theorem unpaired_membersOf (h : (Value.dict items).Unpaired) {name : Text} {vs : List Value}
    (hvs : membersOf name items = .ok vs) : ∀ v ∈ vs, v.Unpaired := by
  unfold membersOf at hvs
  split at hvs
  · rename_i v hv
    exact (h.field? hv).parts hvs
  · obtain rfl := Except.ok.inj hvs
    exact List.forall_mem_nil _

/-- No text in an identifier has such a pair. -/
theorem unpaired_of_identifies (h : (Value.dict items).Unpaired) {id : Value} (hid : Identifies items id) :
    id.Unpaired := by
  cases hid with
  | object hv hentries hentry hid => exact ((h.field? hv).parts hentries _ hentry).field? hid
  | listed hids hid => exact unpaired_membersOf h hids id hid

/-- The columns of all rows are such texts. -/
theorem unpaired_rowsOf (h : (Value.dict items).Unpaired) {rows : List (List Text)}
    (hrows : rowsOf items = .ok rows) : ∀ row ∈ rows, ∀ t ∈ row, Unpaired t := by
  obtain ⟨vs, hvs, hrows⟩ := Outcome.exists_of_bind hrows
  intro row hrow t ht
  obtain ⟨v, hv, htexts⟩ := Outcome.exists_of_result hrows hrow
  obtain ⟨ws, hws, htexts⟩ := Outcome.exists_of_bind htexts
  obtain ⟨w, hw, htext⟩ := Outcome.exists_of_result htexts ht
  have hunpaired := unpaired_membersOf h hvs v (List.mem_of_mem_filter hv)
  exact (hunpaired.members (Value.members?_of_members hws) w hw).toText htext

/-- **What is reported of the shards of a file can be told from the document of it.** -/
theorem sound_of_shards {shards : List Shard} (h : (file path).shards disk = .ok shards) {depth : Nat} :
    Sound (depth + 4) (.list (shards.map Shard.toValue)) := by
  obtain ⟨identities, hidentities, h⟩ := Outcome.exists_of_bind h
  obtain ⟨rows, hrows, h⟩ := Outcome.exists_of_bind h
  obtain ⟨items, hload, hidentities⟩ := Outcome.exists_of_bind hidentities
  obtain ⟨items', hload', hrows⟩ := Outcome.exists_of_bind hrows
  obtain rfl := Except.ok.inj (hload.symm.trans hload')
  have hdump := unpaired_of_load hload
  have hnamed : ∀ i ∈ identities, ∃ name, i.id = .text name ∧ Unpaired name := by
    intro i hi
    obtain ⟨id, name, hid, htext, hname⟩ := identifier_of_identitiesOf hidentities i hi
    exact ⟨name, hname, (unpaired_of_identifies hdump hid).toText htext⟩
  have hcolumns := unpaired_rowsOf hdump hrows
  rw [summarize_texts fun i hi => (hnamed i hi).imp fun _ => And.left] at h
  obtain rfl := Except.ok.inj h
  refine .list (List.forall_mem_map.mpr (List.forall_mem_map.mpr fun i hi => ?_))
  obtain ⟨name, hname, hunpaired⟩ := hnamed i hi
  obtain ⟨hdownload, hupload⟩ := Connection.isCanonical_means (Connection.ofRows name rows)
  rw [summaryOf, hname]
  refine Shard.sound rfl hunpaired hdownload hupload fun c hc => ?_
  obtain ⟨row, hrow, hrowc⟩ := List.mem_filterMap.mp (List.mem_of_mem_filter hc)
  obtain ⟨htexts, hnumbers⟩ := Connection.texts_ofTexts hrowc (hcolumns row hrow)
  exact Connection.sound htexts hnumbers

end TelemetrySource

end Keyscope
