/-
# Whole numbers of records

A record has two whole numbers, and both have a text (`Record.Small`).  A lifetime is the whole part of
a number of the format, or one of the two that stand for none.  A count is how many members a value
has, and no value has so many that their number has no text (`Server.Countable`).

Nothing else is assumed of a server.  A stage of a snapshot passes on what it is given: the answers to
the requests for buckets are those of the server (`Payload.countable_of_fetchAll`), so what is found in
them counts no more (`Payload.count_of_findings`), and so do the records it is filled in
(`Record.small_of_settle`).
-/
import Keyscope.Proofs.Keyspace.Snapshot
import Keyscope.Proofs.Number.Canonical
import Keyscope.Proofs.Preview
import Keyscope.Proofs.Service

namespace Keyscope

variable {σ : Type}

/-! ## 1. Numbers of members -/

/-- How many members a value has can be written. -/
def Value.Countable (v : Value) : Prop :=
  ∀ vs, v.members? = some vs → vs.length < tenTo Numeral.maxDigits

/-- So it can for what a reply has in its places. -/
def Value.PlacesCountable (v : Value) : Prop := ∀ i w, v.memberOrNull i = .ok w → w.Countable

/-- And so it can for all that a server replies. -/
def Server.Countable (server : Server σ) : Prop :=
  ∀ r s v next, server r s = (.ok v, next) → v.PlacesCountable

theorem Numeral.one_lt_tenTo : 1 < tenTo maxDigits :=
  Nat.lt_of_lt_of_le (by decide : 1 < tenTo (1 : Nat)) (Value.tenTo_le (by decide))

theorem two_pow_le_tenTo (n : Nat) : 2 ^ n ≤ tenTo n := Nat.pow_le_pow_left (by decide) n

/-- The numbers of the format are far from too long to be written. -/
theorem Numeral.two_pow_le_tenTo_maxDigits : 2 ^ 1024 ≤ tenTo maxDigits :=
  Nat.le_trans (two_pow_le_tenTo 1024) (Value.tenTo_le (by decide))

namespace Preview

theorem length_of_mapM {α β : Type} {f : α → Except Failure β} {l : List α} {ys : List β}
    (h : l.mapM f = .ok ys) : ys.length = l.length := (Outcome.forall₂_of_mapM h).length_eq.symm

theorem length_of_parts {v : Value} (hv : v.Countable) {vs : List Value} (h : v.parts = .ok vs) :
    vs.length < tenTo Numeral.maxDigits := by
  cases vs with
  | nil => exact Nat.zero_lt_of_lt Numeral.one_lt_tenTo
  | cons w ws => exact hv _ (Value.members_of_parts h List.mem_cons_self)

/-- A hash has as many texts as fields, and what has no fields has none. -/
theorem length_of_fieldTexts {v : Value} (hv : v.Countable) {pairs : List (Text × Text)}
    (h : fieldTexts v = .ok pairs) : pairs.length < tenTo Numeral.maxDigits := by
  unfold fieldTexts at h
  split at h
  · obtain ⟨items, hitems, h⟩ := Outcome.exists_of_bind h
    cases v with
    | dict all =>
      obtain rfl := Except.ok.inj hitems
      rw [length_of_mapM h, ← List.length_map (f := (·.1))]
      exact hv _ rfl
    | _ => cases hitems
  · obtain rfl : [] = pairs := Except.ok.inj h
    exact Nat.zero_lt_of_lt Numeral.one_lt_tenTo

/-- **A layout counts no more than there is.** -/
theorem count_of_layout {b : Bucket} {v : Value} {p : Preview} (hv : v.Countable)
    (h : b.layout v = .ok p) : p.count < tenTo Numeral.maxDigits := by
  have hone := Numeral.one_lt_tenTo
  cases b with
  | strings =>
    simp only [Bucket.layout, ofString] at h
    split at h
    · obtain rfl := Except.ok.inj h
      exact Nat.zero_lt_of_lt hone
    · obtain ⟨t, -, h⟩ := Outcome.exists_of_bind h
      obtain rfl := Except.ok.inj h
      exact hone
  | hashes =>
    rw [Bucket.layout, ofHash_eq] at h
    obtain ⟨pairs, hpairs, h⟩ := Outcome.exists_of_bind h
    obtain rfl := Except.ok.inj h
    exact length_of_fieldTexts hv hpairs
  | sets =>
    rw [Bucket.layout, ofSet_eq] at h
    obtain ⟨texts, htexts, h⟩ := Outcome.exists_of_bind h
    obtain rfl := Except.ok.inj h
    obtain ⟨vs, hvs, htexts⟩ := Outcome.exists_of_bind htexts
    exact (length_of_mapM htexts).trans_lt (length_of_parts hv hvs)
  | sortedSets =>
    rw [Bucket.layout, ofSortedSet_eq] at h
    obtain ⟨pairs, hpairs, h⟩ := Outcome.exists_of_bind h
    obtain rfl := Except.ok.inj h
    obtain ⟨vs, hvs, hpairs⟩ := Outcome.exists_of_bind hpairs
    exact (length_of_mapM hpairs).trans_lt (length_of_parts hv hvs)
  | lists =>
    rw [Bucket.layout, ofList_eq] at h
    obtain ⟨texts, htexts, h⟩ := Outcome.exists_of_bind h
    obtain rfl := Except.ok.inj h
    obtain ⟨vs, hvs, htexts⟩ := Outcome.exists_of_bind htexts
    exact (length_of_mapM htexts).trans_lt (length_of_parts hv hvs)
  | documents =>
    obtain ⟨t, -, h⟩ := Outcome.exists_of_bind h
    obtain rfl := Except.ok.inj h
    dsimp only
    split
    · exact Nat.zero_lt_of_lt hone
    · exact hone

end Preview

/-! ## 2. Findings -/

/-- What was found counts no more than can be written. -/
def Finding.Small (f : Finding) : Prop := f.preview.count < tenTo Numeral.maxDigits

/-- Nothing is counted in the place of a value. -/
theorem Finding.small_placeholder (t : Text) : (Bucket.plain (.placeholder t)).Small :=
  Nat.zero_lt_of_lt Numeral.one_lt_tenTo

namespace Bucket

theorem small_of_find {b : Bucket} {v : Value} {f : Finding} (hv : v.Countable)
    (h : b.find v = .ok f) : f.Small := by
  by_cases hb : b = .documents
  · subst hb
    rcases findDocument_cases h with ⟨-, rfl⟩ | ⟨-, -, t, ht, rfl⟩
    · exact Finding.small_placeholder _
    · refine Preview.count_of_layout (b := .documents) hv ?_
      rw [layout, Preview.ofDocument, ht]
      rfl
  · rw [find_typed hb] at h
    obtain rfl := Except.ok.inj h
    rw [findValue]
    split
    · exact Finding.small_placeholder _
    · split
      · rename_i p hlayout
        exact Preview.count_of_layout hv hlayout
      · exact Finding.small_placeholder _

theorem small_of_findEach {b : Bucket} {replies : Value} (hplaces : replies.PlacesCountable) :
    ∀ {i : Nat} {keys : List Text} {found : List (Text × Finding)},
    b.findEach replies i keys = .ok found → ∀ p ∈ found, p.2.Small
  | i, [], found, h => by
    obtain rfl : [] = found := Except.ok.inj h
    nofun
  | i, key :: keys, found, h => by
    obtain ⟨v, hv, h⟩ := Outcome.exists_of_bind h
    obtain ⟨f, hf, h⟩ := Outcome.exists_of_bind h
    obtain ⟨rest, hrest, h⟩ := Outcome.exists_of_bind h
    obtain rfl : (key, f) :: rest = found := Except.ok.inj h
    exact List.forall_mem_cons.mpr
      ⟨small_of_find (hplaces i v hv) hf, small_of_findEach hplaces hrest⟩

/-- What a failed request shows counts nothing. -/
theorem small_findFailure (b : Bucket) (e : Failure) : (b.findFailure e).Small := by
  cases b <;> exact Finding.small_placeholder _

end Bucket

namespace Payload

/-- What comes of the request for a bucket is a failure, or has places whose members can be counted. -/
def OutcomeCountable (o : Bucket × List Text × Except Failure Value) : Prop :=
  ∀ v, o.2.2 = .ok v → v.PlacesCountable

/-- **The answers for buckets are those of the server.** -/
theorem countable_of_fetchAll {server : Server σ} (hserver : server.Countable) :
    ∀ {ps : List (Bucket × List Text)} {s next : σ}
    {outcomes : List (Bucket × List Text × Except Failure Value)},
    (fetchAll server ps).run s = (.ok outcomes, next) → ∀ o ∈ outcomes, OutcomeCountable o
  | [], s, next, outcomes, h => by
    obtain ⟨rfl, -⟩ := Session.run_pure_eq_ok.mp h
    nofun
  | (b, keys) :: ps, s, next, outcomes, h => by
    obtain ⟨outcome, asked, hfetch, h⟩ := Session.run_bind_eq_ok.mp h
    obtain ⟨others, last, hothers, h⟩ := Session.run_bind_eq_ok.mp h
    obtain ⟨rfl, -⟩ := Session.run_pure_eq_ok.mp h
    refine List.forall_mem_cons.mpr ⟨?_, countable_of_fetchAll hserver hothers⟩
    rintro v rfl
    unfold Bucket.fetch at hfetch
    split at hfetch
    · cases hfetch
    · rw [Session.run_outcome, Session.run_ask] at hfetch
      obtain ⟨hreply, rfl⟩ := Prod.mk.inj hfetch
      exact hserver _ s v _ (Prod.ext (Except.ok.inj hreply) rfl)

/-- **What is found counts no more than there is.** -/
theorem small_of_findings : ∀ {outcomes : List (Bucket × List Text × Except Failure Value)}
    {found : List (Text × Finding)}, (∀ o ∈ outcomes, OutcomeCountable o) →
    findings outcomes = .ok found → ∀ p ∈ found, p.2.Small
  | [], found, _, h => by
    obtain rfl : [] = found := Except.ok.inj h
    nofun
  | (b, keys, outcome) :: rest, found, houtcomes, h => by
    rw [List.forall_mem_cons] at houtcomes
    obtain ⟨first, hfirst, h⟩ := Outcome.exists_of_bind h
    obtain ⟨others, hothers, h⟩ := Outcome.exists_of_bind h
    obtain rfl : first ++ others = found := Except.ok.inj h
    refine List.forall_mem_append.mpr ⟨?_, small_of_findings houtcomes.2 hothers⟩
    cases outcome with
    | error e =>
      obtain rfl := Except.ok.inj hfirst
      rw [List.forall_mem_map]
      exact fun key _ => b.small_findFailure e
    | ok replies => exact Bucket.small_of_findEach (houtcomes.1 replies rfl) hfirst

theorem small_of_unread? {info : KeyInfo} {p : Text × Finding} (h : unread? info = some p) :
    p.2.Small := by
  unfold unread? at h
  split at h
  · obtain rfl := Option.some.inj h
    exact Finding.small_placeholder _
  · obtain rfl := Option.some.inj h
    exact Finding.small_placeholder _
  · cases h

end Payload

/-! ## 3. Records -/

/-- **The whole numbers of a record have a text.** -/
structure Record.Small (r : Record) : Prop where
  count : r.count.natAbs < tenTo Numeral.maxDigits
  lifetime : r.lifetime.natAbs < tenTo Numeral.maxDigits

namespace Record

theorem small_of_fill {budget : Value} {r r' : Record} {f : Finding} (hf : f.Small) (hr : r.Small)
    (h : fill budget r f = .ok r') : r'.Small := by
  obtain ⟨p, hp, h⟩ := Outcome.exists_of_bind h
  obtain ⟨t, -, hp⟩ := Outcome.exists_of_bind hp
  obtain rfl := Except.ok.inj hp
  obtain rfl := Except.ok.inj h
  exact ⟨hf, hr.lifetime⟩

theorem small_of_settle {budget : Value} : ∀ {found : List (Text × Finding)} {r r' : Record},
    (∀ p ∈ found, p.2.Small) → r.Small → settle budget found r = .ok r' → r'.Small
  | [], r, r', _, hr, h => by
    obtain rfl : r = r' := Except.ok.inj h
    exact hr
  | p :: found, r, r', hfound, hr, h => by
    rw [List.forall_mem_cons] at hfound
    rw [settle_cons] at h
    obtain ⟨mid, hmid, h⟩ := Outcome.exists_of_bind h
    refine small_of_settle hfound.2 ?_ h
    split at hmid
    · exact small_of_fill hfound.1 hr hmid
    · obtain rfl := Except.ok.inj hmid
      exact hr

end Record

namespace KeyInfo

theorem lifetimeOf_lt (v : Value) : (lifetimeOf v).natAbs < tenTo Numeral.maxDigits := by
  have hunknown : unknownLifetime.natAbs < tenTo Numeral.maxDigits :=
    Nat.lt_of_lt_of_le (show 2 < 2 ^ 10 by decide)
      (Nat.le_trans (Nat.pow_le_pow_right (by decide) (by decide)) Numeral.two_pow_le_tenTo_maxDigits)
  unfold lifetimeOf
  split
  · exact hunknown
  split
  · exact hunknown
  · rename_i t _
    cases hn : (Numeral.real t).bind Binary64.truncate? with
    | none => exact hunknown
    | some n =>
      obtain ⟨x, hx, hn⟩ := Option.bind_eq_some_iff.mp hn
      exact Nat.lt_of_lt_of_le (Binary64.natAbs_lt_of_truncate? (Numeral.isCanonical_real hx) hn)
        Numeral.two_pow_le_tenTo_maxDigits

theorem lifetime_of_listOfReplies {replies : Value} : ∀ {i : Nat} {keys : List Text}
    {infos : List KeyInfo}, listOfReplies replies i keys = .ok infos →
    ∀ info ∈ infos, info.lifetime.natAbs < tenTo Numeral.maxDigits
  | i, [], infos, h => by
    obtain rfl : [] = infos := Except.ok.inj h
    nofun
  | i, key :: keys, infos, h => by
    obtain ⟨info, hinfo, h⟩ := Outcome.exists_of_bind h
    obtain ⟨rest, hrest, h⟩ := Outcome.exists_of_bind h
    obtain rfl : info :: rest = infos := Except.ok.inj h
    obtain ⟨type, -, hinfo⟩ := Outcome.exists_of_bind hinfo
    obtain ⟨lifetime, -, hinfo⟩ := Outcome.exists_of_bind hinfo
    obtain ⟨t, -, hinfo⟩ := Outcome.exists_of_bind hinfo
    obtain rfl := Except.ok.inj hinfo
    exact List.forall_mem_cons.mpr ⟨lifetimeOf_lt lifetime, lifetime_of_listOfReplies hrest⟩

/-- **Lifetimes that are loaded can be written.** -/
theorem lifetime_of_load {server : Server σ} {keys : List Text} {infos : List KeyInfo} {s next : σ}
    (h : (load server keys).run s = (.ok infos, next)) :
    ∀ info ∈ infos, info.lifetime.natAbs < tenTo Numeral.maxDigits := by
  obtain ⟨-, names, hnames⟩ := keys_of_load h
  by_cases hkeys : keys = []
  · subst hkeys
    cases h
    nofun
  rw [run_load server hkeys hnames] at h
  split at h
  · cases h
    rw [List.forall_mem_map]
    exact fun key _ => lifetimeOf_lt .null
  · exact lifetime_of_listOfReplies (Prod.mk.inj h).1

end KeyInfo

/-! ## 4. Snapshots -/

theorem Payload.small_of_materialize {server : Server σ} (hserver : server.Countable) {budget : Value}
    {infos : List KeyInfo} {records shown : List Record} (hrecords : ∀ r ∈ records, r.Small)
    {s next : σ} (h : (materialize server budget infos records).run s = (.ok shown, next)) :
    ∀ r ∈ shown, r.Small := by
  simp only [materialize] at h
  obtain ⟨settled, _, hfirst, hrest⟩ := Session.run_bind_eq_ok.mp h
  obtain ⟨outcomes, _, hfetch, hlast⟩ := Session.run_bind_eq_ok.mp hrest
  obtain ⟨found, _, hsecond, hdone⟩ := Session.run_bind_eq_ok.mp hlast
  have hsettled := (Session.run_ofExcept_eq_ok.mp hfirst).1
  have hfound := (Session.run_ofExcept_eq_ok.mp hsecond).1
  have hshown := (Session.run_ofExcept_eq_ok.mp hdone).1
  have hunread : ∀ p ∈ (wanted records infos).filterMap unread?, p.2.Small := by
    intro p hp
    obtain ⟨info, -, hp⟩ := List.mem_filterMap.mp hp
    exact small_of_unread? hp
  intro r hr
  obtain ⟨mid, hmid, hr⟩ := Outcome.exists_of_result hshown hr
  obtain ⟨first, hfirst, hmid⟩ := Outcome.exists_of_result hsettled hmid
  exact Record.small_of_settle (small_of_findings (countable_of_fetchAll hserver hfetch) hfound)
    (Record.small_of_settle hunread (hrecords first hfirst) hmid) hr

/-- **The whole numbers in a snapshot can be written.** -/
theorem Snapshot.small_of_take {server : Server σ} (hserver : server.Countable) {plan : Plan}
    {rounds : Nat} {target : Target} {s next : σ} {snapshot : Snapshot}
    (h : (take server plan rounds target).run s = (.ok (some snapshot), next)) :
    ∀ r ∈ snapshot.records, r.Small := by
  obtain ⟨client, opened, last, -, h⟩ := read_of_take h
  obtain ⟨scan, swept, -, h⟩ := exists_scan_of_read h
  obtain ⟨infos, loaded, hload, h⟩ := Session.run_bind_eq_ok.mp h
  obtain ⟨records, fetched, hmaterialize, h⟩ := Session.run_bind_eq_ok.mp h
  obtain ⟨rfl, -⟩ := Session.run_pure_eq_ok.mp h
  refine Payload.small_of_materialize hserver (fun r hr => ?_) hmaterialize
  obtain ⟨info, hinfo, rfl⟩ := Record.mem_listOfInfos hr
  exact ⟨Nat.zero_lt_of_lt Numeral.one_lt_tenTo, KeyInfo.lifetime_of_load hload info hinfo⟩

/-- **The whole numbers in a response can be written.** -/
theorem Service.small_of_list {service : Service} {net : Network σ}
    (hnet : ∀ t, (net.server t).Countable) {rounds : Nat} {requested : Value} {s next : σ}
    {response : Response}
    (h : (service.list net rounds requested).run s = (.ok (some response), next)) :
    ∀ r ∈ response.records, r.Small := by
  obtain ⟨probes, probed, asked, -, -, h⟩ := list_cases h
  split at h
  · rw [h]
    nofun
  · obtain ⟨snapshot, last, hread, hrecords⟩ := h
    rw [hrecords]
    exact Snapshot.small_of_take (hnet _) hread

end Keyscope
