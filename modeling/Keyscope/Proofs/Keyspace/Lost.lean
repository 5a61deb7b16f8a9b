/-
# What keeps a key from being shown

Two answers for a key can tell nothing: the one for its type, and the one for a document, for which
it is tried if its type is another one than those that have a request of their own.  And what is found
for a key may not fit the budget, if that is no number, or no whole one.

Each of these fails what is read for all keys.  Section 1 says so of the types
(`KeyInfo.load_eq_error`), and section 3 of the records: they are settled if and only if something is
found for every key and can be cut to the budget (`Payload.settleBoth_returns`).
-/
import Keyscope.Proofs.Keyspace.Stages
import Keyscope.Proofs.Value.Told

namespace Keyscope

variable {σ : Type}

/-! ## 1. Types -/

/-- No type can be told from an answer that tells nothing. -/
theorem KeyInfo.typeOf_eq_error {v : Value} {e : Failure} :
    typeOf v = .error e ↔ ¬ v.Tells ∧ e = .integerTooLong := by
  rw [typeOf]
  rcases v.tells_cases with ⟨hskipped, htells⟩ | ⟨hskipped, htells, t, ht⟩ | ⟨hskipped, hvoid, hv⟩
  · simp [hskipped, htells]
  · simp [hskipped, htells, ht]
  · simp [hskipped, hvoid, hv, eq_comm]

namespace KeyInfo

theorem ofPair_eq_error {key : Text} {type lifetime : Value} {e : Failure} :
    ofPair key type lifetime = .error e ↔ ¬ type.Tells ∧ e = .integerTooLong := by
  rw [← typeOf_eq_error, ofPair]
  cases typeOf type with
  | error e' => simp
  | ok t => simp

/-- **Reading the answers for some keys fails** if nothing can be told from one that is for a type. -/
theorem listOfReplies_eq_error {vs : List Value} {keys : List Text} {e : Failure} :
    listOfReplies (.list vs) 0 keys = .error e ↔
      e = .integerTooLong ∧ ∃ i < keys.length, ¬ (vs[2 * i]?.getD .null).Tells := by
  rw [listOfReplies_list, Outcome.mapM_eq_error fun p e h => (ofPair_eq_error.mp h).2]
  simp only [ofPair_eq_error, and_true]
  refine and_congr_right fun _ => ?_
  constructor
  · rintro ⟨p, hp, hvoid⟩
    exact ⟨p.2, (List.mem_zipIdx' hp).1, hvoid⟩
  · rintro ⟨i, hi, hvoid⟩
    exact ⟨(keys[i], i), List.mk_mem_zipIdx_iff_getElem?.mpr (by simp [hi]), hvoid⟩

end KeyInfo

/-- **Loading fails** if nothing can be told from an answer for the type of a key. -/
theorem KeyInfo.load_eq_error {server : Server σ} (hreads : server.ListReads) {keys : List Text}
    {names : List Bytes} (hnames : keys.mapM encodeKey = .ok names) {s : σ} {e : Failure} :
    ((load server keys).run s).1 = .error e ↔ e = .integerTooLong ∧ ∃ vs next i,
      server (.batch (names.flatMap commands)) s = (.ok (.list vs), next) ∧ i < keys.length ∧
        ¬ (vs[2 * i]?.getD .null).Tells := by
  by_cases hkeys : keys = []
  · subst hkeys
    refine iff_of_false (fun h => by cases h) ?_
    rintro ⟨-, vs, next, i, -, hi, -⟩
    exact absurd hi (Nat.not_lt_zero i)
  rw [run_load server hkeys hnames]
  rcases hreply : server (.batch (names.flatMap commands)) s with ⟨e' | reply, next⟩
  · refine iff_of_false (fun h => by cases h) ?_
    rintro ⟨-, vs, next, i, h, -⟩
    cases h
  · obtain ⟨vs, rfl⟩ := hreads _ s reply rfl (by rw [hreply])
    refine listOfReplies_eq_error.trans (and_congr_right fun _ => ?_)
    constructor
    · rintro ⟨i, hi, hvoid⟩
      exact ⟨vs, next, i, rfl, hi, hvoid⟩
    · rintro ⟨_, _, i, h, hi, hvoid⟩
      obtain rfl := Value.list.inj (Except.ok.inj (Prod.mk.inj h).1)
      exact ⟨i, hi, hvoid⟩

/-! ## 2. Failures that are no sweep's -/

/-- The failure of a sweep, which names its target. -/
def Failure.IsSweep (e : Failure) : Prop := ∃ name cause, e = .scanFailed name cause

theorem Failure.not_isSweep_integerTooLong : ¬ Failure.integerTooLong.IsSweep := by
  rintro ⟨name, cause, h⟩
  cases h

/-- A computation that does not fail with a sweep. -/
def Outcome.NoSweep {α : Type} (x : Except Failure α) : Prop := ∀ e, x = .error e → ¬ e.IsSweep

namespace Outcome

variable {α β : Type}

theorem NoSweep.ok (a : α) : NoSweep (.ok a) := nofun

theorem NoSweep.bind {x : Except Failure α} {f : α → Except Failure β} (hx : NoSweep x)
    (hf : ∀ a, NoSweep (f a)) : NoSweep (x >>= f) := by
  intro e h
  rcases error_of_bind h with h | ⟨a, -, h⟩
  · exact hx e h
  · exact hf a e h

theorem NoSweep.mapM {f : α → Except Failure β} (hf : ∀ a, NoSweep (f a)) :
    ∀ l : List α, NoSweep (l.mapM f)
  | [] => .ok []
  | a :: l => by
    rw [List.mapM_cons]
    exact (hf a).bind fun b => (NoSweep.mapM hf l).bind fun bs => .ok _

end Outcome

/-- Filling in records does not fail with a sweep, whatever the budget is. -/
theorem Record.noSweep_settle (budget : Value) : ∀ (found : List (Text × Finding)) (r : Record),
    Outcome.NoSweep (r.settle budget found)
  | [], r => .ok r
  | f :: found, r => by
    have hclip : ∀ t, Outcome.NoSweep (Preview.clipTo budget t) := by
      rintro t e h ⟨name, cause, rfl⟩
      unfold Preview.clipTo at h
      split at h
      · cases h
      · cases h
      · split at h <;> cases h
    rw [settle_cons]
    refine Outcome.NoSweep.bind ?_ (noSweep_settle budget found)
    split
    · exact ((hclip _).bind fun t => .ok _).bind fun p => .ok _
    · exact .ok r

/-! ## 3. Records -/

/-- No document can be found in an answer that tells nothing. -/
theorem Bucket.findDocument_eq_error {v : Value} {e : Failure} :
    findDocument v = .error e ↔ ¬ v.Tells ∧ e = .integerTooLong := by
  rw [findDocument, Preview.ofDocument]
  rcases v.tells_cases with ⟨hskipped, htells⟩ | ⟨hskipped, htells, t, ht⟩ | ⟨hskipped, hvoid, hv⟩
  · simp [hskipped, htells]
  · simp [hskipped, htells, ht]
  · simp [hskipped, hvoid, hv, eq_comm]

namespace Payload

variable {outcomes : Bucket → Except Failure Value} {infos : List KeyInfo} {info : KeyInfo}

/-- A key is tried as a document, and nothing can be told from the answer for it. -/
def Untold (outcomes : Bucket → Except Failure Value) (infos : List KeyInfo) (info : KeyInfo) :
    Prop :=
  info.bucket? = some .documents ∧ ∃ vs, outcomes .documents = .ok (.list vs) ∧
    ¬ (answerFor .documents infos info vs).Tells

theorem finding_eq_error (hlists : AreLists outcomes) {e : Failure} :
    finding outcomes infos info = .error e ↔ Untold outcomes infos info ∧ e = .integerTooLong := by
  by_cases hbucket : info.bucket? = some .documents
  · have hfinding : finding outcomes infos info = Bucket.documents.findAt (outcomes .documents)
        ((Bucket.documents.keysOf infos).idxOf info.key) := by
      rw [finding, KeyInfo.bucket?_eq_some.mp hbucket]
    rw [hfinding, Untold]
    cases hbatch : outcomes .documents with
    | error e' => simp [Bucket.findAt]
    | ok replies =>
      obtain ⟨vs, rfl⟩ := hlists _ replies hbatch
      rw [Bucket.findAt_list]
      refine Bucket.findDocument_eq_error.trans ?_
      simp [hbucket, answerFor]
  · obtain ⟨f, hf⟩ := exists_finding hlists hbucket
    refine iff_of_false (fun h => by cases hf.symm.trans h) fun h => hbucket h.1.1

/-- Outcomes of a server that answers reads with lists are lists. -/
theorem Given.areLists {server : Server σ} (hreads : server.ListReads)
    (hnames : ∀ info ∈ infos, ∃ bs, encodeKey info.key = .ok bs) (h : Given server infos outcomes) :
    AreLists outcomes := by
  intro b replies hb
  by_cases hempty : b.keysOf infos = []
  · obtain rfl := Except.ok.inj (hb.symm.trans (h.unasked b hempty))
    exact ⟨[], rfl⟩
  · obtain ⟨names, hkeys⟩ := exists_names hnames b
    obtain ⟨t, ht⟩ := h.asked b names hempty hkeys
    exact hreads _ t replies (b.request_reads names) (ht.symm.trans hb)

/-- Outcomes that are the same for the buckets with keys are the same for every key. -/
theorem outcome_eq {others : Bucket → Except Failure Value}
    (h : answered outcomes infos = answered others infos) (hinfo : info ∈ infos) {b : Bucket}
    (hbucket : info.bucket? = some b) : outcomes b = others b := by
  have hmem : (b, b.keysOf infos) ∈ buckets infos :=
    mem_buckets.mpr ⟨rfl, keysOf_ne_nil hinfo hbucket⟩
  exact (Prod.mk.inj (Prod.mk.inj (List.map_inj_left.mp h _ hmem)).2).2

/-- Something is found for a key, and cannot be cut to the budget. -/
def Uncut (budget : Value) (outcomes : Bucket → Except Failure Value) (infos : List KeyInfo)
    (info : KeyInfo) : Prop :=
  ∃ f e, finding outcomes infos info = .ok f ∧ Preview.clipTo budget f.preview.payload = .error e

/-- A key is not shown if nothing can be told of it, or what is found cannot be cut. -/
theorem not_shown_iff (hlists : AreLists outcomes) {budget : Value} :
    (¬ ∃ f t, finding outcomes infos info = .ok f ∧
      Preview.clipTo budget f.preview.payload = .ok t) ↔
      Untold outcomes infos info ∨ Uncut budget outcomes infos info := by
  rw [Uncut]
  cases hf : finding outcomes infos info with
  | error e =>
    have huntold := ((finding_eq_error hlists).mp hf).1
    simp [huntold]
  | ok f =>
    have hnot : ¬ Untold outcomes infos info := fun huntold => by
      cases hf.symm.trans ((finding_eq_error hlists).mpr ⟨huntold, rfl⟩)
    cases hclip : Preview.clipTo budget f.preview.payload with
    | error e => simp [hclip]
    | ok t => simp [hnot, hclip]

/-- Only the outcomes for buckets with keys count. -/
theorem lost_congr {others : Bucket → Except Failure Value}
    (h : answered outcomes infos = answered others infos) (hinfo : info ∈ infos) (budget : Value) :
    Untold outcomes infos info ∨ Uncut budget outcomes infos info ↔
      Untold others infos info ∨ Uncut budget others infos info := by
  have hfinding : finding outcomes infos info = finding others infos info :=
    finding_congr fun b hbucket => outcome_eq h hinfo hbucket
  refine or_congr (and_congr_right fun hbucket => ?_) (by rw [Uncut, Uncut, hfinding])
  rw [outcome_eq h hinfo hbucket]

/-- What is made of records when the requests for the buckets come out so, for any budget. -/
def settleBoth (budget : Value) (outcomes : Bucket → Except Failure Value) (infos : List KeyInfo)
    (records : List Record) : Except Failure (List Record) := do
  let records ← records.mapM (Record.settle budget (infos.filterMap unread?))
  let found ← findings (answered outcomes infos)
  records.mapM (Record.settle budget found)

/-- Once the buckets are fetched, all is settled. -/
theorem materialize_fetched {server : Server σ} (budget : Value) {records : List Record} {s next : σ}
    (hfetch : (fetchAll server (buckets (wanted records infos))).run s =
      (.ok (answered outcomes (wanted records infos)), next)) :
    ((materialize server budget infos records).run s).1 =
      settleBoth budget outcomes (wanted records infos) records := by
  rw [materialize, settleBoth]
  cases records.mapM (Record.settle budget ((wanted records infos).filterMap unread?)) with
  | error e => rfl
  | ok settled =>
    rw [Session.run_bind_ok (Session.run_ofExcept _ s), Session.run_bind_ok hfetch]
    cases findings (answered outcomes (wanted records infos)) with
    | error e => rfl
    | ok found => rfl

/-- **Fresh records are settled** if and only if something is found for every key and can be cut to the
budget. -/
theorem settleBoth_returns (hnodup : (infos.map (·.key)).Nodup) (budget : Value) (source : Text) :
    (∃ shown, settleBoth budget outcomes infos (infos.map (Record.ofInfo source)) = .ok shown) ↔
      ∀ info ∈ infos, ∃ f t, finding outcomes infos info = .ok f ∧
        Preview.clipTo budget f.preview.payload = .ok t := by
  have : Nonempty Finding := ⟨Bucket.plain .expired⟩
  constructor
  · rintro ⟨shown, h⟩ info hinfo
    obtain ⟨settled, hsettled, h⟩ := Outcome.exists_of_bind h
    obtain ⟨found, hfound, hshown⟩ := Outcome.exists_of_bind h
    have hfinding : ∀ info ∈ infos, ∃ f, finding outcomes infos info = .ok f :=
      fun info hinfo => exists_finding_of_findings hnodup hfound hinfo
    choose! f hf using hfinding
    obtain ⟨mid, hmid, hfirst⟩ := Outcome.exists_result hsettled (List.mem_map_of_mem hinfo)
    obtain ⟨r, hsecond⟩ := Outcome.exists_of_mapM hshown hmid
    have hfill := settle_wanted hnodup hf hfound budget hinfo (r := .ofInfo source info) rfl
    rw [hfirst, Outcome.ok_bind, hsecond] at hfill
    exact ⟨f info, _, hf info hinfo, (Record.fill_eq_ok hfill.symm).2.2⟩
  · intro h
    choose! f hf using h
    have hfinding : ∀ info ∈ infos, finding outcomes infos info = .ok (f info) :=
      fun info hinfo => (hf info hinfo).choose_spec.1
    obtain ⟨found, hfound, -⟩ := findings_perm hnodup hfinding
    have hfill : ∀ r ∈ infos.map (Record.ofInfo source), ∃ r',
        (r.settle budget (infos.filterMap unread?) >>= Record.settle budget found) = .ok r' := by
      intro r hr
      obtain ⟨info, hinfo, rfl⟩ := List.mem_map.mp hr
      obtain ⟨t, -, ht⟩ := hf info hinfo
      rw [settle_wanted hnodup hfinding hfound budget hinfo rfl,
        Record.fill, Preview.within, Preview.clipValue_text, ht]
      exact ⟨_, rfl⟩
    obtain ⟨settled, hsettled⟩ := Outcome.exists_mapM_ok fun r hr => by
      obtain ⟨r', hr'⟩ := hfill r hr
      obtain ⟨mid, hmid, -⟩ := Outcome.exists_of_bind hr'
      exact ⟨mid, hmid⟩
    obtain ⟨shown, hshown⟩ := Outcome.exists_mapM_ok (l := settled) (f := Record.settle budget found)
      fun mid hmid => by
        obtain ⟨r, hr, hfirst⟩ := Outcome.exists_of_result hsettled hmid
        obtain ⟨r', hr'⟩ := hfill r hr
        rw [hfirst] at hr'
        exact ⟨r', hr'⟩
    rw [settleBoth, hsettled, Outcome.ok_bind, hfound, Outcome.ok_bind, hshown]
    exact ⟨shown, rfl⟩

/-- Settling does not fail with a sweep. -/
theorem noSweep_settleBoth (hnodup : (infos.map (·.key)).Nodup) (hlists : AreLists outcomes)
    (budget : Value) (records : List Record) :
    Outcome.NoSweep (settleBoth budget outcomes infos records) := by
  have hfinding : ∀ info, Outcome.NoSweep (finding outcomes infos info) := by
    intro info e h
    rw [((finding_eq_error hlists).mp h).2]
    exact Failure.not_isSweep_integerTooLong
  have hsettle : ∀ found (records : List Record),
      Outcome.NoSweep (records.mapM (Record.settle budget found)) := fun found records =>
    .mapM (Record.noSweep_settle budget found) records
  refine (hsettle _ _).bind fun settled => Outcome.NoSweep.bind ?_ fun found => hsettle found settled
  rw [findings_answered hnodup]
  exact .mapM (fun info => (hfinding info).bind fun f => .ok _) _

end Payload

end Keyscope
