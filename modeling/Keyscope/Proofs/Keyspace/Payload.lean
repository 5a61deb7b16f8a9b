/-
# What materializing shows

Section 1 separates the requests from what is made of them: a run of `Payload.materialize` is a run
of the requests for the buckets followed by `Payload.settleAll`, which asks nothing
(`run_materialize`).

`settleAll` goes through the keys bucket by bucket, and what it does is the same as going through
them in the order given (`settleAll_eq`).  So every record shows what is found for its own key
(`materialize_shows`).
-/
import Mathlib.Data.List.Forall2
import Keyscope.Proofs.Keyspace.Findings
import Keyscope.Proofs.Session

namespace Keyscope

variable {σ : Type}

/-! ## 1. Requests for buckets -/

/-- A bucket of keys that have names sends one request. -/
theorem Bucket.run_fetch (server : Server σ) (b : Bucket) {keys : List Text} {names : List Bytes}
    (hnames : keys.mapM encodeKey = .ok names) (s : σ) :
    (b.fetch server keys).run s =
      (.ok (server (b.request names) s).1, (server (b.request names) s).2) := by
  rw [fetch, hnames]
  rfl

namespace Payload

/-- **Every bucket is asked for once**, whatever comes out: the outcomes are told bucket by bucket,
and the outcome for a bucket is what the server answers in some state. -/
theorem run_fetchAll (server : Server σ) : ∀ {ps : List (Bucket × List Text)},
    (ps.map Prod.fst).Nodup → (∀ p ∈ ps, ∃ names, p.2.mapM encodeKey = .ok names) → ∀ s,
    ∃ (outcomes : Bucket → Except Failure Value) (next : σ),
      (fetchAll server ps).run s = (.ok (ps.map fun p => (p.1, p.2, outcomes p.1)), next) ∧
      (∀ p ∈ ps, ∀ names, p.2.mapM encodeKey = .ok names →
        ∃ t, outcomes p.1 = (server (p.1.request names) t).1) ∧
      ∀ b ∉ ps.map Prod.fst, outcomes b = .ok (.list [])
  | [], _, _, s => ⟨fun _ => .ok (.list []), s, rfl, by simp, fun _ _ => rfl⟩
  | (b, keys) :: ps, hnodup, hnames, s => by
    rw [List.map_cons, List.nodup_cons] at hnodup
    obtain ⟨names, hkeys⟩ := hnames (b, keys) List.mem_cons_self
    set reply := (server (b.request names) s).1
    obtain ⟨outcomes, next, hrun, hasked, hother⟩ := run_fetchAll server hnodup.2
      (fun p hp => hnames p (List.mem_cons_of_mem _ hp)) (server (b.request names) s).2
    -- no later bucket is this one, so its outcome is not that of another
    have hne : ∀ p ∈ ps, Function.update outcomes b reply p.1 = outcomes p.1 := by
      intro p hp
      refine Function.update_of_ne ?_ _ _
      intro hsame
      exact hnodup.1 (List.mem_map.mpr ⟨p, hp, hsame⟩)
    refine ⟨Function.update outcomes b reply, next, ?_, ?_, ?_⟩
    · have hrest : (ps.map fun p => (p.1, p.2, Function.update outcomes b reply p.1))
          = ps.map fun p => (p.1, p.2, outcomes p.1) :=
        List.map_congr_left fun p hp => by rw [hne p hp]
      rw [fetchAll, Session.run_bind_ok (b.run_fetch server hkeys s), Session.run_bind_ok hrun,
        Session.run_pure, List.map_cons, hrest, Function.update_self]
    · intro p hp names' hnames'
      rcases List.mem_cons.mp hp with rfl | hrest
      · obtain rfl : names = names' := Except.ok.inj (hkeys.symm.trans hnames')
        exact ⟨s, by rw [Function.update_self]⟩
      · rw [hne p hrest]
        exact hasked p hrest names' hnames'
    · intro b' hb'
      rw [List.map_cons, List.mem_cons, not_or] at hb'
      rw [Function.update_of_ne hb'.1]
      exact hother b' hb'.2

/-- **The requests for buckets are sent in the order given**, whatever is answered to any of them. -/
theorem fetchAll_sends (server : Server σ) : ∀ {ps : List (Bucket × List Text × List Bytes)},
    (∀ p ∈ ps, p.2.1.mapM encodeKey = .ok p.2.2) → ∀ (s : σ) (sent : List Request),
    ∃ outcomes next,
      (fetchAll server.recorded (ps.map fun p => (p.1, p.2.1))).run (s, sent) =
        (.ok outcomes, next, (ps.map fun p => p.1.request p.2.2).reverse ++ sent)
  | [], _, s, sent => ⟨[], s, rfl⟩
  | (b, keys, names) :: ps, hnames, s, sent => by
    have hfetch := b.run_fetch server.recorded (hnames (b, keys, names) List.mem_cons_self) (s, sent)
    obtain ⟨outcomes, next, hrun⟩ := fetchAll_sends server
      (fun p hp => hnames p (List.mem_cons_of_mem _ hp))
      (server (b.request names) s).2 (b.request names :: sent)
    refine ⟨(b, keys, (server (b.request names) s).1) :: outcomes, next, ?_⟩
    rw [List.map_cons, fetchAll, Session.run_bind_ok hfetch]
    refine (Session.run_bind_ok hrun _).trans ?_
    rw [Session.run_pure, List.map_cons, List.reverse_cons, List.append_assoc]
    rfl

/-- What materializing makes of records when the requests for the buckets come out so. -/
def settleAll (budget : Int) (outcomes : Bucket → Except Failure Value) (infos : List KeyInfo)
    (records : List Record) : Except Failure (List Record) := do
  let found ← findings (answered outcomes infos)
  return records.map fun r => (r.settled budget (infos.filterMap unread?)).settled budget found

/-- Outcomes that a server gives for the buckets of some keys; a bucket without keys is not asked
for, and counts as one that is empty. -/
structure Given (server : Server σ) (infos : List KeyInfo)
    (outcomes : Bucket → Except Failure Value) : Prop where
  asked : ∀ b names, b.keysOf infos ≠ [] → (b.keysOf infos).mapM encodeKey = .ok names →
    ∃ s, outcomes b = (server (b.request names) s).1
  unasked : ∀ b, b.keysOf infos = [] → outcomes b = .ok (.list [])

theorem mem_buckets {infos : List KeyInfo} {p : Bucket × List Text} :
    p ∈ buckets infos ↔ p.2 = p.1.keysOf infos ∧ p.2 ≠ [] := by
  obtain ⟨b, keys⟩ := p
  simp only [buckets, List.mem_filter, List.mem_map, Prod.mk.injEq, Bool.not_eq_true',
    List.isEmpty_eq_false_iff]
  constructor
  · rintro ⟨⟨b', -, rfl, rfl⟩, hne⟩
    exact ⟨rfl, hne⟩
  · rintro ⟨rfl, hne⟩
    exact ⟨⟨b, Bucket.mem_all b, rfl, rfl⟩, hne⟩

/-- The buckets are all different. -/
theorem nodup_buckets (infos : List KeyInfo) : ((buckets infos).map Prod.fst).Nodup := by
  have hall : ((Bucket.all.map fun b => (b, b.keysOf infos)).map Prod.fst).Nodup := by
    rw [List.map_map]
    exact Bucket.nodup_all
  exact hall.sublist (List.filter_sublist.map _)

/-- The keys of every bucket have names if all keys have. -/
theorem exists_names {infos : List KeyInfo}
    (hnames : ∀ info ∈ infos, ∃ bs, encodeKey info.key = .ok bs) (b : Bucket) :
    ∃ names, (b.keysOf infos).mapM encodeKey = .ok names := by
  refine Outcome.exists_mapM_ok fun key hkey => ?_
  rw [keysOf_eq] at hkey
  obtain ⟨info, hinfo, rfl⟩ := List.mem_map.mp hkey
  exact hnames info (mem_inBucket.mp hinfo).1

/-- Outcomes of a server that answers with lists are lists. -/
theorem Given.listed {server : Server σ} (hlists : server.Lists) {infos : List KeyInfo}
    (hnames : ∀ info ∈ infos, ∃ bs, encodeKey info.key = .ok bs)
    {outcomes : Bucket → Except Failure Value} (h : Given server infos outcomes) :
    AreListed outcomes := by
  intro b replies hb
  by_cases hempty : b.keysOf infos = []
  · obtain rfl := Except.ok.inj (hb.symm.trans (h.unasked b hempty))
    exact ⟨[], rfl, by simp⟩
  · obtain ⟨names, hkeys⟩ := exists_names hnames b
    obtain ⟨t, ht⟩ := h.asked b names hempty hkeys
    exact hlists _ t replies (b.request_reads names) (ht.symm.trans hb)

/-- Once the buckets are fetched, all is settled. -/
theorem run_materialize_fetched (server : Server σ) (budget : Int) {infos : List KeyInfo}
    (records : List Record) {outcomes : Bucket → Except Failure Value} {s next : σ}
    (hfetch : (fetchAll server (buckets (wanted records infos))).run s =
      (.ok (answered outcomes (wanted records infos)), next)) :
    (materialize server (.int budget) infos records).run s =
      (settleAll budget outcomes (wanted records infos) records, next) := by
  have hsettle : ∀ (found : List (Text × Finding)) (rs : List Record),
      rs.mapM (Record.settle (.int budget) found) = .ok (rs.map (Record.settled budget found)) :=
    fun found rs => Outcome.mapM_ok fun r _ => Record.settle_int budget found r
  simp only [materialize]
  rw [hsettle, Session.run_bind_ok (Session.run_ofExcept _ s), Session.run_bind_ok hfetch,
    settleAll]
  cases findings (answered outcomes (wanted records infos)) with
  | error e => rfl
  | ok found =>
    rw [Session.run_bind_ok (Session.run_ofExcept _ next), hsettle, List.map_map]
    rfl

/-- The requests for the buckets of some keys that have names come out in one way or another. -/
theorem exists_fetched (server : Server σ) {infos : List KeyInfo}
    (hnames : ∀ info ∈ infos, ∃ bs, encodeKey info.key = .ok bs) (s : σ) :
    ∃ outcomes next, Given server infos outcomes ∧
      (fetchAll server (buckets infos)).run s = (.ok (answered outcomes infos), next) := by
  have hkeys : ∀ p ∈ buckets infos, ∃ names, p.2.mapM encodeKey = .ok names := by
    intro p hp
    rw [(mem_buckets.mp hp).1]
    exact exists_names hnames p.1
  obtain ⟨outcomes, next, hrun, hasked, hother⟩ :=
    run_fetchAll server (nodup_buckets infos) hkeys s
  refine ⟨outcomes, next, ⟨?_, ?_⟩, hrun⟩
  · intro b names hne hb
    exact hasked (b, b.keysOf infos) (mem_buckets.mpr ⟨rfl, hne⟩) names hb
  · intro b hempty
    refine hother b fun hmem => ?_
    obtain ⟨p, hp, rfl⟩ := List.mem_map.mp hmem
    obtain ⟨hp', hne⟩ := mem_buckets.mp hp
    exact hne (hp'.trans hempty)

/-- **Materializing is asking and then settling.** -/
theorem run_materialize (server : Server σ) (budget : Int) {infos : List KeyInfo}
    (records : List Record)
    (hnames : ∀ info ∈ wanted records infos, ∃ bs, encodeKey info.key = .ok bs) (s : σ) :
    ∃ outcomes next, Given server (wanted records infos) outcomes ∧
      (materialize server (.int budget) infos records).run s =
        (settleAll budget outcomes (wanted records infos) records, next) := by
  obtain ⟨outcomes, next, hgiven, hrun⟩ := exists_fetched server hnames s
  exact ⟨outcomes, next, hgiven, run_materialize_fetched server budget records hrun⟩

/-! ## 2. Settling in the order of the keys -/

variable {outcomes : Bucket → Except Failure Value} {infos : List KeyInfo}

theorem mapM_found {f : KeyInfo → Finding} {l : List KeyInfo}
    (hf : ∀ info ∈ l, finding outcomes infos info = .ok (f info)) :
    l.mapM (found outcomes infos) = .ok (l.map fun info => (info.key, f info)) := by
  refine Outcome.mapM_ok fun info hinfo => ?_
  rw [found, hf info hinfo]
  rfl

/-- Where something is found for every key, the findings are those of the keys in some order. -/
theorem findings_perm (hnodup : (infos.map (·.key)).Nodup) {f : KeyInfo → Finding}
    (hf : ∀ info ∈ infos, finding outcomes infos info = .ok (f info)) :
    ∃ found, findings (answered outcomes infos) = .ok found ∧
      (infos.filterMap unread? ++ found).Perm (infos.map fun info => (info.key, f info)) := by
  have hread : ∀ info ∈ Bucket.all.flatMap (inBucket infos),
      finding outcomes infos info = .ok (f info) := by
    intro info hinfo
    obtain ⟨b, -, hmem⟩ := List.mem_flatMap.mp hinfo
    exact hf info (mem_inBucket.mp hmem).1
  refine ⟨_, (findings_answered hnodup).trans (mapM_found hread), ?_⟩
  rw [filterMap_unread hf, ← List.map_append]
  exact (parted_perm infos).map _

/-- Where the buckets can be read, something is found for every key. -/
theorem exists_finding_of_findings (hnodup : (infos.map (·.key)).Nodup)
    {found : List (Text × Finding)} (h : findings (answered outcomes infos) = .ok found)
    {info : KeyInfo} (hinfo : info ∈ infos) : ∃ f, finding outcomes infos info = .ok f := by
  cases hbucket : info.bucket? with
  | none =>
    rw [KeyInfo.bucket?] at hbucket
    rw [finding]
    cases hfate : Fate.ofType info.type with
    | expired => exact ⟨_, rfl⟩
    | notImplemented => exact ⟨_, rfl⟩
    | read b =>
      rw [hfate] at hbucket
      cases hbucket
  | some b =>
    have hread : info ∈ Bucket.all.flatMap (inBucket infos) :=
      List.mem_flatMap.mpr ⟨b, Bucket.mem_all b, mem_inBucket.mpr ⟨hinfo, hbucket⟩⟩
    obtain ⟨y, hy⟩ := Outcome.exists_of_mapM ((findings_answered hnodup).symm.trans h) hread
    obtain ⟨f, hf, -⟩ := Outcome.exists_of_bind hy
    exact ⟨f, hf⟩

/-- **The order of the buckets cannot be seen**: if something is found for every key, each record
gets what was found for its own. -/
theorem settleAll_of_finding (hnodup : (infos.map (·.key)).Nodup) {f : KeyInfo → Finding}
    (hf : ∀ info ∈ infos, finding outcomes infos info = .ok (f info)) (budget : Int)
    (records : List Record) :
    settleAll budget outcomes infos records =
      .ok (records.map (Record.settled budget (infos.map fun info => (info.key, f info)))) := by
  obtain ⟨found, hfound, hperm⟩ := findings_perm hnodup hf
  rw [settleAll, hfound]
  refine congrArg Except.ok (List.map_congr_left fun r _ => ?_)
  rw [← Record.settled_append]
  refine Record.settled_perm budget hperm ?_ r
  rw [(hperm.map Prod.fst).nodup_iff, List.map_map]
  exact hnodup

/-- Settling is reading key after key, also where that fails. -/
theorem settleAll_eq (hnodup : (infos.map (·.key)).Nodup) (hlists : AreLists outcomes)
    (budget : Int) (records : List Record) :
    settleAll budget outcomes infos records = do
      let found ← infos.mapM (found outcomes infos)
      return records.map (Record.settled budget found) := by
  have hfailure :
      Outcome.failure? ((Bucket.all.flatMap (inBucket infos)).mapM (found outcomes infos))
        = Outcome.failure? (infos.mapM (found outcomes infos)) := by
    rw [failure_parted hlists, Outcome.failure_mapM]
    simp only [failure?_found]
  -- only documents fail, and they are read last: either way the first failure is that of the first
  -- document that fails
  cases hmap : infos.mapM (found outcomes infos) with
  | error e =>
    rw [hmap] at hfailure
    rw [settleAll, findings_answered hnodup, Outcome.failure?_eq_some.mp hfailure]
    rfl
  | ok fs =>
    have hnone : ∀ info ∈ infos, ∃ f, finding outcomes infos info = .ok f := by
      have hsome := Outcome.failure_mapM (found outcomes infos) infos
      rw [hmap] at hsome
      intro info hinfo
      rw [← Outcome.failure?_eq_none, ← failure?_found]
      exact List.findSome?_eq_none_iff.mp hsome.symm info hinfo
    have : Nonempty Finding := ⟨Bucket.plain .expired⟩
    choose! f hf using hnone
    obtain rfl := Except.ok.inj (hmap.symm.trans (mapM_found hf))
    exact settleAll_of_finding hnodup hf budget records

/-- Settling returns, and leaves every record in its place, if all answers have a text. -/
theorem settleAll_returns (hnodup : (infos.map (·.key)).Nodup) (hlisted : AreListed outcomes)
    (budget : Int) (records : List Record) :
    ∃ shown, settleAll budget outcomes infos records = .ok shown ∧
      shown.map (·.key) = records.map (·.key) := by
  choose f hf using exists_finding_of_listed hlisted infos
  refine ⟨_, settleAll_of_finding hnodup (fun info _ => hf info) budget records, ?_⟩
  rw [List.map_map]
  exact List.map_congr_left fun r _ => Record.key_settled budget _ r

/-! ## 3. What the records show -/

/-- A key that has a record is wanted, and only such keys are. -/
theorem mem_wanted {records : List Record} {infos : List KeyInfo} {info : KeyInfo} :
    info ∈ wanted records infos ↔ info ∈ infos ∧ ∃ r ∈ records, r.key = info.key := by
  rw [wanted, List.mem_filter, List.any_eq_true]
  simp only [decide_eq_true_eq]

/-- What materializing makes of a record: what is found for its key goes into it, the payload within
the budget.  A record of a key of which nothing is known stays as it is. -/
structure Settles (budget : Int) (outcomes : Bucket → Except Failure Value) (infos : List KeyInfo)
    (records : List Record) (r r' : Record) : Prop where
  shown : ∀ info ∈ infos, info.key = r.key →
    ∃ f, Shows outcomes (wanted records infos) info f ∧
      r' = { r with
        type := if f.isDocument then "json" else r.type
        count := f.preview.count
        payload := Preview.clip budget f.preview.payload }
  kept : (∀ info ∈ infos, info.key ≠ r.key) → r' = r

/-- **What materializing shows.**  For keys that are all different, records for any of them and for
others, and any outcomes of the requests for the buckets: every record comes back, in its place,
with what is found for its key. -/
theorem materialize_shows {server : Server σ} {infos : List KeyInfo} {records : List Record}
    {replies : Bucket → Except Failure Value} (budget : Int) (hnodup : (infos.map (·.key)).Nodup)
    (hnames : ∀ info ∈ infos, ∃ bs, encodeKey info.key = .ok bs)
    (hlisted : ∀ b v, replies b = .ok v → v.Listed)
    (hserver : ∀ b names s, b.keysOf (wanted records infos) ≠ [] →
      (b.keysOf (wanted records infos)).mapM encodeKey = .ok names →
      (server (b.request names) s).1 = replies b) (s : σ) :
    ∃ shown next, (materialize server (.int budget) infos records).run s = (.ok shown, next) ∧
      List.Forall₂ (Settles budget replies infos records) records shown := by
  have hwanted : ((wanted records infos).map (·.key)).Nodup :=
    hnodup.sublist (List.filter_sublist.map _)
  have hnames' : ∀ info ∈ wanted records infos, ∃ bs, encodeKey info.key = .ok bs :=
    fun info hinfo => hnames info (mem_wanted.mp hinfo).1
  obtain ⟨outcomes, next, hgiven, hrun⟩ := run_materialize server budget records hnames' s
  -- what is found depends on the outcomes for buckets with keys, and those are the given ones
  choose f hf using exists_finding_of_listed hlisted (wanted records infos)
  have hfinding : ∀ info ∈ wanted records infos,
      finding outcomes (wanted records infos) info = .ok (f info) := by
    intro info hinfo
    rw [← hf info]
    refine finding_congr fun b hb => ?_
    have hne := keysOf_ne_nil hinfo hb
    obtain ⟨names, hkeys⟩ := exists_names hnames' b
    obtain ⟨t, ht⟩ := hgiven.asked b names hne hkeys
    rw [ht, hserver b names t hne hkeys]
  have hkeys : ((wanted records infos).map fun info => (info.key, f info)).map Prod.fst
      = (wanted records infos).map (·.key) := by
    rw [List.map_map]
    rfl
  rw [settleAll_of_finding hwanted hfinding] at hrun
  refine ⟨_, next, hrun,
    List.forall₂_map_right_iff.mpr (List.forall₂_same.mpr fun r hr => ⟨?_, ?_⟩)⟩
  · intro info hinfo hkey
    have hmem : info ∈ wanted records infos := mem_wanted.mpr ⟨hinfo, r, hr, hkey.symm⟩
    refine ⟨f info, shows_of_finding (AreListed.lists hlisted) (hf info),
      Record.settled_of_mem budget ?_ ?_⟩
    · rw [hkeys]
      exact hwanted
    · rw [← hkey]
      exact List.mem_map_of_mem hmem
  · intro hnone
    refine Record.settled_of_not_mem budget ?_
    rw [hkeys]
    intro hmem
    obtain ⟨info, hinfo, hkey⟩ := List.mem_map.mp hmem
    exact hnone info (mem_wanted.mp hinfo).1 hkey

/-- A client that gives these outcomes for the requests for the buckets. -/
def replying (replies : Bucket → Except Failure Value) : Server Unit := fun r s =>
  (match r with
    | .strings _ => replies .strings
    | .batch ((.hashFields, _) :: _) => replies .hashes
    | .batch ((.setMembers, _) :: _) => replies .sets
    | .batch ((.sortedMembers, _) :: _) => replies .sortedSets
    | .batch ((.listElements, _) :: _) => replies .lists
    | .batch _ => replies .documents
    | _ => .ok .null, s)

/-- Any outcomes can come out. -/
theorem replying_request (replies : Bucket → Except Failure Value) (b : Bucket) {keys : List Text}
    {names : List Bytes} (hkeys : keys ≠ []) (hnames : keys.mapM encodeKey = .ok names) (s : Unit) :
    (replying replies (b.request names) s).1 = replies b := by
  cases Outcome.forall₂_of_mapM hnames with
  | nil => exact absurd rfl hkeys
  | cons _ _ => cases b <;> rfl

/-- Outcomes of which one is a failure. -/
def hashesFail : Bucket → Except Failure Value
  | .hashes => .error .timedOut
  | _ => .ok (.list [.bytes [118]])

/-- A string without a record, and a hash whose bucket fails. -/
theorem materialize_hashesFail :
    ∃ shown next,
      (materialize (replying hashesFail) (.int 10) [⟨"a", "string", -1⟩, ⟨"b", "hash", 7⟩]
        [⟨"Here", "b", "hash", 7, 0, []⟩, ⟨"Here", "z", "set", 1, 0, []⟩]).run () =
          (.ok shown, next) ∧
      List.Forall₂ (Settles 10 hashesFail [⟨"a", "string", -1⟩, ⟨"b", "hash", 7⟩]
          [⟨"Here", "b", "hash", 7, 0, []⟩, ⟨"Here", "z", "set", 1, 0, []⟩])
        [⟨"Here", "b", "hash", 7, 0, []⟩, ⟨"Here", "z", "set", 1, 0, []⟩] shown := by
  refine materialize_shows 10 (by decide) ?_ ?_ ?_ ()
  · intro info hinfo
    simp only [List.mem_cons, List.not_mem_nil, or_false] at hinfo
    rcases hinfo with rfl | rfl
    · exact ⟨_, rfl⟩
    · exact ⟨_, rfl⟩
  · intro b v hb
    refine ⟨[.bytes [118]], ?_, ?_⟩
    · cases b <;> cases hb <;> rfl
    · intro w hw
      obtain rfl := List.mem_singleton.mp hw
      exact ⟨_, rfl⟩
  · exact fun b names s hkeys hnames => replying_request hashesFail b hkeys hnames s

end Payload

end Keyscope
