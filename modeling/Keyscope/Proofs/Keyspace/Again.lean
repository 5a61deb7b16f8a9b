/-
# Filling in records again

Records that have been filled in are filled in again, from a server that gives the same answer to the
same request (`Server.Fixed`).

What is asked, and what is found, depends on what is known of the keys and on which keys have a record,
and not on what the records show (`run_materialize_fixed`).  So a second run makes the writes of the
first one again.  A finding carries the whole text of a value, and not the one that was cut for the
record, so a write that is made again changes nothing (`Record.settled_again`).

A run may also fail, with some of its writes made.  What it leaves is then what its tasks have written up
to their ends (`Runs`), and that too is there to stay: no write of a later run changes it, at any time
(`materialize_idempotent`).
-/
import Keyscope.Proofs.Keyspace.Schedule

namespace Keyscope

/-- **A server that gives the same answer to the same request**, whatever was asked before. -/
def Server.Fixed {σ : Type} (server : Server σ) (answer : Request → Except Failure Value) : Prop :=
  ∀ r s, (server r s).1 = answer r

/-! ## 1. Writing again -/

namespace Record

/-- A record that is filled in twice with one finding is filled in. -/
theorem filled_filled (budget : Int) (r : Record) (f : Finding) :
    (r.filled budget f).filled budget f = r.filled budget f := by
  simp only [filled]
  cases f.isDocument <;> rfl

theorem settled_singleton (budget : Int) (f : Text × Finding) (r : Record) :
    r.settled budget [f] = if f.1 = r.key then r.filled budget f.2 else r := rfl

/-- **Writing again changes nothing**, whichever of the writes are made again, in whatever order. -/
theorem settled_again (budget : Int) {written : List (Text × Finding)}
    (hnodup : (written.map Prod.fst).Nodup) (r : Record) :
    ∀ {again : List (Text × Finding)}, (∀ f ∈ again, f ∈ written) →
      (r.settled budget written).settled budget again = r.settled budget written
  | [], _ => rfl
  | f :: again, h => by
    rw [List.forall_mem_cons] at h
    have hfirst : (r.settled budget written).settled budget [f] = r.settled budget written := by
      rw [settled_singleton, key_settled]
      split
      · rename_i hkey
        have hmem : (r.key, f.2) ∈ written := by
          rw [← hkey]
          exact h.1
        rw [settled_of_mem budget hnodup hmem, filled_filled]
      · rfl
    rw [← List.singleton_append, settled_append, hfirst]
    exact settled_again budget hnodup r h.2

end Record

/-! ## 2. The requests of a run -/

namespace Bucket

/-- The request for some keys, if they all have names. -/
def request? (b : Bucket) (keys : List Text) : Option Request :=
  (keys.mapM encodeKey).toOption.map b.request

/-- What comes of the request for some keys. -/
def outcomeBy (answer : Request → Except Failure Value) (b : Bucket) (keys : List Text) :
    Except Failure Value :=
  keys.mapM encodeKey >>= fun names => answer (b.request names)

end Bucket

namespace Payload

variable {σ : Type} {server : Server σ} {answer : Request → Except Failure Value}

/-- **The buckets are asked for one after the other**, and what comes of each request is told by the
request. -/
theorem run_fetchAll_fixed (hfixed : server.Fixed answer) : ∀ (ps : List (Bucket × List Text)) (s : σ)
    (sent : List Request), ∃ next, (fetchAll server.recorded ps).run (s, sent) =
      (.ok (ps.map fun p => (p.1, p.2, p.1.outcomeBy answer p.2)), next,
        (ps.filterMap fun p => p.1.request? p.2).reverse ++ sent)
  | [], s, _ => ⟨s, rfl⟩
  | (b, keys) :: ps, s, sent => by
    cases hnames : keys.mapM encodeKey with
    | error e =>
      have hfetch : (b.fetch server.recorded keys).run (s, sent) =
          (.ok (b.outcomeBy answer keys), s, sent) := by
        rw [Bucket.fetch, Bucket.outcomeBy, hnames]
        rfl
      obtain ⟨next, hrun⟩ := run_fetchAll_fixed hfixed ps s sent
      refine ⟨next, ?_⟩
      rw [fetchAll, Session.run_bind_ok hfetch, Session.run_bind_ok hrun, Session.run_pure,
        List.filterMap_cons_none (by rw [Bucket.request?, hnames]; rfl)]
      rfl
    | ok names =>
      have hfetch : (b.fetch server.recorded keys).run (s, sent) =
          (.ok (b.outcomeBy answer keys), (server (b.request names) s).2,
            b.request names :: sent) := by
        rw [b.run_fetch server.recorded hnames, Bucket.outcomeBy, hnames, Outcome.ok_bind,
          ← hfixed _ s]
        rfl
      obtain ⟨next, hrun⟩ := run_fetchAll_fixed hfixed ps (server (b.request names) s).2
        (b.request names :: sent)
      refine ⟨next, ?_⟩
      rw [fetchAll, Session.run_bind_ok hfetch, Session.run_bind_ok hrun, Session.run_pure,
        List.filterMap_cons_some (by rw [Bucket.request?, hnames]; rfl), List.reverse_cons,
        List.append_assoc]
      rfl

/-- What comes of the requests for the buckets of some keys. -/
def outcomesBy (answer : Request → Except Failure Value) (infos : List KeyInfo) (b : Bucket) :
    Except Failure Value :=
  b.outcomeBy answer (b.keysOf infos)

/-- The tasks of a run on some records. -/
def tasksBy (answer : Request → Except Failure Value) (infos : List KeyInfo)
    (records : List Record) : List Task :=
  answered (outcomesBy answer (wanted records infos)) (wanted records infos)

/-- The requests of a run on some records: one per bucket that has keys, if these have names. -/
def requestsFor (infos : List KeyInfo) (records : List Record) : List Request :=
  (buckets (wanted records infos)).filterMap fun p => p.1.request? p.2

/-- **What a run on a fixed server asks**, and what it comes to, whatever the records show. -/
theorem run_materialize_fixed (hfixed : server.Fixed answer) (budget : Int) (infos : List KeyInfo)
    (records : List Record) (s : σ) (sent : List Request) : ∃ next,
    (materialize server.recorded (.int budget) infos records).run (s, sent) =
      (settleAll budget (outcomesBy answer (wanted records infos)) (wanted records infos) records,
        next, (requestsFor infos records).reverse ++ sent) := by
  obtain ⟨next, hrun⟩ := run_fetchAll_fixed hfixed (buckets (wanted records infos)) s sent
  have htasks : (buckets (wanted records infos)).map (fun p => (p.1, p.2, p.1.outcomeBy answer p.2))
      = answered (outcomesBy answer (wanted records infos)) (wanted records infos) := by
    refine List.map_congr_left fun p hp => ?_
    rw [outcomesBy, ← (mem_buckets.mp hp).1]
  rw [htasks] at hrun
  exact ⟨next, run_materialize_fetched server.recorded budget records hrun⟩

/-! ## 3. The writes of a run -/

/-- All writes of a run: first what is written of the keys that are not read, and then what the tasks
write. -/
def writesBy (answer : Request → Except Failure Value) (infos : List KeyInfo)
    (records : List Record) : List (Text × Finding) :=
  (wanted records infos).filterMap unread? ++ (tasksBy answer infos records).flatMap Task.writes

theorem keys_unread : ∀ infos : List KeyInfo,
    (infos.filterMap unread?).map Prod.fst =
      (infos.filter fun info => info.bucket? = none).map (·.key)
  | [] => rfl
  | info :: infos => by
    rw [List.filterMap_cons, List.filter_cons, unread?, KeyInfo.bucket?]
    cases Fate.ofType info.type with
    | read b => exact keys_unread infos
    | expired => exact congrArg (info.key :: ·) (keys_unread infos)
    | notImplemented => exact congrArg (info.key :: ·) (keys_unread infos)

/-- **No record is written twice**: the keys that are not read are in no bucket. -/
theorem nodup_writesBy (answer : Request → Except Failure Value) {infos : List KeyInfo}
    (hnodup : (infos.map (·.key)).Nodup) (records : List Record) :
    ((writesBy answer infos records).map Prod.fst).Nodup := by
  have hwanted : ((wanted records infos).map (·.key)).Nodup :=
    hnodup.sublist (List.filter_sublist.map _)
  refine (((parted_perm _).map _).nodup_iff.mpr hwanted).sublist ?_
  rw [writesBy, parted, List.map_append, List.map_append, keys_unread, ← flatMap_keys]
  exact (keys_writes_sublist _).append_left _

/-- A run that is under way, from some records on: its tasks have made some of their writes. -/
def Underway (answer : Request → Except Failure Value) (budget : Int) (infos : List KeyInfo)
    (records : List Record) (p : Progress) : Prop :=
  Relation.ReflTransGen (Progress.Step budget)
    ⟨records.map (Record.settled budget ((wanted records infos).filterMap unread?)),
      (tasksBy answer infos records).map Task.writes⟩ p

/-- **Some number of runs**, one after the other on the same records, and the records that they leave
when their tasks have ended.  A run need not return for that: a task that fails has ended too. -/
inductive Runs (answer : Request → Except Failure Value) (budget : Int) (infos : List KeyInfo)
    (records : List Record) : Nat → List Record → Prop
  | none : Runs answer budget infos records 0 records
  | next {n : Nat} {before : List Record} {p : Progress} (h : Runs answer budget infos records n before)
      (hrun : Underway answer budget infos before p) (hdone : p.Done) :
      Runs answer budget infos records (n + 1) p.records

section Run

variable {budget : Int} {infos : List KeyInfo} {records rs : List Record} {p q : Progress}

/-- What records come to with all writes of a run made. -/
def leftBy (answer : Request → Except Failure Value) (budget : Int) (infos : List KeyInfo)
    (records : List Record) : List Record :=
  records.map (Record.settled budget (writesBy answer infos records))

theorem keys_leftBy (answer : Request → Except Failure Value) (budget : Int) (infos : List KeyInfo)
    (records : List Record) : (leftBy answer budget infos records).map (·.key) = records.map (·.key) := by
  rw [leftBy, List.map_map]
  exact List.map_congr_left fun r _ => Record.key_settled budget _ r

/-- Which keys are wanted depends on the keys of the records alone. -/
theorem wanted_congr (h : rs.map (·.key) = records.map (·.key)) (infos : List KeyInfo) :
    wanted rs infos = wanted records infos := by
  have hany : ∀ (l : List Record) (key : Text), l.any (·.key = key) = (l.map (·.key)).any (· = key) :=
    fun l key => by rw [List.any_map]; rfl
  simp only [wanted, hany, h]

theorem map_settled_leftBy (hnodup : (infos.map (·.key)).Nodup) {again : List (Text × Finding)}
    (h : ∀ f ∈ again, f ∈ writesBy answer infos records) :
    (leftBy answer budget infos records).map (Record.settled budget again) =
      leftBy answer budget infos records := by
  rw [leftBy, List.map_map]
  exact List.map_congr_left fun r _ =>
    Record.settled_again budget (nodup_writesBy answer hnodup records) r h

/-- **A run leaves all its writes**, in whatever order they were made. -/
theorem records_of_done (hnodup : (infos.map (·.key)).Nodup)
    (hrun : Underway answer budget infos records p) (hdone : p.Done) :
    p.records = leftBy answer budget infos records := by
  have hwrites := nodup_writesBy answer hnodup records
  rw [writesBy, List.map_append] at hwrites
  obtain ⟨heventually, -⟩ := Progress.eventually_of_steps hrun
    (by rw [← List.flatMap_def]; exact (List.nodup_append.mp hwrites).2.1)
  rw [← Progress.eventually_of_done hdone, heventually, Progress.eventually, List.map_map, leftBy,
    writesBy, List.flatMap_def]
  exact List.map_congr_left fun r _ => (Record.settled_append budget _ _ r).symm

/-- **A run on what a run has left changes nothing**, at any time. -/
theorem records_of_left (hnodup : (infos.map (·.key)).Nodup)
    (hrun : Underway answer budget infos (leftBy answer budget infos records) p) :
    p.records = leftBy answer budget infos records := by
  have hwanted := wanted_congr (keys_leftBy answer budget infos records) infos
  rw [Underway, tasksBy, hwanted] at hrun
  -- whatever is still to be written has been written before
  have hinv : p.records = leftBy answer budget infos records ∧
      ∀ f ∈ p.left.flatten, f ∈ writesBy answer infos records := by
    induction hrun with
    | refl =>
      refine ⟨map_settled_leftBy hnodup fun f hf => List.mem_append_left _ hf, fun f hf => ?_⟩
      exact List.mem_append_right _ (by rwa [List.flatMap_def])
    | tail _ hstep ih =>
      obtain ⟨hrecords, hleft⟩ := ih
      obtain ⟨f, hperm, hnext⟩ := hstep.left_perm
      have hwrites : ∀ g ∈ f :: _, g ∈ writesBy answer infos records :=
        fun g hg => hleft g (hperm.mem_iff.mpr hg)
      rw [List.forall_mem_cons] at hwrites
      refine ⟨?_, hwrites.2⟩
      rw [hnext, hrecords]
      exact map_settled_leftBy hnodup (by simpa using hwrites.1)
  exact hinv.1

/-- Some number of runs leaves what one run leaves. -/
theorem Runs.records_eq (hnodup : (infos.map (·.key)).Nodup) :
    ∀ {n : Nat} {rs : List Record}, Runs answer budget infos records n rs →
      rs = if n = 0 then records else leftBy answer budget infos records
  | _, _, .none => rfl
  | n + 1, _, .next h hrun hdone => by
    rw [if_neg (Nat.succ_ne_zero n)]
    obtain rfl := h.records_eq hnodup
    by_cases hn : n = 0
    · rw [if_pos hn] at hrun
      exact records_of_done hnodup hrun hdone
    · rw [if_neg hn] at hrun
      exact records_of_left hnodup hrun

/-- Runs can follow each other any number of times. -/
theorem exists_runs (answer : Request → Except Failure Value) (budget : Int) (infos : List KeyInfo)
    (records : List Record) : ∀ n, ∃ rs, Runs answer budget infos records n rs
  | 0 => ⟨records, .none⟩
  | n + 1 => by
    obtain ⟨before, h⟩ := exists_runs answer budget infos records n
    obtain ⟨p, hrun, hdone⟩ := Progress.exists_done budget
      ⟨before.map (Record.settled budget ((wanted before infos).filterMap unread?)),
        (tasksBy answer infos before).map Task.writes⟩
    exact ⟨p.records, h.next hrun hdone⟩

/-- **What a run comes to** is the records with all its writes, or a failure that does not depend on the
records. -/
theorem settleAll_cases (answer : Request → Except Failure Value) (budget : Int) (infos : List KeyInfo)
    (records : List Record) :
    (∃ e, ∀ rs, settleAll budget (outcomesBy answer (wanted records infos)) (wanted records infos) rs =
      .error e) ∨
    ∀ rs, rs.map (·.key) = records.map (·.key) →
      settleAll budget (outcomesBy answer (wanted records infos)) (wanted records infos) rs =
        .ok (leftBy answer budget infos rs) := by
  rcases findings_cases (answered (outcomesBy answer (wanted records infos)) (wanted records infos)) with
    ⟨hfound, -⟩ | ⟨e, hfailed, -⟩
  · refine .inr fun rs hkeys => ?_
    rw [settleAll, hfound, leftBy, writesBy, tasksBy, wanted_congr hkeys]
    exact congrArg Except.ok (List.map_congr_left fun r _ => (Record.settled_append budget _ _ r).symm)
  · refine .inl ⟨e, fun rs => ?_⟩
    rw [settleAll, hfailed]
    rfl

end Run

/-- **Filling in records is idempotent.**  For keys that are all different, any records, any budget and
a server that gives the same answer to the same request, whatever that answer is.  After any number of
runs, one after the other on the same records, the next run sends the same requests as the first one and
comes out as the first one did.  From the first run on the records are those that it has left, and if it
returned, those that it returned; none of the writes of a later run changes them, at any time. -/
theorem materialize_idempotent {infos : List KeyInfo} (hfixed : server.Fixed answer)
    (hnodup : (infos.map (·.key)).Nodup) (records : List Record) (budget : Int) :
    ∃ (requests : List Request) (outcome : Except Failure (List Record)) (left : List Record),
      (∀ shown, outcome = .ok shown → shown = left) ∧
      ∀ n, (∃ rs, Runs answer budget infos records n rs) ∧
        ∀ rs, Runs answer budget infos records n rs →
          (∀ s sent, ∃ next, (materialize server.recorded (.int budget) infos rs).run (s, sent) =
            (outcome, next, requests.reverse ++ sent)) ∧
          (1 ≤ n → rs = left ∧ ∀ p, Underway answer budget infos rs p → p.records = left) := by
  have hkeys : ∀ {n : Nat} {rs : List Record}, Runs answer budget infos records n rs →
      rs.map (·.key) = records.map (·.key) := by
    intro n rs h
    rw [h.records_eq hnodup]
    split
    · rfl
    · exact keys_leftBy answer budget infos records
  have hleft : leftBy answer budget infos (leftBy answer budget infos records) =
      leftBy answer budget infos records := by
    conv_lhs => rw [leftBy, writesBy, tasksBy, wanted_congr (keys_leftBy answer budget infos records)]
    exact map_settled_leftBy hnodup fun f hf => hf
  have hlater : ∀ {n : Nat} {rs : List Record}, Runs answer budget infos records n rs → 1 ≤ n →
      rs = leftBy answer budget infos records ∧ ∀ p, Underway answer budget infos rs p →
        p.records = leftBy answer budget infos records := by
    intro n rs h hn
    obtain rfl : rs = leftBy answer budget infos records := by
      rw [h.records_eq hnodup, if_neg (by omega)]
    exact ⟨rfl, fun p hrun => records_of_left hnodup hrun⟩
  have hrun : ∀ {rs : List Record}, rs.map (·.key) = records.map (·.key) → ∀ s sent, ∃ next,
      (materialize server.recorded (.int budget) infos rs).run (s, sent) =
        (settleAll budget (outcomesBy answer (wanted records infos)) (wanted records infos) rs, next,
          (requestsFor infos records).reverse ++ sent) := by
    intro rs h s sent
    have hnext := run_materialize_fixed hfixed budget infos rs s sent
    rwa [requestsFor, wanted_congr h] at hnext
  rcases settleAll_cases answer budget infos records with ⟨e, hfailed⟩ | hreturned
  · refine ⟨requestsFor infos records, .error e, leftBy answer budget infos records, nofun, fun n =>
      ⟨exists_runs answer budget infos records n, fun rs h => ⟨fun s sent => ?_, hlater h⟩⟩⟩
    rw [← hfailed rs]
    exact hrun (hkeys h) s sent
  · refine ⟨requestsFor infos records, .ok (leftBy answer budget infos records),
      leftBy answer budget infos records, fun shown h => (Except.ok.inj h).symm, fun n =>
      ⟨exists_runs answer budget infos records n, fun rs h => ⟨fun s sent => ?_, hlater h⟩⟩⟩
    have hsame : leftBy answer budget infos rs = leftBy answer budget infos records := by
      rw [h.records_eq hnodup]
      split
      · rfl
      · exact hleft
    rw [← hsame, ← hreturned rs (hkeys h)]
    exact hrun (hkeys h) s sent

/-- A key of each kind: a string, a document, a hash, and one that is never read. -/
def fourInfos : List KeyInfo :=
  [⟨"a", "string", -1⟩, ⟨"b", "ReJSON-RL", -1⟩, ⟨"c", "hash", 7⟩, ⟨"d", "stream", -1⟩]

/-- The first run cuts the payloads, finds a document and fails to read a hash, and the third one leaves
it at that. -/
theorem materialize_thrice :
    ∃ (requests : List Request) (left : List Record), requests.length = 3 ∧
      left.map (·.type) = ["string", "json", "hash", "stream"] ∧
      left.map (·.payload.length) = [23, 23, 24, 24] ∧
      ∀ rs, Runs (fun r => (replying hashesFail r ()).1) 0 fourInfos
          (fourInfos.map (Record.ofInfo "Here")) 2 rs →
        rs = left ∧ ∃ next, (materialize (replying hashesFail).recorded (.int 0) fourInfos rs).run
          ((), []) = (.ok left, next, requests.reverse ++ []) := by
  have hfixed : (replying hashesFail).Fixed fun r => (replying hashesFail r ()).1 := fun r () => rfl
  have hfirst : ∃ shown log,
      (materialize (replying hashesFail).recorded (.int 0) fourInfos
        (fourInfos.map (Record.ofInfo "Here"))).run ((), []) = (.ok shown, (), log) ∧
      log.length = 3 ∧ shown.map (·.type) = ["string", "json", "hash", "stream"] ∧
      shown.map (·.payload.length) = [23, 23, 24, 24] :=
    ⟨_, _, rfl, rfl, by decide +kernel, by decide +kernel⟩
  obtain ⟨shown, log, hrun, hlog, htypes, hlengths⟩ := hfirst
  obtain ⟨requests, outcome, left, hleft, hruns⟩ := @materialize_idempotent _ _ _ fourInfos hfixed
    (by decide) (fourInfos.map (Record.ofInfo "Here")) 0
  obtain ⟨next, hsame⟩ := ((hruns 0).2 _ .none).1 () []
  rw [hrun, Prod.mk.injEq, Prod.mk.injEq] at hsame
  obtain ⟨rfl, -, rfl⟩ := hsame
  obtain rfl := hleft shown rfl
  refine ⟨requests, shown, by simpa using hlog, htypes, hlengths, fun rs h => ?_⟩
  obtain ⟨hagain, hleft⟩ := (hruns 2).2 rs h
  exact ⟨(hleft (by decide)).1, hagain () []⟩

end Payload

end Keyscope
