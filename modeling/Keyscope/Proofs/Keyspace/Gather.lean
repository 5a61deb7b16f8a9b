/-
# Buckets at the same time

The requests for the buckets are sent at the same time, over one connection, so they may come in any
order (`Gathering.Step`).  Once all are answered and written, the snapshot is there.  But a bucket whose
answers cannot be read ends the snapshot at once: the connection is ended then, and what is still
waiting may be sent after that (`Snapshot.Course.raised`).

With a server that answers reads with lists, no bucket does so (`Payload.Task.Readable.not_fails`).  Then
nothing is sent once a connection is ended, in whatever order the buckets come, and one order is that of
the table (`Snapshot.course_take`).  With other servers something may be (`Snapshot.course_late`).
-/
import Keyscope.Proofs.Keyspace.Schedule
import Keyscope.Proofs.Keyspace.Snapshot

namespace Keyscope

variable {σ : Type}

namespace Payload

/-! ## 1. Buckets in some order -/

/-- A task fails with the first answer that cannot be read, or that cannot be written. -/
def Task.Fails (budget : Value) (records : List Record) (t : Task) (e : Failure) : Prop :=
  (t.results.mapM fun result => do
    let f ← result
    records.mapM (Record.settle budget [f])) = .error e

/-- Buckets that are under way: those that are still to be asked for, and the tasks of those that were
answered. -/
structure Gathering (σ : Type) where
  state : σ
  waiting : List (Bucket × List Text)
  tasks : List Task

namespace Gathering

/-- **One step**: one of the buckets is asked for, and answered. -/
inductive Step (server : Server σ) : Gathering σ → Gathering σ → Prop
  | read {s next : σ} {before after : List (Bucket × List Text)} {b : Bucket} {keys : List Text}
    {tasks : List Task} {outcome : Except Failure Value}
    (hfetch : (b.fetch server keys).run s = (.ok outcome, next)) :
    Step server ⟨s, before ++ (b, keys) :: after, tasks⟩
      ⟨next, before ++ after, tasks ++ [(b, keys, outcome)]⟩

theorem Step.first {server : Server σ} {s next : σ} {after : List (Bucket × List Text)} {b : Bucket}
    {keys : List Text} {tasks : List Task} {outcome : Except Failure Value}
    (hfetch : (b.fetch server keys).run s = (.ok outcome, next)) :
    Step server ⟨s, (b, keys) :: after, tasks⟩ ⟨next, after, tasks ++ [(b, keys, outcome)]⟩ :=
  @Step.read σ server s next [] after b keys tasks outcome hfetch

/-- Any number of steps. -/
abbrev Reads (server : Server σ) : Gathering σ → Gathering σ → Prop :=
  Relation.ReflTransGen (Step server)

end Gathering

/-- Asking for a bucket always has an outcome. -/
theorem exists_fetch (server : Server σ) (b : Bucket) (keys : List Text) (s : σ) :
    ∃ outcome next, (b.fetch server keys).run s = (.ok outcome, next) := by
  rw [Bucket.fetch]
  cases keys.mapM encodeKey with
  | error e => exact ⟨_, _, rfl⟩
  | ok names => exact ⟨_, _, rfl⟩

/-- **The order of a list is one order.** -/
theorem exists_reads (server : Server σ) : ∀ (ps : List (Bucket × List Text)) (s : σ)
    (before : List Task), ∃ tasks next, (fetchAll server ps).run s = (.ok tasks, next) ∧
      Gathering.Reads server ⟨s, ps, before⟩ ⟨next, [], before ++ tasks⟩
  | [], s, before => ⟨[], s, rfl, by rw [List.append_nil]⟩
  | (b, keys) :: ps, s, before => by
    obtain ⟨outcome, mid, hfetch⟩ := exists_fetch server b keys s
    obtain ⟨tasks, next, hrest, hreads⟩ := exists_reads server ps mid (before ++ [(b, keys, outcome)])
    refine ⟨(b, keys, outcome) :: tasks, next, ?_, ?_⟩
    · rw [fetchAll, Session.run_bind_ok hfetch]
      exact Session.run_bind_ok hrest _
    · rw [List.append_assoc] at hreads
      exact .head (.first hfetch) hreads

/-! ## 2. Tasks that do not fail -/

/-- The answers for a task are as those of a server that answers with lists. -/
def Task.Readable (t : Task) : Prop := ∀ replies, t.2.2 = .ok replies → replies.Listed

/-- With a budget that is a number, what can be read can be written. -/
theorem Task.Readable.not_fails {t : Task} (h : t.Readable) (budget : Int) (records : List Record)
    (e : Failure) : ¬ t.Fails (.int budget) records e := by
  have hall : ∀ result ∈ t.results, ∃ written, (do
      let f ← result
      records.mapM (Record.settle (.int budget) [f])) = .ok written := by
    intro result hresult
    obtain ⟨place, -, rfl⟩ := List.mem_map.mp hresult
    obtain ⟨f, hf⟩ := t.1.exists_findAt h place.2
    refine ⟨records.map (Record.settled budget [(place.1, f)]), ?_⟩
    rw [hf]
    exact Outcome.mapM_ok fun r _ => Record.settle_int budget _ r
  obtain ⟨written, hwritten⟩ := Outcome.exists_mapM_ok hall
  rw [Fails, hwritten]
  nofun

/-- What is found in such tasks. -/
theorem exists_findings : ∀ {tasks : List Task}, (∀ t ∈ tasks, t.Readable) →
    ∃ found, findings tasks = .ok found
  | [], _ => ⟨[], rfl⟩
  | t :: tasks, h => by
    obtain ⟨ht, htasks⟩ := List.forall_mem_cons.mp h
    have hresults : ∀ p ∈ t.2.1.zipIdx, ∃ y,
        (do return (p.1, ← t.1.findAt t.2.2 p.2) : Except Failure (Text × Finding)) = .ok y := by
      intro p _
      obtain ⟨f, hf⟩ := t.1.exists_findAt ht p.2
      exact ⟨(p.1, f), by rw [hf]; rfl⟩
    obtain ⟨own, hown⟩ := Outcome.exists_mapM_ok hresults
    obtain ⟨others, hothers⟩ := exists_findings htasks
    refine ⟨own ++ others, ?_⟩
    rw [show findings (t :: tasks) =
      (do let found ← t.1.findings t.2.1 t.2.2; return found ++ (← findings tasks)) from rfl,
      t.findings_eq_mapM, hown, hothers]
    rfl

namespace Gathering

variable {server : Server σ} {g g' : Gathering σ}

theorem Step.readable (hlists : server.Lists) (h : Step server g g')
    (hg : ∀ t ∈ g.tasks, t.Readable) : ∀ t ∈ g'.tasks, t.Readable := by
  cases h with
  | @read s next before after b keys tasks outcome hfetch =>
    refine List.forall_mem_append.mpr ⟨hg, List.forall_mem_singleton.mpr ?_⟩
    rintro replies rfl
    rw [Bucket.fetch] at hfetch
    split at hfetch
    · cases hfetch
    · rename_i names _
      obtain ⟨hanswer, -⟩ := Prod.mk.inj hfetch
      exact hlists _ s replies (b.request_reads names) (Except.ok.inj hanswer)

/-- **Tasks are readable**, in whatever order the buckets come. -/
theorem Reads.readable (hlists : server.Lists) (h : Reads server g g')
    (hg : ∀ t ∈ g.tasks, t.Readable) : ∀ t ∈ g'.tasks, t.Readable := by
  induction h with
  | refl => exact hg
  | tail _ hstep ih => exact hstep.readable hlists ih

end Gathering

end Payload

/-! ## 3. Courses of a snapshot -/

namespace Snapshot

open Payload

/-- What is known before the buckets are read: the sweep, what is known of its keys, and their records
without what is in the buckets. -/
structure Prepared where
  scan : Scan
  infos : List KeyInfo
  records : List Record

/-- All of a snapshot up to the buckets. -/
def prepare (server : Server σ) (plan : Plan) (rounds : Nat) (target : Target) :
    Session σ (Option Prepared) := do
  match ← sweep server plan rounds target with
  | none => return none
  | some scan =>
    let infos ← KeyInfo.load server scan.keys
    let fresh := Record.listOfInfos target.name infos
    let infos := wanted fresh infos
    let records ← Session.ofExcept (fresh.mapM (Record.settle plan.budget (infos.filterMap unread?)))
    return some ⟨scan, infos, records⟩

/-- The snapshot with what was found in tasks. -/
def Prepared.finish (p : Prepared) (plan : Plan) (target : Target) (tasks : List Task) :
    Except Failure Snapshot := do
  let found ← findings tasks
  let records ← p.records.mapM (Record.settle plan.budget found)
  return ⟨target.name, records, p.scan.truncated⟩

/-- Reading a snapshot is preparing it, reading the buckets in the order of the table, and finishing
it. -/
theorem read_eq (server : Server σ) (plan : Plan) (rounds : Nat) (target : Target) :
    read server plan rounds target = do
      match ← prepare server plan rounds target with
      | none => return none
      | some p =>
        let tasks ← fetchAll server (buckets p.infos)
        return some (← Session.ofExcept (p.finish plan target tasks)) := by
  unfold read prepare ofScan materialize
  rw [bind_assoc]
  congr 1
  funext scan
  cases scan with
  | none => rfl
  | some scan =>
    simp only [bind_assoc, pure_bind]
    congr 1
    funext infos
    congr 1
    funext records
    congr 1
    funext tasks
    simp only [Prepared.finish, Session.ofExcept_bind, bind_assoc]
    rfl

variable (server : Server σ) (plan : Plan) (rounds : Nat) (target : Target) (s : σ)

/-- **How a snapshot may go.**  The buckets are read in any order, after all that comes before them.  If
they are all answered, and all can be read, that is the snapshot, and the connection is ended.  If one
cannot be read it fails the snapshot, and the connection is ended, whatever is still waiting; that may
be sent later. -/
inductive Course : Except Failure (Option Snapshot) → σ → Prop
  | refused {e : Failure} {next : σ}
    (hconnect : server (.connect plan.connectLimit none) s = (.error e, next)) :
    Course (.error e) next
  | failed {client : Value} {opened last : σ} {e : Failure}
    (hconnect : server (.connect plan.connectLimit none) s = (.ok client, opened))
    (hprepare : (prepare server plan rounds target).run opened = (.error e, last)) :
    Course (.error e) (server.hangUp.run last).2
  | underWay {client : Value} {opened last : σ}
    (hconnect : server (.connect plan.connectLimit none) s = (.ok client, opened))
    (hprepare : (prepare server plan rounds target).run opened = (.ok none, last)) :
    Course (.ok none) last
  | returned {client : Value} {opened prepared last : σ} {p : Prepared} {tasks : List Task}
    {snapshot : Snapshot}
    (hconnect : server (.connect plan.connectLimit none) s = (.ok client, opened))
    (hprepare : (prepare server plan rounds target).run opened = (.ok (some p), prepared))
    (hreads : Gathering.Reads server ⟨prepared, buckets p.infos, []⟩ ⟨last, [], tasks⟩)
    (hfinish : p.finish plan target tasks = .ok snapshot) :
    Course (.ok (some snapshot)) (server.hangUp.run last).2
  | raised {client : Value} {opened prepared : σ} {p : Prepared} {early late : Gathering σ} {t : Task}
    {e : Failure}
    (hconnect : server (.connect plan.connectLimit none) s = (.ok client, opened))
    (hprepare : (prepare server plan rounds target).run opened = (.ok (some p), prepared))
    (hreads : Gathering.Reads server ⟨prepared, buckets p.infos, []⟩ early) (ht : t ∈ early.tasks)
    (hfails : t.Fails plan.budget p.records e)
    (hlate : Gathering.Reads server
      ⟨(server.hangUp.run early.state).2, early.waiting, early.tasks⟩ late) :
    Course (.error e) late.state

variable {server plan rounds target s}

/-- **Reading the buckets one after the other is one course**, with a server that answers reads with
lists. -/
theorem course_take (hlists : server.Lists) {budget : Int} (hbudget : plan.budget = .int budget) :
    Course server plan rounds target s ((take server plan rounds target).run s).1
      ((take server plan rounds target).run s).2 := by
  rcases hconnect : server (.connect plan.connectLimit none) s with ⟨e | client, opened⟩
  · rw [run_take_error hconnect]
    exact .refused hconnect
  rw [run_take hconnect]
  rcases hprepare : (prepare server plan rounds target).run opened with ⟨e | _ | p, prepared⟩
  · have hread : (read server plan rounds target).run opened = (.error e, prepared) := by
      rw [read_eq, Session.run_bind_error hprepare]
    rw [Session.run_hangUpAfter hread nofun]
    exact .failed hconnect hprepare
  · have hread : (read server plan rounds target).run opened = (.ok none, prepared) := by
      rw [read_eq, Session.run_bind_ok hprepare, Session.run_pure]
    rw [Session.run_hangUpAfter_none hread]
    exact .underWay hconnect hprepare
  · obtain ⟨tasks, last, hfetch, hreads⟩ := exists_reads server (buckets p.infos) prepared []
    rw [List.nil_append] at hreads
    obtain ⟨found, hfound⟩ := exists_findings (hreads.readable hlists nofun)
    have hrecords : p.records.mapM (Record.settle plan.budget found) =
        .ok (p.records.map (Record.settled budget found)) :=
      Outcome.mapM_ok fun r _ => by rw [hbudget, Record.settle_int]
    have hfinish : p.finish plan target tasks =
        .ok ⟨target.name, p.records.map (Record.settled budget found), p.scan.truncated⟩ := by
      simp only [Prepared.finish, hfound, Outcome.ok_bind, hrecords]
      rfl
    have hread : (read server plan rounds target).run opened =
        (.ok (some ⟨target.name, p.records.map (Record.settled budget found), p.scan.truncated⟩),
          last) := by
      rw [read_eq, Session.run_bind_ok hprepare, Session.run_bind_ok hfetch, hfinish]
      rfl
    rw [Session.run_hangUpAfter hread nofun]
    exact .returned hconnect hprepare hreads hfinish

/-- A server with a string and a hash, which answers a read of strings with null. -/
def nullStrings : Server Unit := fun r s =>
  (match r with
    | .scan _ _ => .ok (.tuple [.int 0, .list [.bytes [97], .bytes [98]]])
    | .strings _ => .ok .null
    | .batch ((.type, _) :: _) =>
      .ok (.list [.text "string", .null, .text "hash", .null])
    | .batch _ => .ok (.list [.dict []])
    | _ => .ok .null, s)

/-- **Otherwise something may be sent over a connection that is ended.**  The strings are read first, and
what is answered has no length: that fails the snapshot, which ends the connection, and only then the
hash is asked for. -/
theorem course_late : ∃ e last before,
    Course nullStrings.recorded Plan.ofTwo 1 here ((), []) (.error e) ((), last) ∧
    last = .batch [(.hashFields, [98])] :: .disconnect :: .close :: .strings [[97]] :: before := by
  have hsort : Text.sort ["b", "a"] = (["a", "b"] : List Text) :=
    (Text.sort_congr (.swap _ _ _)).trans (List.mergeSort_of_pairwise (by decide +kernel))
  have hsweep : (Scan.run nullStrings.recorded Plan.ofTwo.limits 1).run
      ((), [.connect (.int 3) none]) =
      (.ok (some ⟨["a", "b"], false⟩), (), [.scan 0 (.int 100), .connect (.int 3) none]) := by
    rw [← hsort]
    rfl
  have hprepare : (prepare nullStrings.recorded Plan.ofTwo 1 here).run
      ((), [.connect (.int 3) none]) =
      (.ok (some ⟨⟨["a", "b"], false⟩, [⟨"a", "string", -2⟩, ⟨"b", "hash", -2⟩],
        [⟨"Here", "a", "string", -2, 0, []⟩, ⟨"Here", "b", "hash", -2, 0, []⟩]⟩),
        (), [.batch [(.type, [97]), (.ttl, [97]), (.type, [98]), (.ttl, [98])], .scan 0 (.int 100),
          .connect (.int 3) none]) := by
    rw [prepare, Session.run_bind_ok (run_sweep_ok hsweep)]
    rfl
  exact ⟨_, _, _, .raised rfl hprepare (.single (.first rfl)) List.mem_cons_self rfl
    (.single (.first rfl)), rfl⟩

end Snapshot

end Keyscope
