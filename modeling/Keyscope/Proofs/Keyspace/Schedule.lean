/-
# Buckets in any order

The buckets are read at the same time.  Each of them is a task: it waits for its answers and then
writes what it finds into the records, key by key, up to the first answer that cannot be read.  When
the answers come is not known, so the writes of different tasks may come in any order.

No two tasks write to one record, because no key is in two buckets (`nodup_keys`).  So at any time
the records together with all writes that are still to be made amount to the same
(`Progress.eventually`); a step moves one write from the one to the other (`Step.eventually`), and
when none is left the records are those of the tasks one after the other, in the order of the table
of buckets (`materialize_any_order`).
-/
import Mathlib.Data.List.Nodup
import Mathlib.Logic.Relation
import Keyscope.Proofs.Keyspace.Payload

namespace Keyscope

/-! ## 1. Up to the first failure -/

namespace Outcome

variable {α β : Type}

/-- The results before the first failure. -/
def upTo : List (Except Failure α) → List α
  | [] => []
  | .error _ :: _ => []
  | .ok a :: rest => a :: upTo rest

theorem upTo_of_mapM {f : α → Except Failure β} : ∀ {l : List α} {ys : List β},
    l.mapM f = .ok ys → upTo (l.map f) = ys
  | [], ys, h => by
    obtain rfl : [] = ys := Except.ok.inj h
    rfl
  | x :: l, ys, h => by
    rw [List.mapM_cons] at h
    obtain ⟨y, hy, h⟩ := exists_of_bind h
    obtain ⟨rest, hrest, h⟩ := exists_of_bind h
    obtain rfl : y :: rest = ys := Except.ok.inj h
    rw [List.map_cons, hy, upTo, upTo_of_mapM hrest]

/-- The results before the first failure are those of the first members. -/
theorem upTo_sublist {γ : Type} {f : α → Except Failure β} {g : α → γ} {k : β → γ}
    (h : ∀ x y, f x = .ok y → k y = g x) :
    ∀ l : List α, ((upTo (l.map f)).map k).Sublist (l.map g)
  | [] => .slnil
  | x :: l => by
    cases hx : f x with
    | error e =>
      rw [List.map_cons, hx]
      exact List.nil_sublist _
    | ok y =>
      rw [List.map_cons, hx, upTo, List.map_cons, List.map_cons, h x y hx]
      exact (upTo_sublist h l).cons_cons _

end Outcome

namespace Payload

/-! ## 2. Tasks -/

/-- A bucket with its keys and the outcome of its request. -/
abbrev Task := Bucket × List Text × Except Failure Value

namespace Task

/-- What is found for each key of a task. -/
def results (t : Task) : List (Except Failure (Text × Finding)) :=
  t.2.1.zipIdx.map fun p => do return (p.1, ← t.1.findAt t.2.2 p.2)

/-- What a task writes, in order: a failure ends it, and what was written before stays. -/
def writes (t : Task) : List (Text × Finding) := Outcome.upTo t.results

/-- The failure that ends a task, if one does. -/
def failure? (t : Task) : Option Failure := Outcome.failure? (t.1.findings t.2.1 t.2.2)

/-- The records after a task has written to them. -/
def write (budget : Int) (records : List Record) (t : Task) : List Record :=
  records.map (Record.settled budget t.writes)

theorem findings_eq_mapM (t : Task) :
    t.1.findings t.2.1 t.2.2 =
      t.2.1.zipIdx.mapM fun p => do return (p.1, ← t.1.findAt t.2.2 p.2) := by
  obtain ⟨b, keys, outcome⟩ := t
  cases outcome with
  | ok replies => exact b.findEach_eq replies 0 keys
  | error e =>
    have hkeys : keys.map (fun key => (key, b.findFailure e)) =
        keys.zipIdx.map fun p => (p.1, b.findFailure e) := by
      conv_lhs => rw [← List.zipIdx_map_fst 0 keys, List.map_map]
      rfl
    rw [Bucket.findings, hkeys]
    exact (Outcome.mapM_ok fun p _ => rfl).symm

/-- A task that does not fail writes all that is found. -/
theorem writes_of_findings {t : Task} {found : List (Text × Finding)}
    (h : t.1.findings t.2.1 t.2.2 = .ok found) : t.writes = found := by
  rw [findings_eq_mapM] at h
  exact Outcome.upTo_of_mapM h

/-- A task writes to the records of its keys only, and once to each. -/
theorem writes_sublist (t : Task) : (t.writes.map Prod.fst).Sublist t.2.1 := by
  have h := Outcome.upTo_sublist (k := Prod.fst) (g := Prod.fst)
    (f := fun p : Text × Nat => do return (p.1, ← t.1.findAt t.2.2 p.2)) ?_ t.2.1.zipIdx
  · rwa [List.zipIdx_map_fst] at h
  · intro p y hy
    obtain ⟨f, -, hy⟩ := Outcome.exists_of_bind hy
    obtain rfl := Except.ok.inj hy
    rfl

end Task

/-! ## 3. Tasks one after the other -/

variable {outcomes : Bucket → Except Failure Value} {infos : List KeyInfo}

/-- Tasks one after the other write what they find, one after the other. -/
theorem foldl_write (budget : Int) : ∀ (tasks : List Task) (records : List Record),
    tasks.foldl (Task.write budget) records =
      records.map (Record.settled budget (tasks.flatMap Task.writes))
  | [], records => (List.map_id records).symm
  | t :: tasks, records => by
    rw [List.foldl_cons, foldl_write budget tasks, Task.write, List.map_map, List.flatMap_cons]
    refine List.map_congr_left fun r _ => ?_
    rw [Record.settled_append]
    rfl

/-- The keys of the tasks are those that are read, bucket after bucket. -/
theorem flatMap_keys (outcomes : Bucket → Except Failure Value) (infos : List KeyInfo) :
    (answered outcomes infos).flatMap (·.2.1) =
      (Bucket.all.flatMap (inBucket infos)).map (·.key) := by
  have hkeys : ∀ bs : List Bucket,
      (((bs.map fun b => (b, b.keysOf infos)).filter fun p => !p.2.isEmpty).map
        fun p => (p.1, p.2, outcomes p.1)).flatMap (·.2.1) =
      (bs.flatMap (inBucket infos)).map (·.key) := by
    intro bs
    induction bs with
    | nil => rfl
    | cons b bs ih =>
      rw [List.map_cons, List.flatMap_cons, List.map_append, ← ih, ← keysOf_eq]
      by_cases hempty : b.keysOf infos = []
      · rw [List.filter_cons_of_neg (by simp [hempty]), hempty, List.nil_append]
      · rw [List.filter_cons_of_pos (by simp [hempty])]
        rfl
  exact hkeys Bucket.all

/-- **No key is in two buckets**, nor twice in one. -/
theorem nodup_keys (outcomes : Bucket → Except Failure Value)
    (hnodup : (infos.map (·.key)).Nodup) : ((answered outcomes infos).flatMap (·.2.1)).Nodup := by
  have hparted : ((parted infos).map (·.key)).Nodup :=
    ((parted_perm infos).map (·.key)).nodup_iff.mpr hnodup
  rw [parted, List.map_append] at hparted
  rw [flatMap_keys]
  exact (List.nodup_append.mp hparted).2.1

/-- Tasks write to the records of their keys, in their order. -/
theorem keys_writes_sublist : ∀ tasks : List Task,
    ((tasks.flatMap Task.writes).map Prod.fst).Sublist (tasks.flatMap (·.2.1))
  | [] => .slnil
  | t :: tasks => by
    rw [List.flatMap_cons, List.flatMap_cons, List.map_append]
    exact t.writes_sublist.append (keys_writes_sublist tasks)

/-- So no two writes are to the same record. -/
theorem nodup_writes {tasks : List Task} (h : (tasks.flatMap (·.2.1)).Nodup) :
    ((tasks.flatMap Task.writes).map Prod.fst).Nodup :=
  h.sublist (keys_writes_sublist tasks)

/-- Tasks without a common key may change places. -/
theorem foldl_write_perm (budget : Int) {tasks order : List Task} (hperm : order.Perm tasks)
    (h : (tasks.flatMap (·.2.1)).Nodup) (records : List Record) :
    order.foldl (Task.write budget) records = tasks.foldl (Task.write budget) records := by
  rw [foldl_write, foldl_write]
  refine List.map_congr_left fun r _ => ?_
  exact (Record.settled_perm budget (hperm.symm.flatMap_right _) (nodup_writes h) r).symm

/-- Different tasks have no common key, and what they write commutes. -/
theorem pairwise_commute (budget : Int) {tasks : List Task} (h : (tasks.flatMap (·.2.1)).Nodup) :
    tasks.Pairwise fun t u => (∀ key ∈ t.2.1, key ∉ u.2.1) ∧
      ∀ rs, t.write budget (u.write budget rs) = u.write budget (t.write budget rs) := by
  obtain ⟨hown, hdisjoint⟩ := List.nodup_flatMap.mp h
  refine hdisjoint.imp_of_mem fun {t u} ht hu htu => ⟨fun key hkey => htu hkey, fun rs => ?_⟩
  have hboth : ([u, t].flatMap (·.2.1)).Nodup := by
    simpa using List.nodup_append'.mpr ⟨hown u hu, hown t ht, fun key hu ht => htu ht hu⟩
  exact (foldl_write_perm budget (List.Perm.swap u t []) hboth rs).symm

/-! ## 4. Writes in any order -/

/-- Tasks that are under way: the records as they are, and what each task is still to write. -/
structure Progress where
  records : List Record
  left : List (List (Text × Finding))

namespace Progress

/-- What the records come to if the rest is written from task to task. -/
def eventually (budget : Int) (p : Progress) : List Record :=
  p.records.map (Record.settled budget p.left.flatten)

/-- All tasks have ended. -/
def Done (p : Progress) : Prop := ∀ writes ∈ p.left, writes = []

/-- **One step**: some task makes its next write. -/
inductive Step (budget : Int) : Progress → Progress → Prop
  | write (records : List Record) (before after : List (List (Text × Finding)))
    (f : Text × Finding) (rest : List (Text × Finding)) :
    Step budget ⟨records, before ++ (f :: rest) :: after⟩
      ⟨records.map (Record.settled budget [f]), before ++ rest :: after⟩

variable {budget : Int} {p q : Progress}

theorem eventually_of_done (h : p.Done) : p.eventually budget = p.records := by
  have hnone : p.left.flatten = [] := List.flatten_eq_nil_iff.mpr h
  rw [eventually, hnone]
  exact List.map_id _

/-- A step takes one write from those that are left. -/
theorem Step.left_perm (h : Step budget p q) : ∃ f, p.left.flatten.Perm (f :: q.left.flatten) ∧
    q.records = p.records.map (Record.settled budget [f]) := by
  cases h with
  | write records before after f rest =>
    refine ⟨f, ?_, rfl⟩
    simp only [List.flatten_append, List.flatten_cons, List.cons_append]
    exact List.perm_middle

/-- **A step changes nothing about what the records come to**, if no two writes are to one record. -/
theorem Step.eventually (h : Step budget p q) (hnodup : (p.left.flatten.map Prod.fst).Nodup) :
    q.eventually budget = p.eventually budget ∧ (q.left.flatten.map Prod.fst).Nodup := by
  obtain ⟨f, hperm, hrecords⟩ := h.left_perm
  constructor
  · rw [Progress.eventually, hrecords, List.map_map]
    refine List.map_congr_left fun r _ => ?_
    rw [Function.comp_apply, ← Record.settled_append]
    exact (Record.settled_perm budget hperm hnodup r).symm
  · have hkeys := (hperm.map Prod.fst).nodup_iff.mp hnodup
    exact (List.nodup_cons.mp hkeys).2

/-- **So nothing that happens changes it.** -/
theorem eventually_of_steps (h : Relation.ReflTransGen (Step budget) p q)
    (hnodup : (p.left.flatten.map Prod.fst).Nodup) :
    q.eventually budget = p.eventually budget ∧ (q.left.flatten.map Prod.fst).Nodup := by
  induction h with
  | refl => exact ⟨rfl, hnodup⟩
  | tail _ hstep ih =>
    obtain ⟨heventually, hnodup'⟩ := hstep.eventually ih.2
    exact ⟨heventually.trans ih.1, hnodup'⟩

/-- As long as a task has something to write, there is a step. -/
theorem exists_step (h : ¬ p.Done) : ∃ q, Step budget p q := by
  obtain ⟨records, left⟩ := p
  simp only [Done, not_forall] at h
  obtain ⟨writes, hwrites, hne⟩ := h
  obtain ⟨before, after, rfl⟩ := List.append_of_mem hwrites
  obtain ⟨f, rest, rfl⟩ := List.exists_cons_of_ne_nil hne
  exact ⟨_, .write records before after f rest⟩

/-- Whatever has happened, the tasks can end. -/
theorem exists_done (budget : Int) (p : Progress) :
    ∃ q, Relation.ReflTransGen (Step budget) p q ∧ q.Done := by
  by_cases h : p.Done
  · exact ⟨p, .refl, h⟩
  · obtain ⟨next, hstep⟩ : ∃ next, Step budget p next := exists_step h
    obtain ⟨f, hperm, -⟩ := hstep.left_perm
    have hfewer : next.left.flatten.length < p.left.flatten.length := by
      rw [hperm.length_eq]
      exact Nat.lt_succ_self _
    obtain ⟨q, hsteps, hdone⟩ := exists_done budget next
    exact ⟨q, .head hstep hsteps, hdone⟩
termination_by p.left.flatten.length
decreasing_by exact hfewer

end Progress

/-! ## 5. Materializing -/

/-- What is found in tasks is what they write, and reading them fails with the first task that
does. -/
theorem findings_cases : ∀ tasks : List Task,
    (findings tasks = .ok (tasks.flatMap Task.writes) ∧ tasks.findSome? Task.failure? = none) ∨
    ∃ e, findings tasks = .error e ∧ tasks.findSome? Task.failure? = some e
  | [] => .inl ⟨rfl, rfl⟩
  | t :: tasks => by
    rw [List.findSome?_cons, Task.failure?, show findings (t :: tasks) =
      (do let found ← t.1.findings t.2.1 t.2.2; return found ++ (← findings tasks)) from rfl]
    cases hfound : t.1.findings t.2.1 t.2.2 with
    | error e => exact .inr ⟨e, rfl, rfl⟩
    | ok found =>
      rcases findings_cases tasks with ⟨hrest, hnone⟩ | ⟨e, hrest, hsome⟩
      · refine .inl ⟨?_, hnone⟩
        rw [hrest, List.flatMap_cons, Task.writes_of_findings hfound]
        rfl
      · exact .inr ⟨e, by rw [hrest]; rfl, hsome⟩

/-- **Buckets may be read in any order.**  For keys that are all different, any records and any
outcomes of the requests for the buckets, no two tasks write to one record.  So their writes commute,
whole tasks may come in any order, and so may single writes, interleaved in any way: in the end the
records are those of the tasks one after the other in the order of the table.  These are the records
that materializing returns, unless a task fails; then it fails as the first task that does. -/
theorem materialize_any_order {infos : List KeyInfo} {records start : List Record}
    (hnodup : (infos.map (·.key)).Nodup) (budget : Int) (outcomes : Bucket → Except Failure Value)
    {tasks : List Task} (htasks : tasks = answered outcomes (wanted records infos))
    (hstart : start =
      records.map (Record.settled budget ((wanted records infos).filterMap unread?))) :
    (tasks.Pairwise fun t u => (∀ key ∈ t.2.1, key ∉ u.2.1) ∧
      ∀ rs, t.write budget (u.write budget rs) = u.write budget (t.write budget rs)) ∧
    (∀ t ∈ tasks, ∀ r : Record, r.key ∉ t.2.1 → r.settled budget t.writes = r) ∧
    (∀ order : List Task, order.Perm tasks →
      order.foldl (Task.write budget) start = tasks.foldl (Task.write budget) start) ∧
    (∀ p : Progress,
      Relation.ReflTransGen (Progress.Step budget) ⟨start, tasks.map Task.writes⟩ p →
      (p.Done → p.records = tasks.foldl (Task.write budget) start) ∧
      ∃ q, Relation.ReflTransGen (Progress.Step budget) p q ∧ q.Done) ∧
    ∀ (σ : Type) (server : Server σ) (s next : σ),
      (fetchAll server (buckets (wanted records infos))).run s = (.ok tasks, next) →
      (materialize server (.int budget) infos records).run s =
        (match tasks.findSome? Task.failure? with
          | none => .ok (tasks.foldl (Task.write budget) start)
          | some e => .error e, next) := by
  have hwanted : ((wanted records infos).map (·.key)).Nodup :=
    hnodup.sublist (List.filter_sublist.map _)
  have hkeys : (tasks.flatMap (·.2.1)).Nodup := htasks ▸ nodup_keys outcomes hwanted
  have hwrites := nodup_writes hkeys
  refine ⟨pairwise_commute budget hkeys, ?_,
    fun order hperm => foldl_write_perm budget hperm hkeys start, ?_, ?_⟩
  · intro t _ r hr
    exact Record.settled_of_not_mem budget fun hmem => hr (t.writes_sublist.subset hmem)
  · intro p hsteps
    obtain ⟨heventually, -⟩ := Progress.eventually_of_steps hsteps (by rwa [← List.flatMap_def])
    refine ⟨fun hdone => ?_, Progress.exists_done budget p⟩
    rw [← Progress.eventually_of_done hdone, heventually, foldl_write, Progress.eventually,
      List.flatMap_def]
  · intro σ server s next hfetch
    rw [htasks] at hfetch
    rw [run_materialize_fetched server budget records hfetch, settleAll, ← htasks]
    rcases findings_cases tasks with ⟨hfound, hnone⟩ | ⟨e, hfound, hsome⟩
    · rw [hfound, hnone, foldl_write, hstart, List.map_map]
      rfl
    · rw [hfound, hsome]
      rfl

/-- A string and a hash. -/
def twoInfos : List KeyInfo := [⟨"a", "string", -1⟩, ⟨"b", "hash", 7⟩]

def twoRecords : List Record := twoInfos.map (Record.ofInfo "Here")

/-- Where the bucket of hashes fails, it does not matter whether that is written first or last. -/
theorem materialize_two_any_order :
    ∃ next, (materialize (replying hashesFail) (.int 10) twoInfos twoRecords).run () =
      (.ok ((answered hashesFail (wanted twoRecords twoInfos)).reverse.foldl (Task.write 10)
        twoRecords), next) := by
  obtain ⟨-, -, horder, -, hrun⟩ := @materialize_any_order twoInfos twoRecords twoRecords
    (by decide) 10 hashesFail _ rfl rfl
  refine ⟨(), ?_⟩
  rw [horder _ (List.reverse_perm _)]
  exact hrun Unit (replying hashesFail) () () rfl

end Payload

end Keyscope
