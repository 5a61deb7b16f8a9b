/-
# Keys in buckets, findings in records

Keys are read bucket by bucket and shown record by record.  Two facts make the way there and back
harmless.

* **The buckets are a partition** (`parted_perm`): every key that is wanted is in exactly one
  bucket, or is not read.  So each record gets the finding for its own key, once, and the order of
  the buckets cannot be seen in the records (`settled_perm`).
* **A place in a bucket is a key** (`findings_eq`): the answer at the place that a key has among
  the keys of its bucket is the answer for that key.

`Payload.finding` says what is found for one key; `findings_answered` says that reading the
buckets finds just that for every key.
-/
import Mathlib.Data.List.Basic
import Keyscope.Keyspace.Payload
import Keyscope.Proofs.Classes
import Keyscope.Proofs.Keyspace.Replies
import Keyscope.Proofs.Outcome

namespace Keyscope

/-! ## 1. Records filled in -/

namespace Record

/-- The record with a finding filled in, its payload within a budget of so many characters. -/
def filled (budget : Int) (r : Record) (f : Finding) : Record :=
  { r with
    type := if f.isDocument then documentType else r.type
    count := f.preview.count
    payload := Preview.clip budget f.preview.payload }

@[simp] theorem key_filled (budget : Int) (r : Record) (f : Finding) :
    (r.filled budget f).key = r.key := rfl

theorem fill_int (budget : Int) (r : Record) (f : Finding) :
    fill (.int budget) r f = .ok (r.filled budget f) := rfl

/-- The record with all findings for its key filled in. -/
def settled (budget : Int) (found : List (Text × Finding)) (r : Record) : Record :=
  found.foldl (fun r f => if f.1 = r.key then r.filled budget f.2 else r) r

@[simp] theorem key_settled (budget : Int) : ∀ (found : List (Text × Finding)) (r : Record),
    (r.settled budget found).key = r.key
  | [], _ => rfl
  | f :: found, r => by
    rw [settled, List.foldl_cons]
    refine (key_settled budget found _).trans ?_
    split <;> rfl

theorem settle_int (budget : Int) : ∀ (found : List (Text × Finding)) (r : Record),
    settle (.int budget) found r = .ok (r.settled budget found)
  | [], _ => rfl
  | f :: found, r => by
    rw [settle, List.foldlM_cons]
    by_cases h : f.1 = r.key
    · rw [if_pos h, fill_int]
      exact (settle_int budget found _).trans (by simp only [settled, List.foldl_cons, if_pos h])
    · rw [if_neg h]
      exact (settle_int budget found _).trans (by simp only [settled, List.foldl_cons, if_neg h])

/-- What filling in changes, and that the payload keeps within the budget. -/
theorem fill_eq_ok {budget : Value} {r r' : Record} {f : Finding} (h : fill budget r f = .ok r') :
    r'.key = r.key ∧ r'.count = f.preview.count ∧
      Preview.clipTo budget f.preview.payload = .ok r'.payload := by
  rw [fill, Preview.within] at h
  obtain ⟨p, hp, h⟩ := Outcome.exists_of_bind h
  obtain ⟨t, ht, hp⟩ := Outcome.exists_of_bind hp
  obtain rfl := Except.ok.inj hp
  obtain rfl := Except.ok.inj h
  exact ⟨rfl, rfl, ht⟩

theorem settle_cons (budget : Value) (f : Text × Finding) (found : List (Text × Finding))
    (r : Record) : settle budget (f :: found) r =
      (if f.1 = r.key then fill budget r f.2 else .ok r) >>= settle budget found := rfl

theorem settle_append (budget : Value) (a b : List (Text × Finding)) (r : Record) :
    settle budget (a ++ b) r = settle budget a r >>= settle budget b := List.foldlM_append

/-- A record for which nothing was found stays as it is. -/
theorem settle_of_not_mem (budget : Value) : ∀ {found : List (Text × Finding)} {r : Record},
    r.key ∉ found.map Prod.fst → settle budget found r = .ok r
  | [], _, _ => rfl
  | f :: found, r, h => by
    rw [List.map_cons, List.mem_cons, not_or] at h
    rw [settle_cons, if_neg (Ne.symm h.1)]
    exact settle_of_not_mem budget h.2

/-- **A record gets the one finding for its key.** -/
theorem settle_of_mem (budget : Value) :
    ∀ {found : List (Text × Finding)} {r : Record} {f : Finding},
      (found.map Prod.fst).Nodup → (r.key, f) ∈ found → settle budget found r = fill budget r f
  | [], _, _, _, h => by cases h
  | g :: found, r, f, hnodup, h => by
    rw [List.map_cons, List.nodup_cons] at hnodup
    rw [settle_cons]
    rcases List.mem_cons.mp h with rfl | hrest
    · rw [if_pos rfl]
      cases hfill : fill budget r f with
      | error e => rfl
      | ok r' =>
        have hkey : r'.key ∉ found.map Prod.fst := by
          rw [(fill_eq_ok hfill).1]
          exact hnodup.1
        exact settle_of_not_mem budget hkey
    · have hne : g.1 ≠ r.key := by
        intro hsame
        exact hnodup.1 (hsame ▸ List.mem_map.mpr ⟨_, hrest, rfl⟩)
      rw [if_neg hne]
      exact settle_of_mem budget hnodup.2 hrest

theorem settled_append (budget : Int) (a b : List (Text × Finding)) (r : Record) :
    r.settled budget (a ++ b) = (r.settled budget a).settled budget b := by
  rw [settled, List.foldl_append]
  rfl

theorem settled_of_not_mem (budget : Int) {found : List (Text × Finding)} {r : Record}
    (h : r.key ∉ found.map Prod.fst) : r.settled budget found = r :=
  Except.ok.inj ((settle_int budget found r).symm.trans (settle_of_not_mem _ h))

theorem settled_of_mem (budget : Int) {found : List (Text × Finding)} {r : Record} {f : Finding}
    (hnodup : (found.map Prod.fst).Nodup) (h : (r.key, f) ∈ found) :
    r.settled budget found = r.filled budget f :=
  Except.ok.inj ((settle_int budget found r).symm.trans (settle_of_mem _ hnodup h))

/-- Findings for different keys may come in any order. -/
theorem settled_perm (budget : Int) {found other : List (Text × Finding)} (hperm : found.Perm other)
    (hnodup : (found.map Prod.fst).Nodup) (r : Record) :
    r.settled budget found = r.settled budget other := by
  have hkeys := hperm.map Prod.fst
  by_cases h : r.key ∈ found.map Prod.fst
  · obtain ⟨⟨key, f⟩, hmem, rfl⟩ := List.mem_map.mp h
    rw [settled_of_mem budget hnodup hmem,
      settled_of_mem budget (hkeys.nodup_iff.mp hnodup) (hperm.mem_iff.mp hmem)]
  · rw [settled_of_not_mem budget h, settled_of_not_mem budget fun h' => h (hkeys.mem_iff.mpr h')]

end Record

/-! ## 2. Every key in one bucket -/

namespace Bucket

theorem nodup_all : all.Nodup := by decide

theorem mem_all (b : Bucket) : b ∈ all := by cases b <;> decide

end Bucket

namespace KeyInfo

/-- The bucket of a key, if it is read. -/
def bucket? (info : KeyInfo) : Option Bucket :=
  match Fate.ofType info.type with
  | .read b => some b
  | _ => none

theorem bucket?_eq_some {info : KeyInfo} {b : Bucket} :
    info.bucket? = some b ↔ Fate.ofType info.type = .read b := by
  rw [bucket?]
  cases Fate.ofType info.type <;> simp

end KeyInfo

namespace Payload

/-- The keys of a bucket, with all that is known of them. -/
def inBucket (infos : List KeyInfo) (b : Bucket) : List KeyInfo :=
  infos.filter fun info => info.bucket? = some b

theorem keysOf_eq (b : Bucket) (infos : List KeyInfo) :
    b.keysOf infos = (inBucket infos b).map (·.key) := by
  rw [Bucket.keysOf, inBucket]
  simp only [KeyInfo.bucket?_eq_some]

theorem mem_inBucket {infos : List KeyInfo} {b : Bucket} {info : KeyInfo} :
    info ∈ inBucket infos b ↔ info ∈ infos ∧ info.bucket? = some b := by
  rw [inBucket, List.mem_filter, decide_eq_true_iff]

/-- A bucket that holds a key is not empty. -/
theorem keysOf_ne_nil {infos : List KeyInfo} {b : Bucket} {info : KeyInfo} (hinfo : info ∈ infos)
    (hb : info.bucket? = some b) : b.keysOf infos ≠ [] := by
  rw [keysOf_eq]
  exact List.ne_nil_of_mem (List.mem_map_of_mem (mem_inBucket.mpr ⟨hinfo, hb⟩))

/-- The keys in the order in which something is found for them: first those that are not read, and
then bucket after bucket. -/
def parted (infos : List KeyInfo) : List KeyInfo :=
  (infos.filter fun info => info.bucket? = none) ++ Bucket.all.flatMap (inBucket infos)

/-- **The buckets are a partition**: every key is there once. -/
theorem parted_perm (infos : List KeyInfo) : (parted infos).Perm infos := by
  have hclass : ∀ info ∈ infos, info.bucket? ∈ none :: Bucket.all.map some := by
    intro info _
    cases info.bucket? with
    | none => exact List.mem_cons_self
    | some b => exact List.mem_cons_of_mem _ (List.mem_map_of_mem (Bucket.mem_all b))
  have h := flatMap_filter_perm KeyInfo.bucket? (by decide) hclass
  rwa [List.flatMap_cons, List.flatMap_map] at h

end Payload

/-! ## 3. What is found for a key -/

namespace Bucket

/-- What the outcome of the request for a bucket shows of the key at a place in it. -/
def findAt (b : Bucket) (outcome : Except Failure Value) (place : Nat) : Except Failure Finding :=
  match outcome with
  | .error e => .ok (b.findFailure e)
  | .ok replies => do b.find (← replies.memberOrNull place)

theorem findEach_eq (b : Bucket) (replies : Value) : ∀ (place : Nat) (keys : List Text),
    b.findEach replies place keys =
      (keys.zipIdx place).mapM fun p => do return (p.1, ← b.findAt (.ok replies) p.2)
  | _, [] => rfl
  | place, key :: keys => by
    rw [findEach, findEach_eq b replies (place + 1) keys, List.zipIdx_cons, List.mapM_cons]
    simp only [findAt, bind_assoc, pure_bind]

/-- Reading a list with places is reading it by its members, if the places can be told from them. -/
theorem mapM_zipIdx {α β : Type} {f : α × Nat → Except Failure β} {g : α → Except Failure β} :
    ∀ {l : List α} {i : Nat}, (∀ p ∈ l.zipIdx i, f p = g p.1) → (l.zipIdx i).mapM f = l.mapM g
  | [], _, _ => rfl
  | x :: l, i, h => by
    rw [List.zipIdx_cons] at h ⊢
    rw [List.mapM_cons, List.mapM_cons, h (x, i) List.mem_cons_self,
      mapM_zipIdx fun p hp => h p (List.mem_cons_of_mem _ hp)]

/-- **A place in a bucket is a key**: the findings for a bucket are found key by key. -/
theorem findings_eq (b : Bucket) {keys : List Text} (hnodup : keys.Nodup)
    (outcome : Except Failure Value) :
    b.findings keys outcome =
      keys.mapM fun key => do return (key, ← b.findAt outcome (keys.idxOf key)) := by
  cases outcome with
  | error e => exact (Outcome.mapM_ok fun key _ => rfl).symm
  | ok replies =>
    rw [findings, findEach_eq]
    refine mapM_zipIdx fun p hp => ?_
    have hplace : keys.idxOf p.1 = p.2 := by
      obtain ⟨hlt, hget⟩ := List.mem_zipIdx' hp
      rw [hget]
      exact hnodup.idxOf_getElem p.2 hlt
    rw [hplace]

end Bucket

namespace Payload

/-- **What is found for a key**, when the requests for the buckets come out so: something that is
the same for all keys that are not read, or what the answer at the place of the key in its bucket
shows. -/
def finding (outcomes : Bucket → Except Failure Value) (infos : List KeyInfo) (info : KeyInfo) :
    Except Failure Finding :=
  match Fate.ofType info.type with
  | .expired => .ok (Bucket.plain .expired)
  | .notImplemented => .ok (Bucket.plain (.notImplemented info.type))
  | .read b => b.findAt (outcomes b) ((b.keysOf infos).idxOf info.key)

/-- The key with what is found for it. -/
def found (outcomes : Bucket → Except Failure Value) (infos : List KeyInfo) (info : KeyInfo) :
    Except Failure (Text × Finding) := do
  return (info.key, ← finding outcomes infos info)

variable {outcomes : Bucket → Except Failure Value} {infos : List KeyInfo}

/-- Reading one bucket finds what is found for its keys. -/
theorem findings_bucket (hnodup : (infos.map (·.key)).Nodup) (b : Bucket) :
    b.findings (b.keysOf infos) (outcomes b) = (inBucket infos b).mapM (found outcomes infos) := by
  have hnodup' : (b.keysOf infos).Nodup := by
    rw [keysOf_eq]
    exact hnodup.sublist (List.filter_sublist.map _)
  have hmap : ∀ g : Text → Except Failure (Text × Finding),
      (b.keysOf infos).mapM g = (inBucket infos b).mapM (g ∘ KeyInfo.key) := by
    intro g
    rw [keysOf_eq, List.mapM_map]
  rw [b.findings_eq hnodup', hmap]
  refine Outcome.mapM_congr fun info hinfo => ?_
  have hfate := KeyInfo.bucket?_eq_some.mp (mem_inBucket.mp hinfo).2
  simp only [Function.comp_apply, found, finding, hfate]

/-- The requests for the buckets that have keys, with their outcomes. -/
def answered (outcomes : Bucket → Except Failure Value) (infos : List KeyInfo) :
    List (Bucket × List Text × Except Failure Value) :=
  (buckets infos).map fun p => (p.1, p.2, outcomes p.1)

/-- Reading all buckets finds what is found for the keys in them, bucket after bucket. -/
theorem findings_buckets (hnodup : (infos.map (·.key)).Nodup) : ∀ (bs : List Bucket),
    findings (((bs.map fun b => (b, b.keysOf infos)).filter fun p => !p.2.isEmpty).map
      fun p => (p.1, p.2, outcomes p.1)) = (bs.flatMap (inBucket infos)).mapM (found outcomes infos)
  | [] => rfl
  | b :: bs => by
    have ih := findings_buckets hnodup bs
    rw [List.map_cons, List.flatMap_cons, List.mapM_append, ← ih, ← findings_bucket hnodup]
    by_cases hempty : b.keysOf infos = []
    · have hnone : b.findings [] (outcomes b) = .ok [] := by cases outcomes b <;> rfl
      rw [List.filter_cons_of_neg (by simp [hempty]), hempty, hnone]
      exact (bind_pure _).symm
    · rw [List.filter_cons_of_pos (by simp [hempty])]
      rfl

/-- **Reading the buckets** finds what is found for the keys in them, bucket after bucket. -/
theorem findings_answered (hnodup : (infos.map (·.key)).Nodup) :
    findings (answered outcomes infos) =
      (Bucket.all.flatMap (inBucket infos)).mapM (found outcomes infos) :=
  findings_buckets hnodup Bucket.all

/-- The keys that are not read have their findings at once. -/
theorem filterMap_unread {f : KeyInfo → Finding} : ∀ {l : List KeyInfo},
    (∀ info ∈ l, finding outcomes infos info = .ok (f info)) →
    l.filterMap unread? =
      (l.filter fun info => info.bucket? = none).map fun info => (info.key, f info)
  | [], _ => rfl
  | info :: l, h => by
    have ih := filterMap_unread fun i hi => h i (List.mem_cons_of_mem _ hi)
    have hinfo := h info List.mem_cons_self
    rw [List.filterMap_cons, List.filter_cons, ih]
    rw [finding] at hinfo
    rw [unread?, KeyInfo.bucket?]
    cases hfate : Fate.ofType info.type with
    | read b => rfl
    | expired =>
      rw [hfate] at hinfo
      simp only [decide_true, ↓reduceIte, List.map_cons, ← Except.ok.inj hinfo]
    | notImplemented =>
      rw [hfate] at hinfo
      simp only [decide_true, ↓reduceIte, List.map_cons, ← Except.ok.inj hinfo]

/-! ## 4. Failures -/

/-- Requests that do not fail are answered with lists. -/
def AreLists (outcomes : Bucket → Except Failure Value) : Prop :=
  ∀ b replies, outcomes b = .ok replies → ∃ vs, replies = .list vs

/-- Requests that do not fail are answered with lists of values that have a text. -/
def AreListed (outcomes : Bucket → Except Failure Value) : Prop :=
  ∀ b replies, outcomes b = .ok replies → replies.Listed

theorem AreListed.lists (h : AreListed outcomes) : AreLists outcomes := by
  intro b replies hb
  obtain ⟨vs, hvs, -⟩ := h b replies hb
  exact ⟨vs, hvs⟩

/-- Only documents can fail to be found: all else is told in the record of the key. -/
theorem exists_finding (hlists : AreLists outcomes)
    {info : KeyInfo} (hinfo : info.bucket? ≠ some .documents) :
    ∃ f, finding outcomes infos info = .ok f := by
  rw [finding]
  split
  · exact ⟨_, rfl⟩
  · exact ⟨_, rfl⟩
  · rename_i b hfate
    have hb : b ≠ .documents := by
      rintro rfl
      exact hinfo (KeyInfo.bucket?_eq_some.mpr hfate)
    cases hb' : outcomes b with
    | error e => exact ⟨_, rfl⟩
    | ok replies =>
      obtain ⟨vs, rfl⟩ := hlists b replies hb'
      simp only [Bucket.findAt, Value.memberOrNull_list]
      cases b with
      | documents => exact absurd rfl hb
      | _ => exact ⟨_, rfl⟩

@[simp] theorem failure?_found (info : KeyInfo) :
    Outcome.failure? (found outcomes infos info) = Outcome.failure? (finding outcomes infos info) :=
  Outcome.failure?_map _ _

/-- **Reading the buckets fails with the first failure in the order of the keys.** -/
theorem failure_parted (hlists : AreLists outcomes) :
    Outcome.failure? ((Bucket.all.flatMap (inBucket infos)).mapM (found outcomes infos)) =
      infos.findSome? fun info => Outcome.failure? (finding outcomes infos info) := by
  have hother : ∀ info : KeyInfo, info.bucket? ≠ some .documents →
      Outcome.failure? (finding outcomes infos info) = none := fun info hinfo =>
    Outcome.failure?_eq_none.mpr (exists_finding hlists hinfo)
  have htyped : (([.strings, .hashes, .sets, .sortedSets, .lists] : List Bucket).flatMap
      (inBucket infos)).findSome? (fun info => Outcome.failure? (finding outcomes infos info))
        = none := by
    rw [List.findSome?_eq_none_iff]
    intro info hinfo
    obtain ⟨b, hb, hmem⟩ := List.mem_flatMap.mp hinfo
    refine hother info fun hdoc => ?_
    rw [(mem_inBucket.mp hmem).2] at hdoc
    obtain rfl := Option.some.inj hdoc
    simp at hb
  rw [Outcome.failure_mapM]
  simp only [failure?_found]
  rw [show Bucket.all = [.strings, .hashes, .sets, .sortedSets, .lists] ++ [.documents] from rfl,
    List.flatMap_append, List.findSome?_append, htyped, Option.none_or, List.flatMap_singleton,
    inBucket, Outcome.findSome?_filter]
  intro info _ hinfo
  exact hother info (by simpa using hinfo)

end Payload

end Keyscope
