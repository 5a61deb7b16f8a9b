/-
# Every key in one request

A key that is read is read in one bucket, and a bucket that has keys sends one request, so nothing is
asked twice and nothing is left out.  Section 1 says what is to be asked: which keys, in which
bucket (`Bucket.Takes`) and with which command (`Bucket.Asks`).  Section 2 says that the buckets are a
partition of the keys that are read.

What is sent is then known before anything is answered (`materialize_asks`): no outcome of a request
keeps another one from being sent, or has it sent again.
-/
import Mathlib.Data.List.Nodup
import Mathlib.Data.List.Perm.Subperm
import Keyscope.Proofs.Keyspace.Payload

namespace Keyscope

/-! ## 1. What is to be asked -/

/-- The names of the keys that a request for values is about, in order. -/
def Request.names : Request → List Bytes
  | .strings names => names
  | .batch commands => commands.map Prod.snd
  | _ => []

namespace Bucket

/-- **The bucket in which keys of a type are read**: that of the type, if it has one, and otherwise
the documents. -/
def Takes (b : Bucket) (type : Text) : Prop :=
  (type, b) ∈ Payload.typed ∨
    b = .documents ∧ type ∉ Payload.neverRead ++ Payload.typed.map Prod.fst

instance (b : Bucket) (type : Text) : Decidable (b.Takes type) :=
  inferInstanceAs (Decidable (_ ∨ _))

/-- **The request for the keys of a bucket**: strings are read together, all else in a batch with one
command per key. -/
inductive Asks (names : List Bytes) : Bucket → Request → Prop
  | strings : Asks names .strings (.strings names)
  | hashes : Asks names .hashes (.batch (names.map fun name => (.hashFields, name)))
  | sets : Asks names .sets (.batch (names.map fun name => (.setMembers, name)))
  | sortedSets : Asks names .sortedSets (.batch (names.map fun name => (.sortedMembers, name)))
  | lists : Asks names .lists (.batch (names.map fun name => (.listElements, name)))
  | documents : Asks names .documents (.batch (names.map fun name => (.document, name)))

theorem takes_iff {b : Bucket} {type : Text} : b.Takes type ↔ Fate.ofType type = .read b := by
  constructor
  · rintro (htyped | ⟨rfl, hother⟩)
    · exact Fate.ofType_typed htyped
    · exact Fate.ofType_document hother
  · intro h
    rcases Fate.ofType_cases type with ⟨-, hfate⟩ | ⟨-, hfate⟩ | ⟨b', htyped, hfate⟩ | ⟨hother, hfate⟩
    · cases hfate.symm.trans h
    · cases hfate.symm.trans h
    · cases hfate.symm.trans h
      exact .inl htyped
    · cases hfate.symm.trans h
      exact .inr ⟨rfl, hother⟩

/-- Keys of one type are read in one bucket. -/
theorem Takes.unique {b b' : Bucket} {type : Text} (h : b.Takes type) (h' : b'.Takes type) :
    b' = b := by
  cases (takes_iff.mp h).symm.trans (takes_iff.mp h')
  rfl

/-- Keys are read in some bucket unless they are of a type that is never read. -/
theorem exists_takes {type : Text} : (∃ b : Bucket, b.Takes type) ↔ type ∉ Payload.neverRead := by
  constructor
  · rintro ⟨b, h⟩ hnever
    rw [takes_iff] at h
    simp only [Payload.neverRead, List.mem_cons, List.not_mem_nil, or_false] at hnever
    rcases hnever with rfl | rfl | rfl <;> cases h
  · intro hread
    by_cases htyped : type ∈ Payload.typed.map Prod.fst
    · obtain ⟨⟨t, b⟩, hmem, rfl⟩ := List.mem_map.mp htyped
      exact ⟨b, .inl hmem⟩
    · refine ⟨.documents, .inr ⟨rfl, ?_⟩⟩
      rw [List.mem_append]
      exact not_or.mpr ⟨hread, htyped⟩

theorem asks_request (b : Bucket) (names : List Bytes) : Asks names b (b.request names) := by
  cases b <;> constructor

/-- A bucket asks about its own keys, in their order. -/
theorem Asks.names_eq {names : List Bytes} {b : Bucket} {r : Request} (h : Asks names b r) :
    r.names = names := by
  cases h with
  | strings => rfl
  | _ => simp [Request.names, Function.comp_def]

end Bucket

namespace Payload

variable {records : List Record} {infos : List KeyInfo}

/-- **The keys that are read**, in the order given: those that have a record, unless their type is
never read. -/
def readable (records : List Record) (infos : List KeyInfo) : List Text :=
  (infos.filter fun info => (∃ r ∈ records, r.key = info.key) ∧
    ∀ type ∈ neverRead, info.type ≠ type).map (·.key)

/-- **The keys that are read in a bucket**, in the order given. -/
def asked (records : List Record) (infos : List KeyInfo) (b : Bucket) : List Text :=
  (infos.filter fun info => (∃ r ∈ records, r.key = info.key) ∧ b.Takes info.type).map (·.key)

/-! ## 2. A partition -/

theorem asked_eq (records : List Record) (infos : List KeyInfo) (b : Bucket) :
    asked records infos b = b.keysOf (wanted records infos) := by
  rw [asked, Bucket.keysOf, wanted, List.filter_filter]
  refine congrArg (List.map _) (List.filter_congr fun info _ => ?_)
  rw [Bool.eq_iff_iff]
  simp [Bucket.takes_iff, and_comm]

theorem mem_asked {key : Text} {b : Bucket} : key ∈ asked records infos b ↔
    ∃ info ∈ infos, info.key = key ∧ (∃ r ∈ records, r.key = info.key) ∧ b.Takes info.type := by
  simp only [asked, List.mem_map, List.mem_filter, decide_eq_true_eq]
  constructor
  · rintro ⟨info, ⟨hinfo, hread⟩, hkey⟩
    exact ⟨info, hinfo, hkey, hread⟩
  · rintro ⟨info, hinfo, hkey, hread⟩
    exact ⟨info, ⟨hinfo, hread⟩, hkey⟩

/-- What is read is read in some bucket. -/
theorem mem_readable {key : Text} :
    key ∈ readable records infos ↔ ∃ b, key ∈ asked records infos b := by
  simp only [mem_asked, readable, List.mem_map, List.mem_filter, decide_eq_true_eq, List.forall_mem_ne]
  constructor
  · rintro ⟨info, ⟨hinfo, hrecord, htype⟩, hkey⟩
    obtain ⟨b, hb⟩ := Bucket.exists_takes.mpr htype
    exact ⟨b, info, hinfo, hkey, hrecord, hb⟩
  · rintro ⟨b, info, hinfo, hkey, hrecord, hb⟩
    exact ⟨info, ⟨hinfo, hrecord, Bucket.exists_takes.mp ⟨b, hb⟩⟩, hkey⟩

section Distinct

variable (hnodup : (infos.map (·.key)).Nodup)

include hnodup

theorem nodup_readable (records : List Record) : (readable records infos).Nodup :=
  hnodup.sublist (List.filter_sublist.map _)

theorem nodup_asked (records : List Record) (b : Bucket) : (asked records infos b).Nodup :=
  hnodup.sublist (List.filter_sublist.map _)

/-- No key is read in two buckets. -/
theorem asked_unique {key : Text} {b b' : Bucket} (h : key ∈ asked records infos b)
    (h' : key ∈ asked records infos b') : b' = b := by
  obtain ⟨info, hinfo, hkey, -, hb⟩ := mem_asked.mp h
  obtain ⟨info', hinfo', hkey', -, hb'⟩ := mem_asked.mp h'
  obtain rfl := List.inj_on_of_nodup_map hnodup hinfo' hinfo (hkey'.trans hkey.symm)
  exact hb.unique hb'

/-- **The buckets that have keys are a partition of the keys that are read**, in whatever order they
are taken. -/
theorem flatMap_asked_perm {order : List Bucket} (horder : order.Nodup)
    (hmem : ∀ b, b ∈ order ↔ asked records infos b ≠ []) :
    (order.flatMap (asked records infos)).Perm (readable records infos) := by
  have hdisjoint : (order.flatMap (asked records infos)).Nodup := by
    rw [List.nodup_flatMap]
    refine ⟨fun b _ => nodup_asked hnodup records b, horder.imp fun hne key h h' => ?_⟩
    exact hne (asked_unique hnodup h' h)
  rw [List.perm_ext_iff_of_nodup hdisjoint (nodup_readable hnodup records)]
  intro key
  rw [List.mem_flatMap, mem_readable]
  constructor
  · rintro ⟨b, -, hkey⟩
    exact ⟨b, hkey⟩
  · rintro ⟨b, hkey⟩
    exact ⟨b, (hmem b).mpr (List.ne_nil_of_mem hkey), hkey⟩

end Distinct

/-! ## 3. What is sent -/

/-- **One request per bucket that has keys**, and what follows for the names in them.  The order of
the buckets does not matter. -/
structure Requested (records : List Record) (infos : List KeyInfo) (name : Text → Bytes)
    (requests : List Request) : Prop where
  perBucket : ∃ order : List Bucket, order.Nodup ∧
    (∀ b, b ∈ order ↔ asked records infos b ≠ []) ∧
    List.Forall₂ (fun b r => b.Asks ((asked records infos b).map name) r) order requests
  atMostSix : requests.length ≤ 6
  names_perm : (requests.flatMap Request.names).Perm ((readable records infos).map name)

/-- The names in requests, one per bucket, are those of the keys of the buckets. -/
theorem flatMap_names {name : Text → Bytes} {order : List Bucket} {requests : List Request}
    (h : List.Forall₂ (fun b r => b.Asks ((asked records infos b).map name) r) order requests) :
    requests.flatMap Request.names = (order.flatMap (asked records infos)).map name := by
  induction h with
  | nil => rfl
  | cons hasks _ ih =>
    rw [List.flatMap_cons, List.flatMap_cons, List.map_append, hasks.names_eq, ih]

variable {name : Text → Bytes} {dispatched : List (Bucket × List Text)}

/-- The requests for the buckets in any order. -/
theorem requested_of_perm (hnodup : (infos.map (·.key)).Nodup)
    (hperm : dispatched.Perm (buckets (wanted records infos))) :
    Requested records infos name (dispatched.map fun p => p.1.request (p.2.map name)) := by
  have hbucket : ∀ p, p ∈ dispatched ↔ p.2 = asked records infos p.1 ∧ p.2 ≠ [] := by
    intro p
    rw [hperm.mem_iff, mem_buckets, asked_eq]
  have horder : (dispatched.map Prod.fst).Nodup :=
    (hperm.map Prod.fst).nodup_iff.mpr (nodup_buckets _)
  have hmem : ∀ b, b ∈ dispatched.map Prod.fst ↔ asked records infos b ≠ [] := by
    intro b
    rw [List.mem_map]
    constructor
    · rintro ⟨p, hp, rfl⟩
      obtain ⟨hkeys, hne⟩ := (hbucket p).mp hp
      rwa [← hkeys]
    · intro hne
      exact ⟨(b, asked records infos b), (hbucket _).mpr ⟨rfl, hne⟩, rfl⟩
  have hasks : List.Forall₂ (fun b r => b.Asks ((asked records infos b).map name) r)
      (dispatched.map Prod.fst) (dispatched.map fun p => p.1.request (p.2.map name)) := by
    rw [List.forall₂_map_left_iff, List.forall₂_map_right_iff]
    refine List.forall₂_same.mpr fun p hp => ?_
    rw [← ((hbucket p).mp hp).1]
    exact p.1.asks_request _
  refine ⟨⟨_, horder, hmem, hasks⟩, ?_, ?_⟩
  · have hsub := List.subperm_of_subset horder fun b _ => Bucket.mem_all b
    simpa [Bucket.all] using hsub.length_le
  · rw [flatMap_names hasks]
    exact (flatMap_asked_perm hnodup horder hmem).map name

/-- The requests for the buckets in any order are sent in that order. -/
theorem fetchAll_asks (hname : ∀ info ∈ infos, encodeKey info.key = .ok (name info.key))
    (hperm : dispatched.Perm (buckets (wanted records infos))) {σ : Type} (server : Server σ) (s : σ)
    (sent : List Request) : ∃ outcomes next,
      (fetchAll server.recorded dispatched).run (s, sent) = (.ok outcomes, next,
        (dispatched.map fun p => p.1.request (p.2.map name)).reverse ++ sent) := by
  have hnames : ∀ p ∈ dispatched.map fun p => (p.1, p.2, p.2.map name),
      p.2.1.mapM encodeKey = .ok p.2.2 := by
    intro p hp
    obtain ⟨⟨b, keys⟩, hq, rfl⟩ := List.mem_map.mp hp
    obtain ⟨rfl, -⟩ : keys = asked records infos b ∧ keys ≠ [] := by
      rw [asked_eq]
      exact mem_buckets.mp (hperm.mem_iff.mp hq)
    refine Outcome.mapM_ok fun key hkey => ?_
    obtain ⟨info, hinfo, rfl, -⟩ := mem_asked.mp hkey
    exact hname info hinfo
  have hdispatched : (dispatched.map fun p => (p.1, p.2, p.2.map name)).map (fun p => (p.1, p.2.1))
      = dispatched := by
    rw [List.map_map]
    exact List.map_id dispatched
  have hsends := fetchAll_sends server hnames s sent
  rwa [hdispatched, List.map_map] at hsends

/-- Once the buckets are fetched, nothing more is asked. -/
theorem materialize_after_fetchAll {σ : Type} (server : Server σ) (budget : Int)
    {outcomes : List (Bucket × List Text × Except Failure Value)} {s next : σ}
    (hfetch : (fetchAll server (buckets (wanted records infos))).run s = (.ok outcomes, next)) :
    ∃ outcome, (materialize server (.int budget) infos records).run s = (outcome, next) := by
  have hsettle : records.mapM (Record.settle (.int budget) ((wanted records infos).filterMap unread?))
      = .ok (records.map (Record.settled budget ((wanted records infos).filterMap unread?))) :=
    Outcome.mapM_ok fun r _ => Record.settle_int budget _ r
  simp only [materialize]
  rw [hsettle, Session.run_bind_ok (Session.run_ofExcept _ s), Session.run_bind_ok hfetch]
  cases findings outcomes with
  | error e => exact ⟨_, rfl⟩
  | ok found => exact ⟨_, rfl⟩

/-- **Every key is read once, with the right command, in at most six requests.**  For keys that are
all different and have names, and any records: a key that is read is in one bucket, once, and no
other key is in any.  What is sent is one request per bucket that has keys, for the names of its
keys, and that is the same whatever is answered.  The buckets may be dispatched in any order. -/
theorem materialize_asks (hnodup : (infos.map (·.key)).Nodup)
    (hname : ∀ info ∈ infos, encodeKey info.key = .ok (name info.key)) (records : List Record)
    (budget : Int) :
    (∀ key ∈ readable records infos, ∃ b, (asked records infos b).count key = 1 ∧
      ∀ b', b' ≠ b → key ∉ asked records infos b') ∧
    (∀ key, key ∉ readable records infos → ∀ b, key ∉ asked records infos b) ∧
    (∃ requests, Requested records infos name requests ∧
      ∀ (σ : Type) (server : Server σ) (s : σ) (sent : List Request), ∃ outcome next,
        (materialize server.recorded (.int budget) infos records).run (s, sent) =
          (outcome, next, requests.reverse ++ sent)) ∧
    ∀ dispatched : List (Bucket × List Text), dispatched.Perm (buckets (wanted records infos)) →
      ∃ requests, Requested records infos name requests ∧
        ∀ (σ : Type) (server : Server σ) (s : σ) (sent : List Request), ∃ outcomes next,
          (fetchAll server.recorded dispatched).run (s, sent) =
            (.ok outcomes, next, requests.reverse ++ sent) := by
  refine ⟨?_, ?_, ?_, ?_⟩
  · intro key hkey
    obtain ⟨b, hb⟩ := mem_readable.mp hkey
    refine ⟨b, List.count_eq_one_of_mem (nodup_asked hnodup records b) hb, fun b' hne hb' => ?_⟩
    exact hne (asked_unique hnodup hb hb')
  · exact fun key hkey b hb => hkey (mem_readable.mpr ⟨b, hb⟩)
  · refine ⟨_, requested_of_perm hnodup (.refl _), fun σ server s sent => ?_⟩
    obtain ⟨outcomes, next, hfetch⟩ := fetchAll_asks hname (.refl _) server s sent
    obtain ⟨outcome, hrun⟩ := materialize_after_fetchAll server.recorded budget hfetch
    exact ⟨outcome, next, hrun⟩
  · exact fun dispatched hperm => ⟨_, requested_of_perm hnodup hperm,
      fun σ server s sent => fetchAll_asks hname hperm server s sent⟩

/-- A key of each kind: a string, a hash, a document, one that is never read, and one without a
record. -/
def fiveInfos : List KeyInfo :=
  [⟨"a", "string", -1⟩, ⟨"b", "hash", 7⟩, ⟨"c", "ReJSON-RL", -1⟩, ⟨"d", "stream", -1⟩,
    ⟨"e", "string", -1⟩]

/-- Records for the first four of them. -/
def fourRecords : List Record := (fiveInfos.take 4).map (Record.ofInfo "Here")

/-- The bytes of a text of ASCII. -/
def asciiName (key : Text) : Bytes := key.map fun c => .ofNat c.val

/-- The bucket of hashes fails: the documents are asked for all the same, and each key once. -/
theorem materialize_asks_fourRecords :
    ∃ requests, Requested fourRecords fiveInfos asciiName requests ∧
      (requests.flatMap Request.names).Perm [[97], [98], [99]] ∧
      ∃ outcome next, (materialize (replying hashesFail).recorded (.int 10) fiveInfos fourRecords).run
        ((), []) = (outcome, next, requests.reverse ++ []) := by
  have hname : ∀ info ∈ fiveInfos, encodeKey info.key = .ok (asciiName info.key) := by decide
  obtain ⟨-, -, ⟨requests, hrequested, hsent⟩, -⟩ :=
    @materialize_asks fiveInfos asciiName (by decide) hname fourRecords 10
  exact ⟨requests, hrequested, hrequested.names_perm, hsent Unit (replying hashesFail) () []⟩

end Payload

end Keyscope
