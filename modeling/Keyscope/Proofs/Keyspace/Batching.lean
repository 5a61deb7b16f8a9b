/-
# Batching cannot be seen

A snapshot asks for many keys at once, and where the answer for a key stands in a batch depends on
which other keys are in it.  For a server that answers key by key (`Server.AnswersBy`) none of that
can be seen: the snapshot is what asking for each key on its own would give.

`Answers.found` is what such a server shows of one key.  `finding_answers` finds it in the batch of
its bucket, at whatever place it stands there, and `read_answers` says the same of a whole snapshot.
-/
import Keyscope.Proofs.Keyspace.Snapshot

namespace Keyscope

variable {σ : Type}

/-! ## 1. One key -/

namespace Answers

/-- What a server that answers key by key shows of a key. -/
def finding (a : Answers) (info : KeyInfo) : Except Failure Finding := do
  let name ← encodeKey info.key
  match Fate.ofType info.type with
  | .expired => return Bucket.plain .expired
  | .notImplemented => return Bucket.plain (.notImplemented info.type)
  | .read b => b.find (a.reply b name)

theorem finding_of_name (a : Answers) {info : KeyInfo} {name : Bytes}
    (h : encodeKey info.key = .ok name) :
    a.finding info = match Fate.ofType info.type with
      | .expired => .ok (Bucket.plain .expired)
      | .notImplemented => .ok (Bucket.plain (.notImplemented info.type))
      | .read b => b.find (a.reply b name) := by
  rw [finding, h]
  rfl

/-- The key with what is found for it. -/
def found (a : Answers) (info : KeyInfo) : Except Failure (Text × Finding) := do
  return (info.key, ← a.finding info)

end Answers

namespace Payload

variable {server : Server σ} {a : Answers} {infos : List KeyInfo}
  {outcomes : Bucket → Except Failure Value}

/-- What a server that answers key by key gives for a bucket: an answer for each of its keys. -/
theorem Given.answers (ha : server.AnswersBy a)
    (hnames : ∀ info ∈ infos, ∃ bs, encodeKey info.key = .ok bs) (h : Given server infos outcomes)
    (b : Bucket) :
    ∃ names, List.Forall₂ (fun key name => encodeKey key = .ok name) (b.keysOf infos) names ∧
      outcomes b = .ok (.list (names.map (a.reply b))) := by
  by_cases hempty : b.keysOf infos = []
  · exact ⟨[], by rw [hempty]; exact .nil, h.unasked b hempty⟩
  · obtain ⟨names, hkeys⟩ := exists_names hnames b
    obtain ⟨t, ht⟩ := h.asked b names hempty hkeys
    exact ⟨names, Outcome.forall₂_of_mapM hkeys, ht.trans (ha.request b names t)⟩

/-- The name of a key stands at the place of the key. -/
theorem getElem?_idxOf_names : ∀ {keys : List Text} {names : List Bytes},
    List.Forall₂ (fun key name => encodeKey key = .ok name) keys names →
    ∀ {key : Text} {name : Bytes}, key ∈ keys → encodeKey key = .ok name →
      names[keys.idxOf key]? = some name
  | _, _, .nil, _, _, hkey, _ => by cases hkey
  | first :: keys, _ :: names, .cons hfirst hrest, key, name, hkey, hname => by
    rcases eq_or_ne first key with rfl | hne
    · obtain rfl := Except.ok.inj (hfirst.symm.trans hname)
      rw [List.idxOf_cons_self, List.getElem?_cons_zero]
    · have hkey' : key ∈ keys := (List.mem_cons.mp hkey).resolve_left hne.symm
      rw [List.idxOf_cons_ne _ hne, List.getElem?_cons_succ]
      exact getElem?_idxOf_names hrest hkey' hname

/-- **A place in a batch cannot be seen**: what is found for a key is what is shown of it. -/
theorem finding_answers (ha : server.AnswersBy a)
    (hnames : ∀ info ∈ infos, ∃ bs, encodeKey info.key = .ok bs) (h : Given server infos outcomes)
    {info : KeyInfo} (hinfo : info ∈ infos) : finding outcomes infos info = a.finding info := by
  obtain ⟨name, hname⟩ := hnames info hinfo
  rw [finding, a.finding_of_name hname]
  cases hfate : Fate.ofType info.type with
  | expired => rfl
  | notImplemented => rfl
  | read b =>
    obtain ⟨names, hkeys, hb⟩ := h.answers ha hnames b
    have hmem : info.key ∈ b.keysOf infos := by
      rw [keysOf_eq]
      exact List.mem_map_of_mem (mem_inBucket.mpr ⟨hinfo, KeyInfo.bucket?_eq_some.mpr hfate⟩)
    simp only [hb, Bucket.findAt_list, List.getElem?_map, getElem?_idxOf_names hkeys hmem hname,
      Option.map_some, Option.getD_some]

/-- Filling in fresh records from such a server. -/
theorem materialize_answers (ha : server.AnswersBy a)
    (hnames : ∀ info ∈ infos, ∃ bs, encodeKey info.key = .ok bs)
    (hnodup : (infos.map (·.key)).Nodup) (budget : Int) (source : Text) (s : σ) :
    ((materialize server (.int budget) infos (infos.map (Record.ofInfo source))).run s).1 = do
      let found ← infos.mapM a.found
      return (infos.map (Record.ofInfo source)).map (Record.settled budget found) := by
  have hfresh := wanted_fresh source infos
  obtain ⟨outcomes, next, hgiven, hrun⟩ := run_materialize server budget
    (infos.map (Record.ofInfo source)) (by rwa [hfresh]) s
  rw [hfresh] at hgiven hrun
  have hlists : AreLists outcomes := by
    intro b replies hb
    obtain ⟨names, -, hanswers⟩ := hgiven.answers ha hnames b
    exact ⟨_, Except.ok.inj (hb.symm.trans hanswers)⟩
  have hfound : infos.mapM (found outcomes infos) = infos.mapM a.found := by
    refine Outcome.mapM_congr fun info hinfo => ?_
    rw [found, Answers.found, finding_answers ha hnames hgiven hinfo]
  rw [hrun, settleAll_eq hnodup hlists, hfound]

end Payload

/-! ## 2. A whole snapshot -/

/-- Every key keeps its name in what is known of it. -/
theorem Answers.key_of_info {a : Answers} {key : Text} {info : KeyInfo}
    (h : a.info key = .ok info) : info.key = key := by
  obtain ⟨name, -, h⟩ := Outcome.exists_of_bind h
  obtain ⟨type, -, h⟩ := Outcome.exists_of_bind h
  exact congrArg KeyInfo.key (Except.ok.inj h).symm

theorem Answers.keys_of_infos {a : Answers} {keys : List Text} {infos : List KeyInfo}
    (h : keys.mapM a.info = .ok infos) : infos.map (·.key) = keys := by
  have hall := Outcome.forall₂_of_mapM h
  clear h
  induction hall with
  | nil => rfl
  | cons hinfo _ ih => rw [List.map_cons, ih, Answers.key_of_info hinfo]

namespace Snapshot

variable {server : Server σ} {plan : Plan} {rounds : Nat} {target : Target} {a : Answers}

/-- What is read of the keys of a sweep, outcome by outcome. -/
theorem ofScan_answers (ha : server.AnswersBy a) {budget : Int} (hbudget : plan.budget = .int budget)
    {scan : Scan} (hkeys : scan.keys.Nodup) (s : σ) :
    ((ofScan server plan target scan).run s).1 = do
      let _ ← scan.keys.mapM encodeKey
      let infos ← scan.keys.mapM a.info
      let found ← infos.mapM a.found
      return ⟨target.name,
        (infos.map (Record.ofInfo target.name)).map (Record.settled budget found),
        scan.truncated⟩ := by
  have hload := KeyInfo.load_answers ha scan.keys s
  rw [ofScan, Session.outcome_bind
    (g := fun infos => do
      let found ← infos.mapM a.found
      return ⟨target.name,
        (infos.map (Record.ofInfo target.name)).map (Record.settled budget found),
        scan.truncated⟩) hload ?_]
  · simp only [bind_assoc]
  intro infos loaded hrun
  rw [hrun] at hload
  obtain ⟨names, hnames, hinfos⟩ := Outcome.exists_of_bind hload.symm
  have hsame := Answers.keys_of_infos hinfos
  have hencode : ∀ info ∈ infos, ∃ bs, encodeKey info.key = .ok bs := by
    intro info hinfo
    refine Outcome.exists_of_mapM hnames ?_
    rw [← hsame]
    exact List.mem_map_of_mem hinfo
  rw [← hsame] at hkeys
  rw [Record.listOfInfos_eq target.name hkeys, hbudget, Session.outcome_bind
    (g := fun records => .ok ⟨target.name, records, scan.truncated⟩)
    (Payload.materialize_answers ha hencode hkeys budget target.name loaded) fun _ _ _ => rfl]
  simp only [bind_assoc]
  rfl

/-- **Batching cannot be seen**: behind its sweep, a snapshot of a server that answers key by key is
what asking for each key on its own gives. -/
theorem read_answers (ha : server.AnswersBy a) {budget : Int} (hbudget : plan.budget = .int budget)
    {s next : σ} {scan : Scan}
    (h : (Scan.run server plan.limits rounds).run s = (.ok (some scan), next)) :
    ((read server plan rounds target).run s).1 = do
      let _ ← scan.keys.mapM encodeKey
      let infos ← scan.keys.mapM a.info
      let found ← infos.mapM a.found
      return some ⟨target.name,
        (infos.map (Record.ofInfo target.name)).map (Record.settled budget found),
        scan.truncated⟩ := by
  have hsome : ∀ {r : Except Failure Snapshot}, r.map some = r >>= fun found => .ok (some found) :=
    rfl
  rw [run_read_some h, ofScan_answers ha hbudget (Scan.run_nodup h), hsome]
  simp only [bind_assoc]
  rfl

end Snapshot

end Keyscope
