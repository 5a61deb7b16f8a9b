/-
# Keys do not disturb each other

Two servers may answer differently for one key, however they like, and alike for all others.  Then
their snapshots differ in the record of that key and in nothing else (`Snapshot.take_isolated`).

That is not plain from how keys are read: another type moves the key to another bucket, or to none,
and with it go the places of other keys in two batches.  But batches cannot be seen
(`Snapshot.read_answers`), so it is enough to compare what the two servers show key by key: two
lists whose members agree one by one, except for those of the one key (`SameBut`).
-/
import Keyscope.Proofs.Keyspace.Batching

namespace Keyscope

variable {σ σ₁ σ₂ : Type}

/-! ## 1. The same but for one key -/

/-- Two things are about the same key, and they are the same unless its name is the given one. -/
def SameBut {α : Type} (k : Bytes) (key : α → Text) (x y : α) : Prop :=
  key x = key y ∧ (encodeKey (key x) ≠ .ok k → x = y)

theorem SameBut.refl {α : Type} (k : Bytes) (key : α → Text) (x : α) : SameBut k key x x :=
  ⟨rfl, fun _ => rfl⟩

theorem SameBut.keys {α : Type} {k : Bytes} {key : α → Text} {xs ys : List α}
    (h : List.Forall₂ (SameBut k key) xs ys) : xs.map key = ys.map key := by
  induction h with
  | nil => rfl
  | cons hxy _ ih => rw [List.map_cons, List.map_cons, hxy.1, ih]

/-- Answers that are the same for all names but one. -/
structure Answers.SameBut (k : Bytes) (a₁ a₂ : Answers) : Prop where
  string : ∀ name, name ≠ k → a₁.string name = a₂.string name
  command : ∀ c name, name ≠ k → a₁.command c name = a₂.command c name

/-- All answers for a name have a text. -/
structure Answers.HasTexts (a : Answers) (name : Bytes) : Prop where
  string : (a.string name).HasText
  command : ∀ c, (a.command c name).HasText

namespace Answers

variable {a a₁ a₂ : Answers} {k name : Bytes}

theorem SameBut.reply (h : SameBut k a₁ a₂) (b : Bucket) (hname : name ≠ k) :
    a₁.reply b name = a₂.reply b name := by
  cases b with
  | strings => exact h.string name hname
  | _ => exact h.command _ name hname

theorem HasTexts.reply (h : a.HasTexts name) (b : Bucket) : (a.reply b name).HasText := by
  cases b with
  | strings => exact h.string
  | _ => exact h.command _

/-- Answers that have a text tell something of a key. -/
theorem exists_info (h : a.HasTexts name) {key : Text} (hname : encodeKey key = .ok name) :
    ∃ info, a.info key = .ok info ∧ info.key = key := by
  rw [a.info_of_name hname]
  exact KeyInfo.exists_ofPair key (h.command .type) _

/-- Answers that have a text show something of a key. -/
theorem exists_found (h : a.HasTexts name) {info : KeyInfo}
    (hname : encodeKey info.key = .ok name) : ∃ f, a.found info = .ok (info.key, f) := by
  have hfinding : ∃ f, a.finding info = .ok f := by
    rw [a.finding_of_name hname]
    cases Fate.ofType info.type with
    | expired => exact ⟨_, rfl⟩
    | notImplemented => exact ⟨_, rfl⟩
    | read b =>
      rcases eq_or_ne b .documents with rfl | hb
      · exact Bucket.exists_findDocument (h.reply .documents)
      · exact ⟨_, Bucket.find_typed hb _⟩
  obtain ⟨f, hf⟩ := hfinding
  exact ⟨f, by rw [found, hf]; rfl⟩

/-- A server that answers key by key, and so that all answers have a text, answers with lists. -/
theorem lists {server : Server σ} (ha : server.AnswersBy a) (htexts : ∀ name, a.HasTexts name) :
    server.Lists := by
  intro r s reply hreads hreply
  cases r with
  | strings names =>
    obtain rfl := Except.ok.inj ((ha.strings names s).symm.trans hreply)
    refine ⟨_, rfl, fun w hw => ?_⟩
    obtain ⟨name, -, rfl⟩ := List.mem_map.mp hw
    exact (htexts name).string
  | batch commands =>
    obtain rfl := Except.ok.inj ((ha.batch commands s).symm.trans hreply)
    refine ⟨_, rfl, fun w hw => ?_⟩
    obtain ⟨c, -, rfl⟩ := List.mem_map.mp hw
    exact (htexts c.2).command c.1
  | _ => cases hreads

end Answers

/-! ## 2. One key, and then all -/

section Alike

variable {a₁ a₂ : Answers} {k : Bytes}

/-- What is told of a key is the same, unless it is the one. -/
theorem info_alike (h : Answers.SameBut k a₁ a₂) (h₁ : a₁.HasTexts k) (h₂ : a₂.HasTexts k)
    (key : Text) : Alike (SameBut k KeyInfo.key) (a₁.info key) (a₂.info key) := by
  cases hname : encodeKey key with
  | error e =>
    rw [Answers.info, Answers.info, hname]
    exact .error e
  | ok name =>
    rcases eq_or_ne name k with rfl | hne
    · obtain ⟨i, hi, hkey⟩ := Answers.exists_info h₁ hname
      obtain ⟨j, hj, rfl⟩ := Answers.exists_info h₂ hname
      rw [hi, hj]
      refine .ok ⟨hkey, fun hother => ?_⟩
      rw [hkey] at hother
      exact absurd hname hother
    · have hsame : a₁.info key = a₂.info key := by
        rw [a₁.info_of_name hname, a₂.info_of_name hname, h.command _ name hne,
          h.command _ name hne]
      rw [hsame]
      exact .refl (SameBut.refl k _) _

/-- What is found for a key is the same, unless it is the one. -/
theorem found_alike (h : Answers.SameBut k a₁ a₂) (h₁ : a₁.HasTexts k) (h₂ : a₂.HasTexts k)
    {i j : KeyInfo} (hij : SameBut k KeyInfo.key i j) :
    Alike (SameBut k Prod.fst) (a₁.found i) (a₂.found j) := by
  obtain ⟨hkey, hsame⟩ := hij
  cases hname : encodeKey i.key with
  | error e =>
    have hname' : encodeKey j.key = .error e := by rw [← hkey, hname]
    rw [Answers.found, Answers.finding, hname, Answers.found, Answers.finding, hname']
    exact .error e
  | ok name =>
    rcases eq_or_ne name k with rfl | hne
    · obtain ⟨f, hf⟩ := Answers.exists_found h₁ hname
      obtain ⟨g, hg⟩ := Answers.exists_found h₂ (hkey ▸ hname)
      rw [hf, hg]
      exact .ok ⟨hkey, fun hother => absurd hname hother⟩
    · have hother : encodeKey i.key ≠ .ok k := by
        intro hk
        exact hne (Except.ok.inj (hname.symm.trans hk))
      obtain rfl := hsame hother
      have hfound : a₁.found i = a₂.found i := by
        rw [Answers.found, Answers.found, a₁.finding_of_name hname, a₂.finding_of_name hname]
        simp only [h.reply _ hne]
      rw [hfound]
      exact .refl (SameBut.refl k _) _

/-- Findings that are the same but for one key settle a record of another key alike. -/
theorem settled_same (budget : Int) {fs gs : List (Text × Finding)}
    (h : List.Forall₂ (SameBut k Prod.fst) fs gs) :
    ∀ {r : Record}, encodeKey r.key ≠ .ok k → r.settled budget fs = r.settled budget gs := by
  induction h with
  | nil => exact fun _ => rfl
  | @cons f g fs gs hfg _ ih =>
    intro r hr
    obtain ⟨hkey, hsame⟩ := hfg
    rw [Record.settled, Record.settled, List.foldl_cons, List.foldl_cons]
    by_cases hf : f.1 = r.key
    · obtain rfl := hsame (by rwa [hf])
      rw [if_pos hf]
      exact ih (by simpa using hr)
    · rw [if_neg hf, if_neg (by rwa [← hkey])]
      exact ih hr

/-- Records that are the same but for one key stay so. -/
theorem settled_alike (source : Text) (budget : Int) {infos₁ infos₂ : List KeyInfo}
    {fs gs : List (Text × Finding)} (hinfos : List.Forall₂ (SameBut k KeyInfo.key) infos₁ infos₂)
    (hfound : List.Forall₂ (SameBut k Prod.fst) fs gs) :
    List.Forall₂ (SameBut k Record.key)
      ((infos₁.map (Record.ofInfo source)).map (Record.settled budget fs))
      ((infos₂.map (Record.ofInfo source)).map (Record.settled budget gs)) := by
  rw [List.map_map, List.map_map, List.forall₂_map_left_iff, List.forall₂_map_right_iff]
  refine hinfos.imp fun i j hij => ?_
  simp only [SameBut, Function.comp_apply, Record.key_settled]
  refine ⟨hij.1, fun hother => ?_⟩
  obtain rfl := hij.2 hother
  exact settled_same budget hfound hother

end Alike

/-! ## 3. Two snapshots -/

/-- Two servers connect and hand out pages of keys alike, from states that are related. -/
structure Server.SweptAlike (server₁ : Server σ₁) (server₂ : Server σ₂) (R : σ₁ → σ₂ → Prop) :
    Prop where
  connect : ∀ limit s₁ s₂, R s₁ s₂ →
    (server₁ (.connect limit none) s₁).1 = (server₂ (.connect limit none) s₂).1 ∧
      R (server₁ (.connect limit none) s₁).2 (server₂ (.connect limit none) s₂).2
  scan : ∀ cursor count s₁ s₂, R s₁ s₂ →
    (server₁ (.scan cursor count) s₁).1 = (server₂ (.scan cursor count) s₂).1 ∧
      R (server₁ (.scan cursor count) s₁).2 (server₂ (.scan cursor count) s₂).2

namespace Snapshot

/-- Two snapshots are the same but for the record of the key with this name. -/
structure SameBut (k : Bytes) (x y : Snapshot) : Prop where
  source : x.source = y.source
  truncated : x.truncated = y.truncated
  records : List.Forall₂ (Keyscope.SameBut k Record.key) x.records y.records

variable {server₁ : Server σ₁} {server₂ : Server σ₂} {R : σ₁ → σ₂ → Prop} {a₁ a₂ : Answers}
  {k : Bytes} {plan : Plan} {rounds : Nat} {target : Target}

/-- Servers that hand out the same pages are swept alike. -/
theorem resume_alike (h : server₁.SweptAlike server₂ R) (size : Value) :
    ∀ (rounds : Nat) (sweep : Scan.Sweep) (s₁ : σ₁) (s₂ : σ₂), R s₁ s₂ →
      ((Scan.resume server₁ size rounds sweep).run s₁).1 =
        ((Scan.resume server₂ size rounds sweep).run s₂).1
  | 0, _, _, _, _ => rfl
  | rounds + 1, sweep, s₁, s₂, hR => by
    obtain ⟨hsame, hnext⟩ := h.scan sweep.cursor size s₁ s₂ hR
    rw [Scan.resume, Scan.resume, Session.run_bind, Session.run_ask, Session.run_bind,
      Session.run_ask]
    rcases hreply₁ : server₁ (.scan sweep.cursor size) s₁ with ⟨r, next₁⟩
    rcases hreply₂ : server₂ (.scan sweep.cursor size) s₂ with ⟨r', next₂⟩
    rw [hreply₁, hreply₂] at hsame hnext
    obtain rfl : r = r' := hsame
    cases r with
    | error e => rfl
    | ok reply =>
      simp only [Session.run_bind, Session.run_ofExcept]
      cases sweep.absorb reply with
      | error e => rfl
      | ok goesOn =>
        cases goesOn with
        | inl next => exact resume_alike h size rounds next next₁ next₂ hnext
        | inr scan => rfl

/-- Over connections whose sweeps come out the same, the snapshots are the same but for one key. -/
theorem read_alike (hanswers₁ : server₁.AnswersBy a₁) (hanswers₂ : server₂.AnswersBy a₂)
    (h : Answers.SameBut k a₁ a₂) (htexts₁ : a₁.HasTexts k) (htexts₂ : a₂.HasTexts k) {budget : Int}
    (hbudget : plan.budget = .int budget) {s₁ : σ₁} {s₂ : σ₂}
    (hsweep : ((Scan.run server₁ plan.limits rounds).run s₁).1 =
      ((Scan.run server₂ plan.limits rounds).run s₂).1) :
    Alike (Option.Rel (SameBut k)) ((read server₁ plan rounds target).run s₁).1
      ((read server₂ plan rounds target).run s₂).1 := by
  rcases hrun₁ : (Scan.run server₁ plan.limits rounds).run s₁ with ⟨r, next₁⟩
  rcases hrun₂ : (Scan.run server₂ plan.limits rounds).run s₂ with ⟨r', next₂⟩
  rw [hrun₁, hrun₂] at hsweep
  obtain rfl : r = r' := hsweep
  rcases r with e | _ | scan
  · rw [run_read_error hrun₁, run_read_error hrun₂]
    exact .error _
  · rw [run_read_none hrun₁, run_read_none hrun₂]
    exact .ok .none
  · rw [read_answers hanswers₁ hbudget hrun₁, read_answers hanswers₂ hbudget hrun₂]
    have hkeys : List.Forall₂ Eq scan.keys scan.keys := List.forall₂_same.mpr fun _ _ => rfl
    have hinfos : Alike (List.Forall₂ (Keyscope.SameBut k KeyInfo.key)) (scan.keys.mapM a₁.info)
        (scan.keys.mapM a₂.info) := by
      refine Alike.mapM (fun key key' hkey => ?_) hkeys
      subst hkey
      exact info_alike h htexts₁ htexts₂ key
    refine (Alike.refl (fun _ => rfl) (scan.keys.mapM encodeKey)).bind fun _ _ _ => ?_
    refine hinfos.bind fun infos₁ infos₂ hinfos' => ?_
    have hfound : Alike (List.Forall₂ (Keyscope.SameBut k Prod.fst)) (infos₁.mapM a₁.found)
        (infos₂.mapM a₂.found) :=
      Alike.mapM (fun i j hij => found_alike h htexts₁ htexts₂ hij) hinfos'
    refine hfound.bind fun fs gs hfound' => ?_
    exact .ok (.some ⟨rfl, rfl, settled_alike target.name budget hinfos' hfound'⟩)

/-- So it is over connections that still have to be opened. -/
theorem take_alike (hanswers₁ : server₁.AnswersBy a₁) (hanswers₂ : server₂.AnswersBy a₂)
    (hswept : server₁.SweptAlike server₂ R) (h : Answers.SameBut k a₁ a₂) (htexts₁ : a₁.HasTexts k)
    (htexts₂ : a₂.HasTexts k) {budget : Int} (hbudget : plan.budget = .int budget) {s₁ : σ₁}
    {s₂ : σ₂} (hR : R s₁ s₂) :
    Alike (Option.Rel (SameBut k)) ((take server₁ plan rounds target).run s₁).1
      ((take server₂ plan rounds target).run s₂).1 := by
  obtain ⟨hsame, hnext⟩ := hswept.connect plan.connectLimit s₁ s₂ hR
  rcases hconnect₁ : server₁ (.connect plan.connectLimit none) s₁ with ⟨r, opened₁⟩
  rcases hconnect₂ : server₂ (.connect plan.connectLimit none) s₂ with ⟨r', opened₂⟩
  rw [hconnect₁, hconnect₂] at hsame hnext
  obtain rfl : r = r' := hsame
  cases r with
  | error e =>
    rw [run_take_error hconnect₁, run_take_error hconnect₂]
    exact .error e
  | ok client =>
    rw [run_take_fst hconnect₁, run_take_fst hconnect₂]
    exact read_alike hanswers₁ hanswers₂ h htexts₁ htexts₂ hbudget
      (resume_alike hswept plan.limits.pageSize rounds _ opened₁ opened₂ hnext)

/-- **Keys do not disturb each other.**  Two servers that connect and hand out pages alike, and
whose answers are the same for all names but one, have snapshots that are the same but for the
record of that name: both fail, and alike, or both return, or the sweeps of both are under way.  They
do return if their sweeps do, over pages of byte strings, and all answers have a text; then there is a
record for every key of the sweep. -/
theorem take_isolated (hanswers₁ : server₁.AnswersBy a₁) (hanswers₂ : server₂.AnswersBy a₂)
    (hswept : server₁.SweptAlike server₂ R) (h : Answers.SameBut k a₁ a₂) (htexts₁ : a₁.HasTexts k)
    (htexts₂ : a₂.HasTexts k) {budget : Int} (hbudget : plan.budget = .int budget) {s₁ : σ₁}
    {s₂ : σ₂} (hR : R s₁ s₂) :
    Alike (Option.Rel (SameBut k)) ((take server₁ plan rounds target).run s₁).1
        ((take server₂ plan rounds target).run s₂).1 ∧
      (server₁.ByteKeys → (∀ name, a₁.HasTexts name) → ∀ client opened scan swept,
        server₁ (.connect plan.connectLimit none) s₁ = (.ok client, opened) →
        (Scan.run server₁ plan.limits rounds).run opened = (.ok (some scan), swept) →
        ∃ x y, ((take server₁ plan rounds target).run s₁).1 = .ok (some x) ∧
          ((take server₂ plan rounds target).run s₂).1 = .ok (some y) ∧
          x.records.map (·.key) = scan.keys ∧ y.records.map (·.key) = scan.keys) := by
  have halike : Alike (Option.Rel (SameBut k)) ((take server₁ plan rounds target).run s₁).1
      ((take server₂ plan rounds target).run s₂).1 :=
    take_alike hanswers₁ hanswers₂ hswept h htexts₁ htexts₂ hbudget hR
  refine ⟨halike, fun hbytes htexts client opened scan swept hconnect hscan => ?_⟩
  obtain ⟨records, last, hread, hkeys⟩ :=
    read_returns target hbytes (Answers.lists hanswers₁ htexts) hbudget hscan
  have hfirst : ((take server₁ plan rounds target).run s₁).1 =
      .ok (some ⟨target.name, records, scan.truncated⟩) := by
    rw [run_take_fst hconnect, hread]
  rw [hfirst] at halike
  obtain ⟨_, hy, hsame⟩ := halike.exists_ok
  cases hsame with
  | some hsame => exact ⟨_, _, hfirst, hy, hkeys, (SameBut.keys hsame.records).symm.trans hkeys⟩

end Snapshot

/-- Answers of strings that are all the same. -/
def Answers.ofStrings : Answers where
  string _ := .bytes [118]
  command c _ := if c = .type then .text "string" else .bytes [53]

/-- The same answers, except that the key `a` is a sorted set that cannot be read. -/
def Answers.ofStringsBut : Answers where
  string name := Answers.ofStrings.string name
  command c name :=
    if name = [97] then (if c = .type then .text "zset" else .error (.plain "TimeoutError" none))
    else Answers.ofStrings.command c name

/-- A page of the keys `a` and `b`. -/
def pageOfTwo : Value := .tuple [.int 0, .list [.bytes [97], .bytes [98]]]

theorem Answers.hasTexts_ofStrings (name : Bytes) : ofStrings.HasTexts name :=
  ⟨⟨_, rfl⟩, fun c => by cases c <;> exact ⟨_, rfl⟩⟩

/-- The key `a` leaves the bucket of the key `b`, which is read as before. -/
theorem Snapshot.take_withoutSortedSet :
    Alike (Option.Rel (SameBut [97]))
      ((take (Answers.ofStrings.server fun _ => pageOfTwo) Plan.ofTwo 1 here).run ()).1
      ((take (Answers.ofStringsBut.server fun _ => pageOfTwo) Plan.ofTwo 1 here).run ()).1 ∧
    ∃ x y,
      ((take (Answers.ofStrings.server fun _ => pageOfTwo) Plan.ofTwo 1 here).run ()).1 =
        .ok (some x) ∧
      ((take (Answers.ofStringsBut.server fun _ => pageOfTwo) Plan.ofTwo 1 here).run ()).1 =
        .ok (some y) ∧
      x.records.map (·.key) = Text.sort ["b", "a"] ∧
      y.records.map (·.key) = Text.sort ["b", "a"] := by
  have hsame : Answers.SameBut [97] Answers.ofStrings Answers.ofStringsBut :=
    ⟨fun _ _ => rfl, fun c name hname => (if_neg hname).symm⟩
  have htexts : Answers.ofStringsBut.HasTexts [97] :=
    ⟨⟨_, rfl⟩, fun c => by cases c <;> exact ⟨_, rfl⟩⟩
  have hswept : (Answers.ofStrings.server fun _ => pageOfTwo).SweptAlike
      (Answers.ofStringsBut.server fun _ => pageOfTwo) fun _ _ => True :=
    ⟨fun _ _ _ _ => ⟨rfl, trivial⟩, fun _ _ _ _ _ => ⟨rfl, trivial⟩⟩
  have hbytes : (Answers.ofStrings.server fun _ => pageOfTwo).ByteKeys := by
    intro cursor count s reply hreply next page hparts raw hraw
    obtain rfl := Except.ok.inj hreply
    obtain ⟨-, rfl⟩ := Prod.mk.inj (Except.ok.inj hparts)
    simp only [List.mem_cons, List.not_mem_nil, or_false] at hraw
    rcases hraw with rfl | rfl
    · exact ⟨[97], rfl⟩
    · exact ⟨[98], rfl⟩
  obtain ⟨halike, hreturns⟩ := @take_isolated _ _ _ _ _ _ _ [97] Plan.ofTwo 1 here
    (Answers.ofStrings.server_answersBy fun _ => pageOfTwo)
    (Answers.ofStringsBut.server_answersBy fun _ => pageOfTwo) hswept hsame
    (Answers.hasTexts_ofStrings [97]) htexts 10 rfl () () trivial
  exact ⟨halike, hreturns hbytes Answers.hasTexts_ofStrings .null ()
    ⟨Text.sort ["b", "a"], false⟩ () rfl rfl⟩

end Keyscope
