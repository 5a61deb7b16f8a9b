/-
# The names of keys

A key is bytes on the server and a text everywhere else.  Nothing is lost between the two: a key
that a page names is told from every other one (`collect_names_distinct`), and what is asked about
it later is asked about the bytes that the page had (`read_addresses`).  Both follow from the codec
of names alone; `encodeKey_keyName` has all three together.
-/
import Mathlib.Data.List.Nodup
import Keyscope.Proofs.Keyspace.Snapshot
import Keyscope.Proofs.Text.Codec

namespace Keyscope

variable {σ : Type}

/-! ## 1. Lists of names -/

/-- What holds of preimages of all members of a list holds of a list. -/
theorem exists_map_eq {α β : Type} {f : α → β} {P : α → Prop} : ∀ {l : List β},
    (∀ y ∈ l, ∃ x, P x ∧ f x = y) → ∃ xs : List α, (∀ x ∈ xs, P x) ∧ xs.map f = l
  | [], _ => ⟨[], by simp, rfl⟩
  | y :: l, h => by
    obtain ⟨x, hx, rfl⟩ := h y List.mem_cons_self
    obtain ⟨xs, hxs, rfl⟩ := exists_map_eq fun z hz => h z (List.mem_cons_of_mem _ hz)
    exact ⟨x :: xs, List.forall_mem_cons.mpr ⟨hx, hxs⟩, rfl⟩

theorem mapM_encodeKey (names : List Bytes) :
    (names.map Utf8.decodeEscaped).mapM encodeKey = .ok names := by
  have h : names.mapM (encodeKey ∘ Utf8.decodeEscaped) = .ok (names.map id) :=
    Outcome.mapM_ok fun bs _ => encodeKey_decodeEscaped bs
  rw [List.mapM_map, h, List.map_id]

/-! ## 2. Sweeping -/

namespace Scan

theorem mem_collected {name : Bytes} {names : List Bytes} :
    Utf8.decodeEscaped name ∈ collected names ↔ name ∈ names := by
  rw [collected, List.mem_reverse, List.mem_map_of_injective Utf8.decodeEscaped_injective]

/-- **Different bytes are different keys.**  What a page adds to the keys that were seen are the
names on it that are not among theirs, each once; only the end of a page can be left out. -/
theorem collect_names_distinct : ∀ (names seen : List Bytes) (room : Option Nat),
    ∃ taken behind left rest, names = taken ++ behind ∧
      collect room (collected seen) (names.map .bytes) =
        .ok (left, collected (seen ++ (taken.removeAll seen).eraseDups), rest) ∧
      (rest = none ∧ behind = [] ∨ rest = some (behind.map .bytes))
  | [], seen, room => ⟨[], [], room, none, rfl, by simp [collect, List.removeAll], .inl ⟨rfl, rfl⟩⟩
  | name :: names, seen, room => by
    rw [List.map_cons, collect,
      show (Value.bytes name).keyName = .ok (Utf8.decodeEscaped name) from rfl]
    simp only
    by_cases hseen : name ∈ seen
    · rw [if_pos (by simpa using mem_collected.mpr hseen)]
      obtain ⟨taken, behind, left, rest, rfl, hcollect, hrest⟩ :=
        collect_names_distinct names seen room
      refine ⟨name :: taken, behind, left, rest, rfl, ?_, hrest⟩
      rw [List.cons_removeAll, if_neg (by simpa using hseen), hcollect]
    have hcons : Utf8.decodeEscaped name :: collected seen = collected (seen ++ [name]) := by
      rw [collected_append]
      rfl
    rw [if_neg (by simpa using mt mem_collected.mp hseen), hcons]
    split
    · refine ⟨[name], names, some 0, _, rfl, ?_, .inr rfl⟩
      rw [List.cons_removeAll, if_pos (by simpa using hseen)]
      rfl
    · obtain ⟨taken, behind, left, rest, rfl, hcollect, hrest⟩ :=
        collect_names_distinct names (seen ++ [name]) (room.map (· - 1))
      refine ⟨name :: taken, behind, left, rest, rfl, ?_, hrest⟩
      have hfilter : (taken.removeAll seen).filter (fun other => !other == name) =
          taken.removeAll (seen ++ [name]) := by
        rw [List.removeAll, List.removeAll, List.filter_filter]
        refine List.filter_congr fun other _ => ?_
        rw [Bool.eq_iff_iff]
        simp [and_comm]
      rw [List.cons_removeAll, if_pos (by simpa using hseen), List.eraseDups_cons, hfilter,
        hcollect, List.append_assoc]
      rfl

end Scan

/-- A byte string that is on some page of a server. -/
def Server.Holds (server : Server σ) (size : Value) (bs : Bytes) : Prop :=
  ∃ cursor s reply next page, (server (.scan cursor size) s).1 = .ok reply ∧
    Scan.Sweep.parts reply = .ok (next, page) ∧ Value.bytes bs ∈ page

/-- **Every key of a sweep is the name of some bytes** of a page. -/
theorem Scan.run_named {server : Server σ} (hbytes : server.ByteKeys) {limits : Limits}
    {rounds : Nat} {s next : σ} {scan : Scan}
    (h : (run server limits rounds).run s = (.ok (some scan), next)) :
    ∃ names : List Bytes, names.Nodup ∧ (∀ bs ∈ names, server.Holds limits.pageSize bs) ∧
      scan.keys = names.map Utf8.decodeEscaped := by
  have hkeys : ∀ key ∈ scan.keys, ∃ bs, server.Holds limits.pageSize bs ∧
      Utf8.decodeEscaped bs = key := by
    refine (resume_keeps (P := fun key => ∃ bs, server.Holds limits.pageSize bs ∧
      Utf8.decodeEscaped bs = key) ?_ rounds h List.nodup_nil (by simp [Sweep.start])).2
    intro cursor s reply hreply next page hparts raw hraw key hkey
    obtain ⟨bs, rfl⟩ := hbytes cursor limits.pageSize s reply hreply next page hparts raw hraw
    exact ⟨bs, ⟨cursor, s, reply, next, page, hreply, hparts, hraw⟩, Except.ok.inj hkey⟩
  obtain ⟨names, hsent, hnames⟩ := exists_map_eq hkeys
  have hnodup := run_nodup h
  rw [← hnames] at hnodup
  exact ⟨names, hnodup.of_map Utf8.decodeEscaped, hsent, hnames.symm⟩

/-! ## 3. Reading -/

/-- Types and lifetimes are asked of the bytes of the keys, in one request. -/
theorem KeyInfo.load_addresses (server : Server σ) (names : List Bytes) (s : σ)
    (sent : List Request) :
    ∃ outcome next, (load server.recorded (names.map Utf8.decodeEscaped)).run (s, sent) =
      (outcome, next, (if names = [] then [] else [.batch (names.flatMap commands)]) ++ sent) := by
  by_cases hnames : names = []
  · subst hnames
    exact ⟨_, _, rfl⟩
  have hrun := run_load server.recorded (by simpa using hnames) (mapM_encodeKey names) (s, sent)
  rw [hrun, Server.recorded, if_neg hnames]
  rcases server (.batch (names.flatMap commands)) s with ⟨_ | replies, next⟩ <;> exact ⟨_, _, rfl⟩

namespace Payload

/-- Values are asked of the bytes of the keys, bucket by bucket. -/
theorem fetchAll_addresses (server : Server σ) (ps : List (Bucket × List Bytes)) (s : σ)
    (sent : List Request) :
    ∃ outcomes next,
      (fetchAll server.recorded (ps.map fun p => (p.1, p.2.map Utf8.decodeEscaped))).run (s, sent) =
        (.ok outcomes, next, (ps.map fun p => p.1.request p.2).reverse ++ sent) := by
  have hnames : ∀ p ∈ ps.map fun p => (p.1, p.2.map Utf8.decodeEscaped, p.2),
      p.2.1.mapM encodeKey = .ok p.2.2 := by
    intro p hp
    obtain ⟨q, -, rfl⟩ := List.mem_map.mp hp
    exact mapM_encodeKey q.2
  simpa only [List.map_map, Function.comp_def] using fetchAll_sends server hnames s sent

/-- The buckets of keys that are names of bytes are buckets of bytes. -/
theorem exists_buckets {names : List Bytes} {infos : List KeyInfo}
    (h : (infos.map (·.key)).Sublist (names.map Utf8.decodeEscaped)) :
    ∃ ps : List (Bucket × List Bytes), (∀ p ∈ ps, p.2.Sublist names) ∧
      buckets infos = ps.map fun p => (p.1, p.2.map Utf8.decodeEscaped) := by
  obtain ⟨ps, hps, hbuckets⟩ := exists_map_eq (l := buckets infos)
    (f := fun p : Bucket × List Bytes => (p.1, p.2.map Utf8.decodeEscaped))
    (P := fun p => p.2.Sublist names) <| by
      rintro ⟨b, keys⟩ hp
      have hkeys : keys.Sublist (names.map Utf8.decodeEscaped) := by
        rw [show keys = b.keysOf infos from (mem_buckets.mp hp).1, keysOf_eq]
        exact (List.filter_sublist.map _).trans h
      obtain ⟨own, hown, rfl⟩ := List.sublist_map_iff.mp hkeys
      exact ⟨(b, own), hown, rfl⟩
  exact ⟨ps, hps, hbuckets.symm⟩

/-- **Materializing asks about the bytes of the keys** and about nothing else. -/
theorem materialize_addresses (server : Server σ) (budget : Value) {names : List Bytes}
    {infos : List KeyInfo} (hinfos : infos.map (·.key) = names.map Utf8.decodeEscaped)
    (records : List Record) (s : σ) (sent : List Request) :
    ∃ ps : List (Bucket × List Bytes), (∀ p ∈ ps, p.2.Sublist names) ∧ ∃ outcome next,
      (materialize server.recorded budget infos records).run (s, sent) =
        (outcome, next, (ps.map fun p => p.1.request p.2).reverse ++ sent) := by
  have hwanted : ((wanted records infos).map (·.key)).Sublist (names.map Utf8.decodeEscaped) := by
    rw [← hinfos]
    exact List.filter_sublist.map _
  obtain ⟨ps, hps, hbuckets⟩ := exists_buckets hwanted
  obtain ⟨outcomes, next, hrun⟩ := fetchAll_addresses server ps s sent
  simp only [materialize, hbuckets]
  cases hsettled : records.mapM (Record.settle budget ((wanted records infos).filterMap unread?)) with
  | error e => exact ⟨[], by simp, .error e, s, rfl⟩
  | ok settled =>
    refine ⟨ps, hps, (do
      let found ← findings outcomes
      settled.mapM (Record.settle budget found) : Except Failure (List Record)), next, ?_⟩
    rw [Session.run_bind_ok (Session.run_ofExcept _ _), Session.run_bind_ok hrun]
    cases findings outcomes with
    | error e => rfl
    | ok found => rfl

end Payload

/-- **A snapshot asks about the keys that it has swept**: for their types and lifetimes all at once,
and for values of some of them at a time. -/
theorem Snapshot.read_addresses {server : Server σ} (hbytes : server.ByteKeys) {plan : Plan}
    {rounds : Nat} (target : Target) {s swept : σ × List Request} {scan : Scan}
    (hsweep : (Scan.run server.recorded plan.limits rounds).run s = (.ok (some scan), swept)) :
    ∃ names : List Bytes, names.Nodup ∧ (∀ bs ∈ names, server.Holds plan.limits.pageSize bs) ∧
      scan.keys = names.map Utf8.decodeEscaped ∧
    ∃ ps : List (Bucket × List Bytes), (∀ p ∈ ps, p.2.Sublist names) ∧ ∃ outcome last,
      (read server.recorded plan rounds target).run s = (outcome, last,
        (ps.map fun p => p.1.request p.2).reverse ++
          (if names = [] then [] else [.batch (names.flatMap KeyInfo.commands)]) ++ swept.2) := by
  obtain ⟨names, hnodup, hholds, hkeys⟩ := Scan.run_named hbytes.recorded hsweep
  have hholds' : ∀ bs ∈ names, server.Holds plan.limits.pageSize bs := by
    intro bs hbs
    obtain ⟨cursor, t, rest⟩ := hholds bs hbs
    exact ⟨cursor, t.1, rest⟩
  refine ⟨names, hnodup, hholds', hkeys, ?_⟩
  obtain ⟨loading, loaded, hload⟩ := KeyInfo.load_addresses server names swept.1 swept.2
  rw [← hkeys] at hload
  rw [run_read_some hsweep, ofScan]
  cases loading with
  | error e =>
    refine ⟨[], by simp, .error e, loaded, ?_⟩
    rw [Session.run_bind_error hload]
    rfl
  | ok infos =>
    have hinfos := (KeyInfo.keys_of_load hload).1.trans hkeys
    obtain ⟨ps, hps, outcome, next, hmaterialize⟩ := Payload.materialize_addresses server plan.budget
      hinfos (Record.listOfInfos target.name infos) loaded
      ((if names = [] then [] else [.batch (names.flatMap KeyInfo.commands)]) ++ swept.2)
    refine ⟨ps, hps, outcome.map fun records => some ⟨target.name, records, scan.truncated⟩, next, ?_⟩
    rw [Session.run_bind_ok hload, List.append_assoc]
    cases outcome with
    | error e =>
      rw [Session.run_bind_error hmaterialize]
      rfl
    | ok records =>
      rw [Session.run_bind_ok hmaterialize]
      rfl

/-! ## 4. There and back -/

/-- **Key names survive the way to a text and back.**  Every byte string is a name, and different
ones are different names; a page that repeats a key adds it once, and no other one with it.  What is
asked later is asked about the bytes that the pages had. -/
theorem encodeKey_keyName :
    (∀ bs raw, raw = Value.bytes bs ∨ raw = Value.buffer bs →
      ∃ name, raw.keyName = .ok name ∧ encodeKey name = .ok bs) ∧
    Function.Injective Utf8.decodeEscaped ∧
    -- the codec
    (∀ bs t, Utf8.decodeEscaped bs = t ↔ Utf8.Escaped bs t) ∧
    (∀ bs, ∀ c ∈ Utf8.decodeEscaped bs, c.isSurrogate = true → 0xDC80 ≤ c.val ∧ c.val ≤ 0xDCFF) ∧
    (∀ t, (∃ e, encodeKey t = .error e) ↔
      ∃ c ∈ t, c.isSurrogate = true ∧ ¬ (0xDC80 ≤ c.val ∧ c.val ≤ 0xDCFF)) ∧
    (∀ t bs, encodeKey t = .ok bs ↔
      (∀ c ∈ t, ¬ Utf8.IsStray c) ∧ bs = t.flatMap Utf8.pointBytes) ∧
    -- a page
    (∀ names seen room, ∃ taken behind left rest, names = taken ++ behind ∧
      Scan.collect room (Scan.collected seen) (names.map .bytes) =
        .ok (left, Scan.collected (seen ++ (taken.removeAll seen).eraseDups), rest) ∧
      (rest = none ∧ behind = [] ∨ rest = some (behind.map .bytes))) ∧
    -- a snapshot
    (∀ (σ : Type) (server : Server σ), server.ByteKeys → ∀ plan rounds target s swept scan,
      (Scan.run server.recorded plan.limits rounds).run s = (.ok (some scan), swept) →
      ∃ names : List Bytes, names.Nodup ∧ (∀ bs ∈ names, server.Holds plan.limits.pageSize bs) ∧
        scan.keys = names.map Utf8.decodeEscaped ∧
      ∃ ps : List (Bucket × List Bytes), (∀ p ∈ ps, p.2.Sublist names) ∧ ∃ outcome last,
        (Snapshot.read server.recorded plan rounds target).run s = (outcome, last,
          (ps.map fun p => p.1.request p.2).reverse ++
            (if names = [] then [] else [.batch (names.flatMap KeyInfo.commands)]) ++ swept.2)) := by
  refine ⟨?_, Utf8.decodeEscaped_injective, fun _ _ => Utf8.escaped_iff.symm, ?_,
    encodeKey_error_iff, fun _ _ => encodeKey_eq_ok_iff, Scan.collect_names_distinct,
    fun _ _ hbytes _ _ target _ _ _ hsweep => Snapshot.read_addresses hbytes target hsweep⟩
  · rintro bs raw (rfl | rfl) <;> exact ⟨_, rfl, encodeKey_decodeEscaped bs⟩
  · exact fun bs c hc hsurrogate =>
      Utf8.isEscape_iff.mp (Utf8.isEscape_of_mem_decodeEscaped hc hsurrogate)

/-- A name that ends in a byte of no character, and one that looks like it. -/
theorem encodeKey_broken :
    (∃ name, (Value.bytes [97, 0xFF]).keyName = .ok name ∧ encodeKey name = .ok [97, 0xFF]) ∧
    Utf8.decodeEscaped [97, 0xFF] ≠ Utf8.decodeEscaped [97, 0xED, 0xB3, 0xBF] := by
  obtain ⟨hname, hinjective, -⟩ := encodeKey_keyName
  exact ⟨hname [97, 0xFF] _ (.inl rfl), hinjective.ne (by decide)⟩

end Keyscope
