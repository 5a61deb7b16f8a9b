/-
# What a snapshot brings back

A snapshot goes through three stages, and only the first of them can fail.  Once a sweep has come
back, its keys are all different and can be sent to the server again (`Scan.run_encodable`), so the
stages behind it have what they need: whatever a server answers, there is something to tell of every
key (`read_returns`).  A sweep that fails ends the snapshot before anything of a key is read
(`take_fails_with_sweep`).
-/
import Keyscope.Keyspace.Snapshot
import Keyscope.Proofs.Keyspace.Metadata
import Keyscope.Proofs.Keyspace.Payload
import Keyscope.Proofs.Keyspace.Sweep

namespace Keyscope

variable {σ : Type}

/-! ## 1. Fresh records -/

namespace Record

theorem replaceOrAdd_new {r : Record} : ∀ {rs : List Record}, r.key ∉ rs.map (·.key) →
    replaceOrAdd r rs = rs ++ [r]
  | [], _ => rfl
  | s :: rs, h => by
    rw [List.map_cons, List.mem_cons, not_or] at h
    rw [replaceOrAdd, if_neg (Ne.symm h.1), replaceOrAdd_new h.2, List.cons_append]

/-- Records are added one by one as long as their keys are new. -/
theorem foldl_replaceOrAdd (source : Text) : ∀ {infos : List KeyInfo} {rs : List Record},
    (rs.map (·.key) ++ infos.map (·.key)).Nodup →
    infos.foldl (fun rs info => replaceOrAdd (ofInfo source info) rs) rs =
      rs ++ infos.map (ofInfo source)
  | [], rs, _ => (List.append_nil rs).symm
  | info :: infos, rs, h => by
    have hnew : (ofInfo source info).key ∉ rs.map (·.key) := by
      intro hmem
      exact (List.nodup_append.mp h).2.2 _ hmem _ List.mem_cons_self rfl
    have hrest : ((rs ++ [ofInfo source info]).map (·.key) ++ infos.map (·.key)).Nodup := by
      rwa [List.map_append, List.append_assoc]
    rw [List.foldl_cons, replaceOrAdd_new hnew, foldl_replaceOrAdd source hrest, List.append_assoc]
    rfl

/-- **Different keys have a record each**, in their order. -/
theorem listOfInfos_eq (source : Text) {infos : List KeyInfo} (h : (infos.map (·.key)).Nodup) :
    listOfInfos source infos = infos.map (ofInfo source) :=
  foldl_replaceOrAdd source h

theorem mem_replaceOrAdd {r s : Record} : ∀ {rs : List Record}, s ∈ replaceOrAdd r rs → s = r ∨ s ∈ rs
  | [], h => .inl (List.mem_singleton.mp h)
  | t :: rs, h => by
    unfold replaceOrAdd at h
    split at h
    · exact (List.mem_cons.mp h).imp_right (List.mem_cons_of_mem t)
    · rcases List.mem_cons.mp h with rfl | h
      · exact .inr List.mem_cons_self
      · exact (mem_replaceOrAdd h).imp_right (List.mem_cons_of_mem t)

/-- Records to begin with are those of keys. -/
theorem mem_listOfInfos {source : Text} {infos : List KeyInfo} {r : Record}
    (h : r ∈ listOfInfos source infos) : ∃ info ∈ infos, r = ofInfo source info := by
  have hfold : ∀ (infos : List KeyInfo) (rs : List Record),
      r ∈ infos.foldl (fun rs info => replaceOrAdd (ofInfo source info) rs) rs →
      r ∈ rs ∨ ∃ info ∈ infos, r = ofInfo source info := by
    intro infos
    induction infos with
    | nil => exact fun rs h => .inl h
    | cons info infos ih =>
      intro rs h
      rcases ih _ h with h | ⟨other, hother, h⟩
      · rcases mem_replaceOrAdd h with h | h
        · exact .inr ⟨info, List.mem_cons_self, h⟩
        · exact .inl h
      · exact .inr ⟨other, List.mem_cons_of_mem _ hother, h⟩
  exact (hfold infos [] h).resolve_left List.not_mem_nil

end Record

/-- All keys that have fresh records are wanted. -/
theorem Payload.wanted_fresh (source : Text) (infos : List KeyInfo) :
    wanted (infos.map (Record.ofInfo source)) infos = infos := by
  refine List.filter_eq_self.mpr fun info hinfo => ?_
  rw [List.any_eq_true]
  exact ⟨_, List.mem_map_of_mem hinfo, by simp [Record.ofInfo]⟩

namespace Snapshot

/-! ## 2. The stages -/

variable {server : Server σ} {plan : Plan} {rounds : Nat} {target : Target}

/-- Connecting changes nothing about what is read. -/
theorem run_take {s opened : σ} {client : Value}
    (hconnect : server (.connect plan.connectLimit none) s = (.ok client, opened)) :
    (take server plan rounds target).run s =
      (server.hangUpAfter (read server plan rounds target)).run opened := by
  have hask : (server.ask (.connect plan.connectLimit none)).run s = (.ok client, opened) :=
    hconnect
  rw [take, Pool.opening_ofTarget, Session.run_bind_ok hask]

/-- The outcome of a snapshot is that of what is read over its connection. -/
theorem run_take_fst {s opened : σ} {client : Value}
    (hconnect : server (.connect plan.connectLimit none) s = (.ok client, opened)) :
    ((take server plan rounds target).run s).1 = ((read server plan rounds target).run opened).1 := by
  rw [run_take hconnect, Session.run_hangUpAfter_fst]

theorem run_take_error {s next : σ} {e : Failure}
    (hconnect : server (.connect plan.connectLimit none) s = (.error e, next)) :
    (take server plan rounds target).run s = (.error e, next) := by
  have hask : (server.ask (.connect plan.connectLimit none)).run s = (.error e, next) := hconnect
  rw [take, Pool.opening_ofTarget, Session.run_bind_error hask]

/-- A snapshot that comes back was read over a connection that was opened. -/
theorem read_of_take {s next : σ} {snapshot : Snapshot}
    (h : (take server plan rounds target).run s = (.ok (some snapshot), next)) :
    ∃ client opened last, server (.connect plan.connectLimit none) s = (.ok client, opened) ∧
      (read server plan rounds target).run opened = (.ok (some snapshot), last) := by
  obtain ⟨client, opened, hconnect, hread⟩ := Session.run_bind_eq_ok.mp h
  have hresult := Session.run_hangUpAfter_fst server (read server plan rounds target) opened
  rw [hread] at hresult
  rcases hlast : (read server plan rounds target).run opened with ⟨r, last⟩
  rw [hlast] at hresult
  obtain rfl : .ok (some snapshot) = r := hresult
  exact ⟨client, opened, last, hconnect, hlast⟩

theorem run_sweep_ok {s next : σ} {scan : Option Scan}
    (h : (Scan.run server plan.limits rounds).run s = (.ok scan, next)) :
    (sweep server plan rounds target).run s = (.ok scan, next) := by
  rw [sweep, Session.run_bind, Session.run_outcome, h]
  rfl

/-- A sweep that fails ends a snapshot. -/
theorem run_read_error {s next : σ} {e : Failure}
    (h : (Scan.run server plan.limits rounds).run s = (.error e, next)) :
    (read server plan rounds target).run s = (.error (.scanFailed target.name e), next) := by
  have hsweep : (sweep server plan rounds target).run s =
      (.error (.scanFailed target.name e), next) := by
    rw [sweep, Session.run_bind, Session.run_outcome, h]
    rfl
  rw [read, Session.run_bind_error hsweep]

/-- As long as a sweep is under way, nothing else is read. -/
theorem run_read_none {s next : σ}
    (h : (Scan.run server plan.limits rounds).run s = (.ok none, next)) :
    (read server plan rounds target).run s = (.ok none, next) := by
  rw [read, Session.run_bind_ok (run_sweep_ok h), Session.run_pure]

/-- Behind its sweep, a snapshot is what is read of its keys. -/
theorem run_read_some {s next : σ} {scan : Scan}
    (h : (Scan.run server plan.limits rounds).run s = (.ok (some scan), next)) :
    (read server plan rounds target).run s =
      (((ofScan server plan target scan).run next).1.map some,
        ((ofScan server plan target scan).run next).2) := by
  rw [read, Session.run_bind_ok (run_sweep_ok h), Session.run_bind]
  rcases (ofScan server plan target scan).run next with ⟨e | found, last⟩ <;> rfl

/-- A snapshot is what is read of the keys of its sweep. -/
theorem run_take_some {s opened swept last : σ} {client : Value} {scan : Scan} {snapshot : Snapshot}
    (hconnect : server (.connect plan.connectLimit none) s = (.ok client, opened))
    (hsweep : (Scan.run server plan.limits rounds).run opened = (.ok (some scan), swept))
    (hscan : (ofScan server plan target scan).run swept = (.ok snapshot, last)) :
    (take server plan rounds target).run s = (.ok (some snapshot), (server.hangUp.run last).2) := by
  have hread : (read server plan rounds target).run opened = (.ok (some snapshot), last) := by
    rw [run_read_some hsweep, hscan]
    rfl
  rw [run_take hconnect, Session.run_hangUpAfter_some hread]

/-- A snapshot that comes back is what was read of the keys of a sweep. -/
theorem exists_scan_of_read {s last : σ} {snapshot : Snapshot}
    (h : (read server plan rounds target).run s = (.ok (some snapshot), last)) :
    ∃ scan swept, (Scan.run server plan.limits rounds).run s = (.ok (some scan), swept) ∧
      (ofScan server plan target scan).run swept = (.ok snapshot, last) := by
  rcases hsweep : (Scan.run server plan.limits rounds).run s with ⟨_ | _ | scan, swept⟩
  · rw [run_read_error hsweep] at h
    cases h
  · rw [run_read_none hsweep] at h
    cases h
  · rw [run_read_some hsweep] at h
    refine ⟨scan, swept, rfl, ?_⟩
    rcases hscan : (ofScan server plan target scan).run swept with ⟨_ | found, next⟩ <;>
      rw [hscan] at h <;> cases h
    rfl

/-- **A snapshot that is over stays so**: with more rounds for its sweep, it is the same. -/
theorem take_more (server : Server σ) (plan : Plan) (rounds more : Nat) (target : Target) :
    Session.Continues (take server plan rounds target) (take server plan (rounds + more) target) := by
  have hsweep : Session.Continues (sweep server plan rounds target)
      (sweep server plan (rounds + more) target) :=
    (Scan.resume_more more rounds _).outcome_bind rfl
  have hread : Session.Continues (read server plan rounds target)
      (read server plan (rounds + more) target) :=
    hsweep.bind rfl
  exact .after _ fun _ => hread.outcome_bind rfl

/-- **A sweep that returns is all it takes**: then there is a record for every key. -/
theorem read_returns (target : Target) (hbytes : server.ByteKeys) (hlists : server.Lists)
    {budget : Int} (hbudget : plan.budget = .int budget) {s next : σ} {scan : Scan}
    (h : (Scan.run server plan.limits rounds).run s = (.ok (some scan), next)) :
    ∃ records last, (read server plan rounds target).run s =
        (.ok (some ⟨target.name, records, scan.truncated⟩), last) ∧
      records.map (·.key) = scan.keys := by
  have hnames := Scan.run_encodable hbytes h
  obtain ⟨infos, loaded, hload, hkeys⟩ := KeyInfo.load_returns hlists hnames next
  have hnodup : (infos.map (·.key)).Nodup := by
    rw [hkeys]
    exact Scan.run_nodup h
  have hnames' : ∀ info ∈ infos, ∃ bs, encodeKey info.key = .ok bs := by
    intro info hinfo
    refine hnames info.key ?_
    rw [← hkeys]
    exact List.mem_map_of_mem hinfo
  have hfresh := Payload.wanted_fresh target.name infos
  obtain ⟨outcomes, last, hgiven, hrun⟩ := Payload.run_materialize server budget
    (infos.map (Record.ofInfo target.name)) (by rwa [hfresh]) loaded
  rw [hfresh] at hgiven hrun
  obtain ⟨records, hshown, hrecords⟩ := Payload.settleAll_returns hnodup
    (hgiven.listed hlists hnames') budget (infos.map (Record.ofInfo target.name))
  rw [hshown] at hrun
  refine ⟨records, last, ?_, ?_⟩
  · rw [run_read_some h, ofScan, Session.run_bind_ok hload,
      Record.listOfInfos_eq target.name hnodup, hbudget, Session.run_bind_ok hrun, Session.run_pure]
    rfl
  · rw [hrecords, List.map_map, ← hkeys]
    rfl

/-- A plan for little: two keys and ten characters of their payloads. -/
def Plan.ofTwo : Plan := ⟨⟨some 2, .int 100⟩, .int 10, .int 3⟩

/-- A target on this machine. -/
def here : Target := ⟨"here", "Here", "localhost", Target.defaultPort⟩

/-! ## 3. Failures -/

end Snapshot

theorem Server.ByteKeys.recorded {server : Server σ} (h : server.ByteKeys) :
    server.recorded.ByteKeys := fun cursor count s => h cursor count s.1

theorem Server.Lists.recorded {server : Server σ} (h : server.Lists) : server.recorded.Lists :=
  fun r s => h r s.1

namespace Snapshot

variable {server : Server σ} {plan : Plan} {rounds : Nat} {target : Target}

/-- **Only a failed sweep fails a snapshot.**  Once a connection is open, a snapshot fails if and
only if the sweep does: with that failure, which names the target, and before anything of a key is
read.  Where the sweep ends it has a record for every key of the sweep, in its order, and as long as
the sweep is under way, the snapshot is too. -/
theorem take_fails_with_sweep (hbytes : server.ByteKeys) (hlists : server.Lists) {budget : Int}
    (hbudget : plan.budget = .int budget) {s opened : σ × List Request} {client : Value}
    (hconnect : server.recorded (.connect plan.connectLimit none) s = (.ok client, opened)) :
    match ((Scan.run server.recorded plan.limits rounds).run opened).1 with
    | .error e => ∃ last sent, (take server.recorded plan rounds target).run s =
          (.error (.scanFailed target.name e), last) ∧
        last.2 = sent ++ s.2 ∧ ∀ r ∈ sent, r.reads = false
    | .ok (some scan) => ∃ records last, (take server.recorded plan rounds target).run s =
          (.ok (some ⟨target.name, records, scan.truncated⟩), last) ∧
        records.map (·.key) = scan.keys
    | .ok none => ∃ last, (take server.recorded plan rounds target).run s = (.ok none, last) := by
  rw [run_take hconnect]
  rcases hsweep : (Scan.run server.recorded plan.limits rounds).run opened with
    ⟨e | _ | scan, swept⟩
  · have hopened : opened.2 = .connect plan.connectLimit none :: s.2 := by
      have hrecorded := congrArg (·.2.2) hconnect
      exact hrecorded.symm
    obtain ⟨scans, hscans, hreads⟩ := Scan.resume_sends (P := fun r => r.reads = false)
      (fun _ _ => rfl) server plan.limits.pageSize rounds (Scan.Sweep.start plan.limits) opened
    obtain ⟨closing, hclosing, hreads'⟩ :=
      Session.Sends.hangUp (P := fun r => r.reads = false) server rfl rfl swept
    have hswept : swept.2 = scans ++ opened.2 := by
      rw [← hscans]
      exact (congrArg (·.2.2) hsweep).symm
    rw [Session.run_hangUpAfter (run_read_error hsweep) nofun]
    refine ⟨_, closing ++ scans ++ [.connect plan.connectLimit none], rfl, ?_, ?_⟩
    · rw [hclosing, hswept, hopened]
      simp
    · intro r hr
      simp only [List.mem_append, List.mem_singleton] at hr
      rcases hr with (hr | hr) | rfl
      · exact hreads' r hr
      · exact hreads r hr
      · rfl
  · exact ⟨swept, Session.run_hangUpAfter_none (run_read_none hsweep)⟩
  · obtain ⟨records, last, hread, hkeys⟩ :=
      read_returns target hbytes.recorded hlists.recorded hbudget hsweep
    exact ⟨records, _, Session.run_hangUpAfter_some hread, hkeys⟩

/-- A client whose keys are not UTF-8, and whose reads all fail. -/
def unreadable : Server Unit := fun r s =>
  (match r with
    | .scan _ _ => .ok (.tuple [.int 0, .list [.bytes [0xFF]]])
    | .strings _ => .error .timedOut
    | .batch _ => .error .timedOut
    | _ => .ok .null, s)

/-- A snapshot returns even if no read does. -/
theorem take_unreadable :
    ∃ records last, (take unreadable.recorded Plan.ofTwo 2 here).run ((), []) =
        (.ok (some ⟨"Here", records, false⟩), last) ∧
      records.map (·.key) = [Utf8.decodeEscaped [0xFF]] := by
  have hbytes : unreadable.ByteKeys := by
    intro cursor count s reply hreply next page hparts raw hraw
    obtain rfl := Except.ok.inj hreply
    obtain ⟨-, rfl⟩ := Prod.mk.inj (Except.ok.inj hparts)
    exact ⟨[0xFF], List.mem_singleton.mp hraw⟩
  have hlists : unreadable.Lists := by
    intro r s reply hreads hreply
    cases r <;> cases hreads <;> cases hreply
  have hsweep : ((Scan.run unreadable.recorded Plan.ofTwo.limits 2).run
      ((), [.connect (.int 3) none])).1 = .ok (some ⟨[Utf8.decodeEscaped [0xFF]], false⟩) := by
    have hsort : Text.sort [Utf8.decodeEscaped [0xFF]] = [Utf8.decodeEscaped [0xFF]] :=
      List.mergeSort_singleton _
    rw [← hsort]
    rfl
  have htake := @take_fails_with_sweep _ unreadable Plan.ofTwo 2 here hbytes hlists 10 rfl ((), [])
    ((), [.connect (.int 3) none]) .null rfl
  rw [hsweep] at htake
  exact htake

end Snapshot

end Keyscope
