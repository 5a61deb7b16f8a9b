/-
# What leaves a listing as it is

A listing fails with the failure of a sweep, which names its target.  Everything else that can go wrong
is either told in the records or leaves the listing as it is, and of that there is little
(`Snapshot.Escapes`): the connection for the snapshot is refused; nothing can be told from an answer
for a type, or from one for a document; or a payload cannot be cut to the budget.

The probes do not matter here, for they never fail (`Probe.run_run`).  So a listing fails otherwise than
with a sweep if and only if something escapes from the snapshot of the source that is selected
(`Service.list_escapes`).
-/
import Keyscope.Proofs.Choice
import Keyscope.Proofs.Keyspace.Lost

namespace Keyscope

variable {σ : Type}

/-! ## 1. A snapshot -/

namespace Snapshot

variable {server : Server σ} {plan : Plan} {rounds : Nat} {target : Target} {s : σ}

/-- **What leaves a snapshot as it is.** -/
inductive Escapes (server : Server σ) (plan : Plan) (rounds : Nat) (s : σ) : Prop
  /-- The connection is refused. -/
  | refused {e : Failure} {next : σ}
    (hconnect : server (.connect plan.connectLimit none) s = (.error e, next)) (he : ¬ e.IsSweep)
  /-- Nothing can be told from the answer for the type of a key. -/
  | type {client : Value} {opened swept loaded : σ} {scan : Scan} {names : List Bytes}
    {vs : List Value} {i : Nat}
    (hconnect : server (.connect plan.connectLimit none) s = (.ok client, opened))
    (hsweep : (Scan.run server plan.limits rounds).run opened = (.ok (some scan), swept))
    (hnames : scan.keys.mapM encodeKey = .ok names)
    (hreply : server (.batch (names.flatMap KeyInfo.commands)) swept = (.ok (.list vs), loaded))
    (hi : i < scan.keys.length) (hvoid : ¬ (vs[2 * i]?.getD .null).Tells)
  /-- Nothing can be told from the answer for a document, or what is found cannot be cut to the
  budget, which is no number then, or no whole one. -/
  | record (stages : Stages server plan rounds s) {info : KeyInfo} (hinfo : info ∈ stages.infos)
    (hlost : Payload.Untold stages.outcomes stages.infos info ∨
      Payload.Uncut plan.budget stages.outcomes stages.infos info)

/-- The keys of a sweep that comes back, once something is known of them. -/
theorem infos_of_load (hbytes : server.ByteKeys) {opened swept loaded : σ} {scan : Scan}
    {infos : List KeyInfo}
    (hsweep : (Scan.run server plan.limits rounds).run opened = (.ok (some scan), swept))
    (hload : (KeyInfo.load server scan.keys).run swept = (.ok infos, loaded)) :
    (infos.map (·.key)).Nodup ∧ ∀ info ∈ infos, ∃ bs, encodeKey info.key = .ok bs := by
  obtain ⟨hkeys, -⟩ := KeyInfo.keys_of_load hload
  refine ⟨?_, fun info hinfo => ?_⟩
  · rw [hkeys]
    exact Scan.run_nodup hsweep
  · refine Scan.run_encodable hbytes hsweep info.key ?_
    rw [← hkeys]
    exact List.mem_map_of_mem hinfo

/-- If nothing is known of its keys, a snapshot fails as loading does. -/
theorem take_of_load_error {client : Value} {opened swept : σ} {scan : Scan} {e : Failure}
    (hconnect : server (.connect plan.connectLimit none) s = (.ok client, opened))
    (hsweep : (Scan.run server plan.limits rounds).run opened = (.ok (some scan), swept))
    (hload : ((KeyInfo.load server scan.keys).run swept).1 = .error e) :
    ((take server plan rounds target).run s).1 = .error e := by
  have hload' : (KeyInfo.load server scan.keys).run swept =
      (.error e, ((KeyInfo.load server scan.keys).run swept).2) := Prod.ext hload rfl
  rw [run_take_fst hconnect, run_read_some hsweep, ofScan, Session.run_bind_error hload']
  rfl

/-- **Through all stages, a snapshot fails** if nothing can be told of a document, or if what is found
for a key cannot be cut to the budget. -/
theorem Stages.take_fails (stages : Stages server plan rounds s) (hbytes : server.ByteKeys)
    (hreads : server.ListReads) :
    Outcome.NoSweep ((take server plan rounds target).run s).1 ∧
      ((∃ e, ((take server plan rounds target).run s).1 = .error e) ↔
        ∃ info ∈ stages.infos, Payload.Untold stages.outcomes stages.infos info ∨
          Payload.Uncut plan.budget stages.outcomes stages.infos info) := by
  obtain ⟨hnodup, hnames⟩ := infos_of_load hbytes stages.hsweep stages.hload
  have hfresh := Payload.wanted_fresh target.name stages.infos
  have hfetch := stages.hfetch
  rw [← hfresh] at hfetch
  have hmaterialize := Payload.materialize_fetched plan.budget hfetch
  rw [hfresh] at hmaterialize
  obtain ⟨others, _, hgiven, hothers⟩ := Payload.exists_fetched server hnames stages.loaded
  have hlists := hgiven.areLists hreads hnames
  have hsame : Payload.answered stages.outcomes stages.infos = Payload.answered others stages.infos :=
    Except.ok.inj (Prod.mk.inj (stages.hfetch.symm.trans hothers)).1
  have hsettle : ∀ records, Payload.settleBoth plan.budget stages.outcomes stages.infos records =
      Payload.settleBoth plan.budget others stages.infos records := fun records => by
    rw [Payload.settleBoth, Payload.settleBoth, hsame]
  have hscan : ((ofScan server plan target stages.scan).run stages.swept).1 = (do
      let records ← Payload.settleBoth plan.budget others stages.infos
        (stages.infos.map (Record.ofInfo target.name))
      return ⟨target.name, records, stages.scan.truncated⟩) := by
    rw [ofScan, Session.run_bind_ok stages.hload, Record.listOfInfos_eq target.name hnodup]
    exact Session.outcome_bind (hmaterialize.trans (hsettle _)) fun records next _ => rfl
  have htake : ((take server plan rounds target).run s).1 = (do
      let records ← Payload.settleBoth plan.budget others stages.infos
        (stages.infos.map (Record.ofInfo target.name))
      return some ⟨target.name, records, stages.scan.truncated⟩) := by
    rw [run_take_fst stages.hconnect, run_read_some stages.hsweep, hscan]
    cases Payload.settleBoth plan.budget others stages.infos
      (stages.infos.map (Record.ofInfo target.name)) <;> rfl
  rw [htake]
  refine ⟨(Payload.noSweep_settleBoth hnodup hlists _ _).bind fun records => .ok _, ?_⟩
  simp only [Outcome.map_eq_error]
  rw [Outcome.exists_error, Payload.settleBoth_returns hnodup]
  simp only [not_forall, exists_prop]
  refine exists_congr fun info => and_congr_right fun hinfo => ?_
  exact (Payload.not_shown_iff hlists).trans (Payload.lost_congr hsame hinfo _).symm

/-- **A snapshot fails otherwise than with its sweep** if and only if something leaves it as it is. -/
theorem take_escapes (hbytes : server.ByteKeys) (hreads : server.ListReads) :
    (∃ e, ((take server plan rounds target).run s).1 = .error e ∧ ¬ e.IsSweep) ↔ Escapes server plan rounds s := by
  constructor
  · rintro ⟨e, htake, he⟩
    rcases hconnect : server (.connect plan.connectLimit none) s with ⟨e' | client, opened⟩
    · rw [run_take_error hconnect] at htake
      obtain rfl := Except.error.inj htake
      exact .refused hconnect he
    rcases hsweep : (Scan.run server plan.limits rounds).run opened with ⟨e' | _ | scan, swept⟩
    · rw [run_take_fst hconnect, run_read_error hsweep] at htake
      exact absurd ⟨_, _, (Except.error.inj htake).symm⟩ he
    · rw [run_take_fst hconnect, run_read_none hsweep] at htake
      cases htake
    rcases hload : (KeyInfo.load server scan.keys).run swept with ⟨e' | infos, loaded⟩
    · obtain ⟨names, hnames⟩ := Outcome.exists_mapM_ok (Scan.run_encodable hbytes hsweep)
      obtain ⟨-, vs, next, i, hreply, hi, hvoid⟩ :=
        (KeyInfo.load_eq_error hreads hnames).mp (congrArg Prod.fst hload)
      exact .type hconnect hsweep hnames hreply hi hvoid
    · obtain ⟨-, hnames⟩ := infos_of_load hbytes hsweep hload
      obtain ⟨outcomes, fetched, -, hfetch⟩ := Payload.exists_fetched server hnames loaded
      set stages : Stages server plan rounds s := ⟨client, opened, hconnect, scan, swept, hsweep, infos,
        loaded, hload, outcomes, fetched, hfetch⟩
      obtain ⟨info, hinfo, hlost⟩ := (stages.take_fails hbytes hreads).2.mp ⟨e, htake⟩
      exact .record stages hinfo hlost
  · intro h
    cases h with
    | refused hconnect he =>
      rw [run_take_error hconnect]
      exact ⟨_, rfl, he⟩
    | type hconnect hsweep hnames hreply hi hvoid =>
      have hload := (KeyInfo.load_eq_error hreads hnames).mpr ⟨rfl, _, _, _, hreply, hi, hvoid⟩
      exact ⟨_, take_of_load_error hconnect hsweep hload, Failure.not_isSweep_integerTooLong⟩
    | record stages hinfo hlost =>
      have hfails : Outcome.NoSweep ((take server plan rounds target).run s).1 ∧ _ :=
        stages.take_fails hbytes hreads
      obtain ⟨hsweepless, hfails⟩ := hfails
      obtain ⟨e, he⟩ := hfails.mpr ⟨_, hinfo, hlost⟩
      exact ⟨e, he, hsweepless e he⟩

end Snapshot

/-! ## 2. Listing -/

namespace Service

/-- **A listing returns, or fails with a sweep**, unless something leaves it as it is. -/
theorem list_escapes (service : Service) {net : Network σ} (hbytes : ∀ t, (net.server t).ByteKeys)
    (hreads : ∀ t, (net.server t).ListReads) (rounds : Nat) (requested : Option Text) (s : σ) :
    ∃ probes probed, (service.probe net).run s = (.ok probes, probed) ∧
      ((∃ e, ((service.list net rounds (.request requested)).run s).1 = .error e ∧ ¬ e.IsSweep) ↔
        ∃ selected, Probe.select (probes.filter (·.running)) requested = some selected ∧
          Snapshot.Escapes (net.server selected.target) service.plan rounds probed) := by
  obtain ⟨probes, probed, hprobe⟩ : ∃ probes probed, (service.probe net).run s = (.ok probes, probed) :=
    Probe.exists_runAll net service.probeLimit service.targets s
  refine ⟨probes, probed, hprobe, ?_⟩
  cases hselected : Probe.select (probes.filter (·.running)) requested with
  | none =>
    have hrun : (service.list net rounds (.request requested)).run s =
        (.ok (some (.empty (probes.filter (·.running)))), probed) := by
      rw [list, Session.run_bind_ok hprobe]
      simp only [Probe.requestedText_request, Session.ofExcept_ok_bind, hselected]
      rfl
    rw [hrun]
    refine iff_of_false ?_ ?_
    · rintro ⟨e, h, -⟩
      cases h
    · rintro ⟨selected, h, -⟩
      cases h
  | some selected =>
    rw [run_list_selected hprobe hselected]
    have hrespond :
        ((service.respond net rounds (probes.filter (·.running)) selected).run probed).1 = (do
          return (← ((service.read net rounds selected.target).run probed).1).map
            (.ofSnapshot (probes.filter (·.running)) selected)) :=
      Session.outcome_bind rfl fun snapshot next _ => rfl
    simp only [hrespond, Outcome.map_eq_error]
    refine (Snapshot.take_escapes (hbytes _) (hreads _)).trans ?_
    constructor
    · intro h
      exact ⟨selected, rfl, h⟩
    · rintro ⟨_, h, hescapes⟩
      obtain rfl := Option.some.inj h
      exact hescapes

end Service

theorem Network.byteKeys_varied (t : Target) : (varied.server t).ByteKeys := by
  intro cursor count s reply hreply next page hparts raw hraw
  obtain rfl := Except.ok.inj hreply
  obtain ⟨-, rfl⟩ := Prod.mk.inj (Except.ok.inj hparts)
  simp only [List.mem_cons, List.not_mem_nil, or_false] at hraw
  rcases hraw with rfl | rfl | rfl <;> exact ⟨_, rfl⟩

theorem Network.listReads_varied (t : Target) : (varied.server t).ListReads := by
  intro r s reply hr hreply
  obtain ⟨vs, hvs, -⟩ := lists_varied t r s reply hr hreply
  exact ⟨vs, hvs⟩

/-- What there is to list of keys of several types is listed, and nothing leaves the listing as it is. -/
theorem Service.list_varied : ∃ probes probed response next,
    (ofTen.probe Network.varied).run () = (.ok probes, probed) ∧
    (ofTen.list Network.varied 1 (.request none)).run () = (.ok (some response), next) ∧
    response.records.map (·.type) = (["string", "hash", "json"] : List Text) ∧
    ∀ selected, Probe.select (probes.filter (·.running)) none = some selected →
      ¬ Snapshot.Escapes (Network.varied.server selected.target) ofTen.plan 1 probed := by
  obtain ⟨probes, probed, hprobe, hescapes⟩ :=
    ofTen.list_escapes Network.byteKeys_varied Network.listReads_varied 1 none ()
  have hsweep : (Scan.run (Network.varied.server Snapshot.here) ofTen.plan.limits 1).run () =
      (.ok (some ⟨["a", "b", "c"], false⟩), ()) := by
    have hsort : Text.sort ["c", "b", "a"] = (["a", "b", "c"] : List Text) :=
      (Text.sort_congr (List.reverse_perm (["a", "b", "c"] : List Text))).trans
        (List.mergeSort_of_pairwise (by decide +kernel))
    rw [← hsort]
    rfl
  obtain ⟨records, last, hscan, htypes⟩ : ∃ records last,
      (Snapshot.ofScan (Network.varied.server Snapshot.here) ofTen.plan Snapshot.here
        ⟨["a", "b", "c"], false⟩).run () = (.ok ⟨"Here", records, false⟩, last) ∧
      records.map (·.type) = (["string", "hash", "json"] : List Text) := ⟨_, _, rfl, rfl⟩
  have hconnect : Network.varied.server Snapshot.here (.connect ofTen.plan.connectLimit none) () =
      (.ok .null, ()) := rfl
  have htake : (ofTen.read Network.varied 1 Snapshot.here).run () =
      (.ok (some ⟨"Here", records, false⟩), ()) := Snapshot.run_take_some hconnect hsweep hscan
  obtain ⟨probe, hrun, hselect, htarget⟩ : ∃ probe : Probe,
      (ofTen.probe Network.varied).run () = (.ok [probe], ()) ∧
      Probe.select ([probe].filter (·.running)) none = some probe ∧
      probe.target = Snapshot.here := ⟨_, rfl, rfl, rfl⟩
  obtain ⟨hsame, rfl⟩ := Prod.mk.inj (hrun.symm.trans hprobe)
  obtain rfl := Except.ok.inj hsame
  have hlist : (ofTen.list Network.varied 1 (.request none)).run () =
      (.ok (some (.ofSnapshot ([probe].filter (·.running)) probe ⟨"Here", records, false⟩)), ()) := by
    rw [run_list_selected hrun hselect, respond, htarget]
    exact Session.run_bind_ok htake _
  refine ⟨_, _, _, _, hrun, hlist, htypes, fun selected hselected hescape => ?_⟩
  obtain ⟨e, he, -⟩ := hescapes.mpr ⟨selected, hselected, hescape⟩
  rw [hlist] at he
  cases he

/-- The same network, whose second connections are refused. -/
def Network.refusing : Network Unit where
  server t r s :=
    match r with
    | .connect _ none => (.error (.remote ⟨"ConnectionError", some "refused", some .network⟩), s)
    | r => varied.server t r s
  clock _ s := (some 0, s)

/-- **A connection that is refused after the probe leaves the listing as it is.** -/
theorem Service.list_refused :
    (∀ t, (Network.refusing.server t).ByteKeys) ∧ (∀ t, (Network.refusing.server t).ListReads) ∧
      ((ofOne.list Network.refusing 1 (.request none)).run ()).1 =
        .error (.remote ⟨"ConnectionError", some "refused", some .network⟩) ∧
      ¬ Failure.IsSweep (.remote ⟨"ConnectionError", some "refused", some .network⟩) := by
  refine ⟨fun t cursor count s => Network.byteKeys_varied t cursor count s, ?_, rfl, ?_⟩
  · intro t r s reply hr hreply
    cases r with
    | strings names => exact Network.listReads_varied t (.strings names) s reply hr hreply
    | batch commands => exact Network.listReads_varied t (.batch commands) s reply hr hreply
    | _ => cases hr
  · rintro ⟨name, cause, h⟩
    cases h

end Keyscope
