/-
# One source

A response tells of one source: the one that is named as selected is the one that was read, and all
records are of it.  Three facts make this so.  A probe keeps the target that it is about, so a
selected probe leads back to a configured target, and to no other one with its identifier if these
are all different.  The source to read is the first that is asked for, or else the first
(`Probe.select_chosen`).  And a record keeps the source that it was made with, whatever is found for
its key (`Snapshot.source_of_take`).

That no other target hears more than its probe is read off what is exchanged: the targets are probed
one after the other, and then the selected one is visited, or none.
-/
import Mathlib.Data.List.Nodup
import Keyscope.Proofs.Calls

namespace Keyscope

variable {σ : Type}

/-! ## 1. Sources of records -/

namespace Record

theorem source_of_fill {budget : Value} {r r' : Record} {f : Finding}
    (h : r.fill budget f = .ok r') : r'.source = r.source := by
  obtain ⟨p, -, h⟩ := Outcome.exists_of_bind h
  obtain rfl := Except.ok.inj h
  rfl

/-- **A record keeps its source**, whatever is found for its key. -/
theorem source_of_settle {budget : Value} {found : List (Text × Finding)} {r r' : Record}
    (h : r.settle budget found = .ok r') : r'.source = r.source := by
  induction found generalizing r with
  | nil =>
    obtain rfl := Except.ok.inj h
    rfl
  | cons f found ih =>
    obtain ⟨mid, hmid, h⟩ := Outcome.exists_of_bind h
    rw [ih h]
    dsimp only at hmid
    split at hmid
    · exact source_of_fill hmid
    · obtain rfl := Except.ok.inj hmid
      rfl

/-- The records of keys are all made with one source. -/
theorem source_of_infos {source : Text} {infos : List KeyInfo} {r : Record}
    (h : r ∈ listOfInfos source infos) : r.source = source := by
  obtain ⟨info, -, rfl⟩ := mem_listOfInfos h
  rfl

end Record

/-- Filling in records keeps their sources. -/
theorem Payload.source_of_materialize {server : Server σ} {budget : Value} {infos : List KeyInfo}
    {records shown : List Record} {source : Text} (hsource : ∀ r ∈ records, r.source = source)
    {s next : σ} (h : (materialize server budget infos records).run s = (.ok shown, next)) :
    ∀ r ∈ shown, r.source = source := by
  have hsettle : ∀ {found : List (Text × Finding)} {records settled : List Record},
      records.mapM (Record.settle budget found) = .ok settled →
      (∀ r ∈ records, r.source = source) → ∀ r ∈ settled, r.source = source := by
    intro found records settled hsettled hrecords r hr
    obtain ⟨before, hbefore, hr⟩ := Outcome.exists_of_result hsettled hr
    rw [Record.source_of_settle hr]
    exact hrecords before hbefore
  unfold materialize at h
  obtain ⟨settled, _, hsettled, h⟩ := Session.run_bind_eq_ok.mp h
  obtain ⟨outcomes, _, -, h⟩ := Session.run_bind_eq_ok.mp h
  obtain ⟨found, _, -, h⟩ := Session.run_bind_eq_ok.mp h
  have hfirst := (Session.run_ofExcept_eq_ok.mp hsettled).1
  exact hsettle (Session.run_ofExcept_eq_ok.mp h).1 (hsettle hfirst hsource)

/-- **All records of a snapshot are of its target.** -/
theorem Snapshot.source_of_take {server : Server σ} {plan : Plan} {rounds : Nat} {t : Target}
    {s next : σ} {snapshot : Snapshot}
    (h : (take server plan rounds t).run s = (.ok (some snapshot), next)) :
    ∀ r ∈ snapshot.records, r.source = t.name := by
  obtain ⟨client, opened, _, -, hread⟩ := read_of_take h
  obtain ⟨scan, swept, -, hswept⟩ := exists_scan_of_read hread
  obtain ⟨infos, loaded, -, hloaded⟩ := Session.run_bind_eq_ok.mp hswept
  obtain ⟨records, _, hrecords, hdone⟩ := Session.run_bind_eq_ok.mp hloaded
  obtain ⟨rfl, -⟩ := Session.run_pure_eq_ok.mp hdone
  exact Payload.source_of_materialize (fun r hr => Record.source_of_infos hr) hrecords

/-! ## 2. The source to read -/

namespace Probe

/-- **The probe that is chosen by a name**: the first that it names, by identifier or by name, or the
first of all if there is no such name. -/
inductive Chosen (name : Text) : List Probe → Probe → Prop
  | named {before after : List Probe} {p : Probe} (hname : name ≠ []) (hp : name = p.id ∨ name = p.name)
    (hbefore : ∀ q ∈ before, name ≠ q.id ∧ name ≠ q.name) : Chosen name (before ++ p :: after) p
  | first {p : Probe} {others : List Probe}
    (hnone : name = [] ∨ ∀ q ∈ p :: others, name ≠ q.id ∧ name ≠ q.name) :
    Chosen name (p :: others) p

theorem answersTo_eq_true {name : Text} {p : Probe} :
    answersTo name p = true ↔ name = p.id ∨ name = p.name := by
  simp [answersTo]

theorem answersTo_eq_false {name : Text} {p : Probe} :
    answersTo name p = false ↔ name ≠ p.id ∧ name ≠ p.name := by
  simp [answersTo]

variable {running : List Probe} {requested : Option Text} {p : Probe}

/-- A source is selected unless nothing is running. -/
theorem select_eq_none : select running requested = none ↔ running = [] := by
  simp only [select]
  split
  · exact List.head?_eq_none_iff
  · rw [Option.or_eq_none_iff, List.head?_eq_none_iff]
    constructor
    · exact And.right
    · rintro rfl
      exact ⟨rfl, rfl⟩

/-- **The source that is selected is chosen by what is asked for**, without the blanks around it. -/
theorem select_chosen (h : select running requested = some p) :
    Chosen (requested.getD []).strip running p := by
  simp only [select] at h
  split at h
  · rename_i hblank
    obtain ⟨others, rfl⟩ := List.head?_eq_some_iff.mp h
    exact .first (.inl (List.isEmpty_iff.mp hblank))
  · rename_i hname
    cases hfind : running.find? (answersTo (requested.getD []).strip) with
    | some q =>
      obtain rfl : q = p := by simpa [hfind] using h
      obtain ⟨hq, before, after, rfl, hbefore⟩ := List.find?_eq_some_iff_append.mp hfind
      refine .named (by simpa using hname) (answersTo_eq_true.mp hq) fun r hr => ?_
      exact answersTo_eq_false.mp (by simpa using hbefore r hr)
    | none =>
      rw [hfind, Option.none_or] at h
      obtain ⟨others, rfl⟩ := List.head?_eq_some_iff.mp h
      refine .first (.inr fun q hq => answersTo_eq_false.mp ?_)
      simpa using List.find?_eq_none.mp hfind q hq

theorem Chosen.mem {name : Text} (h : Chosen name running p) : p ∈ running := by
  cases h <;> simp

end Probe

/-! ## 3. Listing -/

/-- The value that asks for a text, or for none. -/
def Value.request (requested : Option Text) : Value := (requested.map Value.text).getD .null

@[simp] theorem Probe.requestedText_request (requested : Option Text) :
    requestedText (.request requested) = .ok requested := by
  cases requested <;> rfl

namespace Service

/-- **What listing comes to**, once all targets are probed. -/
inductive Told (service : Service) (net : Network σ) (rounds : Nat) (requested : Option Text)
    (running : List Probe) (probed : σ × List Exchange) : Response → σ × List Exchange → Prop
  /-- Nothing is running, and nothing more is sent. -/
  | nothing (hrunning : running = []) :
    Told service net rounds requested running probed ⟨running, none, [], false⟩ probed
  /-- The chosen source is read, from the one target that is configured for it, and nothing more is
  sent to any other. -/
  | source {selected : Probe} {t : Target} {snapshot : Snapshot} {next : σ × List Exchange}
    {visit : List Exchange} (hchosen : Probe.Chosen (requested.getD []).strip running selected)
    (ht : t ∈ service.targets) (hsame : t = ⟨selected.id, selected.name, selected.host, selected.port⟩)
    (honly : ∀ u ∈ service.targets, u.id = selected.id → u = t)
    (hread : (service.read net.observed rounds t).run probed = (.ok (some snapshot), next))
    (hvisit : Visit t service.plan.connectLimit none visit) (hsent : next.2 = probed.2 ++ visit)
    (hrecords : ∀ r ∈ snapshot.records, r.source = t.name) :
    Told service net rounds requested running probed
      ⟨running, some selected.id, snapshot.records, snapshot.truncated⟩ next

/-- **A response tells of one source.**  The targets of a service have different identifiers.
Whatever is asked for, and whatever the servers of the network do, if there is a response then all
targets were probed, once each and in order, and the sources are those of the probes that are
running.  The rest of the response is nothing, or the snapshot of one of them (`Told`); no other
target got anything but its probe. -/
theorem list_one_source {service : Service} (hids : (service.targets.map (·.id)).Nodup)
    {net : Network σ} {rounds : Nat} {requested : Option Text} {s next : σ × List Exchange}
    {response : Response}
    (h : (service.list net.observed rounds (.request requested)).run s = (.ok (some response), next)) :
    ∃ (probes : List Probe) (probed : σ × List Exchange) (asked : List (List Exchange)),
      (service.probe net.observed).run s = (.ok probes, probed) ∧
      probes.map (·.target) = service.targets ∧
      List.Forall₂ (Probing service.probeLimit) service.targets asked ∧
      probed.2 = s.2 ++ asked.flatten ∧
      response.sources = probes.filter (·.running) ∧
      service.Told net rounds requested (probes.filter (·.running)) probed response next := by
  obtain ⟨probes, probed, hprobe, h⟩ := Session.run_bind_eq_ok.mp h
  obtain ⟨_, last, l, hrun, _, rfl, htargets, asked, rfl, hasked⟩ :=
    Spoken.runs (returns_probe service) net s
  obtain ⟨hsame, rfl⟩ := Prod.mk.inj (hprobe.symm.trans hrun)
  obtain rfl := Except.ok.inj hsame
  refine ⟨probes, _, asked, hprobe, htargets, hasked, rfl, ?_⟩
  simp only [Probe.requestedText_request, Session.ofExcept_ok_bind] at h
  cases hselected : Probe.select (probes.filter (·.running)) requested with
  | none =>
    rw [hselected] at h
    obtain ⟨hresponse, rfl⟩ := Session.run_pure_eq_ok.mp h
    obtain rfl := Option.some.inj hresponse
    exact ⟨rfl, .nothing (Probe.select_eq_none.mp hselected)⟩
  | some selected =>
    rw [hselected] at h
    obtain ⟨found, _, hread, h⟩ := Session.run_bind_eq_ok.mp h
    obtain ⟨hresponse, rfl⟩ := Session.run_pure_eq_ok.mp h
    obtain ⟨snapshot, rfl, rfl⟩ := Option.map_eq_some_iff.mp hresponse.symm
    have hchosen := Probe.select_chosen hselected
    have hmem : selected.target ∈ service.targets := by
      rw [← htargets]
      exact List.mem_map_of_mem (List.mem_of_mem_filter hchosen.mem)
    obtain ⟨_, _, visit, hrun', hstay⟩ :=
      (Snapshot.spoken_take selected.target service.plan rounds).runs net (last, s.2 ++ asked.flatten)
    obtain ⟨rfl, rfl⟩ := Prod.mk.inj (hread.symm.trans hrun')
    have hvisit := hstay.visit nofun
    exact ⟨rfl, .source hchosen hmem rfl
      (fun u hu hid => List.inj_on_of_nodup_map hids hu hmem hid) hread hvisit rfl
      (Snapshot.source_of_take hread)⟩

/-- A target beside another one. -/
def second : Target := ⟨"b", "Beta", "localhost", 6380⟩

/-- A service for two targets. -/
def ofTwo : Service := { ofOne with targets := [Snapshot.here, second] }

/-- Both targets are running; the second is asked for by its name, with blanks around it, and its one
key is listed as one of its own. -/
theorem list_second :
    ∃ response next,
      (ofTwo.list Network.lone.observed 1 (.request (some " Beta "))).run ((), []) =
        (.ok (some response), next) ∧
      response.selected = some "b" ∧ response.records.map (·.source) = [(second.name)] := by
  obtain ⟨probes, probed, selected, hprobe, hselected, htarget⟩ : ∃ probes probed selected,
      (ofTwo.probe Network.lone.observed).run ((), []) = (.ok probes, probed) ∧
      Probe.select (probes.filter (·.running)) (some " Beta ") = some selected ∧
      selected.target = second := ⟨_, _, _, rfl, rfl, rfl⟩
  have hconnect : Network.lone.observed.server second (.connect ofTwo.plan.connectLimit none) probed =
    (.ok .null, (), probed.2 ++ [.sent second (.connect ofTwo.plan.connectLimit none) (.ok .null)]) :=
      rfl
  obtain ⟨swept, hsweep⟩ : ∃ swept, (Scan.run (Network.lone.observed.server second)
      ofTwo.plan.limits 1).run
      ((), probed.2 ++ [.sent second (.connect ofTwo.plan.connectLimit none) (.ok .null)]) =
        (.ok (some ⟨[Utf8.decodeEscaped [0xFF]], false⟩), swept) := by
    have hsort : Text.sort [Utf8.decodeEscaped [0xFF]] = [Utf8.decodeEscaped [0xFF]] :=
      List.mergeSort_singleton _
    rw [← hsort]
    exact ⟨_, rfl⟩
  obtain ⟨r, last, hscan⟩ : ∃ r last, (Snapshot.ofScan (Network.lone.observed.server second) ofTwo.plan
      second ⟨[Utf8.decodeEscaped [0xFF]], false⟩).run swept = (.ok ⟨"Beta", [r], false⟩, last) :=
    ⟨_, _, rfl⟩
  have hrun : (ofTwo.list Network.lone.observed 1 (.request (some " Beta "))).run ((), []) =
      (.ok (some ⟨probes.filter (·.running), some selected.id, [r], false⟩),
        ((Network.lone.observed.server second).hangUp.run last).2) := by
    rw [list, Session.run_bind_ok hprobe]
    simp only [Probe.requestedText_request, Session.ofExcept_ok_bind, hselected, htarget]
    exact Session.run_bind_ok (Snapshot.run_take_some hconnect hsweep hscan) _
  have hid : selected.id = "b" := congrArg Target.id htarget
  refine ⟨_, _, hrun, congrArg some hid, ?_⟩
  obtain ⟨_, _, _, -, -, -, -, -, htold⟩ := list_one_source (by decide) hrun
  generalize hresponse : Response.mk .. = response at htold
  cases htold with
  | nothing =>
    obtain ⟨-, hnone, -⟩ := Response.mk.inj hresponse
    cases hnone
  | source _ _ _ honly _ _ _ hrecords =>
    obtain ⟨-, hselected', hrecords', -⟩ := Response.mk.inj hresponse
    obtain rfl := honly second (by simp [ofTwo]) (hid.symm.trans (Option.some.inj hselected'))
    have hsource : r.source = second.name := hrecords r (hrecords' ▸ List.mem_cons_self)
    rw [← hrecords', List.map_singleton, hsource]

end Service

end Keyscope
