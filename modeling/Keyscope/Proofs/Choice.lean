/-
# Asking for a source

One text asks for a source, by identifier or by name, and the first running source that it fits is
the one that is read.  Identifiers are all different, but a name may be anything, also the identifier
of another target.  So a source is read for its identifier if and only if no running source in front
of it is named so (`list_by_id`).

Blanks around the text do not count.  An identifier has none, but a name keeps those that it was
written with, and then the name itself does not fit it any more: a source is read for its own name if
that has no blanks around it, and otherwise another one may be (`list_by_name`).
-/
import Keyscope.Proofs.Selection
import Keyscope.Proofs.Target

namespace Keyscope

variable {σ : Type}

/-! ## 1. The first source that fits -/

namespace Probe

variable {before after running : List Probe} {p : Probe} {t : Text}

/-- A text that is not blank selects the first source that it fits. -/
theorem select_first (ht : t.strip ≠ []) (hp : answersTo t.strip p = true)
    (hbefore : ∀ q ∈ before, answersTo t.strip q = false) :
    select (before ++ p :: after) (some t) = some p := by
  have hfind : (before ++ p :: after).find? (answersTo t.strip) = some p :=
    List.find?_eq_some_iff_append.mpr ⟨hp, before, after, rfl, fun q hq => by simp [hbefore q hq]⟩
  simp [select, ht, hfind]

variable (p after) in
/-- It selects one of those in front of a source if it fits one of them. -/
theorem select_before (ht : t.strip ≠ []) (hbefore : ∃ q ∈ before, answersTo t.strip q = true) :
    ∃ q ∈ before, answersTo t.strip q = true ∧
      select (before ++ p :: after) (some t) = some q := by
  obtain ⟨q, hq, hfits⟩ := hbefore
  obtain ⟨u, hu⟩ := Option.isSome_iff_exists.mp (List.find?_isSome.mpr ⟨q, hq, hfits⟩)
  have hfind : (before ++ p :: after).find? (answersTo t.strip) = some u := by
    rw [List.find?_append, hu, Option.some_or]
  refine ⟨u, List.mem_of_find?_eq_some hu, List.find?_some hu, ?_⟩
  simp [select, ht, hfind]

variable (after) in
/-- A text that does not fit a source, which is not the first one, selects another one. -/
theorem select_other (hfront : before ≠ []) (hp : answersTo t.strip p = false) :
    ∃ q ∈ before ++ after, select (before ++ p :: after) (some t) = some q := by
  obtain ⟨first, others, rfl⟩ := List.exists_cons_of_ne_nil hfront
  obtain ⟨q, hq⟩ : ∃ q, select ((first :: others) ++ p :: after) (some t) = some q := by
    rw [← Option.isSome_iff_exists, Option.isSome_iff_ne_none, ne_eq, select_eq_none]
    simp
  refine ⟨q, ?_, hq⟩
  have hchosen : Chosen t.strip ((first :: others) ++ p :: after) q := select_chosen hq
  rw [List.mem_append, or_comm]
  have hmem : q = p ∨ q ∈ after ∨ q ∈ first :: others := by
    have := hchosen.mem
    simp only [List.mem_append, List.mem_cons] at this ⊢
    tauto
  rcases hmem with rfl | hmem
  swap
  · exact hmem
  -- what fits no source selects the first one, which stands in front
  rw [answersTo_eq_false] at hp
  generalize hrunning : (first :: others) ++ q :: after = running at hchosen
  cases hchosen with
  | named _ hfits =>
    rcases hfits with hfits | hfits
    · exact absurd hfits hp.1
    · exact absurd hfits hp.2
  | first =>
    obtain ⟨rfl, -⟩ := List.cons.inj hrunning
    exact .inr List.mem_cons_self

end Probe

/-! ## 2. Reading a source -/

namespace Service

/-- The response with what is in a source, unless its sweep is still under way. -/
def respond (service : Service) (net : Network σ) (rounds : Nat) (running : List Probe)
    (selected : Probe) : Session σ (Option Response) := do
  return (← service.read net rounds selected.target).map (.ofSnapshot running selected)

/-- What listing does after probing, where a source is selected. -/
theorem run_list_selected {service : Service} {net : Network σ} {rounds : Nat} {s probed : σ} {probes : List Probe}
    {requested : Option Text} {selected : Probe}
    (hprobe : (service.probe net).run s = (.ok probes, probed))
    (hselected : Probe.select (probes.filter (·.running)) requested = some selected) :
    (service.list net rounds (.request requested)).run s =
      (service.respond net rounds (probes.filter (·.running)) selected).run probed := by
  rw [list, Session.run_bind_ok hprobe]
  simp only [Probe.requestedText_request, Session.ofExcept_ok_bind, hselected]
  rfl

/-- Probing always comes to an end, with one probe of each target, in order. -/
theorem exists_probes (service : Service) (net : Network σ) (s : σ × List Exchange) :
    ∃ probes probed, (service.probe net.observed).run s = (.ok probes, probed) ∧
      probes.map (·.target) = service.targets := by
  obtain ⟨_, last, l, hrun, probes, rfl, htargets, -⟩ := Spoken.runs (returns_probe service) net s
  exact ⟨probes, _, hrun, htargets⟩

/-- The targets of a service that was made are those it was made for. -/
theorem targets_of_make {targets : List Target} {l : Limits} {telemetry : Option TelemetrySource}
    {service : Service} (h : make targets l telemetry = .ok service) : service.targets = targets := by
  obtain ⟨limits, -, h⟩ := Outcome.exists_of_bind h
  obtain rfl := Except.ok.inj h
  rfl

end Service

/-! ## 3. Identifiers -/

namespace Settings

/-- Settings without problems have targets with different identifiers. -/
theorem nodup_of_no_problems {s : Settings} (h : s.problems = .ok []) :
    (s.targets.map (·.id)).Nodup := by
  rw [problems] at h
  obtain ⟨usable, -, h⟩ := Outcome.exists_of_bind h
  obtain ⟨limits, -, h⟩ := Outcome.exists_of_bind h
  -- what is said of limits and level comes behind it
  have hnone : broken (!allDistinct (s.targets.map (·.id))) "target ids must be unique" = [] := by
    dsimp only at h
    split at h
    · have hnil := Except.ok.inj h
      simp only [List.append_eq_nil_iff] at hnil
      exact hnil.1.1.2
    · obtain ⟨shown, -, h⟩ := Outcome.exists_of_bind h
      have hnil := Except.ok.inj h
      simp only [List.append_eq_nil_iff] at hnil
      exact hnil.1.1.2
  exact allDistinct_iff.mp (by simpa using broken_eq_nil.mp hnone)

/-- So have those of them that are running. -/
theorem nodup_running {s : Settings} (h : s.problems = .ok []) {probes : List Probe}
    (htargets : probes.map (·.target) = s.targets) :
    ((probes.filter (·.running)).map (·.id)).Nodup := by
  have hall := nodup_of_no_problems h
  rw [← htargets, List.map_map] at hall
  exact hall.sublist (List.filter_sublist.map _)

end Settings

namespace Service

/-- **Asking by identifier.**  The settings have no problems, so their targets have different
identifiers, and the targets are those of a configuration.  Whatever the servers of the network do,
all targets are probed.  Then, for every running source, asking for its identifier reads it, if no
running source in front of it is named so; and otherwise it reads one of those that are, which is
another one. -/
theorem list_by_id {settings : Settings} (hvalid : settings.problems = .ok [])
    (hloaded : ∀ t ∈ settings.targets, ∃ entry, Target.ofRef entry = .ok t) {service : Service}
    {telemetry : Option TelemetrySource}
    (hservice : make settings.targets settings.limits telemetry = .ok service) (net : Network σ)
    (rounds : Nat) (s : σ × List Exchange) :
    ∃ probes probed, (service.probe net.observed).run s = (.ok probes, probed) ∧
      probes.map (·.target) = settings.targets ∧
      ∀ before p after, probes.filter (·.running) = before ++ p :: after →
        ((∀ q ∈ before, q.name ≠ p.id) →
          (service.list net.observed rounds (.request (some p.id))).run s =
            (service.respond net.observed rounds (before ++ p :: after) p).run probed) ∧
        ((∃ q ∈ before, q.name = p.id) →
          ∃ q ∈ before, q.name = p.id ∧ q.id ≠ p.id ∧
            (service.list net.observed rounds (.request (some p.id))).run s =
              (service.respond net.observed rounds (before ++ p :: after) q).run probed) := by
  obtain ⟨probes, probed, hprobe, htargets⟩ := exists_probes service net s
  rw [targets_of_make hservice] at htargets
  refine ⟨probes, probed, hprobe, htargets, fun before p after hrunning => ?_⟩
  have hrun : ∀ {q : Probe}, Probe.select (before ++ p :: after) (some p.id) = some q →
      (service.list net.observed rounds (.request (some p.id))).run s =
        (service.respond net.observed rounds (before ++ p :: after) q).run probed := by
    intro q hq
    rw [← hrunning] at hq ⊢
    exact run_list_selected hprobe hq
  have hmem : p.target ∈ settings.targets := by
    rw [← htargets]
    refine List.mem_map_of_mem (List.mem_of_mem_filter (p := (·.running)) ?_)
    rw [hrunning]
    exact List.mem_append_right _ List.mem_cons_self
  obtain ⟨entry, hentry⟩ := hloaded _ hmem
  have hdescribes := Target.ofRef_eq_ok.mp hentry
  have hstrip : p.id.strip = p.id := hdescribes.strip_id
  have hpresent : p.id.strip ≠ [] := by
    rw [hstrip]
    exact hdescribes.id_ne
  -- no other source has this identifier
  have hids : ∀ q ∈ before, q.id ≠ p.id := by
    have hnodup := Settings.nodup_running hvalid htargets
    rw [hrunning, List.map_append, List.map_cons] at hnodup
    intro q hq hid
    exact (List.nodup_append.mp hnodup).2.2 _ (List.mem_map_of_mem hq) _ List.mem_cons_self hid
  constructor
  · intro hnames
    refine hrun (Probe.select_first hpresent (Probe.answersTo_eq_true.mpr (.inl hstrip))
      fun q hq => Probe.answersTo_eq_false.mpr ?_)
    rw [hstrip]
    exact ⟨(hids q hq).symm, (hnames q hq).symm⟩
  · rintro ⟨q, hq, hname⟩
    obtain ⟨u, hu, hfits, hselect⟩ := Probe.select_before after p hpresent
      ⟨q, hq, Probe.answersTo_eq_true.mpr (.inr (by rw [hstrip, hname]))⟩
    rw [Probe.answersTo_eq_true, hstrip] at hfits
    have hname : u.name = p.id := (hfits.resolve_left fun h => hids u hu h.symm).symm
    exact ⟨u, hu, hname, hids u hu, hrun hselect⟩

/-- A service for targets, with the limits of the one that is for one. -/
def ofTargets (targets : List Target) : Service := { ofOne with targets := targets }

end Service

/-- Settings for targets, with the limits of those that are for one. -/
def Settings.ofTargets (targets : List Target) : Settings := { ofOne with targets := targets }

/-- A network of servers that answer a ping and have no keys. -/
def Network.bare : Network Unit where
  server _ r s :=
    match r with
    | .ping => (.ok (.bool true), s)
    | .scan .. => (.ok (.list [.int 0, .list []]), s)
    | _ => (.ok .null, s)
  clock _ s := (some 0, s)

namespace Service

/-- The second of two targets is read for its identifier. -/
theorem list_second_by_id :
    ∃ first p probed,
      (ofTwo.probe Network.lone.observed).run ((), []) = (.ok [first, p], probed) ∧
      p.target = second ∧
      (ofTwo.list Network.lone.observed 1 (.request (some "b"))).run ((), []) =
        (ofTwo.respond Network.lone.observed 1 [first, p] p).run probed := by
  obtain ⟨probes, probed, hprobe, -, hlist⟩ := list_by_id
    (show (Settings.ofTargets [Snapshot.here, second]).problems = .ok [] from rfl)
    (by
      intro t ht
      refine ⟨.ofValue t.toValue, ?_⟩
      revert t
      decide +kernel)
    (show make [Snapshot.here, second] Settings.ofOne.limits none = .ok ofTwo from rfl)
    Network.lone 1 ((), [])
  obtain ⟨first, p, last, hrun, hrunning, hid, htarget, hname⟩ : ∃ first p last,
      (ofTwo.probe Network.lone.observed).run ((), []) = (.ok [first, p], last) ∧
      [first, p].filter (·.running) = [first] ++ p :: [] ∧ p.id = "b" ∧ p.target = second ∧
      first.name = "Here" := ⟨_, _, _, rfl, rfl, rfl, rfl, rfl⟩
  obtain ⟨hsame, rfl⟩ := Prod.mk.inj (hrun.symm.trans hprobe)
  obtain rfl := Except.ok.inj hsame
  refine ⟨first, p, last, hrun, htarget, ?_⟩
  have hread := (hlist [first] p [] hrunning).1
  rw [hid] at hread
  refine hread fun q hq => ?_
  obtain rfl := List.mem_singleton.mp hq
  rw [hname]
  decide

/-- What a run without a state is known to list. -/
theorem exists_response {service : Service} {requested : Option Text} {sources : List Probe → List Text}
    {listed : List Text} {selected : Text}
    (h : ((service.list Network.bare 1 (.request requested)).run ()).1.toOption.join.map
      (fun r => (sources r.sources, r.selected)) = some (listed, some selected)) :
    ∃ response : Response, (service.list Network.bare 1 (.request requested)).run () =
      (.ok (some response), ()) ∧ sources response.sources = listed ∧
        response.selected = some selected := by
  rcases hrun : (service.list Network.bare 1 (.request requested)).run () with
    ⟨_ | _ | response, ⟨⟩⟩
  · rw [hrun] at h
    cases h
  · rw [hrun] at h
    cases h
  · rw [hrun] at h
    obtain ⟨hsources, hselected⟩ := Prod.mk.inj (Option.some.inj h)
    exact ⟨response, rfl, hsources, hselected⟩

/-- Two targets; the first one is named as the second one is identified. -/
def namesake : List Target := [⟨"a", "b", "h", 6379⟩, ⟨"b", "Beta", "h", 6379⟩]

/-- The settings for them have no problems, and both are running, but the second one is not read for
its identifier. -/
theorem list_namesake :
    (Settings.ofTargets namesake).problems = .ok [] ∧
    (∀ t ∈ namesake, ∃ entry, Target.ofRef entry = .ok t) ∧
    make (Settings.ofTargets namesake).targets (Settings.ofTargets namesake).limits none =
      .ok (ofTargets namesake) ∧
    ∃ response : Response, ((ofTargets namesake).list Network.bare 1 (.request (some "b"))).run () =
        (.ok (some response), ()) ∧
      response.sources.map (·.id) = ["a", "b"] ∧ response.selected = some ("a" : Text) := by
  refine ⟨rfl, ?_, rfl, ?_⟩
  · intro t ht
    refine ⟨.ofValue t.toValue, ?_⟩
    revert t
    decide +kernel
  · exact exists_response (by decide +kernel)

/-! ## 4. Names -/

/-- **Asking by name.**  The targets are those of a configuration.  Whatever the servers of the
network do, all targets are probed.  Then, for every running source whose name is neither the name
nor the identifier of another one, asking for its name reads it, if the name has no blanks around it.
If it has, and is not the identifier with blanks around it, then asking for it reads another source,
unless this one is the first. -/
theorem list_by_name {service : Service}
    (hloaded : ∀ t ∈ service.targets, ∃ entry : Ref, entry.HasData ∧ Target.ofRef entry = .ok t)
    (net : Network σ) (rounds : Nat) (s : σ × List Exchange) :
    ∃ probes probed, (service.probe net.observed).run s = (.ok probes, probed) ∧
      probes.map (·.target) = service.targets ∧
      ∀ before p after, probes.filter (·.running) = before ++ p :: after →
        (∀ q ∈ before ++ after, p.name ≠ q.id ∧ p.name ≠ q.name) →
        (p.name.strip = p.name →
          (service.list net.observed rounds (.request (some p.name))).run s =
            (service.respond net.observed rounds (before ++ p :: after) p).run probed) ∧
        (p.name.strip ≠ p.name → p.name.strip ≠ p.id → before ≠ [] →
          ∃ q ∈ before ++ after,
            (service.list net.observed rounds (.request (some p.name))).run s =
              (service.respond net.observed rounds (before ++ p :: after) q).run probed) := by
  obtain ⟨probes, probed, hprobe, htargets⟩ := exists_probes service net s
  refine ⟨probes, probed, hprobe, htargets, fun before p after hrunning hothers => ?_⟩
  have hrun : ∀ {q : Probe}, Probe.select (before ++ p :: after) (some p.name) = some q →
      (service.list net.observed rounds (.request (some p.name))).run s =
        (service.respond net.observed rounds (before ++ p :: after) q).run probed := by
    intro q hq
    rw [← hrunning] at hq ⊢
    exact run_list_selected hprobe hq
  constructor
  · intro hstrip
    have hmem : p.target ∈ service.targets := by
      rw [← htargets]
      refine List.mem_map_of_mem (List.mem_of_mem_filter (p := (·.running)) ?_)
      rw [hrunning]
      exact List.mem_append_right _ List.mem_cons_self
    obtain ⟨entry, hdata, hentry⟩ := hloaded _ hmem
    have hpresent : p.name.strip ≠ [] := by
      rw [hstrip]
      exact (Target.ofRef_eq_ok.mp hentry).name_ne hdata
    refine hrun (Probe.select_first hpresent (Probe.answersTo_eq_true.mpr (.inr hstrip))
      fun q hq => Probe.answersTo_eq_false.mpr ?_)
    rw [hstrip]
    exact hothers q (List.mem_append_left _ hq)
  · intro hname hid hfront
    obtain ⟨q, hq, hselect⟩ := Probe.select_other after hfront
      (Probe.answersTo_eq_false.mpr ⟨hid, hname⟩)
    exact ⟨q, hq, hrun hselect⟩

/-- The second of two targets is read for its name. -/
theorem list_second_by_name :
    ∃ first p probed,
      (ofTwo.probe Network.lone.observed).run ((), []) = (.ok [first, p], probed) ∧
      p.target = second ∧
      (ofTwo.list Network.lone.observed 1 (.request (some "Beta"))).run ((), []) =
        (ofTwo.respond Network.lone.observed 1 [first, p] p).run probed := by
  obtain ⟨probes, probed, hprobe, -, hlist⟩ := list_by_name
    (show ∀ t ∈ ofTwo.targets, ∃ entry : Ref, entry.HasData ∧ Target.ofRef entry = .ok t by
      intro t ht
      refine ⟨.ofValue t.toValue, Target.hasData_toValue t, ?_⟩
      revert t
      decide +kernel)
    Network.lone 1 ((), [])
  obtain ⟨first, p, last, hrun, hrunning, hname, htarget, hothers⟩ : ∃ first p last,
      (ofTwo.probe Network.lone.observed).run ((), []) = (.ok [first, p], last) ∧
      [first, p].filter (·.running) = [first] ++ p :: [] ∧ p.name = "Beta" ∧ p.target = second ∧
      ("Beta" ≠ first.id ∧ "Beta" ≠ first.name) := ⟨_, _, _, rfl, rfl, rfl, rfl, by decide⟩
  obtain ⟨hsame, rfl⟩ := Prod.mk.inj (hrun.symm.trans hprobe)
  obtain rfl := Except.ok.inj hsame
  refine ⟨first, p, last, hrun, htarget, ?_⟩
  have hread := (hlist [first] p [] hrunning ?_).1
  · rw [hname] at hread
    exact hread (by decide)
  · intro q hq
    obtain rfl := List.mem_singleton.mp hq
    rwa [hname]

/-- Two targets; the name of the second one has a blank in front of it. -/
def indented : List Target := [⟨"a", "Alpha", "h", 6379⟩, ⟨"b", " Beta", "h", 6379⟩]

/-- Both are running, but the second one is not read for its name, which no other one has. -/
theorem list_indented :
    (∀ t ∈ indented, ∃ entry, Target.ofRef entry = .ok t) ∧
    ∃ response : Response, ((ofTargets indented).list Network.bare 1 (.request (some " Beta"))).run () =
        (.ok (some response), ()) ∧
      response.sources.map (·.name) = ["Alpha", " Beta"] ∧ response.selected = some ("a" : Text) := by
  constructor
  · intro t ht
    refine ⟨.ofValue t.toValue, ?_⟩
    revert t
    decide +kernel
  · exact exists_response (by decide +kernel)

end Service

end Keyscope
