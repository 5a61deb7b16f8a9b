/-
# The warning that another source is shown

The command asks for a source by a text and shows the one that the service selects.  Afterwards it looks
whether that is the one that was asked for, and warns if not.  The two decisions agree: the warning is
there if and only if no running source is called so, by identifier or by name, and then the first one is
shown (`Run.warns_iff_missed`).  In a document there is never a warning.

The text is in the warning as it was given.  A console may refuse it, as markup that closes what was not
opened; then the command fails and nothing of the answer is shown.

They differ in one point.  For the service a text of blanks asks for nothing.  The command looks at the
text before it takes the blanks off, so such a text asks for a source without a name, which no source is,
and the warning is there.
-/
import Keyscope.Proofs.Choice
import Keyscope.Proofs.Command.Runs

namespace Keyscope

variable {σ : Type}

/-! ## 1. The source that is shown -/

namespace Run

/-- **No running source is what a text asks for.** -/
def Missed (source : Text) (running : List Probe) : Prop :=
  source ≠ [] ∧ ∀ p ∈ running, p.id ≠ source.strip ∧ p.name ≠ source.strip

/-- The warning that a source is shown which was not asked for. -/
def instead (source : Text) (p : Probe) : Report :=
  .warning ("Source '" ++ source ++ "' is not running; showing " ++ p.id)

/-- Whether a text misses a source that it does not fit is decided by the service and by the command
alike: what fits no running source selects the first one. -/
theorem missed_iff {source : Text} {first selected : Probe} {others : List Probe}
    (hnamed : ∀ p ∈ first :: others, p.id ≠ [] ∧ p.name ≠ [])
    (hselected : Probe.select (first :: others) (some source) = some selected) :
    (source ≠ [] ∧ Probe.answersTo source.strip selected = false ↔ Missed source (first :: others)) ∧
      (Missed source (first :: others) → selected = first) := by
  have hchosen : Probe.Chosen source.strip (first :: others) selected := Probe.select_chosen hselected
  rw [Probe.answersTo_eq_false]
  generalize hrunning : first :: others = running at hchosen hnamed ⊢
  cases hchosen with
  | @named before after p hname hp hbefore =>
    have hmem : selected ∈ before ++ selected :: after := by simp
    refine ⟨⟨fun h => ?_, fun h => ?_⟩, fun h => ?_⟩
    · rcases hp with hp | hp
      · exact absurd hp h.2.1
      · exact absurd hp h.2.2
    · exact ⟨h.1, (h.2 _ hmem).1.symm, (h.2 _ hmem).2.symm⟩
    · rcases hp with hp | hp
      · exact absurd hp.symm (h.2 _ hmem).1
      · exact absurd hp.symm (h.2 _ hmem).2
  | first hnone =>
    obtain ⟨rfl, -⟩ := List.cons.inj hrunning
    refine ⟨⟨fun h => ⟨h.1, ?_⟩, fun h => ?_⟩, fun _ => rfl⟩
    · rcases hnone with hnone | hnone
      · rw [hnone]
        exact hnamed
      · exact fun q hq => ⟨(hnone q hq).1.symm, (hnone q hq).2.symm⟩
    · have hfirst := h.2 first List.mem_cons_self
      exact ⟨h.1, hfirst.1.symm, hfirst.2.symm⟩

/-- The selected source is found by its identifier among the running ones, which no other has. -/
theorem otherSource_eq (source : Text) {running : List Probe} {selected : Probe}
    (hids : (running.map (·.id)).Nodup) (hmem : selected ∈ running) (found : Snapshot) :
    otherSource source (.ofSnapshot running selected found) =
      if Probe.answersTo source.strip selected then .empty else instead source selected := by
  have hfind : running.find? (fun p => p.id = selected.id) = some selected := by
    cases hp : running.find? (fun p => p.id = selected.id) with
    | none => exact absurd (List.find?_eq_none.mp hp selected hmem) (by simp)
    | some p =>
      have hid : p.id = selected.id := by simpa using List.find?_some hp
      rw [List.inj_on_of_nodup_map hids (List.mem_of_find?_eq_some hp) hmem hid]
  simp only [otherSource, Response.ofSnapshot, Option.bind_some, hfind]
  rfl

/-- What is shown in front of a listing, in either format. -/
def warningFor (format source : Text) (r : Response) : Report :=
  if !source.isEmpty && format = "table" then otherSource source r else .empty

/-- **In the format of tables** there is a warning for a text that misses, and for no other. -/
theorem warningFor_table {source : Text} {first selected : Probe} {others : List Probe}
    (hids : ((first :: others).map (·.id)).Nodup)
    (hnamed : ∀ p ∈ first :: others, p.id ≠ [] ∧ p.name ≠ [])
    (hselected : Probe.select (first :: others) (some source) = some selected) (found : Snapshot) :
    (Missed source (first :: others) →
      warningFor "table" source (.ofSnapshot (first :: others) selected found) = instead source first ∧
        selected = first) ∧
    (¬ Missed source (first :: others) →
      warningFor "table" source (.ofSnapshot (first :: others) selected found) = .empty) := by
  obtain ⟨hmissed, hfirst⟩ := missed_iff hnamed hselected
  have hother := otherSource_eq source hids (Probe.select_chosen hselected).mem found
  rw [warningFor, hother]
  refine ⟨fun hmiss => ?_, fun hmiss => ?_⟩
  · obtain ⟨hsource, hanswers⟩ := hmissed.mpr hmiss
    rw [if_pos (by simp [hsource]), if_neg (by simp [hanswers]), hfirst hmiss]
    exact ⟨rfl, rfl⟩
  · by_cases hsource : source = []
    · exact if_neg (by simp [hsource])
    · have hanswers : Probe.answersTo source.strip selected = true := by
        by_contra hanswers
        exact hmiss (hmissed.mp ⟨hsource, by simpa using hanswers⟩)
      rw [if_pos hanswers, ite_self]

/-- In the format of documents there is none. -/
theorem warningFor_json (source : Text) (r : Response) : warningFor "json" source r = .empty := by
  have hne : Text.ofString "json" ≠ "table" := by decide
  exact if_neg (by simp [hne])

/-! ## 2. The warning -/

variable {e : Environment} {args : List Text} {own : Values} {c : Context} {log : List LogLine}
  {console : Console} {rounds : Nat}

/-- The response with what is in the selected source. -/
theorem run_list_read {service : Service} {net : Network σ} {t : Text} {s probed next : σ}
    {probes running : List Probe} {selected : Probe} {found : Snapshot}
    (hprobe : (service.probe net).run s = (.ok probes, probed))
    (hrunning : probes.filter (·.running) = running)
    (hselected : Probe.select running (some t) = some selected)
    (hread : (service.read net rounds selected.target).run probed = (.ok (some found), next)) :
    (service.list net rounds (.text t)).run s =
      (.ok (some (.ofSnapshot running selected found)), next) := by
  subst hrunning
  exact (Service.run_list_selected hprobe hselected).trans (Session.run_bind_ok hread _)

/-- A response is shown, behind the warning if there is one. -/
theorem run_snapshot {service : Service} (hservice : Run.service c none = .ok service) {net : Network σ}
    {source : Text} {response : Response} {s next : σ}
    (hlist : (service.list net rounds (.text source)).run s = (.ok (some response), next))
    (format : Text) : (snapshot e console net rounds c format source).run s =
      (let printer := Printer.ofFormat format c.colored
      .ok (some (conclude e console printer .empty do
        console.print (warningFor format source response)
        tell console (printer.snapshot response.listing))), next) := by
  simp only [snapshot, hservice]
  rw [Session.run_bind_ok (Session.run_outcome _ s), hlist]
  rfl

/-- A failure that is told ends a run with one. -/
theorem exitCode_giveUp (e : Environment) (console : Console) (p : Printer) (before : Report)
    (words : Text) : (giveUp e console p before words).exitCode = 1 := by
  unfold giveUp
  split
  · rfl
  · simp only [Outcome.shownOn, Outcome.failed]
    split <;> rfl

/-- **A warning and a listing are shown one behind the other**, if the console shows both. -/
theorem conclude_warning {p : Printer} {warning shown : Report} (hwarning : console.Shows warning)
    (hshown : console.Shows shown) :
    (conclude e console p .empty do
      console.print warning
      tell console (.ok shown)) = .done (warning ++ shown) := by
  have hrun : (do
      console.print warning
      tell console (.ok shown)).run .empty = (.ok (), warning ++ shown) := by
    rw [Session.run_bind_ok (Console.run_print hwarning .empty), tell, Session.ofExcept_ok_bind,
      Console.run_print hshown, Report.empty_append]
  simp only [conclude, hrun]

/-- A warning that the console refuses ends the command: the listing is not shown. -/
theorem conclude_refused {p : Printer} {warning shown : Report} {f : Failure}
    (h : (console.print warning).run .empty = (.error f, shown)) (listing : Except Failure Report) :
    (conclude e console p .empty do
      console.print warning
      tell console listing) = giveUp e console p shown f.message := by
  simp only [conclude, Session.run_bind_error h]

/-- Running sources have identifiers that no other has, and names: they are targets of the settings. -/
theorem running_named (h : Asks e args .snapshot own c log) {service : Service}
    (hservice : Run.service c none = .ok service) {net : Network σ} {s probed : σ}
    {probes running : List Probe} (hprobe : (service.probe net).run s = (.ok probes, probed))
    (hrunning : probes.filter (·.running) = running) :
    (running.map (·.id)).Nodup ∧ ∀ p ∈ running, p.id ≠ [] ∧ p.name ≠ [] := by
  have htargets : probes.map (·.target) = c.settings.targets := by
    rw [← Service.targets_of_make hservice]
    exact Probe.targets_runAll hprobe
  subst hrunning
  refine ⟨Settings.nodup_running h.exists_loaded.1 htargets, fun p hp => ?_⟩
  have hmem : p.target ∈ c.settings.targets :=
    htargets ▸ List.mem_map_of_mem (List.mem_of_mem_filter hp)
  exact ⟨(h.named _ hmem).id_ne, (h.named _ hmem).name_ne⟩

/-- **The warning is there if and only if the source that is asked for is not running**, and then the
first running one is shown.  Arguments ask for a snapshot, and there is a service for the settings.
Whatever the servers of the network do, if some targets are running and the selected one can be read,
then the console is handed a warning, or nothing, and behind it the listing.

In the format of tables there is a warning if and only if the text that asks for a source is not empty,
and without the blanks around it is neither the identifier nor the name of a running source.  In the
format of documents there is none.

If the console shows the warning and the listing, the command succeeds, and that is what is shown.  But
the text is part of the markup of the warning, and a console may refuse markup; then nothing is listed,
and the command fails with the words of that. -/
theorem warns_iff_missed (h : Asks e args .snapshot own c log) (console : Console) :
    ∃ service, Run.service c none = .ok service ∧
    ∀ (net : Network σ) (rounds : Nat) (s probed next : σ) (probes : List Probe)
      (first selected : Probe) (others : List Probe) (found : Snapshot),
      (service.probe net).run s = (.ok probes, probed) →
      probes.filter (·.running) = first :: others →
      Probe.select (first :: others) (some (sourceOf own)) = some selected →
      (service.read net rounds selected.target).run probed = (.ok (some found), next) →
      let printer := Printer.ofFormat (formatOf own c) c.colored
      let listing := printer.snapshot (Response.ofSnapshot (first :: others) selected found).listing
      ∃ (warning : Report) (o : Outcome),
        (program e console net rounds args).run s = (.ok (some (o.withLog log)), next) ∧
        (formatOf own c = "table" → Missed (sourceOf own) (first :: others) →
          warning = instead (sourceOf own) first ∧ selected = first) ∧
        (formatOf own c = "table" → ¬ Missed (sourceOf own) (first :: others) → warning = .empty) ∧
        (formatOf own c = "json" → warning = .empty) ∧
        o = (conclude e console printer .empty do
          console.print warning
          tell console listing) ∧
        (∀ shown, listing = .ok shown → console.Shows warning → console.Shows shown →
          o = .done (warning ++ shown)) ∧
        ∀ f shown, (console.print warning).run .empty = (.error f, shown) →
          o = giveUp e console printer shown f.message ∧ o.exitCode = 1 := by
  obtain ⟨service, hservice⟩ := h.exists_service none
  refine ⟨service, hservice, ?_⟩
  intro net rounds s probed next probes first selected others found hprobe hrunning hselected hread
  obtain ⟨hids, hnamed⟩ := running_named h hservice hprobe hrunning
  have hlist := run_list_read hprobe hrunning hselected hread
  obtain ⟨hmissed, hhit⟩ := warningFor_table hids hnamed hselected found
  refine ⟨warningFor (formatOf own c) (sourceOf own) (.ofSnapshot (first :: others) selected found), _,
    ?_, fun htable => ?_, fun htable => ?_, fun hjson => ?_, rfl, fun shown hshown hwarning hlisting => ?_,
    fun f shown hrefused => ?_⟩
  · rw [h.run_program]
    exact (Session.run_bind_ok (run_snapshot hservice hlist _) _).trans (Session.run_pure _ _)
  · rw [htable]
    exact hmissed
  · rw [htable]
    exact hhit
  · rw [hjson]
    exact warningFor_json ..
  · rw [hshown]
    exact conclude_warning hwarning hlisting
  · rw [conclude_refused hrefused]
    exact ⟨rfl, exitCode_giveUp ..⟩

/-! ## 3. A text of blanks -/

set_option maxRecDepth 20000 in
/-- Arguments ask for a source by any text. -/
theorem asks_source (t : Text) : Asks (Settings.withVariables []) ["snapshot", "--source", t] .snapshot
    [(Usage.source, .text t)] ⟨plainSettings, "table", true⟩ [] :=
  @Asks.intro _ _ [] _ _ _ _ _ _ rfl rfl rfl (@settingsFor_plain .empty rfl _ rfl rfl) rfl

/-- The service for these settings. -/
def plainService : Service :=
  ⟨plainSettings.targets, .real (.ofRatio false 1 2),
    ⟨⟨some 5000, .int 500⟩, .int 4096, .real 3⟩, none⟩

theorem service_plain (format : Text) (colored : Bool) :
    Run.service ⟨plainSettings, format, colored⟩ none = .ok plainService := rfl

/-- The one target is running, it is selected by any text, and what it has can be read and shown. -/
theorem list_plain : ∃ p found shown, p.target = ⟨"internal", "InternalDB", "localhost", 6379⟩ ∧
    (plainService.probe Network.bare).run () = (.ok [p], ()) ∧ [p].filter (·.running) = [p] ∧
    (∀ t, Probe.select [p] (some t) = some p) ∧
    (plainService.read Network.bare 1 p.target).run () = (.ok (some found), ()) ∧
    (Printer.ofFormat "table" true).snapshot (Response.ofSnapshot [p] p found).listing = .ok shown := by
  obtain ⟨p, htarget, hprobe, hrunning⟩ : ∃ p : Probe,
      p.target = ⟨"internal", "InternalDB", "localhost", 6379⟩ ∧
      (plainService.probe Network.bare).run () = (.ok [p], ()) ∧ [p].filter (·.running) = [p] :=
    ⟨_, rfl, rfl, rfl⟩
  have hselect : ∀ t, Probe.select [p] (some t) = some p := by
    intro t
    simp only [Probe.select, List.head?_cons, List.find?_cons, List.find?_nil]
    split
    · rfl
    · split <;> rfl
  have hread : ((plainService.read Network.bare 1 ⟨"internal", "InternalDB", "localhost", 6379⟩).run
      ()).1.toOption.join = some ⟨"InternalDB", [], false⟩ := by decide +kernel
  have hrun : (plainService.read Network.bare 1 p.target).run () =
      (.ok (some ⟨"InternalDB", [], false⟩), ()) := by
    rw [htarget]
    rcases hrun : (plainService.read Network.bare 1
      ⟨"internal", "InternalDB", "localhost", 6379⟩).run () with ⟨_ | _ | found, ⟨⟩⟩ <;>
      rw [hrun] at hread <;> cases hread
    rfl
  exact ⟨p, _, _, htarget, hprobe, hrunning, hselect, hrun, rfl⟩

/-- A source that is not there is asked for, and the one that is there is shown instead. -/
theorem warns_of_unknown : ∃ (p : Probe) (shown : Report), p.id = "internal" ∧
    (program (Settings.withVariables []) .plain Network.bare 1 ["snapshot", "--source", "Cache"]).run () =
      (.ok (some ⟨0, instead "Cache" p ++ shown, [], []⟩), ()) := by
  obtain ⟨service, hservice, hwarns⟩ := warns_iff_missed (σ := Unit) (asks_source "Cache") .plain
  obtain rfl : plainService = service := Except.ok.inj ((service_plain "table" true).symm.trans hservice)
  obtain ⟨p, found, shown, htarget, hprobe, hrunning, hselect, hread, hshown⟩ := list_plain
  obtain ⟨warning, o, hrun, hmissed, -, -, -, hdone, -⟩ :=
    hwarns Network.bare 1 () () () [p] p p [] found hprobe hrunning (hselect _) hread
  have hid : p.id = "internal" := congrArg Target.id htarget
  have hname : p.name = "InternalDB" := congrArg Target.name htarget
  obtain ⟨rfl, -⟩ := hmissed rfl ⟨by decide, fun q hq => by
    obtain rfl := List.mem_singleton.mp hq
    rw [hid, hname]
    decide +kernel⟩
  obtain rfl := hdone shown hshown (Console.shows_plain _) (Console.shows_plain _)
  exact ⟨p, shown, hid, hrun⟩

/-- A text of blanks asks for nothing, and there is a warning. -/
theorem warns_of_blank : Text.strip "   " = [] ∧ ∃ (p : Probe) (shown : Report), p.id = "internal" ∧
    (program (Settings.withVariables []) .plain Network.bare 1 ["snapshot", "--source", "   "]).run () =
      (.ok (some ⟨0, instead "   " p ++ shown, [], []⟩), ()) := by
  obtain ⟨p, found, shown, htarget, hprobe, hrunning, hselect, hread, hshown⟩ := list_plain
  have hid : p.id = "internal" := congrArg Target.id htarget
  have hname : p.name = "InternalDB" := congrArg Target.name htarget
  have hblank : Text.strip "   " = [] := by decide +kernel
  have hanswers : Probe.answersTo (Text.strip "   ") p = false := by
    rw [Probe.answersTo_eq_false, hblank, hid, hname]
    decide +kernel
  have hother : otherSource "   " (.ofSnapshot [p] p found) = instead "   " p := by
    have hids : ([p].map (·.id)).Nodup := List.nodup_singleton _
    rw [otherSource_eq "   " hids List.mem_cons_self, if_neg (by simp [hanswers])]
  have hlist := run_list_read hprobe hrunning (hselect "   ") hread
  have hdone : (conclude (Settings.withVariables []) .plain (Printer.ofFormat "table" true) .empty do
      Console.plain.print (otherSource "   " (.ofSnapshot [p] p found))
      tell .plain ((Printer.ofFormat "table" true).snapshot
        (Response.ofSnapshot [p] p found).listing)) = .done (instead "   " p ++ shown) := by
    rw [hother, hshown]
    exact conclude_warning (Console.shows_plain _) (Console.shows_plain _)
  refine ⟨hblank, p, shown, hid, ?_⟩
  rw [(asks_source "   ").run_program]
  refine (Session.run_bind_ok (run_snapshot (service_plain "table" true) hlist "table") _).trans ?_
  exact congrArg (fun o => (Except.ok (some (Outcome.withLog o [])), ())) hdone

end Run

end Keyscope
