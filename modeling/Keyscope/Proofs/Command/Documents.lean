/-
# One document

In the format of documents a command prints one document and nothing else, or hands one to the console
where it has colours (`Run.one_document`).  What the service is asked, and what it answers, does not
depend on the format (`Run.answer`): an answer is told as its value, a failure as its words, and the
exit code tells which of the two it is.

A document could only fail to be written because of a whole number that is too long, and then that
failure is printed instead.  No answer has such a number (`Run.writable_of_answer`): the whole numbers in
it are the ports of targets that were loaded, the lifetimes and counts of records, and how many probes
there are.
-/
import Keyscope.Proofs.Choice
import Keyscope.Proofs.Command.Runs
import Keyscope.Proofs.Json.Writer
import Keyscope.Proofs.Keyspace.Sizes
import Keyscope.Proofs.Telemetry

namespace Keyscope

variable {σ : Type}

open Json (Writable)

/-! ## 1. Values of answers -/

/-- Ports that exist are small. -/
theorem Target.Named.writable_port {t : Target} (h : t.Named) : Writable (.int t.port) := by
  have hpos := h.port_pos
  have hle : t.port ≤ 65535 := h.port_le
  have hfive : tenTo (5 : Nat) = 100000 := by decide
  exact .int (Nat.lt_of_lt_of_le (by omega : t.port.natAbs < tenTo (5 : Nat)) (Value.tenTo_le (by decide)))

theorem Probe.writable_ofAttempt {t : Target} (h : t.Named)
    (outcome : Except Failure (Option Binary64)) : Writable (ofAttempt t outcome).toValue := by
  have hfields : ∀ (running : Bool) (latency : Value), Writable latency →
      Writable (Probe.mk t.id t.name t.host t.port running latency).toValue := by
    intro running latency hlatency
    refine @Writable.dict [("id", .text t.id), ("name", .text t.name), ("host", .text t.host),
      ("port", .int t.port), ("running", .bool running), ("latencyMs", latency)] ?_
    simp only [List.forall_mem_cons]
    exact ⟨.text _, .text _, .text _, h.writable_port, .bool _, hlatency, nofun⟩
  unfold ofAttempt
  split
  · exact hfields _ _ (.real _)
  · exact hfields _ _ .null

theorem Record.Small.writable {r : Record} (h : r.Small) : Writable r.toValue := by
  refine @Writable.dict [("source", .text r.source), ("key", .text r.key), ("type", .text r.type),
    ("entryCount", .int r.count), ("ttlSeconds", .int r.lifetime), ("payload", .text r.payload)] ?_
  simp only [List.forall_mem_cons]
  exact ⟨.text _, .text _, .text _, .int h.count, .int h.lifetime, .text _, nofun⟩

theorem Response.writable {r : Response} (hsources : ∀ p ∈ r.sources, Writable p.toValue)
    (hrecords : ∀ record ∈ r.records, record.Small) : Writable r.toValue := by
  refine @Writable.dict [("sources", .list (r.sources.map Probe.toValue)),
    ("selectedSource", r.selectedValue), ("records", .list (r.records.map Record.toValue)),
    ("truncated", .bool r.truncated)] ?_
  have hselected : Writable r.selectedValue := by
    unfold selectedValue
    cases r.selected with
    | none => exact .null
    | some id => exact .text id
  simp only [List.forall_mem_cons]
  refine ⟨.list ?_, hselected, .list ?_, .bool _, nofun⟩
  · rw [List.forall_mem_map]
    exact hsources
  · rw [List.forall_mem_map]
    exact fun record hrecord => (hrecords record hrecord).writable

theorem Connection.writable (c : Connection) : Writable c.toValue := by
  have hshard : Writable ((c.shard.map Value.text).getD .null) := by
    cases c.shard with
    | none => exact .null
    | some shard => exact .text shard
  refine @Writable.dict [("shardId", (c.shard.map Value.text).getD .null),
    ("identityId", .text c.identity), ("targetId", .text c.target), ("pingMs", .real c.ping),
    ("inBytesPerSec", .real c.inRate), ("outBytesPerSec", .real c.outRate),
    ("inPacketsPerSec", .real c.packetRate), ("pendingReliableBytes", .real c.pendingReliable),
    ("pendingUnreliableBytes", .real c.pendingUnreliable),
    ("sentUnackedReliableBytes", .real c.sentUnacked), ("queueTimeUsec", .real c.queueTime),
    ("qualityLocal", .real c.localQuality), ("qualityRemote", .real c.remoteQuality),
    ("state", .text c.state)] ?_
  simp only [List.forall_mem_cons]
  exact ⟨hshard, .text _, .text _, .real _, .real _, .real _, .real _, .real _, .real _, .real _,
    .real _, .real _, .real _, .text _, nofun⟩

theorem Shard.writable {s : Shard} (h : ∃ name, s.id = .text name) : Writable s.toValue := by
  obtain ⟨name, hname⟩ := h
  refine @Writable.dict [("shardId", s.id), ("downloadKbps", .real s.download),
    ("uploadKbps", .real s.upload), ("connections", .list (s.connections.map Connection.toValue))] ?_
  simp only [List.forall_mem_cons, hname]
  refine ⟨.text _, .real _, .real _, .list ?_, nofun⟩
  rw [List.forall_mem_map]
  exact fun c _ => c.writable

/-- A listing shows what it is made of. -/
theorem Response.toValue_listing (r : Response) : r.listing.toValue = r.toValue := by
  simp only [Listing.toValue, listing, toValue, List.map_map]
  rfl

theorem Shard.toValue_lines (shards : List Shard) :
    (shards.map Shard.line).mapM ShardLine.toValue = .ok (shards.map Shard.toValue) := by
  have hline : ∀ s ∈ shards, ShardLine.toValue (Shard.line s) = .ok s.toValue := by
    intro s _
    have hconnections : (Shard.line s).allConnections "to_dict" = .ok s.connections := by
      rw [ShardLine.allConnections, Shard.line, List.mapM_map]
      exact (Outcome.mapM_ok fun c _ => rfl).trans (congrArg Except.ok (List.map_id _))
    unfold ShardLine.toValue
    rw [hconnections]
    rfl
  rw [List.mapM_map]
  exact Outcome.mapM_ok hline

/-- The shards of a file are named by texts. -/
theorem TelemetrySource.text_of_shards {disk : Disk} {path : Text} {shards : List Shard}
    (h : (file path).shards disk = .ok shards) : ∀ s ∈ shards, ∃ name, s.id = .text name := by
  obtain ⟨identities, hidentities, h⟩ := Outcome.exists_of_bind h
  obtain ⟨rows, -, h⟩ := Outcome.exists_of_bind h
  have hnames := @exists_names (file path) trivial disk _ hidentities
  rw [summarize_texts hnames] at h
  obtain rfl := Except.ok.inj h
  rw [List.forall_mem_map]
  intro i hi
  obtain ⟨name, hname⟩ := hnames i hi
  refine ⟨name, ?_⟩
  rw [summaryOf, hname]
  rfl

/-- The sources of a response are the running ones. -/
theorem Service.sources_of_list {service : Service} {net : Network σ} {rounds : Nat}
    {requested : Value} {s next : σ} {response : Response}
    (h : (service.list net rounds requested).run s = (.ok (some response), next)) :
    ∃ probes probed, (service.probe net).run s = (.ok probes, probed) ∧
      response.sources = probes.filter (·.running) := by
  obtain ⟨probes, probed, hprobe, h⟩ := Session.run_bind_eq_ok.mp h
  obtain ⟨asked, _, -, h⟩ := Session.run_bind_eq_ok.mp h
  refine ⟨probes, probed, hprobe, ?_⟩
  split at h
  · rw [Option.some.inj (Session.run_pure_eq_ok.mp h).1]
    rfl
  · obtain ⟨found, _, -, h⟩ := Session.run_bind_eq_ok.mp h
    obtain ⟨snapshot, -, rfl⟩ := Option.map_eq_some_iff.mp (Session.run_pure_eq_ok.mp h).1.symm
    rfl

/-! ## 2. Answers -/

namespace Run

/-- A result, or the words of a failure; there is neither as long as a session is under way. -/
def toldOf : Except Failure (Option Value) → Option (Except Text Value)
  | .ok found => found.map .ok
  | .error f => some (.error f.message)

/-- What is told of a session. -/
def told (x : Session σ (Option Value)) : Session σ (Option (Except Text Value)) := do
  return toldOf (← x.outcome)

/-- The shards of a telemetry file. -/
def shardsFrom (e : Environment) (c : Context) (path : Text) : Except Failure (List Shard) := do
  let source ← TelemetrySource.ofPath e.homeOf path
  let s ← service c (some source)
  s.shards e.disk

/-- They are the shards of a file, whose path may start in a home. -/
theorem exists_file {e : Environment} {c : Context} {path : Text} {shards : List Shard}
    (h : shardsFrom e c path = .ok shards) :
    ∃ whole, (TelemetrySource.file whole).shards e.disk = .ok shards := by
  obtain ⟨source, hsource, h⟩ := Outcome.exists_of_bind h
  obtain ⟨made, hmade, h⟩ := Outcome.exists_of_bind h
  obtain ⟨whole, -, hsource⟩ := Outcome.exists_of_bind hsource
  obtain rfl := Except.ok.inj hsource
  obtain ⟨limits, -, hmade⟩ := Outcome.exists_of_bind hmade
  obtain rfl := Except.ok.inj hmade
  exact ⟨whole, h⟩

theorem text_of_shardsFrom {e : Environment} {c : Context} {path : Text} {shards : List Shard}
    (h : shardsFrom e c path = .ok shards) : ∀ s ∈ shards, ∃ name, s.id = .text name := by
  obtain ⟨whole, hfile⟩ := exists_file h
  exact TelemetrySource.text_of_shards hfile

/-- **What the service answers to a command**, as a value, or why it does not, in words. -/
def answer (e : Environment) (net : Network σ) (rounds : Nat) (own : Values) (c : Context) :
    CommandName → Session σ (Option (Except Text Value))
  | .sources => told do
    let s ← Session.ofExcept (service c none)
    let probes ← s.probe net
    return some (Printer.sourcesValue
      (if Options.isSet own Usage.runningOnly then probes.filter (·.running) else probes))
  | .snapshot => told do
    let s ← Session.ofExcept (service c none)
    let response ← s.list net rounds (.text (sourceOf own))
    return response.map Response.toValue
  | .telemetry =>
    match (Options.text? own Usage.input).or c.settings.rowsFile.path? with
    | none => return some (.error "No telemetry input; pass --input or set telemetry.rows_file")
    | some path => told do
      let shards ← Session.ofExcept (shardsFrom e c path)
      return some (.list (shards.map Shard.toValue))

/-- A document as it is printed.  Without colours its text is printed as it is; with colours it is handed
to the console, which may lay it out in its own way. -/
def page (colored : Bool) (text : Text) : Report :=
  if colored then .ofEvent (.highlighted text) else ⟨[], text ++ "\n"⟩

/-- **An answer or the words of a failure are printed as a document**, or handed to the console as one, and
that is all there is. -/
inductive Printed (colored : Bool) (log : List LogLine) : Except Text Value → Outcome → Prop
  | answer {v : Value} {text : Text} (h : Json.write .pages v = .ok text) :
    Printed colored log (.ok v) ⟨0, page colored text, [], log⟩
  | failure {words text : Text}
    (h : Json.write .pages (.dict [(.text "error", .text words), (.text "success", .bool false)]) =
      .ok text) :
    Printed colored log (.error words) ⟨1, page colored text, ["Aborted!"], log⟩

/-- Numbers of targets, and of the members of all that servers reply, can be written. -/
structure Fits (net : Network σ) (c : Context) : Prop where
  targets : c.settings.targets.length < tenTo Numeral.maxDigits
  replies : ∀ t, (net.server t).Countable

/-- A console shows documents, where it is handed any. -/
def ShowsDocuments (console : Console) (colored : Bool) : Prop :=
  colored = true → ∀ text, console (.highlighted text) = .ok ()

theorem showsDocuments_plain (colored : Bool) : ShowsDocuments .plain colored := fun _ _ => rfl

variable {e : Environment} {args : List Text} {name : CommandName} {own : Values} {c : Context}
  {log : List LogLine} {console : Console} {net : Network σ} {rounds : Nat}

/-! ## 3. How answers are printed -/

theorem document_pages (colored : Bool) (v : Value) :
    Printer.document .pages colored v = do return page colored (← Json.write .pages v) := rfl

/-- The words of a failure can always be written. -/
theorem exists_failure (colored : Bool) (words : Text) : ∃ text,
    Json.write .pages (Printer.failureValue (.text words)) = .ok text ∧
      (Printer.documents .pages colored).failureText words = page colored text := by
  have hwritable : Writable (Printer.failureValue (.text words)) := by
    refine @Writable.dict [("error", .text words), ("success", .bool false)] ?_
    simp only [List.forall_mem_cons]
    exact ⟨.text _, .bool _, nofun⟩
  obtain ⟨text, htext⟩ := hwritable.exists_document .pages
  refine ⟨text, htext, ?_⟩
  rw [Printer.failureText, Printer.failure, document_pages, htext]
  rfl

/-- What is printed of an answer. -/
def shown (colored : Bool) : Except Text Value → Outcome
  | .ok v =>
    match Printer.document .pages colored v with
    | .ok r => .done r
    | .error f => .aborted ((Printer.documents .pages colored).failureText f.message)
  | .error words => .aborted ((Printer.documents .pages colored).failureText words)

/-- Whatever it is, it is a document. -/
theorem exists_shown (colored : Bool) (result : Except Text Value) :
    ∃ text, (shown colored result).report = page colored text := by
  cases result with
  | error words =>
    obtain ⟨text, -, htext⟩ := exists_failure colored words
    exact ⟨text, htext⟩
  | ok v =>
    rw [shown, document_pages]
    cases hwrite : Json.write .pages v with
    | ok text => exact ⟨text, rfl⟩
    | error f =>
      obtain ⟨text, -, htext⟩ := exists_failure colored f.message
      exact ⟨text, htext⟩

/-- An answer that can be written is printed as its document. -/
theorem shown_answer {colored : Bool} {v : Value} {text : Text} (h : Json.write .pages v = .ok text)
    (log : List LogLine) : (shown colored (.ok v)).withLog log = ⟨0, page colored text, [], log⟩ := by
  rw [shown, document_pages, h]
  simp [Outcome.withLog, Outcome.done]

theorem printed_shown (colored : Bool) (log : List LogLine) {result : Except Text Value}
    (h : ∀ v, result = .ok v → Writable v) :
    Printed colored log result ((shown colored result).withLog log) := by
  cases result with
  | error words =>
    obtain ⟨text, hwrite, htext⟩ := exists_failure colored words
    rw [shown, htext]
    simpa [Outcome.withLog, Outcome.aborted] using Printed.failure hwrite
  | ok v =>
    obtain ⟨text, hwrite⟩ := (h v rfl).exists_document .pages
    rw [shown_answer hwrite]
    exact .answer hwrite

theorem shows_page {colored : Bool} (h : ShowsDocuments console colored) (text : Text) :
    console.Shows (page colored text) := by
  cases colored with
  | false => nofun
  | true => exact List.forall_mem_singleton.mpr (h rfl text)

/-- A console that shows documents shows the words of a failure. -/
theorem giveUp_documents (h : ShowsDocuments console c.colored) (words : Text) :
    giveUp e console (.documents .pages c.colored) .empty words = shown c.colored (.error words) := by
  obtain ⟨text, -, htext⟩ := exists_failure c.colored words
  rw [giveUp_shows (htext ▸ shows_page h text), Report.empty_append]
  rfl

/-- And it shows an answer. -/
theorem conclude_documents (h : ShowsDocuments console c.colored) (v : Value) :
    conclude e console (.documents .pages c.colored) .empty
      (tell console (Printer.document .pages c.colored v)) = shown c.colored (.ok v) := by
  rw [shown, document_pages]
  cases Json.write .pages v with
  | error f => exact giveUp_documents h f.message
  | ok text => exact conclude_shows (shows_page h text) .empty

/-! ## 4. Runs -/

theorem run_told (x : Session σ (Option Value)) (s : σ) :
    (told x).run s = (.ok (toldOf (x.run s).1), (x.run s).2) := rfl

/-- **In the format of documents a command prints what the service answers.** -/
theorem perform_documents (hservice : ∃ s, service c none = .ok s)
    (hformat : formatOf own c = "json") (hconsole : ShowsDocuments console c.colored) (s : σ) :
    (perform e console net rounds own c name).run s =
      (do return (← answer e net rounds own c name).map (shown c.colored)).run s := by
  have htable : Text.ofString "json" ≠ "table" := by decide
  have hprinter : Printer.ofFormat "json" c.colored = .documents .pages c.colored := rfl
  have hstatus : (console.print .empty).run .empty = (.ok (), .empty) := rfl
  have hgiveUp := fun words : Text => giveUp_documents (e := e) hconsole words
  have hconclude := fun v : Value => conclude_documents (e := e) hconsole v
  obtain ⟨made, hservice⟩ := hservice
  cases name with
  | sources =>
    simp only [perform, sources, answer, hformat, hprinter, hservice, if_neg htable, hstatus,
      Session.ofExcept_ok_bind, Session.run_bind, Session.run_outcome, Session.run_pure, run_told]
    rcases (made.probe net).run s with ⟨f | probes, next⟩
    · exact congrArg (fun o => (Except.ok (some o), next)) (hgiveUp f.message)
    · exact congrArg (fun o => (Except.ok (some o), next)) (hconclude _)
  | snapshot =>
    simp only [perform, snapshot, answer, hformat, hprinter, hservice, htable,
      Session.ofExcept_ok_bind, Session.run_bind, Session.run_outcome, Session.run_pure, run_told]
    rcases (made.list net rounds (.text (sourceOf own))).run s with ⟨f | _ | response, next⟩
    · exact congrArg (fun o => (Except.ok (some o), next)) (hgiveUp f.message)
    · rfl
    · simp only [Printer.snapshot, Response.toValue_listing, decide_false, Bool.and_false,
        Bool.false_eq_true, if_false]
      exact congrArg (fun o => (Except.ok (some o), next)) (hconclude _)
  | telemetry =>
    simp only [perform, telemetry, answer, hformat, hprinter]
    cases (Options.text? own Usage.input).or c.settings.rowsFile.path? with
    | none => exact congrArg (fun o => (Except.ok (some o), s)) (hgiveUp _)
    | some path =>
      have hshards : ∀ p : Printer, (do
          let source ← TelemetrySource.ofPath e.homeOf path
          let s ← service c (some source)
          p.shards ((← s.shards e.disk).map Shard.line)) =
          shardsFrom e c path >>= fun shards => p.shards (shards.map Shard.line) := fun p => by
        simp only [shardsFrom, bind_assoc]
      simp only [hshards, Session.run_bind, run_told, Session.run_ofExcept, Session.run_pure]
      cases shardsFrom e c path with
      | error f => exact congrArg (fun o => (Except.ok (some o), s)) (hgiveUp f.message)
      | ok shards =>
        simp only [Outcome.ok_bind, Printer.shards, Shard.toValue_lines]
        exact congrArg (fun o => (Except.ok (some o), s)) (hconclude _)

/-- A result that is told is one. -/
theorem exists_of_told {x : Session σ (Option Value)} {s next : σ} {v : Value}
    (h : (told x).run s = (.ok (some (.ok v)), next)) : x.run s = (.ok (some v), next) := by
  rw [run_told] at h
  rcases hx : x.run s with ⟨f | _ | w, last⟩ <;> rw [hx] at h <;> cases h
  rfl

/-- Only a snapshot can be under way. -/
theorem name_of_underWay {s next : σ}
    (h : (answer e net rounds own c name).run s = (.ok none, next)) : name = .snapshot := by
  have hnone : ∀ {x : Session σ (Option Value)}, (told x).run s = (.ok none, next) →
      x.run s = (.ok none, next) := by
    intro x hx
    rw [run_told] at hx
    rcases hrun : x.run s with ⟨f | _ | v, last⟩ <;> rw [hrun] at hx <;> cases hx
    rfl
  cases name with
  | snapshot => rfl
  | sources =>
    obtain ⟨made, _, -, hmade⟩ := Session.run_bind_eq_ok.mp (hnone h)
    obtain ⟨probes, _, -, hprobes⟩ := Session.run_bind_eq_ok.mp hmade
    cases (Session.run_pure_eq_ok.mp hprobes).1
  | telemetry =>
    simp only [answer] at h
    split at h
    · cases (Session.run_pure_eq_ok.mp h).1
    · obtain ⟨shards, _, -, hshards⟩ := Session.run_bind_eq_ok.mp (hnone h)
      cases (Session.run_pure_eq_ok.mp hshards).1

theorem writable_probes (h : Asks e args name own c log) {made : Service}
    (hservice : service c none = .ok made) {s probed : σ} {probes : List Probe}
    (hprobe : (made.probe net).run s = (.ok probes, probed)) :
    (∀ p ∈ probes, Writable p.toValue) ∧ probes.length = c.settings.targets.length := by
  have hattempts := Probe.attempts_runAll hprobe
  rw [Service.targets_of_make hservice] at hattempts
  refine ⟨fun p hp => ?_, hattempts.length_eq.symm⟩
  obtain ⟨t, ht, outcome, rfl⟩ := Outcome.exists_of_forall₂ hattempts hp
  exact Probe.writable_ofAttempt (h.named t ht) outcome

/-- **Every answer can be written.** -/
theorem writable_of_answer (h : Asks e args name own c log) (hfits : Fits net c) {s next : σ} {v : Value}
    (hanswer : (answer e net rounds own c name).run s = (.ok (some (.ok v)), next)) : Writable v := by
  cases name with
  | sources =>
    obtain ⟨made, _, hmade, hanswer⟩ := Session.run_bind_eq_ok.mp (exists_of_told hanswer)
    obtain ⟨probes, _, hprobe, hanswer⟩ := Session.run_bind_eq_ok.mp hanswer
    obtain rfl := Option.some.inj (Session.run_pure_eq_ok.mp hanswer).1
    obtain ⟨hprobes, hlength⟩ := writable_probes h (Session.run_ofExcept_eq_ok.mp hmade).1 hprobe
    have hvalue : ∀ ps : List Probe, ps.Sublist probes → Writable (Printer.sourcesValue ps) := by
      intro ps hps
      have hcount := Nat.lt_of_le_of_lt hps.length_le (hlength ▸ hfits.targets)
      refine @Writable.dict [("sources", .list (ps.map Probe.toValue)), ("count", .int ps.length)] ?_
      simp only [List.forall_mem_cons]
      refine ⟨.list ?_, .int hcount, nofun⟩
      rw [List.forall_mem_map]
      exact fun p hp => hprobes p (hps.subset hp)
    split
    · exact hvalue _ List.filter_sublist
    · exact hvalue _ (List.Sublist.refl _)
  | snapshot =>
    obtain ⟨made, _, hmade, hanswer⟩ := Session.run_bind_eq_ok.mp (exists_of_told hanswer)
    obtain ⟨found, _, hlist, hanswer⟩ := Session.run_bind_eq_ok.mp hanswer
    obtain ⟨response, rfl, rfl⟩ :=
      Option.map_eq_some_iff.mp (Session.run_pure_eq_ok.mp hanswer).1.symm
    obtain ⟨probes, _, hprobe, hsources⟩ := Service.sources_of_list hlist
    refine Response.writable ?_ (Service.small_of_list hfits.replies hlist)
    rw [hsources]
    exact fun p hp => (writable_probes h (Session.run_ofExcept_eq_ok.mp hmade).1 hprobe).1 p
      (List.mem_of_mem_filter hp)
  | telemetry =>
    simp only [answer] at hanswer
    split at hanswer
    · cases hanswer
    · obtain ⟨shards, _, hshards, hanswer⟩ := Session.run_bind_eq_ok.mp (exists_of_told hanswer)
      obtain rfl := Option.some.inj (Session.run_pure_eq_ok.mp hanswer).1
      refine .list ?_
      rw [List.forall_mem_map]
      exact fun s hs =>
        Shard.writable (text_of_shardsFrom (Session.run_ofExcept_eq_ok.mp hshards).1 s hs)

/-- **In the format of documents a command prints one document and nothing else.**  Arguments ask for a
command, and its own format or else the one in front of it is that of documents.  Whatever the servers of
the network do, and whatever the files hold, the service gives an answer or a failure, and the run leaves
behind nothing but one document, and what the log says of the settings.  After an answer that is its
value, and the exit code is zero.  After a failure it is an object with the words of the failure, and the
exit code is one.  Only as long as the sweep of a snapshot is under way there is neither an answer nor an
outcome of the run.

Without colours the document is printed as it is.  With colours it is what the console is handed, which
must be one that does not refuse it; how it lays the document out is not said here (`page`).

That an answer has a text needs what is true of all lists: there are not so many targets, and not so many
members in what servers reply, that their number has more than 4300 digits.  Otherwise there still is one
document. -/
theorem one_document (h : Asks e args name own c log) (hformat : formatOf own c = "json")
    (hconsole : ShowsDocuments console c.colored) (net : Network σ) (rounds : Nat) (s : σ) :
    ∃ (found : Option (Except Text Value)) (next : σ),
      (answer e net rounds own c name).run s = (.ok found, next) ∧
      match found with
      | none => name = .snapshot ∧ (program e console net rounds args).run s = (.ok none, next)
      | some result => ∃ (o : Outcome) (text : Text),
        (program e console net rounds args).run s = (.ok (some o), next) ∧
        o.report = page c.colored text ∧ (Fits net c → Printed c.colored log result o) := by
  obtain ⟨found, next, hanswer⟩ : ∃ found next,
      (answer e net rounds own c name).run s = (.ok found, next) := by
    cases name with
    | telemetry =>
      simp only [answer]
      split <;> exact ⟨_, _, rfl⟩
    | _ => exact ⟨_, _, rfl⟩
  have hperform : (perform e console net rounds own c name).run s = _ :=
    perform_documents (h.exists_service none) hformat hconsole s
  rw [Session.run_bind_ok hanswer, Session.run_pure] at hperform
  have hrun : (program e console net rounds args).run s =
      (.ok ((found.map (shown c.colored)).map (Outcome.withLog · log)), next) := by
    rw [h.run_program, Session.run_bind_ok hperform, Session.run_pure]
  refine ⟨found, next, hanswer, ?_⟩
  cases found with
  | none => exact ⟨name_of_underWay hanswer, hrun⟩
  | some result =>
    obtain ⟨text, htext⟩ := exists_shown c.colored result
    refine ⟨(shown c.colored result).withLog log, text, hrun, htext, fun hfits => ?_⟩
    refine printed_shown c.colored log fun v hv => ?_
    subst hv
    exact writable_of_answer h hfits hanswer

set_option maxRecDepth 20000 in
/-- Arguments ask for the sources, in the format of documents. -/
theorem asks_documents : Asks (Settings.withVariables []) ["sources", "--format", "json"] .sources
    [(Usage.format, .text "json")] ⟨plainSettings, "table", true⟩ [] :=
  @Asks.intro _ _ [] _ _ _ _ _ _ rfl rfl rfl (@settingsFor_plain .empty rfl _ rfl rfl) rfl

/-- Nothing is running, and a document says so. -/
theorem one_document_sources : ∃ text,
    Json.write .pages
      (Printer.sourcesValue [Probe.unreachable ⟨"internal", "InternalDB", "localhost", 6379⟩]) = .ok text ∧
    (program (Settings.withVariables []) .plain Network.unplugged 0 ["sources", "--format", "json"]).run () =
      (.ok (some ⟨0, page true text, [], []⟩), ()) := by
  obtain ⟨found, next, hanswer, hfound⟩ :=
    one_document asks_documents rfl (showsDocuments_plain true) Network.unplugged 0 ()
  have hfits : Fits Network.unplugged ⟨plainSettings, "table", true⟩ :=
    ⟨Numeral.one_lt_tenTo, nofun⟩
  obtain rfl : some (Except.ok (Printer.sourcesValue
      [Probe.unreachable ⟨"internal", "InternalDB", "localhost", 6379⟩])) = found :=
    Except.ok.inj (Prod.mk.inj hanswer).1
  obtain ⟨o, text, hrun, -, hprinted⟩ := hfound
  cases hprinted hfits with
  | answer hwrite => exact ⟨_, hwrite, hrun⟩

end Run

end Keyscope
