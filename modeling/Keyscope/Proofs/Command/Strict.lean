/-
# Documents for strict readers

The document of the shards of a file, as it is printed or handed to the console, has a number for each
column and each mean.  One that is not finite has a word there, `NaN` or `Infinity`, which is none of the
usual grammar.  So a reader of that grammar reads the document as what was reported if and only if all of
these numbers are finite, and refuses it otherwise (`Run.strict_iff_finite`).  The reader of telemetry
files, which knows these words, always reads it.

A column that is no number is enough for that: it is a NaN, and it does not keep the row from being
reported.
-/
import Keyscope.Proofs.Command.Documents
import Keyscope.Proofs.Telemetry.Written

namespace Keyscope

variable {σ : Type}

/-! ## 1. Documents of shards -/

/-- **A strict reader reads the document of shards if all of their numbers are finite**, and refuses it if
one of them is not; a liberal one reads it in either case. -/
theorem Shard.gives_document {disk : Disk} {path : Text} {shards : List Shard}
    (h : (TelemetrySource.file path).shards disk = .ok shards) {l : Json.Layout} {text : Text}
    (hwrite : Json.write l (.list (shards.map Shard.toValue)) = .ok text) (liberal : Bool) {blanks : Text}
    (hblanks : ∀ c ∈ blanks, Json.isBlank c = true) :
    Json.Gives (liberal = false → ∀ s ∈ shards, s.Finite)
      (Json.document (Json.wordsOf liberal) (text ++ blanks)) (.list (shards.map Shard.toValue)) [] := by
  have hsound : Json.Sound Json.maxDepth (.list (shards.map Shard.toValue)) :=
    TelemetrySource.sound_of_shards h
  refine (Json.document_write hsound hwrite hblanks).congr (forall_congr' fun _ => ?_)
  rw [Json.finite_list_iff, List.forall_mem_map]
  exact forall₂_congr fun s hs => Shard.finite_iff (TelemetrySource.text_of_shards h s hs)

namespace Run

/-! ## 2. The command -/

variable {e : Environment} {args : List Text} {own : Values} {c : Context} {log : List LogLine} {path : Text}
  {shards : List Shard} {console : Console}

/-- The shards of a telemetry file are those of its path, which may start in a home. -/
theorem shardsFrom_eq {whole : Text} (hwhole : Path.expandHome e.homeOf path = .ok whole)
    (hservice : ∃ s, service c (some (.file whole)) = .ok s) :
    shardsFrom e c path = (TelemetrySource.file whole).shards e.disk := by
  obtain ⟨s, hservice⟩ := hservice
  have hsource : TelemetrySource.ofPath e.homeOf path = .ok (.file whole) := by
    rw [TelemetrySource.ofPath, hwhole]
    rfl
  obtain ⟨limits, -, hmade⟩ := Outcome.exists_of_bind hservice
  obtain rfl := Except.ok.inj hmade
  rw [shardsFrom, hsource, Outcome.ok_bind, hservice]
  rfl

/-- **The command prints the document of the shards**, and that is all. -/
theorem run_telemetry (h : Asks e args .telemetry own c log) (hformat : formatOf own c = "json")
    (hpath : (Options.text? own Usage.input).or c.settings.rowsFile.path? = some path)
    (hshards : shardsFrom e c path = .ok shards) (hconsole : ShowsDocuments console c.colored)
    (net : Network σ) (rounds : Nat) (s : σ) :
    ∃ text, Json.write .pages (.list (shards.map Shard.toValue)) = .ok text ∧
      (program e console net rounds args).run s =
        (.ok (some ⟨0, page c.colored text, [], log⟩), s) := by
  have hwritable : Json.Writable (.list (shards.map Shard.toValue)) :=
    .list (List.forall_mem_map.mpr fun s hs => Shard.writable (text_of_shardsFrom hshards s hs))
  obtain ⟨text, htext⟩ := hwritable.exists_document .pages
  have hanswer : (answer e net rounds own c .telemetry).run s =
      (.ok (some (.ok (.list (shards.map Shard.toValue)))), s) := by
    simp only [answer, hpath, run_told, hshards]
    rfl
  have hperform : (perform e console net rounds own c .telemetry).run s = _ :=
    perform_documents (h.exists_service none) hformat hconsole s
  rw [Session.run_bind_ok hanswer, Session.run_pure] at hperform
  refine ⟨text, htext, ?_⟩
  rw [h.run_program, Session.run_bind_ok hperform, Session.run_pure, Option.map_some,
    Option.map_some, shown_answer htext]

/-- **What the telemetry command prints is a document for strict readers if and only if all of its numbers
are finite.**  Arguments ask for the shards of a file in the format of documents, and the file has them,
whatever is in its columns.  Then the command succeeds and prints one document; with colours, that is the
one that the console is handed.

A reader that knows no words but those of the usual grammar reads the document, also with blanks behind
it, as what is reported of the shards if all columns and means are finite.  If one of them is not, it
refuses the document.  The reader of telemetry files reads it as what is reported in either case. -/
theorem strict_iff_finite (h : Asks e args .telemetry own c log) (hformat : formatOf own c = "json")
    (hpath : (Options.text? own Usage.input).or c.settings.rowsFile.path? = some path)
    (hshards : shardsFrom e c path = .ok shards) (hconsole : ShowsDocuments console c.colored)
    (net : Network σ) (rounds : Nat) (s : σ) :
    ∃ text, (program e console net rounds args).run s =
        (.ok (some ⟨0, page c.colored text, [], log⟩), s) ∧
      Json.write .pages (.list (shards.map Shard.toValue)) = .ok text ∧
      ∀ blanks : Text, (∀ c ∈ blanks, Json.isBlank c = true) →
        ((∀ shard ∈ shards, shard.Finite) →
          Json.document Json.words (text ++ blanks) = .ok (.list (shards.map Shard.toValue), [])) ∧
        ((∃ shard ∈ shards, ¬ shard.Finite) → ∃ f, Json.document Json.words (text ++ blanks) = .error f) ∧
        Json.parse (text ++ blanks) = .ok (.list (shards.map Shard.toValue)) := by
  obtain ⟨text, htext, hrun⟩ := run_telemetry h hformat hpath hshards hconsole net rounds s
  obtain ⟨whole, hfile⟩ := exists_file hshards
  refine ⟨text, hrun, htext, fun blanks hblanks => ?_⟩
  have hstrict := Shard.gives_document hfile htext false hblanks
  have hliberal := (Shard.gives_document hfile htext true hblanks).result nofun
  refine ⟨fun hfinite => hstrict.result fun _ => hfinite, fun hother => hstrict.refusal fun hall => ?_, ?_⟩
  · obtain ⟨shard, hshard, hother⟩ := hother
    exact hother (hall rfl shard hshard)
  · rw [Json.parse, show Json.constants = Json.wordsOf true from rfl, hliberal]

/-! ## 3. A rate -/

/-- The row of a connection, with a text for its rate. -/
def ratedRow (rate : Text) : List Text :=
  ["a", "x", "peer", "12", rate, "50", "5", "0", "0", "0", "7", "1", "1", "up"]

/-- One shard with this connection. -/
def ratedDump (rate : Text) : List (Value × Value) :=
  [(.text "identities", .list [.dict [(.text "id", .text "a"), (.text "health", .text "ok")]]),
    (.text "rows", .list [TelemetrySource.rowValue (ratedRow rate)])]

/-- What is reported of it. -/
def ratedShard (rate : Text) : Shard := TelemetrySource.summaryOf [ratedRow rate] ⟨.text "a", .text "ok"⟩

/-- A disk with such a file. -/
def ratedEnvironment (rate : Text) : Environment := plainOn (TelemetrySource.dumpOf (ratedDump rate))

/-- Arguments that ask for it. -/
def ratedArguments : List Text := ["--no-color", "--format", "json", "telemetry", "--input", "/dump"]

set_option maxRecDepth 20000 in
theorem asks_rated (rate : Text) : Asks (ratedEnvironment rate) ratedArguments .telemetry
    [(Usage.input, .text "/dump")] ⟨plainSettings, "json", false⟩ [] :=
  @Asks.intro _ _ [(Usage.noColor, .flag true), (Usage.mainFormat, .text "json")] _ _ _ _ _ _ rfl rfl rfl
    (settingsFor_plain rfl rfl rfl) rfl

/-- A file that is read as it was written has this shard. -/
theorem shardsFrom_rated {rate : Text}
    (hload : TelemetrySource.load (TelemetrySource.dumpOf (ratedDump rate)) "/dump" = .ok (ratedDump rate)) :
    shardsFrom (ratedEnvironment rate) ⟨plainSettings, "json", false⟩ "/dump" = .ok [ratedShard rate] := by
  have hidentities : TelemetrySource.identitiesOf (ratedDump rate) = .ok [⟨.text "a", .text "ok"⟩] := rfl
  have hrows : TelemetrySource.rowsOf (ratedDump rate) = .ok [ratedRow rate] := rfl
  have hfile : shardsFrom (ratedEnvironment rate) ⟨plainSettings, "json", false⟩ "/dump" =
      (TelemetrySource.file "/dump").shards (TelemetrySource.dumpOf (ratedDump rate)) :=
    shardsFrom_eq rfl ((asks_rated rate).exists_service _)
  rw [hfile, TelemetrySource.shards_file hload, TelemetrySource.shardsOf, hidentities, hrows]
  exact TelemetrySource.summarize_texts (List.forall_mem_singleton.mpr ⟨"a", rfl⟩) [ratedRow rate]

/-- A rate that is a number is printed for strict readers. -/
theorem strict_reads_number : ∃ text,
    (program (ratedEnvironment "100") .plain Network.unplugged 0 ratedArguments).run () =
      (.ok (some ⟨0, ⟨[], text ++ "\n"⟩, [], []⟩), ()) ∧
    Json.document Json.words (text ++ "\n") = .ok (.list [(ratedShard "100").toValue], []) := by
  have hload : TelemetrySource.load (TelemetrySource.dumpOf (ratedDump "100")) "/dump" =
      .ok (ratedDump "100") := by cbv
  obtain ⟨text, hrun, -, hread⟩ := strict_iff_finite (asks_rated "100") rfl rfl (shardsFrom_rated hload)
    (showsDocuments_plain false) Network.unplugged 0 ()
  have hfinite : (ratedShard "100").Finite := by
    unfold Shard.Finite
    decide +kernel
  obtain ⟨hstrict, -⟩ := hread "\n" (List.forall_mem_singleton.mpr rfl)
  exact ⟨text, hrun, hstrict (List.forall_mem_singleton.mpr hfinite)⟩

/-- A rate that is no number is reported too, and then no strict reader reads what is printed. -/
theorem strict_refuses_nan : ∃ text f,
    (program (ratedEnvironment "n/a") .plain Network.unplugged 0 ratedArguments).run () =
      (.ok (some ⟨0, ⟨[], text ++ "\n"⟩, [], []⟩), ()) ∧
    (ratedShard "n/a").download = .nan ∧ Json.document Json.words (text ++ "\n") = .error f := by
  have hload : TelemetrySource.load (TelemetrySource.dumpOf (ratedDump "n/a")) "/dump" =
      .ok (ratedDump "n/a") := by cbv
  have hshards := shardsFrom_rated hload
  obtain ⟨text, htext, hrun⟩ := run_telemetry (asks_rated "n/a") rfl rfl hshards
    (showsDocuments_plain false) Network.unplugged 0 ()
  obtain ⟨whole, hfile⟩ := exists_file hshards
  have hnan : (ratedShard "n/a").download = .nan := by decide +kernel
  have hstrict := @Shard.gives_document _ _ _ hfile _ _ htext false "\n" (List.forall_mem_singleton.mpr rfl)
  obtain ⟨f, hf⟩ := hstrict.refusal fun hall => by
    have hfinite := (List.forall_mem_singleton.mp (hall rfl)).1
    rw [hnan] at hfinite
    cases hfinite
  exact ⟨text, f, hrun, hnan, hf⟩

end Run

end Keyscope
