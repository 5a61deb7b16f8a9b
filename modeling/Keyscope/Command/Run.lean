/-
# Running commands

A run takes arguments and ends with an exit code: zero after an answer, one after a failure, two
where the arguments or the settings cannot be used.  Settings are loaded and checked before the
options of a command are looked at.

What a run shows goes to a console, which may refuse it.  That is a failure like any other: a
command tells of it on the console, and where that is refused too the program does.

A command that sweeps a keyspace may be under way as long as the sweep is; then it has no outcome yet.
-/
import Keyscope.Command.Usage
import Keyscope.Logging
import Keyscope.Report.Console
import Keyscope.Report.Printer
import Keyscope.Settings.Check
import Keyscope.Settings.Load

namespace Keyscope

/-- What a run leaves behind. -/
structure Outcome where
  exitCode : Nat
  report : Report
  /-- Lines about the run itself. -/
  complaints : List Text
  log : List LogLine
  deriving Repr

namespace Outcome

/-- An answer. -/
def done (r : Report) : Outcome := ⟨0, r, [], []⟩

/-- Text instead of an answer. -/
def text (t : Text) : Outcome := done ⟨[], t⟩

/-- A failure that was reported. -/
def aborted (r : Report) : Outcome := ⟨1, r, ["Aborted!"], []⟩

/-- Arguments or settings that cannot be used. -/
def unusable (p : UsageProblem) : Outcome := ⟨2, .empty, ["Error: " ++ p.message], []⟩

/-- A failure outside every command, with its place if the environment asks for it. -/
def failed (e : Environment) (f : Failure) : Outcome :=
  if (e.get? "CARTOGRAPH_DEBUG").isSome then ⟨1, .ofEvent (.trace f), [], []⟩
  else ⟨1, .failure f.message, [], []⟩

/-- Options that cannot be used. -/
def refused (e : Environment) : Options.Refusal → Outcome
  | .usage p => unusable p
  | .failure f => failed e f

def withLog (o : Outcome) (log : List LogLine) : Outcome := { o with log := log ++ o.log }

/-- The same with what a console shows of its report. -/
def shownOn (o : Outcome) (console : Console) : Outcome := { o with report := console.shown o.report }

end Outcome

/-! ## 1. Options with their values -/

namespace Options

/-- Whether a flag is set. -/
def isSet (values : List (OptionSpec × OptionValue)) (o : OptionSpec) : Bool :=
  match values.lookup o with
  | some (.flag b) => b
  | _ => false

/-- The text of an option. -/
def text? (values : List (OptionSpec × OptionValue)) (o : OptionSpec) : Option Text :=
  match values.lookup o with
  | some (.text t) => some t
  | _ => none

end Options

namespace Run

/-- Whether a path is a directory.  It must be one that can be asked about. -/
def isDirectory (e : Environment) (path : Text) : Except Failure Bool :=
  match Utf8.encodeEscaped path with
  | .error u => .error (.unencodable u)
  | .ok _ =>
    if path.contains CodePoint.nul then .error .nulInPath
    else
      match e.disk.lookup path with
      | .ok .directory => .ok (!path.isEmpty)
      | _ => .ok false

/-- Arguments as understood: a wish to see how they are used, or options and words. -/
inductive Understood where
  | help
  | options (values : List (OptionSpec × Options.OptionValue)) (words : List Text)

/-- Understands arguments. -/
def understand (e : Environment) (specs : List OptionSpec) (mixed : Bool) (args : List Text) :
    Except Options.Refusal Understood :=
  match Options.read specs mixed (args.length + 1) args with
  | .error p => .error (.usage p)
  | .ok (given, words) => do
    if given.any fun g => g.1 = .help then return .help
    else return .options (← Options.values e.get? (isDirectory e) specs given) words

/-! ## 2. Commands -/

/-- What all commands need. -/
structure Context where
  settings : Settings
  format : Text
  colored : Bool

variable {σ : Type}

/-- The service for the settings. -/
def service (c : Context) (telemetry : Option TelemetrySource) : Except Failure Service :=
  Service.make c.settings.targets c.settings.limits telemetry

/-- Tells why there is no answer, behind what is shown already. -/
def giveUp (e : Environment) (console : Console) (p : Printer) (before : Report) (words : Text) :
    Outcome :=
  match (console.print (p.failureText words)).run before with
  | (.ok _, shown) => .aborted shown
  | (.error f, shown) =>
    let o := (Outcome.failed e f).shownOn console
    { o with report := shown ++ o.report }

/-- The outcome of showing an answer, behind what is shown already. -/
def conclude (e : Environment) (console : Console) (p : Printer) (before : Report)
    (x : Session Report Unit) : Outcome :=
  match x.run before with
  | (.ok _, shown) => .done shown
  | (.error f, shown) => giveUp e console p shown f.message

/-- Shows a report, if there is one. -/
def tell (console : Console) (r : Except Failure Report) : Session Report Unit := do
  console.print (← Session.ofExcept r)

/-- The targets and which of them are running. -/
def sources (e : Environment) (console : Console) (net : Network σ) (c : Context) (format : Text)
    (runningOnly : Bool) : Session σ Outcome := do
  let p := Printer.ofFormat format c.colored
  match service c none with
  | .error f => return giveUp e console p .empty f.message
  | .ok s =>
    let status : Report :=
      if format = "table" then .ofEvent (.status "Probing targets...") else .empty
    match (console.print status).run .empty with
    | (.error f, shown) => return giveUp e console p shown f.message
    | (.ok _, shown) =>
      let result ← (s.probe net).outcome
      return conclude e console p shown <| tell console do
        let probes ← result
        p.sources (if runningOnly then probes.filter (·.running) else probes)

/-- The warning that another source is shown than the one asked for. -/
def otherSource (source : Text) (r : Response) : Report :=
  match r.selected.bind fun id => r.sources.find? (·.id = id) with
  | some selected =>
    if Probe.answersTo source.strip selected then .empty
    else .warning ("Source '" ++ source ++ "' is not running; showing " ++ selected.id)
  | none => .empty

/-- What is in a running source, with a warning in front of it where another one was asked for. -/
def snapshot (e : Environment) (console : Console) (net : Network σ) (rounds : Nat) (c : Context)
    (format source : Text) : Session σ (Option Outcome) := do
  let p := Printer.ofFormat format c.colored
  match service c none with
  | .error f => return some (giveUp e console p .empty f.message)
  | .ok s =>
    match ← (s.list net rounds (.text source)).outcome with
    | .error f => return some (giveUp e console p .empty f.message)
    | .ok none => return none
    | .ok (some r) =>
      let warning := if !source.isEmpty && format = "table" then otherSource source r else .empty
      return some <| conclude e console p .empty do
        console.print warning
        tell console (p.snapshot r.listing)

/-- The shards of a telemetry file. -/
def telemetry (e : Environment) (console : Console) (c : Context) (format : Text)
    (input : Option Text) : Outcome :=
  let p := Printer.ofFormat format c.colored
  match input.or c.settings.rowsFile.path? with
  | none =>
    giveUp e console p .empty "No telemetry input; pass --input or set telemetry.rows_file"
  | some path => conclude e console p .empty <| tell console do
    let source ← TelemetrySource.ofPath e.homeOf path
    let s ← service c (some source)
    p.shards ((← s.shards e.disk).map Shard.line)

/-- A command with its own arguments. -/
def command (e : Environment) (console : Console) (net : Network σ) (rounds : Nat) (c : Context)
    (name : CommandName) (args : List Text) : Session σ (Option Outcome) :=
  match understand e (Usage.optionsOf name) true args with
  | .error r => return some ((Outcome.refused e r).shownOn console)
  | .ok .help => return some (.text (Usage.textOf name))
  | .ok (.options values words) =>
    if !words.isEmpty then return some (.unusable (.extraArguments words))
    else
      let format := (Options.text? values Usage.format).getD c.format
      match name with
      | .sources =>
        return some (← sources e console net c format (Options.isSet values Usage.runningOnly))
      | .snapshot =>
        snapshot e console net rounds c format ((Options.text? values Usage.source).getD [])
      | .telemetry => return some (telemetry e console c format (Options.text? values Usage.input))

/-! ## 3. The program -/

/-- The settings of a run, if they can be used. -/
def settingsFor (e : Environment) (values : List (OptionSpec × Options.OptionValue)) :
    Except Outcome Settings × List LogLine :=
  match Settings.loaded e (Options.text? values Usage.config) with
  | (.error f, log) => (.error (.failed e f), log)
  | (.ok s, log) =>
    let level := if Options.isSet values Usage.debug then .text "DEBUG" else s.logLevel
    match LogSetup.ofValue level, s.problems with
    | .error f, _ => (.error (.failed e f), log)
    | .ok _, .error f => (.error (.failed e f), log)
    | .ok _, .ok [] => (.ok s, log)
    | .ok _, .ok problems =>
      (.error (.unusable (.unusableSettings s.path)), log ++ problems.map Settings.problemLine)

/-- The command that the words name, if they name one. -/
def commandOf (e : Environment) (words : List Text) :
    Except Outcome (Option (CommandName × List Text)) :=
  match words with
  | [] => .ok none
  | name :: args =>
    match CommandName.ofText? name with
    | some c => .ok (some (c, args))
    | none =>
      let unknown : UsageProblem :=
        .unknownCommand name (Suggestion.closeTo (CommandName.all.map (·.toText)) name)
      if Options.isOption name then
        match understand e Usage.mainOptions false words with
        | .error r => .error (.refused e r)
        | .ok .help => .error (.text Usage.mainText)
        | .ok (.options _ _) => .error (.unusable unknown)
      else .error (.unusable unknown)

/-- Runs the program with arguments. -/
def program (e : Environment) (console : Console) (net : Network σ) (rounds : Nat)
    (args : List Text) : Session σ (Option Outcome) :=
  match understand e Usage.mainOptions false args with
  | .error r => return some ((Outcome.refused e r).shownOn console)
  | .ok .help => return some (.text Usage.mainText)
  | .ok (.options values words) =>
    match commandOf e words with
    | .error o => return some (o.shownOn console)
    | .ok chosen =>
      if Options.isSet values Usage.version then return some (.text Usage.versionText)
      else
        match settingsFor e values with
        | (.error o, log) => return some ((o.shownOn console).withLog log)
        | (.ok s, log) => do
          let format := (Options.text? values Usage.mainFormat).getD "table"
          let context : Context := ⟨s, format, !Options.isSet values Usage.noColor⟩
          match chosen with
          | none => return some ((Outcome.text Usage.mainText).withLog log)
          | some (name, args) =>
            return (← command e console net rounds context name args).map (·.withLog log)

end Run

end Keyscope
