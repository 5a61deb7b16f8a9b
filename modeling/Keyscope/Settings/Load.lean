/-
# Loading settings

Settings come from the defaults, then from a file, then from environment variables.  Each section
of the file stands for itself: a section that cannot be used leaves the defaults and a line in
the log, and so does a file that cannot be read.  What a section says of one target does not
touch the other targets.
-/
import Keyscope.Settings.Basic
import Keyscope.Yaml.Document
import Keyscope.Text.Digit
import Keyscope.Text.Upper

namespace Keyscope

namespace Settings

/-- Settings in the making: they may fail, and what was logged before stays. -/
abbrev Loading := ExceptT Failure (StateM (List LogLine))

namespace Loading

variable {α : Type}

def ofExcept (result : Except Failure α) : Loading α := ExceptT.mk fun log => (result, log)

/-- Adds a line to the log. -/
def log (line : LogLine) : Loading Unit := ExceptT.mk fun log => (.ok (), log ++ [line])

def warn (message : Text) : Loading Unit := log ⟨.warning, message⟩

end Loading

/-! ## 1. Sections of the file -/

/-- What the log says of an entry that describes no target. -/
def skipped (entry : Ref) (f : Failure) : Except Failure Text := do
  return "Skipping invalid target " ++ (← entry.shown) ++ ": " ++ f.message

/-- The targets of a list, without those that are none.  What is beyond all bounds is the one
fault that is not passed over. -/
def targetsOf : List Ref → Loading (List Target)
  | [] => return []
  | entry :: entries => do
    match Target.ofRef entry with
    | .ok t =>
      let ts ← targetsOf entries
      return t :: ts
    | .error f =>
      if f.isBeyondBounds then throw f
      else
        Loading.warn (← Loading.ofExcept (skipped entry f))
        targetsOf entries

/-- A whole number under a name, or the limit that holds already. -/
def integerOr (limit : Value) (name : Text) (r : Ref) : Except Failure Value := do
  return .int (← ((r.field? name).getD (.ofValue limit)).toInteger)

/-- A real number under a name, or the limit that holds already. -/
def realOr (limit : Value) (name : Text) (r : Ref) : Except Failure Value := do
  return .real (← ((r.field? name).getD (.ofValue limit)).toReal)

/-- The limits that a section gives, all of them or none. -/
def limitsOf (l : Limits) (r : Ref) : Except Failure Limits := do
  let maxPayload ← integerOr l.maxPayload "max_payload_chars" r
  let maxKeys ← integerOr l.maxKeys "max_keys_per_db" r
  let pageSize ← integerOr l.pageSize "scan_count" r
  let probeLimit ← realOr l.probeLimit "probe_connect_timeout" r
  let snapshotLimit ← realOr l.snapshotLimit "snapshot_connect_timeout" r
  return ⟨maxPayload, maxKeys, pageSize, probeLimit, snapshotLimit⟩

/-- The path that a value names. -/
def pathOf (e : Environment) (r : Ref) : Except Failure Text :=
  match r.cell with
  | .leaf (.text t) => Path.expandHome e.homeOf t
  | .leaf (.bytes _) => .error (.notATextPath r.kind)
  | _ => .error (.notAPath r.shortKind)

/-- A section of the file; a section that is missing is empty, and one that is no dictionary does
not count. -/
def sectionOf (name : Text) (file : Ref) : Option Ref :=
  match file.field? name with
  | none => some (.ofValue (.dict []))
  | some r => if r.isDict then some r else none

/-- The section on targets. -/
def applyTargets (file : Ref) (s : Settings) : Loading Settings :=
  match (file.field? "targets").bind Ref.elements? with
  | some entries => do return { s with targets := ← targetsOf entries }
  | none => return s

/-- The section on limits. -/
def applyLimits (file : Ref) (s : Settings) : Loading Settings :=
  match sectionOf limitsName file with
  | none => return s
  | some entries =>
    match limitsOf s.limits entries with
    | .ok l => return { s with limits := l }
    | .error f => do
      if f.isBeyondBounds then throw f
      else
        Loading.warn ("Ignoring invalid snapshot settings in " ++ s.path ++ ": " ++ f.message)
        return s

/-- The section on telemetry. -/
def applyTelemetry (e : Environment) (file : Ref) (s : Settings) : Loading Settings :=
  match (sectionOf "telemetry" file).bind (Ref.field? "rows_file") with
  | some v => do
    if v.isPresent then
      let path ← Loading.ofExcept (pathOf e v)
      return { s with rowsFile := .path path }
    else return s
  | none => return s

/-- The section on logging. -/
def applyLogging (file : Ref) (s : Settings) : Loading Settings :=
  match sectionOf "logging" file with
  | none => return s
  | some entries => do
    let level := (entries.field? "level").getD (.ofValue s.logLevel)
    let level ← Loading.ofExcept level.toText
    return { s with logLevel := .text level.upper }

/-! ## 2. The file -/

/-- Why there is no document in the file: there is no such file, or what the reader says of it. -/
def faultOf (e : Environment) (path : Text) : Text :=
  match e.disk.read path with
  | .error f => f.message
  | .ok bytes => e.readerFault path bytes

/-- What the log says of a file without a document. -/
def unreadable (e : Environment) (path : Text) : Text :=
  "Could not load config file " ++ path ++ ": " ++ faultOf e path

/-- The dictionary of the file: an empty one if the file is empty, and a line in the log if it has
none. -/
def dictionaryOf (e : Environment) (s : Settings) (text : Text) : Loading (Option Ref) := do
  match Yaml.read? text with
  | none =>
    Loading.warn (unreadable e s.path)
    return none
  | some r =>
    if !r.isPresent then return some (.ofValue (.dict []))
    else if r.isDict then return some r
    else
      Loading.warn ("Ignoring config file " ++ s.path ++ ": expected a mapping")
      return none

/-- The settings with those of the file. -/
def applyFile (e : Environment) (s : Settings) : Loading Settings := do
  match e.disk.readText s.path with
  | .error _ =>
    Loading.warn (unreadable e s.path)
    return s
  | .ok text =>
    match ← dictionaryOf e s text with
    | none => return s
    | some file =>
      let s ← applyTargets file s
      let s ← applyLimits file s
      let s ← applyTelemetry e file s
      applyLogging file s

/-! ## 3. Environment variables -/

/-- The number in a variable.  What is not made of digits is passed over with a line in the log. -/
def numberOf (e : Environment) (name : String) : Loading (Option Int) :=
  match e.get? name with
  | none => return none
  | some t => do
    if t.isDigits then return some (← Loading.ofExcept (Value.text t).toInteger)
    else
      Loading.warn ("Ignoring non-numeric " ++ (name : Text) ++ "=" ++ Quoted.text t)
      return none

/-- The settings with those of the environment. -/
def applyEnvironment (e : Environment) (s : Settings) : Loading Settings := do
  let maxKeys ← numberOf e "CARTOGRAPH_MAX_KEYS"
  let maxPayload ← numberOf e "CARTOGRAPH_MAX_PAYLOAD_CHARS"
  let limits : Limits :=
    { s.limits with
      maxKeys := (maxKeys.map Value.int).getD s.limits.maxKeys
      maxPayload := (maxPayload.map Value.int).getD s.limits.maxPayload }
  let rowsFile ← match e.get? "CARTOGRAPH_TELEMETRY_FILE" with
    | some t => do pure (.path (← Loading.ofExcept (Path.expandHome e.homeOf t)))
    | none => pure s.rowsFile
  let logLevel := match e.get? "CARTOGRAPH_LOG_LEVEL" with
    | some t => .text t.upper
    | none => s.logLevel
  return { s with limits := limits, rowsFile := rowsFile, logLevel := logLevel }

/-! ## 4. All of them -/

/-- The path of the settings: the one given, or else the one in a variable, or else the usual
one. -/
def pathFor (e : Environment) (path : Option Text) : Except Failure Text :=
  Path.expandHome e.homeOf
    (path.getD ((e.get? "CARTOGRAPH_CONFIG").getD (defaultPath e)))

/-- The settings from everything there is. -/
def load (e : Environment) (path : Option Text) : Loading Settings := do
  let targets ← Loading.ofExcept (defaultTargets e)
  let path ← Loading.ofExcept (pathFor e path)
  let s : Settings := ⟨targets, .standard, .none, .text "INFO", path, []⟩
  let s ← if ← Loading.ofExcept (e.disk.exists? path) then applyFile e s else pure s
  applyEnvironment e s

/-- The settings, or the failure to have any, with the log. -/
def loaded (e : Environment) (path : Option Text) : Except Failure Settings × List LogLine :=
  (load e path).run []

end Settings

end Keyscope
