/-
# Settings

What the program needs to know: which targets there are, how far a snapshot goes, where telemetry
is, and how much is logged.  Without a file and without environment variables there is one
target, on this machine.
-/
import Keyscope.Target
import Keyscope.Disk

namespace Keyscope

/-! ## 1. Surroundings -/

/-- What settings are taken from besides their file's text. -/
structure Environment where
  entries : List (Text × Text)
  /-- The home of a user; the present user has no name. -/
  homeOf : Text → Option Text
  /-- The home of the present user when the program started. -/
  startHome : Text
  disk : Disk
  /-- What the reader of settings says of the bytes at a path when it makes nothing of them. -/
  readerFault : Text → Bytes → Text

namespace Environment

/-- The value of a variable; an empty one counts as missing. -/
def get? (e : Environment) (name : String) : Option Text :=
  match e.entries.lookup (name : Text) with
  | some [] => none
  | found => found

end Environment

/-- How serious a message of the log is. -/
inductive Severity where
  | warning
  | error
  deriving DecidableEq, Repr

/-- A message of the log. -/
structure LogLine where
  severity : Severity
  message : Text
  deriving DecidableEq, Repr

/-! ## 2. The settings -/

/-- How far probes and snapshots go.  Limits come from outside and may be values of any kind;
what uses a limit says what is wrong with it. -/
structure Limits where
  /-- Characters of a payload. -/
  maxPayload : Value
  maxKeys : Value
  /-- Keys per page. -/
  pageSize : Value
  /-- Seconds for connecting and for each answer of a probe. -/
  probeLimit : Value
  /-- Seconds for connecting to take a snapshot. -/
  snapshotLimit : Value
  deriving Repr

namespace Limits

/-- Limits that are numbers. -/
def ofNumbers (maxPayload maxKeys pageSize : Int) (probeLimit snapshotLimit : Binary64) : Limits :=
  ⟨.int maxPayload, .int maxKeys, .int pageSize, .real probeLimit, .real snapshotLimit⟩

/-- The limits that hold unless others are given. -/
def standard : Limits := ofNumbers 4096 5000 500 (.ofRatio false 1 2) 3

/-- The limits by name. -/
def fields (l : Limits) : List (Text × Value) :=
  [("max_payload_chars", l.maxPayload), ("max_keys_per_db", l.maxKeys), ("scan_count", l.pageSize),
    ("probe_connect_timeout", l.probeLimit), ("snapshot_connect_timeout", l.snapshotLimit)]

/-- The limits with the one of a name set, if there is one of that name. -/
def set? (l : Limits) (name : Text) (v : Value) : Option Limits :=
  if name = "max_payload_chars" then some { l with maxPayload := v }
  else if name = "max_keys_per_db" then some { l with maxKeys := v }
  else if name = "scan_count" then some { l with pageSize := v }
  else if name = "probe_connect_timeout" then some { l with probeLimit := v }
  else if name = "snapshot_connect_timeout" then some { l with snapshotLimit := v }
  else none

end Limits

/-- What a setting holds: a path, or a value of any kind. -/
inductive Setting where
  | path (t : Text)
  | value (v : Value)
  deriving Repr

namespace Setting

/-- Nothing. -/
def none : Setting := value .null

def path? : Setting → Option Text
  | path t => some t
  | value _ => Option.none

/-- The text of a setting, or null where it counts as missing.  A path never does. -/
def textOrNull : Setting → Except Failure Value
  | path t => .ok (.text t)
  | value v => do if v.isPresent then return .text (← v.toText) else return .null

end Setting

structure Settings where
  targets : List Target
  limits : Limits
  /-- Where rows of telemetry are, if anywhere. -/
  rowsFile : Setting
  logLevel : Value
  /-- The file of the settings themselves. -/
  path : Text
  /-- Settings that no file and no variable gives, by name. -/
  others : List (Text × Value)
  deriving Repr

namespace Settings

/-- Entries with their names as values. -/
def dictOf (fields : List (Text × Value)) : Value := .dict (fields.map fun f => (.text f.1, f.2))

/-- The settings as a dictionary. -/
def toValue (s : Settings) : Except Failure Value := do
  return dictOf [("targets", .list (s.targets.map Target.toValue)), ("snapshot", dictOf s.limits.fields),
    ("telemetry_rows_file", ← s.rowsFile.textOrNull), ("log_level", s.logLevel)]

/-- The name of the section of limits. -/
def limitsName : Text := "snapshot"

/-- The name of a limit, where a name is that of a limit. -/
def limitName? (name : Text) : Option Text :=
  if name.startsWith (limitsName ++ ".") then some (name.drop (limitsName.length + 1)) else none

/-- The settings with one of them set to a value of any kind. -/
def set (s : Settings) (name : Text) (v : Value) : Settings :=
  if name = "log_level" then { s with logLevel := v }
  else if name = "telemetry_rows_file" then { s with rowsFile := .value v }
  else
    match (limitName? name).bind fun limit => s.limits.set? limit v with
    | some l => { s with limits := l }
    | none => { s with others := s.others.filter (·.1 ≠ name) ++ [(name, v)] }

/-! ## 3. Defaults -/

/-- The port in a variable, if it has one that exists.  Digits of any kind are taken for a number,
also those that spell none. -/
def portOf (text : Text) : Except Failure Int := do
  if text.isDigits then
    let n ← (Value.text text).toInteger
    return if 0 < n ∧ n ≤ Target.lastPort then n else Target.defaultPort
  else return Target.defaultPort

/-- The one target without a file. -/
def defaultTargets (e : Environment) : Except Failure (List Target) := do
  let host := (e.get? "INTERNAL_REDIS_SERVICE_NAME").getD "localhost"
  let port ← portOf ((e.get? "INTERNAL_REDIS_PORT").getD [])
  return [⟨"internal", "InternalDB", host, port⟩]

/-- Where the settings are looked for: below the present user's home. -/
def defaultPath (e : Environment) : Text :=
  let below : List Text := [".cartograph", "config.yaml"]
  Path.build (Path.root e.startHome) (Path.parts e.startHome ++ below)

end Settings

end Keyscope
