/-
# Checking settings

Settings can be used if there are targets, no two with one identifier, if all limits are
positive, if a probe gives up before a snapshot does, and if the log level is a known one.
-/
import Keyscope.Settings.Basic

namespace Keyscope

namespace Settings

/-- The levels that may be set. -/
def levels : List String := ["DEBUG", "INFO", "WARNING", "ERROR", "CRITICAL"]

/-- Whether no text is there twice. -/
def allDistinct : List Text → Bool
  | [] => true
  | t :: ts => !ts.contains t && allDistinct ts

/-- Whether the level is one that may be set. -/
def hasKnownLevel (s : Settings) : Bool :=
  match s.logLevel with
  | .text t => levels.any fun l => t = Text.ofString l
  | _ => false

/-- The words for the breaking of a rule, if it is broken. -/
def broken (isBroken : Bool) (words : Text) : List Text := if isBroken then [words] else []

/-- What keeps the limits from being used.  They must be numbers. -/
def limitProblems (l : Limits) : Except Failure (List Text) := do
  let payload := broken (← l.maxPayload.le (.int 0)) "snapshot.max_payload_chars must be positive"
  let keys := broken (← l.maxKeys.le (.int 0)) "snapshot.max_keys_per_db must be positive"
  let page := broken (← l.pageSize.le (.int 0)) "snapshot.scan_count must be positive"
  let probe := broken (← l.probeLimit.le (.int 0)) "snapshot.probe_connect_timeout must be positive"
  let order := broken (← l.probeLimit.ge l.snapshotLimit)
    "snapshot.probe_connect_timeout must be shorter than snapshot_connect_timeout"
  return payload ++ keys ++ page ++ probe ++ order

/-- The limits, if they are still limits. -/
def usableLimits (s : Settings) : Except Failure Limits :=
  match s.others.lookup limitsName with
  | some v => .error (.noAttribute v.kind "max_payload_chars")
  | none => .ok s.limits

/-- What keeps the settings from being used, rule by rule. -/
def problems (s : Settings) : Except Failure (List Text) := do
  let none := broken s.targets.isEmpty "at least one target must be configured"
  let same := broken (!allDistinct (s.targets.map (·.id))) "target ids must be unique"
  let limits ← limitProblems (← s.usableLimits)
  let level ← if s.hasKnownLevel then pure []
    else do pure ["unknown logging.level '" ++ (← s.logLevel.toText) ++ "'"]
  return none ++ same ++ limits ++ level

/-- What the log says of settings that cannot be used. -/
def problemLine (problem : Text) : LogLine := ⟨.error, "Configuration error: " ++ problem⟩

end Settings

end Keyscope
