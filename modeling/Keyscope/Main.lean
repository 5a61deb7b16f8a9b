/-
# The command line

Arguments and variables of the environment go in; a report on standard output, complaints on
standard error and an exit code come out.  The files that a run may read are read first: those
that the arguments and the variables name, the usual settings, and the telemetry that the settings
name.  There is no connection to any server from here, so every target counts as down.
-/
import Keyscope.Command.Run
import Keyscope.Report.Plain

namespace Keyscope

namespace CommandLine

/-- The variables that mean something. -/
def variableNames : List String :=
  ["HOME", "NO_COLOR", "CARTOGRAPH_CONFIG", "CARTOGRAPH_FORMAT", "CARTOGRAPH_DEBUG",
    "CARTOGRAPH_MAX_KEYS", "CARTOGRAPH_MAX_PAYLOAD_CHARS", "CARTOGRAPH_TELEMETRY_FILE",
    "CARTOGRAPH_LOG_LEVEL", "INTERNAL_REDIS_SERVICE_NAME", "INTERNAL_REDIS_PORT"]

/-- Their values. -/
def environmentEntries : IO (List (Text × Text)) := do
  let found ← variableNames.mapM fun name => do
    return (← IO.getEnv name).map fun value => ((name : Text), (value : Text))
  return found.filterMap id

/-- The home of the present user; other users have none. -/
def homeOf (entries : List (Text × Text)) (user : Text) : Option Text :=
  if user.isEmpty then entries.lookup ("HOME" : Text) else none

/-- The disk with an entry and the directories that it is in. -/
def withEntry (disk : Disk) (path : Text) (entry : DiskEntry) : Disk :=
  let place := Path.parts path
  let folders := (List.range place.length).map fun n => place.take n
  let disk := (folders.filter fun f => !f.isEmpty).foldl (fun d f => d.set f .directory) disk
  if place.isEmpty then disk else disk.set place entry

/-- Reads a file onto the disk; one that cannot be read is left out. -/
def fetch (homes : Text → Option Text) (disk : Disk) (path : Text) : IO Disk := do
  match Path.expandHome homes path with
  | .error _ => return disk
  | .ok path =>
    match ← (IO.FS.readBinFile path.toString).toBaseIO with
    | .ok bytes => return withEntry disk path (.file bytes.toList)
    | .error (.inappropriateType ..) => return withEntry disk path .directory
    | .error _ => return disk

/-- The paths that arguments may name: each of them, and what is attached to it. -/
def pathsIn (args : List Text) : List Text :=
  args ++ args.filterMap fun arg => (Text.splitFirst '=' arg).2

/-- The surroundings of a run. -/
def surroundings (args : List Text) : IO Environment := do
  let entries ← environmentEntries
  let homes := homeOf entries
  let e : Environment :=
    ⟨entries, homes, (homes []).elim "/" Path.trimmed, .empty, fun _ _ => "no settings"⟩
  let paths := pathsIn args ++ entries.map (·.2) ++ [Settings.defaultPath e]
  let disk ← paths.foldlM (fetch homes) Disk.empty
  let e := { e with disk := disk }
  let given := (pathsIn args).map some ++ [none]
  let rows := given.filterMap fun path => (Settings.loaded e path).1.toOption.bind (·.rowsFile.path?)
  return { e with disk := ← rows.foldlM (fetch homes) disk }

/-- A line of the log. -/
def logText (l : LogLine) : Text :=
  (match l.severity with
    | .warning => ("WARNING" : Text)
    | .error => "ERROR") ++ " - " ++ l.message

/-- Prints what a run leaves behind. -/
def conclude (o : Outcome) : IO UInt32 := do
  for l in o.log do IO.eprintln (logText l).toString
  for complaint in o.complaints do IO.eprintln complaint.toString
  IO.print o.report.plain.toString
  return o.exitCode.toUInt32

end CommandLine

end Keyscope

open Keyscope in
/-- Runs the program. -/
def main (args : List String) : IO UInt32 := do
  let args := args.map Text.ofString
  let e ← CommandLine.surroundings args
  match (ExceptT.run (Run.program e .plain Network.unplugged 0 args)).run () with
  | (.ok (some o), _) => CommandLine.conclude o
  | (.ok none, _) => return 1
  | (.error f, _) =>
    IO.eprintln f.message.toString
    return 1
