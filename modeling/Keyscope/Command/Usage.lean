/-
# Commands and their usage

The commands, the options of each, and the text that shows how they are used.
-/
import Keyscope.Command.Options

namespace Keyscope

/-- What can be asked for. -/
inductive CommandName where
  | sources
  | snapshot
  | telemetry
  deriving DecidableEq, Repr

namespace CommandName

def all : List CommandName := [sources, snapshot, telemetry]

def toText : CommandName → Text
  | sources => "sources"
  | snapshot => "snapshot"
  | telemetry => "telemetry"

/-- The command with a name. -/
def ofText? (t : Text) : Option CommandName := all.find? fun c => c.toText = t

end CommandName

namespace Usage

def formats : List Text := ["table", "json"]

/-! ## 1. Options in front of a command -/

def version : OptionSpec := ⟨"--version", none, .flag, none⟩
def config : OptionSpec := ⟨"--config", none, .path, some "CARTOGRAPH_CONFIG"⟩
def mainFormat : OptionSpec := ⟨"--format", none, .choice formats, some "CARTOGRAPH_FORMAT"⟩
def debug : OptionSpec := ⟨"--debug", none, .flag, some "CARTOGRAPH_DEBUG"⟩
def noColor : OptionSpec := ⟨"--no-color", none, .flag, some "NO_COLOR"⟩

def mainOptions : List OptionSpec := [version, config, mainFormat, debug, noColor, .help]

/-! ## 2. Options of a command -/

def runningOnly : OptionSpec := ⟨"--running-only", none, .flag, none⟩
def source : OptionSpec := ⟨"--source", some 's', .text, none⟩
def input : OptionSpec := ⟨"--input", some 'i', .path, none⟩
def format : OptionSpec := ⟨"--format", some 'f', .choice formats, none⟩

def optionsOf : CommandName → List OptionSpec
  | .sources => [runningOnly, format, .help]
  | .snapshot => [source, format, .help]
  | .telemetry => [input, format, .help]

/-! ## 3. Texts -/

/-- What the version option prints. -/
def versionText : Text := "Cartograph CLI version 0.1.0\n"

/-- One line per option. -/
def optionLines (specs : List OptionSpec) : Text :=
  specs.flatMap fun o =>
    let short : Text := match o.short with
      | some c => ", -" ++ [c]
      | none => []
    "  " ++ o.long ++ short ++ "\n"

/-- How the program is used. -/
def mainText : Text :=
  let commands : Text := CommandName.all.flatMap fun c => Text.ofString "  " ++ c.toText ++ "\n"
  "Usage: cartograph [OPTIONS] COMMAND [ARGS]...\n\nOptions:\n" ++ optionLines mainOptions ++
    "\nCommands:\n" ++ commands

/-- How a command is used. -/
def textOf (c : CommandName) : Text :=
  "Usage: cartograph " ++ c.toText ++ " [OPTIONS]\n\nOptions:\n" ++ optionLines (optionsOf c)

end Usage

end Keyscope
