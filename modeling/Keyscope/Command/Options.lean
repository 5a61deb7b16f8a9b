/-
# Options

Arguments are options, values of options, and words.  A long option starts with two dashes and may
hold its value after an equals sign; a short one starts with one dash, and several short ones can
stand together.  What cannot be understood is a usage problem, with its own words.
-/
import Keyscope.Command.Suggestion
import Keyscope.Failure
import Keyscope.Text.Blank

namespace Keyscope

/-! ## 1. What options there are -/

/-- What the value of an option may be. -/
inductive OptionKind where
  /-- No value. -/
  | flag
  | text
  /-- A path that is no directory. -/
  | path
  | choice (words : List Text)
  deriving DecidableEq, Repr

structure OptionSpec where
  long : Text
  short : Option CodePoint
  kind : OptionKind
  /-- The variable that gives the option where the arguments do not. -/
  fallback : Option String
  deriving DecidableEq, Repr

namespace OptionSpec

def takesValue (o : OptionSpec) : Bool := o.kind ≠ .flag

/-- The option that shows how a command is used. -/
def help : OptionSpec := ⟨"--help", none, .flag, none⟩

/-- All names of an option, as messages give them. -/
def shown (o : OptionSpec) : Text :=
  match o.short with
  | some c => "'" ++ o.long ++ "' / '-" ++ [c] ++ "'"
  | none => "'" ++ o.long ++ "'"

end OptionSpec

/-! ## 2. What can be wrong -/

/-- Why arguments cannot be understood. -/
inductive UsageProblem where
  | unknownOption (name : Text) (close : List Text)
  | unknownCommand (name : Text) (close : List Text)
  | valueMissing (name : Text)
  | valueNotTaken (name : Text)
  | notAChoice (option : OptionSpec) (value : Text) (words : List Text)
  | notATruthValue (option : OptionSpec) (value : Text)
  | isADirectory (option : OptionSpec) (path : Text)
  | extraArguments (words : List Text)
  | unusableSettings (path : Text)
  deriving DecidableEq, Repr

namespace UsageProblem

/-- Known words that may have been meant. -/
def suggestion : List Text → Text
  | [] => []
  | [w] => " Did you mean " ++ Quoted.text w ++ "?"
  | ws => " (Did you mean one of: " ++ Text.joinWith ", " (ws.map Quoted.text) ++ "?)"

/-- A value that an option cannot have. -/
def invalid (o : OptionSpec) (words : Text) : Text := "Invalid value for " ++ o.shown ++ ": " ++ words

/-- The words that are truth values. -/
def truthWords : Text := ", 0, 1, f, false, n, no, off, on, t, true, y, yes"

def message : UsageProblem → Text
  | unknownOption name close => "No such option " ++ Quoted.text name ++ "." ++ suggestion close
  | unknownCommand name close => "No such command " ++ Quoted.text name ++ "." ++ suggestion close
  | valueMissing name => "Option " ++ Quoted.text name ++ " requires an argument."
  | valueNotTaken name => "Option " ++ Quoted.text name ++ " does not take a value."
  | notAChoice o value words =>
    invalid o (Quoted.text value ++ " is not one of " ++
      Text.joinWith ", " (words.map Quoted.text) ++ ".")
  | notATruthValue o value =>
    invalid o (Quoted.text value ++ " is not a valid boolean. Recognized values: " ++ truthWords)
  | isADirectory o path => invalid o ("File " ++ Quoted.text path ++ " is a directory.")
  | extraArguments words =>
    let plural : Text := if words.length = 1 then [] else "s"
    "Got unexpected extra argument" ++ plural ++ " (" ++ Text.joinWith " " words ++ ")"
  | unusableSettings path => "Invalid configuration in " ++ path

end UsageProblem

/-! ## 3. Reading arguments -/

/-- An option that was given, with its value if it takes one. -/
abbrev Given := OptionSpec × Option Text

namespace Options

/-- The options given, in order, and the words. -/
abbrev Parsed := List Given × List Text

/-- Whether an argument is an option: a dash with something behind it. -/
def isOption (arg : Text) : Bool := arg.startsWith "-" && 1 < arg.length

/-- The value of an option, from the arguments after it. -/
def takeValue (o : OptionSpec) (name : Text) (args : List Text) :
    Except UsageProblem (Given × List Text) :=
  if o.takesValue then
    match args with
    | v :: rest => .ok ((o, some v), rest)
    | [] => .error (.valueMissing name)
  else .ok ((o, none), args)

/-- An option by its long name. -/
def long? (specs : List OptionSpec) (name : Text) : Option OptionSpec :=
  specs.find? fun o => o.long = name

/-- An option by its short name. -/
def short? (specs : List OptionSpec) (c : CodePoint) : Option OptionSpec :=
  specs.find? fun o => o.short = some c

/-- A long option, whose value may be attached. -/
def takeLong (o : OptionSpec) (name : Text) (attached : Option Text) (args : List Text) :
    Except UsageProblem (Given × List Text) :=
  match attached with
  | none => takeValue o name args
  | some v => if o.takesValue then .ok ((o, some v), args) else .error (.valueNotTaken name)

/-- Short options that stand together; what stands behind one that takes a value is its value. -/
def takeShort (specs : List OptionSpec) : Text → List Text → Except UsageProblem (List Given × List Text)
  | [], args => .ok ([], args)
  | c :: cs, args =>
    let name : Text := "-" ++ [c]
    match short? specs c with
    | none => .error (.unknownOption name [])
    | some o =>
      if o.takesValue && !cs.isEmpty then .ok ([(o, some cs)], args)
      else do
        let (given, args) ← takeValue o name args
        let (others, args) ← takeShort specs cs args
        return (given :: others, args)

/-- One argument that is an option. -/
def takeOption (specs : List OptionSpec) (arg : Text) (args : List Text) :
    Except UsageProblem (List Given × List Text) :=
  let (name, attached) := Text.splitFirst '=' arg
  match long? specs name with
  | some o => do
    let (given, args) ← takeLong o name attached args
    return ([given], args)
  | none =>
    if arg.startsWith "--" then
      .error (.unknownOption name (Suggestion.closeTo (specs.map (·.long)) name))
    else takeShort specs (arg.drop 1) args

/-- Reads arguments.  Words may stand between options, or they end them.  The number bounds the
steps. -/
def read (specs : List OptionSpec) (mixed : Bool) : Nat → List Text → Except UsageProblem Parsed
  | 0, args => .ok ([], args)
  | _, [] => .ok ([], [])
  | steps + 1, arg :: args =>
    if arg = "--" then .ok ([], args)
    else if isOption arg then do
      let (given, args) ← takeOption specs arg args
      let (others, words) ← read specs mixed steps args
      return (given ++ others, words)
    else if mixed then do
      let (given, words) ← read specs mixed steps args
      return (given, arg :: words)
    else .ok ([], arg :: args)

/-! ## 4. Values -/

/-- The value that an option has in the end. -/
inductive OptionValue where
  | flag (b : Bool)
  | text (t : Text)
  deriving DecidableEq, Repr

/-- The words that are true and those that are not. -/
def truthValue? (t : Text) : Option Bool :=
  let u := t.strip.asciiLower
  if ["1", "true", "t", "yes", "y", "on"].any fun w => u = Text.ofString w then some true
  else if ["", "0", "false", "f", "no", "n", "off"].any fun w => u = Text.ofString w then some false
  else none

/-- Why a value is refused: as a usage problem, or because it cannot even be looked at. -/
inductive Refusal where
  | usage (p : UsageProblem)
  | failure (f : Failure)
  deriving DecidableEq, Repr

/-- The value of an option from its text. -/
def valueOf (isDirectory : Text → Except Failure Bool) (o : OptionSpec) (t : Text) :
    Except Refusal OptionValue :=
  match o.kind with
  | .flag =>
    match truthValue? t with
    | some b => .ok (.flag b)
    | none => .error (.usage (.notATruthValue o t))
  | .text => .ok (.text t)
  | .path =>
    match isDirectory t with
    | .ok false => .ok (.text t)
    | .ok true => .error (.usage (.isADirectory o t))
    | .error f => .error (.failure f)
  | .choice words =>
    if words.contains t then .ok (.text t) else .error (.usage (.notAChoice o t words))

/-- The options in the order in which their values are looked at: those given, by first
appearance, and then the others. -/
def order (specs : List OptionSpec) (given : List Given) : List OptionSpec :=
  let first := (given.map (·.1)).eraseDups
  first ++ specs.filter fun o => !first.contains o

/-- The value of one option: from the arguments, where the last one counts, or from its
variable. -/
def value? (get? : String → Option Text) (isDirectory : Text → Except Failure Bool)
    (given : List Given) (o : OptionSpec) : Except Refusal (Option OptionValue) :=
  match given.reverse.find? fun g => g.1 = o with
  | some (_, some t) => do return some (← valueOf isDirectory o t)
  | some (_, none) => .ok (some (.flag true))
  | none =>
    match o.fallback.bind get? with
    | some t => do return some (← valueOf isDirectory o t)
    | none => .ok none

/-- The values of all options that have one. -/
def values (get? : String → Option Text) (isDirectory : Text → Except Failure Bool)
    (specs : List OptionSpec) (given : List Given) :
    Except Refusal (List (OptionSpec × OptionValue)) := do
  let found ← (order specs given).mapM fun o => do
    let v ← value? get? isDirectory given o
    return v.map fun v => (o, v)
  return found.filterMap id

end Options

end Keyscope
