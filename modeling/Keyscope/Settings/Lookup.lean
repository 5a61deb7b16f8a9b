/-
# Looking settings up

A setting is found by the names on the way to it, with dots between them.  Sections have their
fields by name, and all of them together under `__dict__`; numbers and paths have parts.
-/
import Keyscope.Settings.Basic

namespace Keyscope

namespace Settings

/-- What can be on the way to a setting. -/
inductive Part where
  | leaf (v : Value)
  | path (t : Text)
  /-- Fields that are named one by one or all together. -/
  | group (fields : List (Text × Part))
  /-- Entries that are named one by one. -/
  | table (entries : List (Text × Part))

namespace Part

/-- The parts of a whole number. -/
def ofInt (n : Int) (name : Text) : Option Part :=
  if name = "real" ∨ name = "numerator" then some (leaf (.int n))
  else if name = "imag" then some (leaf (.int 0))
  else if name = "denominator" then some (leaf (.int 1))
  else none

/-- The parts of a real number. -/
def ofReal (x : Binary64) (name : Text) : Option Part :=
  if name = "real" then some (leaf (.real x))
  else if name = "imag" then some (leaf (.real 0))
  else none

/-- The last name on a path. -/
def lastName (t : Text) : Text := ((Path.parts t).getLast?).getD []

/-- A name cut at its last dot, if that is neither at the front nor at the end. -/
def splitSuffix (name : Text) : Text × Text :=
  let suffix := (name.reverse.takeWhile (· ≠ ('.' : CodePoint))).reverse
  let stem := name.take (name.length - suffix.length - 1)
  if stem.isEmpty || suffix.isEmpty || suffix.length = name.length then (name, [])
  else (stem, "." ++ suffix)

/-- What follows each dot of a name, with its dot; a dot at the front does not count, and a name
that ends in a dot has no such part. -/
def suffixes (name : Text) : List Text :=
  if name.getLast? = some ('.' : CodePoint) then []
  else
    let name := name.dropWhile (· = ('.' : CodePoint))
    ((Text.splitAll '.' name).drop 1).map fun s => "." ++ s

/-- The root of a path, if it has one, and then its names. -/
def allParts (t : Text) : List Text :=
  (if (Path.root t).isEmpty then [] else [Path.root t]) ++ Path.parts t

/-- The parts of a path. -/
def ofPath (t : Text) (name : Text) : Option Part :=
  if name = "name" then some (leaf (.text (lastName t)))
  else if name = "stem" then some (leaf (.text (splitSuffix (lastName t)).1))
  else if name = "suffix" then some (leaf (.text (splitSuffix (lastName t)).2))
  else if name = "parent" then some (path (Path.parent t))
  else if name = "suffixes" then some (leaf (.list ((suffixes (lastName t)).map .text)))
  else if name = "parts" then some (leaf (.tuple ((allParts t).map .text)))
  else if name = "root" ∨ name = "anchor" then some (leaf (.text (Path.root t)))
  else if name = "drive" then some (leaf (.text []))
  else none

/-- The part with a name. -/
def field? (p : Part) (name : Text) : Option Part :=
  match p with
  | group fields => if name = "__dict__" then some (table fields) else fields.lookup name
  | table entries => entries.lookup name
  | path t => ofPath t name
  | leaf (.int n) => ofInt n name
  | leaf (.bool b) => ofInt (if b then 1 else 0) name
  | leaf (.real x) => ofReal x name
  | leaf (.dict items) => (Value.field? name items).map leaf
  | leaf _ => none

def isNull : Part → Bool
  | leaf .null => true
  | _ => false

mutual

def toValue : Part → Value
  | leaf v => v
  | path t => .text t
  | group fields => .dict (entriesOf fields)
  | table entries => .dict (entriesOf entries)

def entriesOf : List (Text × Part) → List (Value × Value)
  | [] => []
  | (name, p) :: fields => (.text name, toValue p) :: entriesOf fields

end

/-- The part at the end of a way; a part that is missing or null ends it. -/
def follow : List Text → Part → Option Part
  | [], p => some p
  | name :: names, p =>
    match p.field? name with
    | some q => if q.isNull then none else follow names q
    | none => none

end Part

/-- Sets the field of a name: in its place, or at the end. -/
def Part.put (name : Text) (p : Part) : List (Text × Part) → List (Text × Part)
  | [] => [(name, p)]
  | (other, q) :: fields =>
    if other = name then (name, p) :: fields else (other, q) :: Part.put name p fields

def Setting.part : Setting → Part
  | .path t => .path t
  | .value v => .leaf v

/-- The limits, with what else was set among them. -/
def limitsPart (s : Settings) : Part :=
  .group ((s.limits.fields ++ s.others.filterMap fun e => do
    return (← limitName? e.1, e.2)).map fun f => (f.1, .leaf f.2))

/-- The settings as the start of all ways. -/
def asPart (s : Settings) : Part :=
  let fields : List (Text × Part) :=
    [("targets", .leaf (.list (s.targets.map Target.toValue))), (limitsName, s.limitsPart),
      ("telemetry_rows_file", Setting.part s.rowsFile), ("log_level", .leaf s.logLevel),
      ("config_path", .path s.path)]
  .group ((s.others.filter fun e => (limitName? e.1).isNone).foldl
    (fun fields e => Part.put e.1 (.leaf e.2) fields) fields)

/-- The setting with a name, if there is one. -/
def get? (s : Settings) (name : Text) : Option Value :=
  (Part.follow (Text.splitAll '.' name) (asPart s)).map Part.toValue

end Settings

end Keyscope
