/-
# Logging

What is logged depends on a level with a name; an unknown name means the usual level.
-/
import Keyscope.Text.Upper
import Keyscope.Value.Basic

namespace Keyscope

/-- How the log is set up. -/
structure LogSetup where
  level : Int
  /-- The layout of a line. -/
  line : Text
  /-- The layout of its time. -/
  time : Text
  deriving DecidableEq, Repr

namespace LogSetup

/-- The layout of a line when nothing was set up. -/
def basicLine : Text := "%(levelname)s:%(name)s:%(message)s"

/-- The layouts in other spellings, as messages list them. -/
def layoutsShown : Text :=
  "\x7b'%': (<class 'logging.PercentStyle'>, '%(levelname)s:%(name)s:%(message)s'), " ++
    "'\x7b': (<class 'logging.StrFormatStyle'>, '\x7blevelname\x7d:\x7bname\x7d:\x7bmessage\x7d'), " ++
    "'$': (<class 'logging.StringTemplateStyle'>, " ++
    "'$\x7blevelname\x7d:$\x7bname\x7d:$\x7bmessage\x7d')\x7d"

/-- The levels by name. -/
def levels : List (String × Int) :=
  [("NOTSET", 0), ("DEBUG", 10), ("INFO", 20), ("WARN", 30), ("WARNING", 30), ("ERROR", 40),
    ("CRITICAL", 50), ("FATAL", 50)]

/-- The number of a level.  Two names belong to layouts, which are no levels. -/
def levelOf (name : Text) : Except Failure Int :=
  let name := name.upper
  if name = "BASIC_FORMAT" then .error (.unknownLevel basicLine)
  else if name = "_STYLES" then .error (.notALevel layoutsShown)
  else .ok (((levels.find? fun l => name = Text.ofString l.1).map (·.2)).getD 20)

/-- The log for a level. -/
def ofLevel (name : Text) : Except Failure LogSetup := do
  return ⟨← levelOf name, "%(asctime)s - %(name)s - %(levelname)s - %(message)s", "%Y-%m-%d %H:%M:%S"⟩

/-- The log for a level of any kind, which must be the name of one. -/
def ofValue (level : Value) : Except Failure LogSetup :=
  match level with
  | .text t => ofLevel t
  | .bytes _ => .error (.notALevelName level.kind)
  | .buffer _ => .error (.notALevelName level.kind)
  | _ => .error (.noAttribute level.kind "upper")

end LogSetup

end Keyscope
