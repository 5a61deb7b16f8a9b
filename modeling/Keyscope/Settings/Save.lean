/-
# Saving settings

Settings are written as they are read: a section each for targets, limits, telemetry and logging.
-/
import Keyscope.Settings.Basic
import Keyscope.Yaml.Writer

namespace Keyscope

namespace Settings

/-- The sections of the file. -/
def sections (s : Settings) : Except Failure (List (Value × Value)) := do
  return [(.text "targets", .list (s.targets.map Target.toValue)),
    (.text "snapshot", dictOf s.limits.fields),
    (.text "telemetry", dictOf [("rows_file", ← s.rowsFile.textOrNull)]),
    (.text "logging", dictOf [("level", s.logLevel)])]

/-- The text of the file. -/
def fileText (sections : List (Value × Value)) : Except Failure Text := Yaml.write sections

/-- The disk with the settings in their file; the directories that it is in are made. -/
def save (s : Settings) (disk : Disk) : Except Failure Disk := do
  let folder := Path.parent s.path
  let disk ← disk.ensureDirectories (Path.parts folder).length folder
  let sections ← s.sections
  let disk ← disk.write s.path []
  disk.write s.path ((← fileText sections).flatMap Utf8.encodePoint)

end Settings

end Keyscope
