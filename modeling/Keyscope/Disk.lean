/-
# Files

The part of a file system that matters here: which paths are files, with which bytes, and which
are directories.  A path is resolved part by part, so that a file in the middle of a path and a
missing directory are told apart.
-/
import Keyscope.Path
import Keyscope.Text.Utf8

namespace Keyscope

/-- What is at a place. -/
inductive DiskEntry where
  | directory
  | file (bytes : Bytes)
  deriving DecidableEq, Repr

/-- The places that have something, each with its parts from the root on. -/
structure Disk where
  entries : List (List Text × DiskEntry)
  deriving Repr

namespace Disk

/-- Only the root. -/
def empty : Disk := ⟨[]⟩

/-! ## 1. Places -/

/-- Why a path leads nowhere. -/
inductive Dead where
  | missing
  | notADirectory
  | nameTooLong
  deriving DecidableEq, Repr

/-- What is at a place; the root is always a directory. -/
def entryAt (d : Disk) (place : List Text) : Option DiskEntry :=
  if place.isEmpty then some .directory else (d.entries.find? (·.1 = place)).map (·.2)

/-- The longest name in bytes. -/
def longestName : Nat := 255

/-- The longest path in bytes. -/
def longestPath : Nat := 4095

/-- Follows the parts of a path from a place on.  Every place on the way must be a directory. -/
def follow (d : Disk) : List Text → List Text → Except Dead (List Text)
  | place, [] => .ok place
  | place, part :: parts =>
    match d.entryAt place with
    | some .directory =>
      if part = ".." then follow d place.dropLast parts
      else if longestName < (part.flatMap Utf8.encodePoint).length then .error .nameTooLong
      else follow d (place ++ [part]) parts
    | some (.file _) => .error .notADirectory
    | none => .error .missing

/-- The failure of using a path. -/
def dead (path : Text) : Dead → Failure
  | .missing => .noSuchFile path
  | .notADirectory => .notADirectory path
  | .nameTooLong => .nameTooLong path

/-- The place of a path, which must be one that can be spelled. -/
def placeOf (d : Disk) (path : Text) : Except Failure (List Text) := do
  if path.contains CodePoint.nul then throw .nulInPath
  let bytes ← match Utf8.encodeEscaped path with
    | .ok bs => pure bs
    | .error e => throw (.unencodable e)
  if longestPath < bytes.length then throw (.nameTooLong path)
  match d.follow [] (Path.parts path) with
  | .ok place => return place
  | .error e => throw (dead path e)

/-! ## 2. Reading -/

/-- What is at a path. -/
def lookup (d : Disk) (path : Text) : Except Failure DiskEntry := do
  let place ← d.placeOf path
  match d.entryAt place with
  | some e => return e
  | none => throw (.noSuchFile path)

/-- Whether something is at a path.  A path that leads nowhere has nothing; one with a name that
is too long is an error. -/
def exists? (d : Disk) (path : Text) : Except Failure Bool :=
  match d.lookup path with
  | .ok _ => .ok true
  | .error (.nameTooLong p) => .error (.nameTooLong p)
  | .error _ => .ok false

/-- The bytes of a file. -/
def read (d : Disk) (path : Text) : Except Failure Bytes := do
  match ← d.lookup path with
  | .file bytes => return bytes
  | .directory => throw (.isADirectory path)

/-- The text of a file, with line feeds for all line ends. -/
def readText (d : Disk) (path : Text) : Except Failure Text := do
  match Utf8.decodeStrict (← d.read path) with
  | .ok t => return t.universalNewlines
  | .error e => throw (.undecodable e)

/-! ## 3. Writing -/

/-- The disk with something at a place. -/
def set (d : Disk) (place : List Text) (e : DiskEntry) : Disk :=
  ⟨d.entries.filter (·.1 ≠ place) ++ [(place, e)]⟩

/-- Makes one directory. -/
def makeDirectory (d : Disk) (path : Text) : Except Failure Disk := do
  let place ← d.placeOf path
  match d.entryAt place, d.entryAt place.dropLast with
  | some _, _ => throw (.fileExists path)
  | none, some .directory => return d.set place .directory
  | none, some (.file _) => throw (.notADirectory path)
  | none, none => throw (.noSuchFile path)

/-- Makes one directory unless it is there. -/
def ensureDirectory (d : Disk) (path : Text) : Except Failure Disk :=
  match d.makeDirectory path with
  | .ok e => .ok e
  | .error f =>
    match d.lookup path with
    | .ok .directory => .ok d
    | _ => .error f

/-- Makes a directory and those it is in; the number of parts bounds the steps. -/
def ensureDirectories (d : Disk) : Nat → Text → Except Failure Disk
  | 0, path => d.ensureDirectory path
  | steps + 1, path =>
    match d.ensureDirectory path with
    | .error (.noSuchFile p) =>
      if Path.parent path = path then .error (.noSuchFile p)
      else
        match d.ensureDirectories steps (Path.parent path) with
        | .ok e => e.ensureDirectory path
        | .error f => .error f
    | outcome => outcome

/-- Writes a file. -/
def write (d : Disk) (path : Text) (bytes : Bytes) : Except Failure Disk := do
  let place ← d.placeOf path
  match d.entryAt place, d.entryAt place.dropLast with
  | some .directory, _ => throw (.isADirectory path)
  | some (.file _), _ => return d.set place (.file bytes)
  | none, some .directory => return d.set place (.file bytes)
  | none, some (.file _) => throw (.notADirectory path)
  | none, none => throw (.noSuchFile path)

end Disk

end Keyscope
