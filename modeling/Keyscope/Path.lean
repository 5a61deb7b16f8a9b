/-
# Paths

A path has a normal form: no empty parts and no `.` in it; `..` stays.  Two slashes at the front
are kept, three or more are one.  A path that starts with `~` starts in somebody's home.
-/
import Keyscope.Failure
import Keyscope.Text.Utf8

namespace Keyscope

namespace Path

/-- The slashes at the front of a path. -/
def root (t : Text) : Text :=
  match (t.takeWhile (· = ('/' : CodePoint))).length with
  | 0 => []
  | 2 => "//"
  | _ => "/"

/-- The parts between slashes that say something. -/
def parts (t : Text) : List Text := (Text.splitAll '/' t).filter fun p => p ≠ [] ∧ p ≠ "."

/-- A path with so many parts below a root. -/
def build (root : Text) (parts : List Text) : Text :=
  let t := root ++ Text.joinWith "/" parts
  if t.isEmpty then "." else t

/-- The normal form of a path. -/
def normal (t : Text) : Text := build (root t) (parts t)

/-- Without its last part. -/
def parent (t : Text) : Text := build (root t) (parts t).dropLast

/-- Without slashes at the end; something is left. -/
def trimmed (t : Text) : Text :=
  let u := (t.reverse.dropWhile (· = ('/' : CodePoint))).reverse
  if u.isEmpty then "/" else u

/-- The home of a user, whose name must be one that can be asked for.  The present user has no
name. -/
def home (homeOf : Text → Option Text) (user : Text) : Except Failure Text := do
  if user.contains CodePoint.nul then throw .nulInPath
  match Utf8.encodeEscaped user with
  | .error e => throw (.unencodable e)
  | .ok _ =>
    match homeOf user with
    | none => throw .noHomeDirectory
    | some home => if home.startsWith "~" then throw .noHomeDirectory else return trimmed home

/-- The path with a home in the place of `~` or `~user` at its front. -/
def expandHome (homeOf : Text → Option Text) (t : Text) : Except Failure Text :=
  match parts t with
  | first :: rest =>
    if root t = [] ∧ first.startsWith "~" then do
      let home ← home homeOf (first.drop 1)
      return build (root home) (parts home ++ rest)
    else .ok (normal t)
  | [] => .ok (normal t)

end Path

end Keyscope
