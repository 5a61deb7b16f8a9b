/-
# Reports

A report is a list of things to show, in markup or as tables, and text that is printed as it is.
How they are laid out on a terminal is not decided here.
-/
import Keyscope.Failure

namespace Keyscope

inductive Justify where
  | left
  | center
  | right
  deriving DecidableEq, Repr

/-- A column of a table. -/
structure Column where
  header : Text
  justify : Justify
  style : Text
  /-- Whether its cells stay on one line. -/
  isWhole : Bool
  deriving DecidableEq, Repr

/-- Cells hold markup. -/
structure Table where
  title : Text
  columns : List Column
  rows : List (List Text)
  deriving DecidableEq, Repr

/-- One thing to show. -/
inductive Event where
  | markup (t : Text)
  | table (t : Table)
  /-- A document with its parts set off by colours. -/
  | highlighted (t : Text)
  /-- What is going on, while it is going on. -/
  | status (t : Text)
  /-- A failure with the place where it arose. -/
  | trace (f : Failure)
  deriving Repr

structure Report where
  events : List Event
  /-- Text that is printed as it is. -/
  text : Text
  deriving Repr

namespace Report

def empty : Report := ⟨[], []⟩

def ofEvent (e : Event) : Report := ⟨[e], []⟩

def ofMarkup (t : Text) : Report := ofEvent (.markup t)

/-- One report after the other. -/
def append (a b : Report) : Report := ⟨a.events ++ b.events, a.text ++ b.text⟩

instance : Append Report := ⟨append⟩

/-- A warning. -/
def warning (t : Text) : Report := ofMarkup ("[yellow]⚠[/yellow] " ++ t)

/-- A failure in red. -/
def failure (t : Text) : Report := ofMarkup ("[red]Error:[/red] " ++ t)

end Report

end Keyscope
