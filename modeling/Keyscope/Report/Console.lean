/-
# Consoles

A console lays out what it is handed: it reads markup, sizes tables and colours documents.  How it
does that is not decided here, only whether it shows a thing at all: it may refuse one, as markup
with a closing bracket that closes nothing, and then nothing of it is shown.  Text that is printed
as it is does not pass through it.
-/
import Keyscope.Report.Basic
import Keyscope.Server

namespace Keyscope

/-- What shows things, or says why not. -/
abbrev Console := Event → Except Failure Unit

namespace Console

/-- A console that shows everything. -/
def plain : Console := fun _ => .ok ()

/-- Shows things one after the other, up to one that is refused.  The state is what is shown so
far. -/
def showEach (console : Console) : List Event → Session Report Unit
  | [] => return ()
  | e :: es => do
    Session.ofExcept (console e)
    modify (· ++ .ofEvent e)
    console.showEach es

/-- Shows a report and prints its text. -/
def print (console : Console) (r : Report) : Session Report Unit := do
  console.showEach r.events
  modify (· ++ ⟨[], r.text⟩)

/-- What is shown of a report in the end. -/
def shown (console : Console) (r : Report) : Report := ((console.print r).run .empty).2

end Console

end Keyscope
