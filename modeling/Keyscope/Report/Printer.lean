/-
# Printers

A printer makes a report of an answer: a table for people, or a document for programs.  A document
is on one line or on many, and with colours or without; without them it is printed as it is.
-/
import Keyscope.Json.Writer
import Keyscope.Report.Tables

namespace Keyscope

inductive Printer where
  | tables
  | documents (layout : Json.Layout) (colored : Bool)

namespace Printer

/-- The printer for a format; a format that is not known means tables. -/
def ofFormat (format : Text) (colored : Bool) : Printer :=
  if format = "json" then documents .pages colored else tables

/-- A value as a document. -/
def document (layout : Json.Layout) (colored : Bool) (v : Value) : Except Failure Report := do
  let text ← Json.write layout v
  return if colored then .ofEvent (.highlighted text) else ⟨[], text ++ "\n"⟩

/-- The value that lists probes. -/
def sourcesValue (ps : List Probe) : Value :=
  .dict [(.text "sources", .list (ps.map Probe.toValue)), (.text "count", .int ps.length)]

/-- The value that tells of a failure. -/
def failureValue (v : Value) : Value :=
  .dict [(.text "error", v), (.text "success", .bool false)]

def sources (p : Printer) (ps : List Probe) : Except Failure Report :=
  match p with
  | tables => Tables.sources ps
  | documents layout colored => document layout colored (sourcesValue ps)

def snapshot (p : Printer) (l : Listing) : Except Failure Report :=
  match p with
  | tables => Tables.snapshot l
  | documents layout colored => document layout colored l.toValue

def shards (p : Printer) (ss : List ShardLine) : Except Failure Report :=
  match p with
  | tables => Tables.shards ss
  | documents layout colored => do document layout colored (.list (← ss.mapM ShardLine.toValue))

/-- What went wrong. -/
def failure (p : Printer) (v : Value) : Except Failure Report :=
  match p with
  | tables => do return Report.failure (← v.toText)
  | documents layout colored => document layout colored (failureValue v)

/-- The words of a failure; these can always be printed. -/
def failureText (p : Printer) (t : Text) : Report :=
  match p.failure (.text t) with
  | .ok r => r
  | .error _ => .empty

end Printer

end Keyscope
