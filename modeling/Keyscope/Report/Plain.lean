/-
# Reports as lines

A report without colours: markup is dropped and what was escaped is shown as it is.  The columns
of a table are as wide as their widest cells.
-/
import Keyscope.Report.Basic
import Keyscope.Report.Markup

namespace Keyscope

namespace Markup

/-- What markup shows after so many backslashes.  Two backslashes in front of a group of markup
are one, and one that is left over escapes the group.  The first number bounds the steps. -/
def plainFrom : Nat → Nat → Text → Text
  | 0, n, t => backslashes n ++ t
  | steps + 1, n, t =>
    match group? t with
    | some (group, rest) =>
      backslashes (n / 2) ++ (if n % 2 = 1 then group else []) ++ plainFrom steps 0 rest
    | none =>
      match t with
      | [] => backslashes n
      | c :: u => if c = '\\' then plainFrom steps (n + 1) u else backslashes n ++ c :: plainFrom steps 0 u

/-- The text that markup shows. -/
def plain (t : Text) : Text := plainFrom (t.length + 1) 0 t

end Markup

namespace Table

/-- The cells of a table with their markup dropped, the headers first. -/
def cells (t : Table) : List (List Text) := t.columns.map (·.header) :: t.rows.map (·.map Markup.plain)

/-- The width of each column. -/
def widths (rows : List (List Text)) : List Nat :=
  rows.foldr (fun row ws =>
    let ns := row.map List.length
    List.zipWith max (ns ++ List.replicate (ws.length - ns.length) 0)
      (ws ++ List.replicate (ns.length - ws.length) 0)) []

/-- A cell in a column so wide. -/
def pad (justify : Justify) (width : Nat) (cell : Text) : Text :=
  let room := width - cell.length
  match justify with
  | .left => cell ++ Text.replicate room ' '
  | .center => Text.replicate (room / 2) ' ' ++ cell ++ Text.replicate (room - room / 2) ' '
  | .right => Text.replicate room ' ' ++ cell

/-- The title, the headers and a line per row. -/
def lines (t : Table) : List Text :=
  let ws := widths t.cells
  let shape := t.columns.map (·.justify)
  t.title :: t.cells.map fun row =>
    Text.joinWith "  " (List.zipWith (fun p cell => pad p.1 p.2 cell) (shape.zip ws) row)

end Table

/-- The lines that show an event. -/
def Event.lines : Event → List Text
  | .markup t => [Markup.plain t]
  | .table t => t.lines
  | .highlighted t => [t]
  | .status t => [t]
  | .trace f => [f.message]

/-- A line with its end. -/
def lineOf (t : Text) : Text := t ++ "\n"

/-- Everything that a report prints. -/
def Report.plain (r : Report) : Text :=
  (r.events.flatMap Event.lines).flatMap lineOf ++ r.text

end Keyscope
