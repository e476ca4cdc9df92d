/-
# Plain layout

How printed items look on a console without styles: marked-up text without its
tags, and a table as its title and lines of cells, each column as wide as its
widest cell.

Source: the tables of `idlforge.cli.lookup` (`inspect_command`), as they are
laid out.
-/

import AnchorIdl.Console.Transcript

namespace AnchorIdl

/-- A number of spaces. -/
def spaces (n : Nat) : Text := List.replicate n (CodePoint.ofChar ' ')

/-- A cell that is filled up to a width. -/
def Align.pad (align : Align) (width : Nat) (cell : Text) : Text :=
  let fill := spaces (width - cell.length)
  match align with
  | left => cell ++ fill
  | right => fill ++ cell

namespace ConsoleTable

/-- The cells as they are shown, those of the header first. -/
def shownRows (t : ConsoleTable) : List (List Text) :=
  (t.columns.map Column.header :: t.rows).map (·.map Markup.shown)

/-- The width of each column. -/
def widths (t : ConsoleTable) : List Nat :=
  t.shownRows.foldl (fun widths row => List.zipWith max widths (row.map List.length))
    (t.columns.map fun _ => 0)

/-- The lines of a table. -/
def lines (t : ConsoleTable) : List Text :=
  let pads := List.zipWith (fun (c : Column) width => c.align.pad width) t.columns t.widths
  t.title :: t.shownRows.map fun row =>
    Text.join "  " (List.zipWith (fun pad cell => pad cell) pads row)

end ConsoleTable

/-- The lines of a printed item. -/
def Printed.lines : Printed → List Text
  | markup text => [Markup.shown text]
  | table t => t.lines

end AnchorIdl
