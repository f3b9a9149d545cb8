import WordMachine.Text.Padding

/-!
# Tables

A table has a title row, a rule under it, and a line for each row. A column is as
wide as its widest cell, and a space stands on either side of every cell. Cells are
taken to be one line each, of characters one column wide.
-/

namespace WordMachine.Text

/-- The side of its column that a cell keeps to. -/
inductive Alignment
  | left
  | right
  deriving DecidableEq, Repr

/-- Brings a cell to the width of its column. -/
def Alignment.pad (alignment : Alignment) (width : Nat) (cell : String) : String :=
  match alignment with
  | left => padRight ' ' width cell
  | right => padLeft ' ' width cell

/-- A column by its title and how its cells are aligned. -/
structure Column where
  title : String
  alignment : Alignment
  deriving DecidableEq, Repr

/-- Rows of cells under titles. Each row has a cell for each column. -/
structure Table where
  columns : List Column
  rows : List (List String)
  deriving DecidableEq, Repr

namespace Table

/-- The titles as a row. -/
def titles (table : Table) : List String := table.columns.map Column.title

/-- Makes columns at least as wide as the cells of a row. -/
def widen (widths : List Nat) (row : List String) : List Nat :=
  List.zipWith (fun width cell => max width cell.length) widths row

/-- The width of each column. -/
def widths (table : Table) : List Nat :=
  table.rows.foldl widen (table.titles.map String.length)

/-- A row as a line, its cells brought to these widths. -/
def rowLine (table : Table) (widths : List Nat) (row : List String) : String :=
  " " ++ "│".intercalate
    (List.zipWith (fun (column, width) cell => " " ++ column.alignment.pad width cell ++ " ")
      (table.columns.zip widths) row) ++ " "

/-- The line under the titles, for columns of these widths. -/
def rule (widths : List Nat) : String :=
  " " ++ "┼".intercalate
    (widths.map fun width => String.ofList (List.replicate (width + 2) '─')) ++ " "

/-- The lines of the table. -/
def lines (table : Table) : List String :=
  let widths := table.widths
  table.rowLine widths table.titles :: rule widths :: table.rows.map (table.rowLine widths)

theorem length_lines (table : Table) : table.lines.length = table.rows.length + 2 := by
  simp [lines]

end Table

end WordMachine.Text
