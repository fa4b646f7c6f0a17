import TableCompiler.Text

/-!
# Tables of text

* `TextTable` — rows of cells under a header;
* `TextTable.lines` — the table as lines of text;
* `ReportLine` — what a report consists of: lines and tables.
-/

namespace TableCompiler

/-- Rows of cells under a header. -/
structure TextTable where
  header : List String
  rows : List (List String)
  /-- Whether a rule stands between any two rows. -/
  ruled : Bool := false

namespace TextTable

def widths (t : TextTable) : List Nat :=
  (t.header :: t.rows).foldl
    (fun widths row => (widths.zip row).map fun (w, cell) => max w cell.length)
    (t.header.map fun _ => 0)

/-- A cell with blanks up to a width. -/
def pad (width : Nat) (cell : String) : String :=
  cell ++ String.ofList (List.replicate (width - cell.length) ' ')

def rowLine (widths : List Nat) (row : List String) : String :=
  "│ " ++ " │ ".intercalate ((widths.zip row).map fun (w, cell) => pad w cell) ++ " │"

def rule (left middle right : String) (widths : List Nat) : String :=
  left ++ middle.intercalate (widths.map fun w => String.ofList (List.replicate (w + 2) '─'))
    ++ right

def lines (t : TextTable) : List String :=
  let widths := t.widths
  let between := if t.ruled then [rule "├" "┼" "┤" widths] else []
  let body := (t.rows.map fun row => [rowLine widths row]).intersperse between
  [rule "╭" "┬" "╮" widths, rowLine widths t.header, rule "├" "┼" "┤" widths]
    ++ body.flatten ++ [rule "╰" "┴" "╯" widths]

end TextTable

/-- A part of a report. -/
inductive ReportLine where
  | text (s : String)
  | table (t : TextTable)

namespace ReportLine

def lines : ReportLine → List String
  | .text s => [s]
  | .table t => t.lines

end ReportLine

end TableCompiler
