import TableCompiler.CommandLine.TextTable
import TableCompiler.Descriptor
import TableCompiler.Issue
import TableCompiler.Overview

/-!
# Summaries

What the command line shows about a compiled table and about a service.

* `CompileReport` and `CompileReport.summary` — a table with its columns, actions and issues;
* `SetOverview.table` — the entity sets of a service.
-/

namespace TableCompiler

/-! ### Cells -/

/-- The cell of a text that may be missing. -/
def textCell (text : Option String) : String := text.getD "-"

def flagCell (flag : Bool) : String := if flag then "✓" else "-"

def namesCell (names : List String) : String :=
  if names.isEmpty then "-" else ", ".intercalate names

/-! ### Columns and actions -/

namespace Column

/-- Whether a summary only counts the column. -/
def isCounted (c : Column) : Bool :=
  c.availability == .hidden && !c.isPartOfLineItem

def row (c : Column) : List String :=
  [c.key, c.kind.name, textCell (c.label.or c.header), c.availability.name, flagCell c.sortable,
    flagCell c.isGroupable, namesCell c.propertyInfos]

/-- The table of columns; those that are hidden and not part of the line item are counted in the
last row. -/
def table (columns : List Column) : TextTable :=
  let hidden := columns.countP isCounted
  let rest := if hidden = 0 then []
    else [("+" ++ toString hidden ++ " hidden") :: List.replicate 6 "-"]
  { header := ["Key", "Type", "Label", "Availability", "Sort", "Group", "Properties"]
    rows := (columns.filter (!·.isCounted)).map row ++ rest
    ruled := true }

end Column

namespace Action

def row (a : Action) : List String :=
  [a.key, textCell a.text, a.visible, textCell a.enabled,
    textCell (a.requiresSelection.map flagCell)]

def table (actions : List Action) : TextTable where
  header := ["Key", "Text", "Visible", "Enabled", "Selection"]
  rows := actions.map row

end Action

/-! ### Issues -/

namespace IssueSeverity

def heading : IssueSeverity → String
  | .high => "HIGH"
  | .medium => "MEDIUM"
  | .low => "LOW"

end IssueSeverity

namespace Issue

/-- The order of codes, in which a missing one comes first. -/
def codePrecedes : Option String → Option String → Bool
  | none, some _ => true
  | some a, some b => a < b
  | _, none => false

/-- Whether an issue is listed before another one: the more severe one first, then by category
and code. -/
def precedes (a b : Issue) : Bool :=
  if a.severity ≠ b.severity then b.severity.rank < a.severity.rank
  else if a.category ≠ b.category then a.category.name < b.category.name
  else codePrecedes a.code b.code

def row (i : Issue) : List String :=
  [i.severity.heading, i.category.name, textCell i.code, i.message]

/-- The table of issues; those of equal rank stay in their order. -/
def table (issues : List Issue) : TextTable where
  header := ["Severity", "Category", "Code", "Message"]
  rows := (issues.mergeSort fun a b => !precedes b a).map row
  ruled := true

/-- How many issues there are of each severity, the highest first. -/
def counts (issues : List Issue) : List String :=
  IssueSeverity.all.reverse.filterMap fun severity =>
    let n := Issue.count issues severity
    if n = 0 then none else some (severity.heading ++ ": " ++ toString n)

end Issue

/-! ### Reports -/

/-- The result of compiling a table from the command line. -/
structure CompileReport where
  entitySet : String
  navigationPath : Option String
  table : Table
  issues : List Issue
  /-- The file that the descriptor was written to. -/
  output : Option String
  /-- Whether issues of medium or high severity count as failures. -/
  isStrict : Bool

namespace CompileReport

/-- Whether the compilation counts as failed. -/
def hasFailed (r : CompileReport) : Bool :=
  r.isStrict && Issue.anyAtLeast r.issues .medium

def title (r : CompileReport) : List ReportLine :=
  let navigation := match r.navigationPath with
    | some path => "/" ++ path
    | none => ""
  let output := r.output.toList.map fun file => .text ("Output: " ++ file)
  .text ("Table: " ++ r.entitySet ++ navigation) :: output ++
    [.text ("Type: " ++ r.table.control.tableType.name ++ "  Selection: "
      ++ r.table.configuration.selectionMode.text ++ "  Threshold: "
      ++ toString r.table.configuration.threshold.toNat)]

def actionLines (r : CompileReport) : List ReportLine :=
  if r.table.actions.isEmpty then []
  else [.text "", .text "Actions:", .table (Action.table r.table.actions)]

def issueLines (r : CompileReport) : List ReportLine :=
  if r.issues.isEmpty then []
  else [.text "", .text "Diagnostics:", .table (Issue.table r.issues)]
    ++ (Issue.counts r.issues).map .text
    ++ (if r.hasFailed then [.text "Strict mode: medium or high diagnostics present"] else [])

def summary (r : CompileReport) : List ReportLine :=
  r.title ++ [.table (Column.table r.table.columns)] ++ r.actionLines ++ r.issueLines

end CompileReport

namespace SetOverview

def qualifiersCell (qualifiers : List String) : String :=
  namesCell (qualifiers.map fun q => if q = "" then "(default)" else q)

def row (s : SetOverview) : List String :=
  [s.name, s.entityType, toString s.properties, qualifiersCell s.lineItems,
    qualifiersCell s.presentationVariants, namesCell s.navigations]

def table (sets : List SetOverview) : TextTable where
  header := ["Entity set", "Entity type", "Properties", "Line items", "Presentation variants",
    "Navigation"]
  rows := sets.map row

end SetOverview

end TableCompiler
