import TableCompiler.Analytics
import TableCompiler.Availability
import TableCompiler.Column.Arena
import TableCompiler.Column.LineItem
import TableCompiler.Conditions
import TableCompiler.Creation
import TableCompiler.Operations
import TableCompiler.Override
import TableCompiler.Personalization
import TableCompiler.Row

/-!
# Compiling a table

* `Scope.arena` — the columns of the line item, of the other properties and of dependencies;
* `Scope.control` — how the table is shown;
* `Scope.table` — the descriptor for a settled request;
* `Context.compile` — the descriptor for a request, or why there is none, with the problems that
  were met.
-/

namespace TableCompiler

namespace Scope

/-- The columns with their dependencies linked. -/
def arena (s : Scope) : Reported ColumnArena := do
  let arena ← s.addRecords ({} : ColumnArena)
  return ((s.addProperties arena).link fun _ => s.hiddenColumn?).arena

def tableId (s : Scope) : String :=
  sanitize s.dataPath ++ "::LineItem" ++
    match s.lineItemPath.qualifier with
    | some qualifier => "::" ++ qualifier
    | none => ""

/-- The header of the table: that of the manifest, or the plural name of the entities. -/
def header? (s : Scope) : Option String :=
  s.settings.header.or (s.entityType.annotations.headerInfo.bind (·.typeNamePlural))

/-- How the table is shown.  An analytical table is shown by a grid table with analytics
switched on. -/
def tableControl (s : Scope) (creation : CreateBehavior) : TableControl :=
  let settings := s.settings
  { tableType := if s.isAnalytical then .grid else s.tableType
    creationMode := match creation with
      | .inApp c => c.mode
      | .external _ => .external
    createAtEnd := match creation with
      | .inApp c => c.append
      | .external _ => false
    enableExport := settings.enableExport.getD true
    enablePaste := settings.enablePaste.getD false
    enableMassEdit := settings.enableMassEdit.getD false
    enableFullScreen := settings.enableFullScreen.getD false
    condensedTableLayout := settings.condensedTableLayout.getD false
    selectionLimit := settings.selectionLimit.getD s.options.defaultSelectionLimit
    rowCountMode := settings.rowCountMode
    rowCount := settings.rowCount
    hierarchyQualifier := s.hierarchyQualifier }

/-- The conditions of sorting, grouping and totals. -/
structure TableConditions where
  sorters : Option (List Sorter) := none
  groupLevels : Option (List String) := none
  totals : Option (Dictionary Unit) := none

/-- The conditions of the presentation variant, if there is one. -/
def conditions (s : Scope) (columns : List Column) :
    Option PresentationVariant → Reported TableConditions
  | none => return {}
  | some v => do
    return ⟨← s.sorters? columns v, ← s.groupLevels? columns v, ← s.totals? columns v⟩

def configuration (s : Scope) (actions : List Action) (creation : CreateBehavior)
    (variant : Option PresentationVariant) (conditions : TableConditions) :
    TableConfiguration :=
  let operations := s.operations
  let availability := s.operationAvailability
  { id := s.tableId
    collection := "/" ++ s.dataPath
    navigationPath := s.navigationPath
    entityName := s.entitySet.name
    isEntitySet := s.isEntitySet
    header := s.header?
    personalization := s.personalization?
    selectionMode := (s.selectionInputs actions operations).mode
    create := creation
    row := s.row
    visibility := operations.bindings
    variantManagement := s.manifest.variantManagement
    threshold := s.threshold variant
    searchable := s.service.searchable s.dataPath
    sorters := conditions.sorters
    groupLevels := conditions.groupLevels
    totals := conditions.totals
    operationAvailableMap := availability.mapText
    operationAvailableProperties := availability.propertiesText }

/-- The descriptor of a table, unless its creation settings contradict each other. -/
def table (s : Scope) (requested : Option AnnotationPath) :
    Reported (Except CompileError Table) := do
  let arena ← s.arena
  let merged ← s.mergeColumns arena.columns
  let analytics ← s.aggregate arena.units merged
  let actions ← s.mergeActions (← s.toolbar)
  match ← s.creation with
  | .error e => return .error e
  | .ok creation =>
    let variant ← s.variant? requested
    let conditions ← s.conditions analytics.columns variant
    return .ok {
      configuration := s.configuration actions creation variant conditions
      control := s.tableControl creation
      columns := analytics.columns
      actions := actions
      aggregates := analytics.aggregates
      enableAnalytics := analytics.enableAnalytics
      enableBasicSearch := analytics.enableBasicSearch }

end Scope

namespace Context

/-- Compiles the table of a request.  Problems that do not keep it from being compiled are
reported, also when there is no table in the end. -/
def compile (c : Context) (r : TableRequest) : Reported (Except CompileError Table) :=
  match c.resolve r with
  | .error e => return .error e
  | .ok scope => do (← scope).table r.presentationVariant

end Context

end TableCompiler
