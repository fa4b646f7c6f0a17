import TableCompiler.Manifest

/-!
# Table descriptors

The result of a compilation: what the renderer needs to know about a table.

* `Column`, `ExportSettings`, `TypeConfig`, `CustomAggregateDefinition` — columns;
* `Action` — toolbar actions;
* `SelectionMode`, `CreateBehavior`, `RowConfiguration`, `ShowConfiguration` — behaviour;
* `Sorter` and the conditions of sorting, grouping and totals;
* `TableConfiguration`, `TableControl`, `Table` — the descriptor.
-/

namespace TableCompiler

/-! ### Columns -/

/-- How a column is written into a spreadsheet. -/
structure ExportSettings where
  exportType : ExportType
  template : Option String := none
  label : Option String := none
  inputFormat : Option String := none
  scale : Option UInt32 := none
  delimiter : Option Bool := none
  unitProperty : Option String := none
  unit : Option String := none
  timezoneProperty : Option String := none
  timezone : Option String := none
  utc : Option Bool := none
  wrap : Option Bool := none
deriving DecidableEq

/-- Constraints of the model type of a column. -/
structure TypeConstraints where
  precision : Option UInt32 := none
  scale : Option UInt32 := none
  maxLength : Option UInt32 := none
  nullable : Option Bool := none
  isDigitSequence : Option Bool := none
deriving DecidableEq

/-- The model type of a column. -/
structure TypeConfig where
  className : String
  constraints : TypeConstraints := {}
deriving DecidableEq

/-- A custom aggregate as the renderer knows it. -/
structure CustomAggregateDefinition where
  contextDefiningProperties : List String := []
  label : Option String := none
deriving DecidableEq

/-- An extension of a column, which may hold a custom aggregate. -/
structure ColumnExtension where
  customAggregate : Option CustomAggregateDefinition := none
deriving DecidableEq

/-- A column of the table. -/
structure Column where
  key : String
  name : String
  kind : ColumnKind
  relativePath : Option String := none
  annotationPath : Option String := none
  label : Option String := none
  groupLabel : Option String := none
  group : Option String := none
  sortable : Bool := false
  isGroupable : Bool := false
  isKey : Bool := false
  availability : Availability := .shown
  /-- The names of the columns whose properties this one shows. -/
  propertyInfos : List String := []
  /-- The names of the columns whose properties must be loaded with this one. -/
  additionalPropertyInfos : List String := []
  exportSettings : Option ExportSettings := none
  typeConfig : Option TypeConfig := none
  importance : Option Importance := none
  isPartOfLineItem : Bool := false
  semanticObjectPath : Option String := none
  formatOptions : Option FormatOptions := none
  visible : Option String := none
  fieldGroupHiddenExpressions : Option String := none
  unit : Option String := none
  width : Option String := none
  horizontalAlign : Option HorizontalAlign := none
  template : Option String := none
  header : Option String := none
  aggregatable : Option Bool := none
  extension : Option ColumnExtension := none
deriving DecidableEq

namespace Column

/-- Whether a column shows properties of other columns. -/
def isComposite (c : Column) : Bool :=
  !c.propertyInfos.isEmpty

end Column

/-- The aggregate of a column. -/
structure AggregateDefinition where
  defaultAggregate : CustomAggregateDefinition
  relativePath : String
deriving DecidableEq

/-! ### Actions -/

/-- A toolbar action. -/
structure Action where
  key : String
  kind : ActionKind
  annotationPath : Option String := none
  text : Option String := none
  press : Option String := none
  visible : String
  /-- Unset where the renderer decides for each row. -/
  enabled : Option String := none
  isNavigable : Option Bool := none
  requiresSelection : Option Bool := none
  enableOnSelect : Option EnableOnSelect := none
  enableAutoScroll : Option Bool := none
  defaultValuesExtensionFunction : Option String := none
  command : Option String := none
deriving DecidableEq

/-! ### Behaviour -/

/-- A fixed selection mode or a binding that yields one. -/
inductive SelectionMode where
  | fixed (value : SelectionValue)
  | binding (text : String)
deriving DecidableEq

namespace SelectionMode

def text : SelectionMode → String
  | .fixed value => value.name
  | .binding text => text

end SelectionMode

/-- Creation of rows within the application. -/
structure InAppCreation where
  mode : CreationMode
  append : Bool
  newAction : Option String := none
  navigateToTarget : Option String := none
deriving DecidableEq

/-- Creation of rows in another application. -/
structure ExternalCreation where
  outbound : String
  outboundDetail : Option OutboundDetail := none
  navigationSettings : Option NavigationSettings := none

/-- How new rows are created. -/
inductive CreateBehavior where
  | inApp (creation : InAppCreation)
  | external (creation : ExternalCreation)

/-- What pressing a row does, and how rows are highlighted. -/
structure RowConfiguration where
  action : Option RowAction := none
  navigationTarget : Option String := none
  rowHighlighting : Option String := none
deriving DecidableEq

/-- The visibility of the standard operations of the toolbar. -/
structure ShowConfiguration where
  create : String
  delete : String
  paste : String
  massEdit : String
deriving DecidableEq

/-! ### Conditions -/

/-- A column by which the table is sorted. -/
structure Sorter where
  name : String
  descending : Bool
deriving DecidableEq

/-! ### The descriptor -/

/-- The part of a descriptor that says what the table is and does. -/
structure TableConfiguration where
  id : String
  /-- The absolute path of the rows. -/
  collection : String
  navigationPath : String
  entityName : String
  isEntitySet : Bool
  header : Option String := none
  personalization : Option String := none
  selectionMode : SelectionMode
  create : CreateBehavior
  row : RowConfiguration
  visibility : ShowConfiguration
  variantManagement : VariantManagement
  threshold : UInt32
  searchable : Bool
  sorters : Option (List Sorter) := none
  /-- The names of the columns by which the table is grouped. -/
  groupLevels : Option (List String) := none
  /-- The names of the columns that have totals. -/
  totals : Option (Dictionary Unit) := none
  /-- A JSON object from actions to the paths of their availability. -/
  operationAvailableMap : String
  /-- The paths of that map, separated by commas. -/
  operationAvailableProperties : String

/-- The part of a descriptor that says how the table is shown. -/
structure TableControl where
  tableType : TableType
  creationMode : CreationMode
  createAtEnd : Bool
  enableExport : Bool
  enablePaste : Bool
  enableMassEdit : Bool
  enableFullScreen : Bool
  condensedTableLayout : Bool
  selectionLimit : UInt32
  rowCountMode : Option RowCountMode := none
  rowCount : Option UInt32 := none
  hierarchyQualifier : Option String := none
deriving DecidableEq

/-- A table descriptor. -/
structure Table where
  configuration : TableConfiguration
  control : TableControl
  columns : List Column
  actions : List Action
  /-- The aggregates, by the name of their column. -/
  aggregates : Option (Dictionary AggregateDefinition) := none
  enableAnalytics : Option Bool := none
  enableBasicSearch : Option Bool := none

namespace Table

def column? (t : Table) (name : String) : Option Column :=
  t.columns.find? (·.name == name)

def columnByKey? (t : Table) (key : String) : Option Column :=
  t.columns.find? (·.key == key)

def action? (t : Table) (key : String) : Option Action :=
  t.actions.find? (·.key == key)

end Table

end TableCompiler
