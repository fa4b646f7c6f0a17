import TableCompiler.Vocabulary

/-!
# Manifest settings

The manifest of a page overrides what the annotations say: settings, columns and actions per
visualization, and where pages and outbound navigations lead.

* `ManifestColumn`, `ManifestAction`, `TableSettings`, `ControlConfiguration` — the overrides of
  one visualization;
* `NavigationSettings`, `OutboundDetail` — navigation;
* `Manifest` — the whole of it;
* `Manifest.control?` — the overrides for a visualization path, which may spell the vocabulary
  in full or by alias.
-/

namespace TableCompiler

/-! ### Parts -/

/-- Formatting of a column. -/
structure FormatOptions where
  hasDraftIndicator : Option Bool := none
  fieldGroupDraftIndicatorPropertyPath : Option String := none
  fieldGroupName : Option String := none
  textLinesEdit : Option UInt32 := none
deriving DecidableEq

/-- The position of a custom element. -/
structure Position where
  anchor : Option String := none
  placement : Placement := .after
deriving DecidableEq

/-- The overrides of a column, or a custom column. -/
structure ManifestColumn where
  header : Option String := none
  width : Option String := none
  importance : Option Importance := none
  horizontalAlign : Option HorizontalAlign := none
  availability : Option Availability := none
  /-- The fragment that shows a custom column. -/
  template : Option String := none
  position : Option Position := none
  /-- The properties that a custom column needs. -/
  properties : List String := []
  formatOptions : Option FormatOptions := none
deriving DecidableEq

/-- A truth value or a binding. -/
inductive BindingValue where
  | flag (b : Bool)
  | binding (text : String)
deriving DecidableEq

namespace BindingValue

def text : BindingValue → String
  | .flag b => if b then "true" else "false"
  | .binding text => text

end BindingValue

/-- The overrides of an action, or a custom action. -/
structure ManifestAction where
  text : Option String := none
  press : Option String := none
  enabled : Option BindingValue := none
  visible : Option BindingValue := none
  position : Option Position := none
  requiresSelection : Option Bool := none
  enableOnSelect : Option EnableOnSelect := none
  enableAutoScroll : Option Bool := none
  isNavigable : Option Bool := none
  defaultValuesExtensionFunction : Option String := none
  command : Option String := none
deriving DecidableEq

/-- The personalization features of a table. -/
structure PersonalizationOptions where
  sort : Option Bool := none
  column : Option Bool := none
  filter : Option Bool := none
  group : Option Bool := none
  aggregate : Option Bool := none
deriving DecidableEq

/-- Personalization as a whole or by feature. -/
inductive PersonalizationSetting where
  | enabled (b : Bool)
  | options (o : PersonalizationOptions)
deriving DecidableEq

/-- How new rows are to be created. -/
structure CreationSettings where
  mode : Option CreationMode := none
  createAtEnd : Option Bool := none
  outbound : Option String := none
deriving DecidableEq

/-- Settings of a table. -/
structure TableSettings where
  tableType : Option TableType := none
  selectionMode : Option SelectionSetting := none
  selectionLimit : Option UInt32 := none
  personalization : Option PersonalizationSetting := none
  creationMode : Option CreationSettings := none
  enableExport : Option Bool := none
  enablePaste : Option Bool := none
  enableMassEdit : Option Bool := none
  enableFullScreen : Option Bool := none
  condensedTableLayout : Option Bool := none
  rowCountMode : Option RowCountMode := none
  rowCount : Option UInt32 := none
  hierarchyQualifier : Option String := none
  header : Option String := none
deriving DecidableEq

/-- The overrides of one visualization; columns and actions by key. -/
structure ControlConfiguration where
  columns : Dictionary ManifestColumn := .empty
  actions : Dictionary ManifestAction := .empty
  tableSettings : TableSettings := {}

/-! ### Navigation -/

/-- Where a navigation leads. -/
structure NavigationTarget where
  route : Option String := none
  outbound : Option String := none
deriving DecidableEq

/-- The navigations from an entity set or a navigation path. -/
structure NavigationSettings where
  display : Option NavigationTarget := none
  detail : Option NavigationTarget := none
  create : Option NavigationTarget := none
deriving DecidableEq

/-- A navigation to another application. -/
structure OutboundDetail where
  semanticObject : String
  action : String
  parameters : Dictionary String := .empty

/-! ### The manifest -/

/-- The settings of a page. -/
structure Manifest where
  template : PageTemplate := .listReport
  variantManagement : VariantManagement := .page
  hideFilterBar : Bool := false
  /-- The overrides, by visualization path. -/
  controls : Dictionary ControlConfiguration := .empty
  /-- The navigations, by entity set or navigation path. -/
  navigation : Dictionary NavigationSettings := .empty
  outbounds : Dictionary OutboundDetail := .empty

namespace Manifest

/-- A visualization path with the alias of the vocabulary, without white space at the ends and
slashes at the start. -/
def normalPath (path : String) : String :=
  Text.trimStart '/' (Text.replace "@com.sap.vocabularies.UI.v1." "@UI." (Text.trim path))

/-- The overrides for a visualization path: those of the first key that spells it. -/
def control? (m : Manifest) (path : String) : Option ControlConfiguration :=
  (m.controls.entries.find? fun entry => normalPath entry.1 == normalPath path).map (·.2)

/-- The navigations from an entity set or a navigation path. -/
def navigation? (m : Manifest) (key : String) : Option NavigationSettings :=
  m.navigation.get? key

end Manifest

end TableCompiler
