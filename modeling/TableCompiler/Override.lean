import TableCompiler.Dependencies
import TableCompiler.Placement
import TableCompiler.Toolbar

/-!
# Overrides of the manifest

An entry of the manifest with the key of a column or action changes some of its members; any
other entry is a custom element, provided that it says enough to be one.

* `ManifestAction.override`, `ManifestAction.toAction` — an action with an entry of the manifest,
  and the action that an entry alone stands for;
* `Scope.mergeActions` — the actions of the table;
* `ManifestColumn.override`, `ManifestColumn.toColumn` — the same for columns;
* `Scope.mergeColumns` — the columns of the table.
-/

namespace TableCompiler

/-! ### Actions -/

namespace ManifestAction

/-- An action with the members that the entry sets; selection can only be required, not be
waived. -/
def override (entry : ManifestAction) (action : Action) : Action :=
  { action with
    visible := (entry.visible.map (·.text)).getD action.visible
    enabled := (entry.enabled.map (·.text)).or action.enabled
    isNavigable := entry.isNavigable.or action.isNavigable
    enableOnSelect := entry.enableOnSelect.or action.enableOnSelect
    enableAutoScroll := entry.enableAutoScroll.or action.enableAutoScroll
    defaultValuesExtensionFunction :=
      entry.defaultValuesExtensionFunction.or action.defaultValuesExtensionFunction
    command := entry.command.or action.command
    requiresSelection :=
      if entry.requiresSelection = some true then some true else action.requiresSelection }

/-- When a custom action is enabled: as the entry says, or else when there are rows for it. -/
def enabledText (entry : ManifestAction) : String :=
  match entry.enabled with
  | some enabled => enabled.text
  | none =>
    if entry.requiresSelection.getD false then selectedAtLeastOne.compile else "true"

/-- The custom action that an entry stands for. -/
def toAction (entry : ManifestAction) (key : String) : Action where
  key := key
  kind := .custom
  text := entry.text
  press := entry.press
  visible := (entry.visible.map (·.text)).getD "true"
  enabled := some entry.enabledText
  isNavigable := entry.isNavigable
  requiresSelection := some (entry.requiresSelection.getD false)
  enableOnSelect := entry.enableOnSelect
  enableAutoScroll := entry.enableAutoScroll
  defaultValuesExtensionFunction := entry.defaultValuesExtensionFunction
  command := entry.command

end ManifestAction

namespace Toolbar

/-- The actions with the entries of their keys; entries of hidden records have no effect. -/
def override (t : Toolbar) (entries : Dictionary ManifestAction) : List Action :=
  t.actions.map fun action =>
    if t.hidden.contains action.key then action
    else match entries.get? action.key with
      | some entry => entry.override action
      | none => action

/-- The custom actions, by key: the entries that belong to no record. -/
def custom (t : Toolbar) (entries : Dictionary ManifestAction) : List (Custom Action) :=
  entries.entries.filterMap fun (key, entry) =>
    if t.hidden.contains key || t.containsKey key then none
    else some (entry.toAction key, entry.position)

def merge (t : Toolbar) (entries : Dictionary ManifestAction) : Reported (List Action) :=
  placeAll (·.key) (t.override entries) (t.custom entries)

end Toolbar

namespace Scope

def mergeActions (s : Scope) (t : Toolbar) : Reported (List Action) :=
  match s.control with
  | some control => t.merge control.actions
  | none => pure t.actions

end Scope

/-! ### Columns -/

namespace ManifestColumn

def override (entry : ManifestColumn) (column : Column) : Column :=
  { column with
    width := entry.width.or column.width
    importance := entry.importance.or column.importance
    horizontalAlign := entry.horizontalAlign.or column.horizontalAlign
    availability := entry.availability.getD column.availability
    formatOptions := entry.formatOptions.or column.formatOptions
    header := entry.header.or column.header }

/-- The custom column that an entry stands for, given the columns of its properties. -/
def toColumn (entry : ManifestColumn) (key : String) (propertyInfos : List String) : Column where
  key := key
  name := key
  kind := .slot
  label := entry.header
  header := entry.header
  width := entry.width
  template := entry.template
  horizontalAlign := entry.horizontalAlign
  importance := entry.importance
  availability := entry.availability.getD .shown
  formatOptions := entry.formatOptions
  sortable := !propertyInfos.isEmpty
  propertyInfos := propertyInfos

end ManifestColumn

/-- Columns that the manifest can add to. -/
abbrev Columns := List Column

namespace Columns

/-- Whether there is a column of a name that shows no other columns. -/
def hasPlain (columns : Columns) (name : String) : Bool :=
  columns.any fun c => c.name == name && !c.isComposite

/-- The name of the column that shows a property alone. -/
def plainName? (columns : Columns) (path : PropertyPath) : Option String :=
  if columns.hasPlain path then some path
  else if columns.hasPlain (propertyAlias path) then some (propertyAlias path)
  else none

/-- Adds the column of a property of a custom column to those found so far. -/
def addPlain (columns : Columns) (key : String) (names : List String) (path : PropertyPath) :
    Reported (List String) := do
  match columns.plainName? path with
  | some name => return addUnique names name
  | none =>
    .report (.unknownColumnProperty key path)
    return names

/-- The columns with the entries of their keys. -/
def override (columns : Columns) (entries : Dictionary ManifestColumn) : Columns :=
  columns.map fun column =>
    match entries.get? column.key with
    | some entry => entry.override column
    | none => column

/-- The custom column of an entry: it needs a template, and a key that names no column. -/
def customColumn? (columns : Columns) (key : String) (entry : ManifestColumn) :
    Reported (Option (Custom Column)) := do
  if columns.any (·.key == key) then return none
  else if entry.template.isNone then
    .report (.unmatchedColumn key)
    return none
  else if columns.any (·.name == key) then
    .report (.clashingColumn key)
    return none
  else
    let propertyInfos ← entry.properties.foldlM (columns.addPlain key) []
    return some (entry.toColumn key propertyInfos, entry.position)

/-- The custom columns, by key. -/
def custom (columns : Columns) (entries : Dictionary ManifestColumn) :
    Reported (List (Custom Column)) :=
  entries.entries.filterMapM fun (key, entry) => columns.customColumn? key entry

def merge (columns : Columns) (entries : Dictionary ManifestColumn) :
    Reported (List Column) := do
  placeAll (·.key) (columns.override entries) (← columns.custom entries)

end Columns

namespace Scope

def mergeColumns (s : Scope) (columns : List Column) : Reported (List Column) :=
  match s.control with
  | some control => Columns.merge columns control.columns
  | none => pure columns

end Scope

end TableCompiler
