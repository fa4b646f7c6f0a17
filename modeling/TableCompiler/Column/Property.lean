import TableCompiler.Column.Entry
import TableCompiler.Column.Export
import TableCompiler.Column.Label
import TableCompiler.Scope

/-!
# Columns of bare properties

* `Scope.isSortable`, `Scope.isGroupable`, `PropertyTarget.group?`, `Scope.draftIndicator?` and
  their neighbours — members that columns of records share with those of bare properties;
* `Scope.propertyColumn` — the column of a bare property;
* `Scope.addProperties` — one column for each property that no record shows;
* `Scope.hiddenColumn?` — the hidden column that a dependency needs.
-/

namespace TableCompiler

/-! ### Shared members -/

namespace PropertyTarget

/-- The group of a property, which is its path without the last segment. -/
def group? (t : PropertyTarget) : Option String :=
  (Text.cutLast? '/' t.path).map (·.1)

/-- The label of the group: the name of the entities behind the navigation. -/
def groupLabel? (t : PropertyTarget) : Option String :=
  if t.group?.isSome ∧ t.crossesNavigation then
    t.entityType.annotations.headerInfo.bind (·.typeName)
  else none

def semanticObjectPath? (t : PropertyTarget) : Option String :=
  t.property.annotations.semanticObject.map fun
    | .path p => braced (t.navigationPrefix ++ p)
    | .literal _ => t.path ++ "@Common.SemanticObject"

/-- The currency or unit that is shown with a value, as a path or as a fixed code. -/
def unit? (t : PropertyTarget) : Option String :=
  (t.property.annotations.isoCurrency.or t.property.annotations.unit).map fun
    | .path p => t.navigationPrefix ++ p
    | .literal code => code

end PropertyTarget

namespace SortRestrictions

def forbids (r : SortRestrictions) (path : PropertyPath) : Bool :=
  r.sortable == some false || r.nonSortableProperties.contains path

end SortRestrictions

namespace Scope

/-- Whether rows can be sorted by a property: not if the entity set restricts it, if the type has
no order, or if there are several values. -/
def isSortable (s : Scope) (t : PropertyTarget) : Bool :=
  !(s.targetSet.annotations.sortRestrictions.any (·.forbids t.path))
    && isSortableType t.property.typeName && !t.isMultiValue

/-- Whether rows can be grouped by a path: in an analytical table if the type of the rows says
so, else if they can be sorted by it. -/
def isGroupable (s : Scope) (path : PropertyPath) (sortable : Bool) : Bool :=
  if s.isAnalytical then
    s.entityType.annotations.applySupported.any (·.groupableProperties.contains path)
  else sortable

/-- Whether a path is that of a key property of the rows. -/
def isKeyPath (s : Scope) (path : PropertyPath) : Bool :=
  !path.toList.contains '/' && s.entityType.isKey path

def draftIndicator? (s : Scope) (path : PropertyPath) : Option FormatOptions :=
  if s.entityType.isSemanticKey path then some { hasDraftIndicator := some true } else none

/-! ### Columns -/

/-- The column of a bare property under a name and a key. -/
def propertyColumn (s : Scope) (t : PropertyTarget) (name key : String) : Column :=
  let label := t.property.columnLabel
  let sortable := s.isSortable t
  { key := key
    name := name
    kind := .property
    relativePath := some t.path
    label := some label
    groupLabel := t.groupLabel?
    group := t.group?
    sortable := sortable
    isGroupable := s.isGroupable t.path sortable
    isKey := s.isKeyPath t.path
    exportSettings := some (t.exportSettings (some label))
    typeConfig := t.property.typeConfig?
    semanticObjectPath := t.semanticObjectPath?
    formatOptions := s.draftIndicator? t.path
    unit := t.unit? }

/-- The column of a text that is shown in place of a value: rows are neither sorted nor grouped
by it. -/
def fixOrder (column : Column) : Column :=
  { column with sortable := false, isGroupable := false }

/-- A property that no record shows is offered for adaptation, unless it is hidden. -/
def offered (p : Property) (column : Column) : Column :=
  { column with availability := if p.isHidden then .hidden else .adaptation }

section Collection

open ColumnStore (containsName isTextOnly insert)

variable {σ : Type} [ColumnStore σ]

/-- Adds the column of a text that is shown in place of a value, unless its name is taken. -/
def addText (s : Scope) (store : σ) (text : PropertyPath) : σ :=
  if containsName store text then store
  else match s.property? text with
    | none => store
    | some t =>
      let column := s.propertyColumn t text (propertyKey text)
      insert store (offered t.property (fixOrder column)) .property {}

/-- Adds the column of a primitive property of the rows that no record shows, and those of the
texts in place of its value. -/
def addProperty (s : Scope) (store : σ) (p : Property) : σ :=
  if !p.isPrimitive || containsName store p.name then store
  else match s.property? p.name with
    | none => store
    | some t =>
      let related := s.service.collectProperty s.entityType p.name .property
      let column := offered p (s.propertyColumn t p.name (propertyKey p.name))
      let column := if isTextOnly store p.name then fixOrder column else column
      related.textOnly.foldl s.addText (insert store column .property related)

def addProperties (s : Scope) (store : σ) : σ :=
  s.entityType.properties.foldl s.addProperty store

end Collection

/-- The hidden column that a dependency needs, if there is such a property. -/
def hiddenColumn? (s : Scope) (hidden : HiddenColumn) : Option Column :=
  (s.property? hidden.path).map fun t =>
    let column := { s.propertyColumn t hidden.name hidden.key with availability := .hidden }
    if hidden.isTextOnly then fixOrder column else column

end Scope

end TableCompiler
