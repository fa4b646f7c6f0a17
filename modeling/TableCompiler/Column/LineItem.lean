import TableCompiler.Column.Importance
import TableCompiler.Column.Property
import TableCompiler.Column.Visibility

/-!
# Columns of the line item

Every record that is neither an action nor of an unknown type becomes a column, if what it shows
can be resolved.  A record whose name or key is taken by an earlier one is dropped.

* `Scope.valueColumn` — the column of a record that shows a value;
* `Scope.groupColumn`, `Scope.dataPointColumn` — those of references to a group or data point;
* `Scope.recordColumn` — the column of any record;
* `Scope.addRecords` — the columns of all records.
-/

namespace TableCompiler

namespace DataField

/-- Whether the column of a record is hidden whatever the data. -/
def availability (field : DataField) : Availability :=
  if field.isHidden then .hidden else .shown

end DataField

namespace Scope

/-! ### Values -/

def propertyRecordColumn (s : Scope) (field : DataField) (t : PropertyTarget) (key : String) :
    Column :=
  let p := t.property
  let label := field.columnLabel? (some p)
  let sortable := s.isSortable t
  { key := key
    name := t.path
    kind := .lineItem
    relativePath := some t.path
    label := label
    groupLabel := t.groupLabel?
    group := t.group?
    sortable := sortable
    isGroupable := s.isGroupable t.path sortable
    isKey := s.isKeyPath t.path
    availability := if p.isHidden then .hidden else field.availability
    exportSettings := some (t.exportSettings label)
    typeConfig := p.typeConfig?
    importance := some (s.entityType.importance field t.path)
    semanticObjectPath := t.semanticObjectPath?
    formatOptions := s.draftIndicator? t.path
    visible := some (field.visibility (some (p, t.navigationPrefix)) s.isAnalytical).compile
    unit := t.unit? }

def valueColumn (s : Scope) (field : DataField) (path : PropertyPath) (key : String) :
    Reported (Option Column) :=
  match s.property? path with
  | none => do
    .report (.unresolvedValue path s.entityType.name)
    return none
  | some t =>
    if t.property.isPrimitive then pure (some (s.propertyRecordColumn field t key))
    else do
      .report (.complexValue path)
      return none

/-! ### Groups -/

/-- When a member of a group behind a navigation is visible, if it is one that shows. -/
def memberVisibility? (s : Scope) (navigation : String) (member : DataField) :
    Option Expression :=
  match member with
  | .value field =>
    let property := (s.property? (navigation ++ field.value)).map fun t =>
      (t.property, t.navigationPrefix)
    some (member.visibility property false)
  | .reference _ => some (shown member.hidden? navigation)
  | _ => none

/-- The first semantic key among the members of a group of the rows themselves. -/
def draftKey? (s : Scope) (navigation : String) (group : FieldGroup) : Option PropertyPath :=
  if navigation = "" then
    (group.data.filterMap (·.valuePath?)).find? s.entityType.isSemanticKey
  else none

/-- The label of a group column: that of the record, of the group or of its only member. -/
def groupColumnLabel? (field : DataField) (group : FieldGroup) (host : EntityType) :
    Option String :=
  (field.label?.or group.label).or <|
    match group.data with
    | [member] => member.memberLabel? (member.valuePath?.bind host.property?)
    | _ => none

def groupColumn (s : Scope) (field : DataField) (target key : String) (group : FieldGroup)
    (resolved : ResolvedAnnotation) (qualifier : Option String) : Column :=
  let navigation := resolved.navigationPrefix
  let members := Expression.or (group.data.filterMap (s.memberVisibility? navigation))
  { key := key
    name := target
    kind := .lineItem
    label := groupColumnLabel? field group resolved.entityType
    availability := field.availability
    importance := some (s.entityType.groupImportance field group navigation)
    formatOptions := (s.draftKey? navigation group).map fun path =>
      { hasDraftIndicator := some true
        fieldGroupDraftIndicatorPropertyPath := some path
        fieldGroupName := some (qualifier.getD "") }
    visible := some (field.groupVisibility members).compile
    fieldGroupHiddenExpressions := some members.compile }

/-! ### Data points -/

/-- The column of a record that refers to a data point with a property as its value. -/
def pointColumn (s : Scope) (field : DataField) (target key : String) (point : DataPoint)
    (t : PropertyTarget) : Column :=
  let p := t.property
  let label := (field.label?.or point.title).or (field.columnLabel? (some p))
  let sortable := s.isSortable t
  { key := key
    name := target
    kind := .lineItem
    relativePath := some t.path
    label := label
    groupLabel := t.groupLabel?
    group := t.group?
    sortable := sortable
    isGroupable := s.isGroupable t.path sortable
    availability := field.availability
    exportSettings := some (t.exportSettings label)
    typeConfig := p.typeConfig?
    importance := some (field.importance?.getD .none)
    visible := some (field.visibility (some (p, t.navigationPrefix)) s.isAnalytical).compile
    unit := t.unit? }

/-- The column of a record that refers to a data point behind a navigation. -/
def dataPointColumn (s : Scope) (field : DataField) (target key : String) (point : DataPoint)
    (navigation : String) : Reported (Option Column) :=
  let value := navigation ++ point.value
  match s.property? value with
  | some t => pure (some (s.pointColumn field target key point t))
  | none => do
    .report (.unresolvedDataPoint value s.entityType.name)
    return none

/-! ### Records -/

/-- The column of a record that refers to another annotation: only groups and data points can be
shown. -/
def referenceColumn (s : Scope) (field : DataField) (target key : String) :
    Reported (Option Column) :=
  match AnnotationPath.ofText target with
  | .error error => do
    .report (.invalidTarget error)
    return none
  | .ok path =>
    match s.service.annotationAt? s.entityType path with
    | none => do
      .report (.unresolvedTarget target s.entityType.name)
      return none
    | some resolved =>
      match resolved.target with
      | .fieldGroup group =>
        pure (some (s.groupColumn field target key group resolved path.qualifier))
      | .dataPoint point =>
        s.dataPointColumn field target key point resolved.navigationPrefix
      | _ => pure none

/-- The column of a record, if it has one. -/
def recordColumn (s : Scope) (field : DataField) : Reported (Option Column) :=
  match field, field.key? with
  | .value record, some key => s.valueColumn field record.value key
  | .reference record, some key => s.referenceColumn field record.target key
  | _, _ => pure none

/-- The column of a record as part of the line item; one that shows several properties is
exported with a line for each. -/
def placeRecord (s : Scope) (index : Nat) (related : RelatedProperties) (column : Column) :
    Column :=
  { column with
    annotationPath := some (s.recordPath index)
    isPartOfLineItem := true
    exportSettings := column.exportSettings.or <|
      if related.properties.isEmpty then none
      else some (.composite column.label related.properties.length) }

section Collection

variable {σ : Type} [ColumnStore σ]

/-- Adds the column of the record at a place of the line item. -/
def addRecord (s : Scope) (store : σ) (record : DataField × Nat) : Reported σ := do
  let (field, index) := record
  match ← s.recordColumn field with
  | none => return store
  | some column =>
    let related := s.service.collectField s.entityType field
    return ColumnStore.insert store (s.placeRecord index related column) .lineItem related

/-- Adds the columns of all records, in the order of the line item. -/
def addRecords (s : Scope) (store : σ) : Reported σ :=
  s.lineItem.zipIdx.foldlM s.addRecord store

end Collection

end Scope

end TableCompiler
