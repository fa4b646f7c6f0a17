import TableCompiler.Descriptor
import TableCompiler.Manifest.Codec

/-!
# Table descriptors as JSON

Members that are not set are left out, and so are empty lists of columns.

* `Column.codec`, `Action.codec`, `SelectionMode.codec`, `CreateBehavior.codec`;
* `TableConfiguration.codec`, `TableControl.codec`, `Table.codec`.
-/

namespace TableCompiler

/-! ### Columns -/

namespace ExportSettings

def codec : Codec ExportSettings where
  write s := .record [
    ExportType.codec.put "type" s.exportType,
    Codec.text.putSet "template" s.template,
    Codec.text.putSet "label" s.label,
    Codec.text.putSet "inputFormat" s.inputFormat,
    Codec.word.putSet "scale" s.scale,
    Codec.flag.putSet "delimiter" s.delimiter,
    Codec.text.putSet "unitProperty" s.unitProperty,
    Codec.text.putSet "unit" s.unit,
    Codec.text.putSet "timezoneProperty" s.timezoneProperty,
    Codec.text.putSet "timezone" s.timezone,
    Codec.flag.putSet "utc" s.utc,
    Codec.flag.putSet "wrap" s.wrap]
  read j := do
    let m ← j.members? ["type", "template", "label", "inputFormat", "scale", "delimiter",
      "unitProperty", "unit", "timezoneProperty", "timezone", "utc", "wrap"]
    return {
      exportType := ← m.required "type" ExportType.codec
      template := ← m.optional "template" .text
      label := ← m.optional "label" .text
      inputFormat := ← m.optional "inputFormat" .text
      scale := ← m.optional "scale" .word
      delimiter := ← m.optional "delimiter" .flag
      unitProperty := ← m.optional "unitProperty" .text
      unit := ← m.optional "unit" .text
      timezoneProperty := ← m.optional "timezoneProperty" .text
      timezone := ← m.optional "timezone" .text
      utc := ← m.optional "utc" .flag
      wrap := ← m.optional "wrap" .flag }

end ExportSettings

namespace TypeConstraints

def codec : Codec TypeConstraints where
  write c := .record [
    Codec.word.putSet "precision" c.precision,
    Codec.word.putSet "scale" c.scale,
    Codec.word.putSet "maxLength" c.maxLength,
    Codec.flag.putSet "nullable" c.nullable,
    Codec.flag.putSet "isDigitSequence" c.isDigitSequence]
  read j := do
    let m ← j.members? ["precision", "scale", "maxLength", "nullable", "isDigitSequence"]
    return {
      precision := ← m.optional "precision" .word
      scale := ← m.optional "scale" .word
      maxLength := ← m.optional "maxLength" .word
      nullable := ← m.optional "nullable" .flag
      isDigitSequence := ← m.optional "isDigitSequence" .flag }

end TypeConstraints

namespace TypeConfig

def codec : Codec TypeConfig where
  write c := .record [
    Codec.text.put "className" c.className,
    TypeConstraints.codec.put "constraints" c.constraints]
  read j := do
    let m ← j.members? ["className", "constraints"]
    return {
      className := ← m.required "className" .text
      constraints := ← m.orElse "constraints" TypeConstraints.codec {} }

end TypeConfig

namespace CustomAggregateDefinition

def codec : Codec CustomAggregateDefinition where
  write d := .record [
    Codec.text.putList "contextDefiningProperties" d.contextDefiningProperties,
    Codec.text.putSet "label" d.label]
  read j := do
    let m ← j.members? ["contextDefiningProperties", "label"]
    return {
      contextDefiningProperties := ← m.listOrEmpty "contextDefiningProperties" .text
      label := ← m.optional "label" .text }

end CustomAggregateDefinition

namespace ColumnExtension

def codec : Codec ColumnExtension where
  write e := .record [
    CustomAggregateDefinition.codec.putSet "customAggregate" e.customAggregate]
  read j := do
    let m ← j.members? ["customAggregate"]
    return { customAggregate := ← m.optional "customAggregate" CustomAggregateDefinition.codec }

end ColumnExtension

namespace Column

def codec : Codec Column where
  write c := .record [
    Codec.text.put "key" c.key,
    Codec.text.put "name" c.name,
    ColumnKind.codec.put "type" c.kind,
    Codec.text.putSet "relativePath" c.relativePath,
    Codec.text.putSet "annotationPath" c.annotationPath,
    Codec.text.putSet "label" c.label,
    Codec.text.putSet "groupLabel" c.groupLabel,
    Codec.text.putSet "group" c.group,
    Codec.flag.put "sortable" c.sortable,
    Codec.flag.put "isGroupable" c.isGroupable,
    Codec.flag.put "isKey" c.isKey,
    Availability.codec.put "availability" c.availability,
    Codec.text.putList "propertyInfos" c.propertyInfos,
    Codec.text.putList "additionalPropertyInfos" c.additionalPropertyInfos,
    ExportSettings.codec.putSet "exportSettings" c.exportSettings,
    TypeConfig.codec.putSet "typeConfig" c.typeConfig,
    Importance.codec.putSet "importance" c.importance,
    Codec.flag.put "isPartOfLineItem" c.isPartOfLineItem,
    Codec.text.putSet "semanticObjectPath" c.semanticObjectPath,
    FormatOptions.codec.putSet "formatOptions" c.formatOptions,
    Codec.text.putSet "visible" c.visible,
    Codec.text.putSet "fieldGroupHiddenExpressions" c.fieldGroupHiddenExpressions,
    Codec.text.putSet "unit" c.unit,
    Codec.text.putSet "width" c.width,
    HorizontalAlign.codec.putSet "horizontalAlign" c.horizontalAlign,
    Codec.text.putSet "template" c.template,
    Codec.text.putSet "header" c.header,
    Codec.flag.putSet "aggregatable" c.aggregatable,
    ColumnExtension.codec.putSet "extension" c.extension]
  read j := do
    let m ← j.members? ["key", "name", "type", "relativePath", "annotationPath", "label",
      "groupLabel", "group", "sortable", "isGroupable", "isKey", "availability",
      "propertyInfos", "additionalPropertyInfos", "exportSettings", "typeConfig", "importance",
      "isPartOfLineItem", "semanticObjectPath", "formatOptions", "visible",
      "fieldGroupHiddenExpressions", "unit", "width", "horizontalAlign", "template", "header",
      "aggregatable", "extension"]
    return {
      key := ← m.required "key" .text
      name := ← m.required "name" .text
      kind := ← m.required "type" ColumnKind.codec
      relativePath := ← m.optional "relativePath" .text
      annotationPath := ← m.optional "annotationPath" .text
      label := ← m.optional "label" .text
      groupLabel := ← m.optional "groupLabel" .text
      group := ← m.optional "group" .text
      sortable := ← m.required "sortable" .flag
      isGroupable := ← m.required "isGroupable" .flag
      isKey := ← m.required "isKey" .flag
      availability := ← m.required "availability" Availability.codec
      propertyInfos := ← m.listOrEmpty "propertyInfos" .text
      additionalPropertyInfos := ← m.listOrEmpty "additionalPropertyInfos" .text
      exportSettings := ← m.optional "exportSettings" ExportSettings.codec
      typeConfig := ← m.optional "typeConfig" TypeConfig.codec
      importance := ← m.optional "importance" Importance.codec
      isPartOfLineItem := ← m.required "isPartOfLineItem" .flag
      semanticObjectPath := ← m.optional "semanticObjectPath" .text
      formatOptions := ← m.optional "formatOptions" FormatOptions.codec
      visible := ← m.optional "visible" .text
      fieldGroupHiddenExpressions := ← m.optional "fieldGroupHiddenExpressions" .text
      unit := ← m.optional "unit" .text
      width := ← m.optional "width" .text
      horizontalAlign := ← m.optional "horizontalAlign" HorizontalAlign.codec
      template := ← m.optional "template" .text
      header := ← m.optional "header" .text
      aggregatable := ← m.optional "aggregatable" .flag
      extension := ← m.optional "extension" ColumnExtension.codec }

end Column

namespace AggregateDefinition

def codec : Codec AggregateDefinition where
  write d := .record [
    CustomAggregateDefinition.codec.put "defaultAggregate" d.defaultAggregate,
    Codec.text.put "relativePath" d.relativePath]
  read j := do
    let m ← j.members? ["defaultAggregate", "relativePath"]
    return {
      defaultAggregate := ← m.required "defaultAggregate" CustomAggregateDefinition.codec
      relativePath := ← m.required "relativePath" .text }

end AggregateDefinition

/-! ### Actions -/

namespace Action

def codec : Codec Action where
  write a := .record [
    Codec.text.put "key" a.key,
    ActionKind.codec.put "type" a.kind,
    Codec.text.putSet "annotationPath" a.annotationPath,
    Codec.text.putSet "text" a.text,
    Codec.text.putSet "press" a.press,
    Codec.text.put "visible" a.visible,
    Codec.text.putSet "enabled" a.enabled,
    Codec.flag.putSet "isNavigable" a.isNavigable,
    Codec.flag.putSet "requiresSelection" a.requiresSelection,
    EnableOnSelect.codec.putSet "enableOnSelect" a.enableOnSelect,
    Codec.flag.putSet "enableAutoScroll" a.enableAutoScroll,
    Codec.text.putSet "defaultValuesExtensionFunction" a.defaultValuesExtensionFunction,
    Codec.text.putSet "command" a.command]
  read j := do
    let m ← j.members? ["key", "type", "annotationPath", "text", "press", "visible", "enabled",
      "isNavigable", "requiresSelection", "enableOnSelect", "enableAutoScroll",
      "defaultValuesExtensionFunction", "command"]
    return {
      key := ← m.required "key" .text
      kind := ← m.required "type" ActionKind.codec
      annotationPath := ← m.optional "annotationPath" .text
      text := ← m.optional "text" .text
      press := ← m.optional "press" .text
      visible := ← m.required "visible" .text
      enabled := ← m.optional "enabled" .text
      isNavigable := ← m.optional "isNavigable" .flag
      requiresSelection := ← m.optional "requiresSelection" .flag
      enableOnSelect := ← m.optional "enableOnSelect" EnableOnSelect.codec
      enableAutoScroll := ← m.optional "enableAutoScroll" .flag
      defaultValuesExtensionFunction := ← m.optional "defaultValuesExtensionFunction" .text
      command := ← m.optional "command" .text }

end Action

/-! ### Behaviour -/

namespace SelectionMode

/-- A selection mode is a string: the name of a fixed one, or a binding. -/
def codec : Codec SelectionMode where
  write
    | .fixed value => SelectionValue.codec.write value
    | .binding text => .str text
  read j :=
    match SelectionValue.codec.read j with
    | some value => some (.fixed value)
    | none => j.str?.map .binding

end SelectionMode

namespace InAppCreation

def toMembers (c : InAppCreation) : List (String × Option Json) := [
  CreationMode.codec.put "mode" c.mode,
  Codec.flag.put "append" c.append,
  Codec.text.putSet "newAction" c.newAction,
  Codec.text.putSet "navigateToTarget" c.navigateToTarget]

def ofJson? (j : Json) : Option InAppCreation := do
  let m ← j.members? ["mode", "append", "newAction", "navigateToTarget"]
  return {
    mode := ← m.required "mode" CreationMode.taggedCodec
    append := ← m.required "append" .flag
    newAction := ← m.optional "newAction" .text
    navigateToTarget := ← m.optional "navigateToTarget" .text }

end InAppCreation

namespace ExternalCreation

def toMembers (c : ExternalCreation) : List (String × Option Json) := [
  Codec.text.put "outbound" c.outbound,
  OutboundDetail.codec.putSet "outboundDetail" c.outboundDetail,
  NavigationSettings.codec.putSet "navigationSettings" c.navigationSettings]

def ofJson? (j : Json) : Option ExternalCreation := do
  let m ← j.members? ["outbound", "outboundDetail", "navigationSettings"]
  return {
    outbound := ← m.required "outbound" .text
    outboundDetail := ← m.optional "outboundDetail" OutboundDetail.codec
    navigationSettings := ← m.optional "navigationSettings" NavigationSettings.codec }

end ExternalCreation

namespace CreateBehavior

/-- The record of a behaviour, with its kind before the other members. -/
def toJson : CreateBehavior → Json
  | .inApp c => .record (Codec.text.put "kind" "inApp" :: c.toMembers)
  | .external c => .record (Codec.text.put "kind" "external" :: c.toMembers)

/-- The kind of a record and what holds its other members: the object, or the rest of an
array that begins with the kind. -/
def kind? : Json → Option (String × Json)
  | .arr (.str kind :: rest) => some (kind, .arr rest)
  | .obj members => do
    let m ← (Json.obj members).members? ["kind"]
    return (← m.required "kind" .text, .obj members)
  | _ => none

def ofJson? (j : Json) : Option CreateBehavior :=
  match kind? j with
  | some ("inApp", rest) => (InAppCreation.ofJson? rest).map .inApp
  | some ("external", rest) => (ExternalCreation.ofJson? rest).map .external
  | _ => none

/-- Behaviours are records that name their kind, readable throughout. -/
def codec : Codec CreateBehavior :=
  Codec.readable { write := toJson, read := ofJson? }

end CreateBehavior

namespace RowConfiguration

def codec : Codec RowConfiguration where
  write r := .record [
    RowAction.codec.putSet "action" r.action,
    Codec.text.putSet "navigationTarget" r.navigationTarget,
    Codec.text.putSet "rowHighlighting" r.rowHighlighting]
  read j := do
    let m ← j.members? ["action", "navigationTarget", "rowHighlighting"]
    return {
      action := ← m.optional "action" RowAction.codec
      navigationTarget := ← m.optional "navigationTarget" .text
      rowHighlighting := ← m.optional "rowHighlighting" .text }

end RowConfiguration

namespace ShowConfiguration

def codec : Codec ShowConfiguration where
  write s := .record [
    Codec.text.put "create" s.create,
    Codec.text.put "delete" s.delete,
    Codec.text.put "paste" s.paste,
    Codec.text.put "massEdit" s.massEdit]
  read j := do
    let m ← j.members? ["create", "delete", "paste", "massEdit"]
    return {
      create := ← m.required "create" .text
      delete := ← m.required "delete" .text
      paste := ← m.required "paste" .text
      massEdit := ← m.required "massEdit" .text }

end ShowConfiguration

/-! ### Conditions -/

/-- A record whose only member must be there. -/
def requiredMember {α : Type} (name : String) (c : Codec α) : Codec α where
  write a := .record [c.put name a]
  read j := do (← j.members? [name]).required name c

def emptyRecord : Codec Unit where
  write _ := .record []
  read j := (j.members? []).map fun _ => ()

namespace Sorter

def codec : Codec Sorter where
  write s := .record [
    Codec.text.put "name" s.name,
    Codec.flag.put "descending" s.descending]
  read j := do
    let m ← j.members? ["name", "descending"]
    return {
      name := ← m.required "name" .text
      descending := ← m.required "descending" .flag }

end Sorter

def sortersCodec : Codec (List Sorter) :=
  requiredMember "sorters" Sorter.codec.list

def groupLevelsCodec : Codec (List String) :=
  requiredMember "groupLevels" (requiredMember "name" Codec.text).list

/-! ### The descriptor -/

namespace TableConfiguration

def codec : Codec TableConfiguration where
  write t := .record [
    Codec.text.put "id" t.id,
    Codec.text.put "collection" t.collection,
    Codec.text.put "navigationPath" t.navigationPath,
    Codec.text.put "entityName" t.entityName,
    Codec.flag.put "isEntitySet" t.isEntitySet,
    Codec.text.putSet "header" t.header,
    Codec.text.putSet "p13nMode" t.personalization,
    SelectionMode.codec.put "selectionMode" t.selectionMode,
    CreateBehavior.codec.put "create" t.create,
    RowConfiguration.codec.put "row" t.row,
    ShowConfiguration.codec.put "show" t.visibility,
    VariantManagement.codec.put "variantManagement" t.variantManagement,
    Codec.word.put "threshold" t.threshold,
    Codec.flag.put "searchable" t.searchable,
    sortersCodec.putSet "sortConditions" t.sorters,
    groupLevelsCodec.putSet "groupConditions" t.groupLevels,
    emptyRecord.dictionary.putSet "aggregateConditions" t.totals,
    Codec.text.put "operationAvailableMap" t.operationAvailableMap,
    Codec.text.put "operationAvailableProperties" t.operationAvailableProperties]
  read j := do
    let m ← j.members? ["id", "collection", "navigationPath", "entityName", "isEntitySet",
      "header", "p13nMode", "selectionMode", "create", "row", "show", "variantManagement",
      "threshold", "searchable", "sortConditions", "groupConditions", "aggregateConditions",
      "operationAvailableMap", "operationAvailableProperties"]
    return {
      id := ← m.required "id" .text
      collection := ← m.required "collection" .text
      navigationPath := ← m.required "navigationPath" .text
      entityName := ← m.required "entityName" .text
      isEntitySet := ← m.required "isEntitySet" .flag
      header := ← m.optional "header" .text
      personalization := ← m.optional "p13nMode" .text
      selectionMode := ← m.required "selectionMode" SelectionMode.codec
      create := ← m.required "create" CreateBehavior.codec
      row := ← m.required "row" RowConfiguration.codec
      visibility := ← m.required "show" ShowConfiguration.codec
      variantManagement := ← m.required "variantManagement" VariantManagement.codec
      threshold := ← m.required "threshold" .word
      searchable := ← m.required "searchable" .flag
      sorters := ← m.optional "sortConditions" sortersCodec
      groupLevels := ← m.optional "groupConditions" groupLevelsCodec
      totals := ← m.optional "aggregateConditions" emptyRecord.dictionary
      operationAvailableMap := ← m.required "operationAvailableMap" .text
      operationAvailableProperties := ← m.required "operationAvailableProperties" .text }

end TableConfiguration

namespace TableControl

def codec : Codec TableControl where
  write t := .record [
    TableType.codec.put "type" t.tableType,
    CreationMode.codec.put "creationMode" t.creationMode,
    Codec.flag.put "createAtEnd" t.createAtEnd,
    Codec.flag.put "enableExport" t.enableExport,
    Codec.flag.put "enablePaste" t.enablePaste,
    Codec.flag.put "enableMassEdit" t.enableMassEdit,
    Codec.flag.put "enableFullScreen" t.enableFullScreen,
    Codec.flag.put "condensedTableLayout" t.condensedTableLayout,
    Codec.word.put "selectionLimit" t.selectionLimit,
    RowCountMode.codec.putSet "rowCountMode" t.rowCountMode,
    Codec.word.putSet "rowCount" t.rowCount,
    Codec.text.putSet "hierarchyQualifier" t.hierarchyQualifier]
  read j := do
    let m ← j.members? ["type", "creationMode", "createAtEnd", "enableExport", "enablePaste",
      "enableMassEdit", "enableFullScreen", "condensedTableLayout", "selectionLimit",
      "rowCountMode", "rowCount", "hierarchyQualifier"]
    return {
      tableType := ← m.required "type" TableType.codec
      creationMode := ← m.required "creationMode" CreationMode.codec
      createAtEnd := ← m.required "createAtEnd" .flag
      enableExport := ← m.required "enableExport" .flag
      enablePaste := ← m.required "enablePaste" .flag
      enableMassEdit := ← m.required "enableMassEdit" .flag
      enableFullScreen := ← m.required "enableFullScreen" .flag
      condensedTableLayout := ← m.required "condensedTableLayout" .flag
      selectionLimit := ← m.required "selectionLimit" .word
      rowCountMode := ← m.optional "rowCountMode" RowCountMode.codec
      rowCount := ← m.optional "rowCount" .word
      hierarchyQualifier := ← m.optional "hierarchyQualifier" .text }

end TableControl

namespace Table

def codec : Codec Table where
  write t := .record [
    TableConfiguration.codec.put "annotation" t.configuration,
    TableControl.codec.put "control" t.control,
    Column.codec.list.put "columns" t.columns,
    Action.codec.list.put "actions" t.actions,
    AggregateDefinition.codec.dictionary.putSet "aggregates" t.aggregates,
    Codec.flag.putSet "enableAnalytics" t.enableAnalytics,
    Codec.flag.putSet "enableBasicSearch" t.enableBasicSearch]
  read j := do
    let m ← j.members? ["annotation", "control", "columns", "actions", "aggregates",
      "enableAnalytics", "enableBasicSearch"]
    return {
      configuration := ← m.required "annotation" TableConfiguration.codec
      control := ← m.required "control" TableControl.codec
      columns := ← m.required "columns" Column.codec.list
      actions := ← m.required "actions" Action.codec.list
      aggregates := ← m.optional "aggregates" AggregateDefinition.codec.dictionary
      enableAnalytics := ← m.optional "enableAnalytics" .flag
      enableBasicSearch := ← m.optional "enableBasicSearch" .flag }

end Table

end TableCompiler
