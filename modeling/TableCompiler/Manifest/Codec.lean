import TableCompiler.Manifest

/-!
# Manifest settings as JSON

Every member but those of format options is written, an unset one as `null`; on reading, all may
be missing but the names of an outbound navigation.

* `FormatOptions.codec`, `ManifestColumn.codec`, `ManifestAction.codec`, `TableSettings.codec`,
  `ControlConfiguration.codec`;
* `NavigationSettings.codec`, `OutboundDetail.codec`, `Manifest.codec`.
-/

namespace TableCompiler

namespace FormatOptions

/-- Format options as JSON; those that are not set are left out. -/
def codec : Codec FormatOptions where
  write o := .record [
    Codec.flag.putSet "hasDraftIndicator" o.hasDraftIndicator,
    Codec.text.putSet "fieldGroupDraftIndicatorPropertyPath"
      o.fieldGroupDraftIndicatorPropertyPath,
    Codec.text.putSet "fieldGroupName" o.fieldGroupName,
    Codec.word.putSet "textLinesEdit" o.textLinesEdit]
  read j := do
    let m ← j.members? ["hasDraftIndicator", "fieldGroupDraftIndicatorPropertyPath",
      "fieldGroupName", "textLinesEdit"]
    return {
      hasDraftIndicator := ← m.optional "hasDraftIndicator" .flag
      fieldGroupDraftIndicatorPropertyPath :=
        ← m.optional "fieldGroupDraftIndicatorPropertyPath" .text
      fieldGroupName := ← m.optional "fieldGroupName" .text
      textLinesEdit := ← m.optional "textLinesEdit" .word }

end FormatOptions

namespace Position

def codec : Codec Position where
  write p := .record [
    Codec.text.putNullable "anchor" p.anchor,
    Placement.codec.put "placement" p.placement]
  read j := do
    let m ← j.members? ["anchor", "placement"]
    return {
      anchor := ← m.optional "anchor" .text
      placement := ← m.orElse "placement" Placement.codec .after }

end Position

namespace ManifestColumn

def codec : Codec ManifestColumn where
  write c := .record [
    Codec.text.putNullable "header" c.header,
    Codec.text.putNullable "width" c.width,
    Importance.codec.putNullable "importance" c.importance,
    HorizontalAlign.codec.putNullable "horizontalAlign" c.horizontalAlign,
    Availability.codec.putNullable "availability" c.availability,
    Codec.text.putNullable "template" c.template,
    Position.codec.putNullable "position" c.position,
    Codec.text.list.put "properties" c.properties,
    FormatOptions.codec.putNullable "formatOptions" c.formatOptions]
  read j := do
    let m ← j.members? ["header", "width", "importance", "horizontalAlign", "availability",
      "template", "position", "properties", "formatOptions"]
    return {
      header := ← m.optional "header" .text
      width := ← m.optional "width" .text
      importance := ← m.optional "importance" Importance.codec
      horizontalAlign := ← m.optional "horizontalAlign" HorizontalAlign.codec
      availability := ← m.optional "availability" Availability.codec
      template := ← m.optional "template" .text
      position := ← m.optional "position" Position.codec
      properties := ← m.listOrEmpty "properties" .text
      formatOptions := ← m.optional "formatOptions" FormatOptions.codec }

end ManifestColumn

namespace BindingValue

/-- Truth values are Booleans, bindings are strings. -/
def codec : Codec BindingValue where
  write
    | .flag b => .bool b
    | .binding text => .str text
  read
    | .bool b => some (.flag b)
    | .str text => some (.binding text)
    | _ => none

end BindingValue

namespace ManifestAction

def codec : Codec ManifestAction where
  write a := .record [
    Codec.text.putNullable "text" a.text,
    Codec.text.putNullable "press" a.press,
    BindingValue.codec.putNullable "enabled" a.enabled,
    BindingValue.codec.putNullable "visible" a.visible,
    Position.codec.putNullable "position" a.position,
    Codec.flag.putNullable "requiresSelection" a.requiresSelection,
    EnableOnSelect.codec.putNullable "enableOnSelect" a.enableOnSelect,
    Codec.flag.putNullable "enableAutoScroll" a.enableAutoScroll,
    Codec.flag.putNullable "isNavigable" a.isNavigable,
    Codec.text.putNullable "defaultValuesExtensionFunction" a.defaultValuesExtensionFunction,
    Codec.text.putNullable "command" a.command]
  read j := do
    let m ← j.members? ["text", "press", "enabled", "visible", "position", "requiresSelection",
      "enableOnSelect", "enableAutoScroll", "isNavigable", "defaultValuesExtensionFunction",
      "command"]
    return {
      text := ← m.optional "text" .text
      press := ← m.optional "press" .text
      enabled := ← m.optional "enabled" BindingValue.codec
      visible := ← m.optional "visible" BindingValue.codec
      position := ← m.optional "position" Position.codec
      requiresSelection := ← m.optional "requiresSelection" .flag
      enableOnSelect := ← m.optional "enableOnSelect" EnableOnSelect.codec
      enableAutoScroll := ← m.optional "enableAutoScroll" .flag
      isNavigable := ← m.optional "isNavigable" .flag
      defaultValuesExtensionFunction := ← m.optional "defaultValuesExtensionFunction" .text
      command := ← m.optional "command" .text }

end ManifestAction

namespace PersonalizationOptions

def codec : Codec PersonalizationOptions where
  write o := .record [
    Codec.flag.putNullable "sort" o.sort,
    Codec.flag.putNullable "column" o.column,
    Codec.flag.putNullable "filter" o.filter,
    Codec.flag.putNullable "group" o.group,
    Codec.flag.putNullable "aggregate" o.aggregate]
  read j := do
    let m ← j.members? ["sort", "column", "filter", "group", "aggregate"]
    return {
      sort := ← m.optional "sort" .flag
      column := ← m.optional "column" .flag
      filter := ← m.optional "filter" .flag
      group := ← m.optional "group" .flag
      aggregate := ← m.optional "aggregate" .flag }

end PersonalizationOptions

namespace PersonalizationSetting

def toJson : PersonalizationSetting → Json
  | .enabled b => .bool b
  | .options o => PersonalizationOptions.codec.write o

def ofJson? : Json → Option PersonalizationSetting
  | .bool b => some (.enabled b)
  | j => (PersonalizationOptions.codec.read j).map .options

/-- Personalization is a Boolean or a record of features, readable throughout. -/
def codec : Codec PersonalizationSetting :=
  Codec.readable { write := toJson, read := ofJson? }

end PersonalizationSetting

namespace CreationSettings

def codec : Codec CreationSettings where
  write s := .record [
    CreationMode.codec.putNullable "name" s.mode,
    Codec.flag.putNullable "createAtEnd" s.createAtEnd,
    Codec.text.putNullable "outbound" s.outbound]
  read j := do
    let m ← j.members? ["name", "createAtEnd", "outbound"]
    return {
      mode := ← m.optional "name" CreationMode.codec
      createAtEnd := ← m.optional "createAtEnd" .flag
      outbound := ← m.optional "outbound" .text }

end CreationSettings

namespace TableSettings

def codec : Codec TableSettings where
  write s := .record [
    TableType.codec.putNullable "type" s.tableType,
    SelectionSetting.codec.putNullable "selectionMode" s.selectionMode,
    Codec.word.putNullable "selectionLimit" s.selectionLimit,
    PersonalizationSetting.codec.putNullable "personalization" s.personalization,
    CreationSettings.codec.putNullable "creationMode" s.creationMode,
    Codec.flag.putNullable "enableExport" s.enableExport,
    Codec.flag.putNullable "enablePaste" s.enablePaste,
    Codec.flag.putNullable "enableMassEdit" s.enableMassEdit,
    Codec.flag.putNullable "enableFullScreen" s.enableFullScreen,
    Codec.flag.putNullable "condensedTableLayout" s.condensedTableLayout,
    RowCountMode.codec.putNullable "rowCountMode" s.rowCountMode,
    Codec.word.putNullable "rowCount" s.rowCount,
    Codec.text.putNullable "hierarchyQualifier" s.hierarchyQualifier,
    Codec.text.putNullable "header" s.header]
  read j := do
    let m ← j.members? ["type", "selectionMode", "selectionLimit", "personalization",
      "creationMode", "enableExport", "enablePaste", "enableMassEdit", "enableFullScreen",
      "condensedTableLayout", "rowCountMode", "rowCount", "hierarchyQualifier", "header"]
    return {
      tableType := ← m.optional "type" TableType.codec
      selectionMode := ← m.optional "selectionMode" SelectionSetting.codec
      selectionLimit := ← m.optional "selectionLimit" .word
      personalization := ← m.optional "personalization" PersonalizationSetting.codec
      creationMode := ← m.optional "creationMode" CreationSettings.codec
      enableExport := ← m.optional "enableExport" .flag
      enablePaste := ← m.optional "enablePaste" .flag
      enableMassEdit := ← m.optional "enableMassEdit" .flag
      enableFullScreen := ← m.optional "enableFullScreen" .flag
      condensedTableLayout := ← m.optional "condensedTableLayout" .flag
      rowCountMode := ← m.optional "rowCountMode" RowCountMode.codec
      rowCount := ← m.optional "rowCount" .word
      hierarchyQualifier := ← m.optional "hierarchyQualifier" .text
      header := ← m.optional "header" .text }

end TableSettings

namespace ControlConfiguration

def codec : Codec ControlConfiguration where
  write c := .record [
    ManifestColumn.codec.dictionary.put "columns" c.columns,
    ManifestAction.codec.dictionary.put "actions" c.actions,
    TableSettings.codec.put "tableSettings" c.tableSettings]
  read j := do
    let m ← j.members? ["columns", "actions", "tableSettings"]
    return {
      columns := ← m.dictionaryOrEmpty "columns" ManifestColumn.codec
      actions := ← m.dictionaryOrEmpty "actions" ManifestAction.codec
      tableSettings := ← m.orElse "tableSettings" TableSettings.codec {} }

end ControlConfiguration

/-! ### Navigation -/

namespace NavigationTarget

def codec : Codec NavigationTarget where
  write t := .record [
    Codec.text.putNullable "route" t.route,
    Codec.text.putNullable "outbound" t.outbound]
  read j := do
    let m ← j.members? ["route", "outbound"]
    return {
      route := ← m.optional "route" .text
      outbound := ← m.optional "outbound" .text }

end NavigationTarget

namespace NavigationSettings

def codec : Codec NavigationSettings where
  write s := .record [
    NavigationTarget.codec.putNullable "display" s.display,
    NavigationTarget.codec.putNullable "detail" s.detail,
    NavigationTarget.codec.putNullable "create" s.create]
  read j := do
    let m ← j.members? ["display", "detail", "create"]
    return {
      display := ← m.optional "display" NavigationTarget.codec
      detail := ← m.optional "detail" NavigationTarget.codec
      create := ← m.optional "create" NavigationTarget.codec }

end NavigationSettings

namespace OutboundDetail

def codec : Codec OutboundDetail where
  write o := .record [
    Codec.text.put "semanticObject" o.semanticObject,
    Codec.text.put "action" o.action,
    Codec.text.dictionary.put "parameters" o.parameters]
  read j := do
    let m ← j.members? ["semanticObject", "action", "parameters"]
    return {
      semanticObject := ← m.required "semanticObject" .text
      action := ← m.required "action" .text
      parameters := ← m.dictionaryOrEmpty "parameters" .text }

end OutboundDetail

/-! ### The manifest -/

namespace Manifest

def codec : Codec Manifest where
  write m := .record [
    PageTemplate.codec.put "template" m.template,
    VariantManagement.codec.put "variantManagement" m.variantManagement,
    Codec.flag.put "hideFilterBar" m.hideFilterBar,
    ControlConfiguration.codec.dictionary.put "controls" m.controls,
    NavigationSettings.codec.dictionary.put "navigation" m.navigation,
    OutboundDetail.codec.dictionary.put "outbounds" m.outbounds]
  read j := do
    let m ← j.members? ["template", "variantManagement", "hideFilterBar", "controls",
      "navigation", "outbounds"]
    return {
      template := ← m.orElse "template" PageTemplate.codec .listReport
      variantManagement := ← m.orElse "variantManagement" VariantManagement.codec .page
      hideFilterBar := ← m.orElse "hideFilterBar" .flag false
      controls := ← m.dictionaryOrEmpty "controls" ControlConfiguration.codec
      navigation := ← m.dictionaryOrEmpty "navigation" NavigationSettings.codec
      outbounds := ← m.dictionaryOrEmpty "outbounds" OutboundDetail.codec }

end Manifest

end TableCompiler
