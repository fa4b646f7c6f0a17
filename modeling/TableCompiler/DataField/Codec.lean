import TableCompiler.DataField

/-!
# Data fields as JSON

A record names its type in the member `$Type`, with the vocabulary in full or by alias.  A value
without such a text, or with one that is not known, reads as a record of unknown type; a known
type whose members do not read is refused.

* `FieldAnnotations.codec`, `DataField.codec`;
* `FieldGroup.codec`, `DataPoint.codec`, `SortOrder.codec`, `PresentationVariant.codec`.
-/

namespace TableCompiler

namespace FieldAnnotations

/-- Annotations that are not set are left out. -/
def codec : Codec FieldAnnotations where
  write a := .record [
    Dynamic.flag.putSet "UI.Hidden" a.hidden,
    Codec.putSet (.taggedEnumeration Importance.all Importance.name) "UI.Importance" a.importance,
    Codec.flag.putSet "UI.IsCopyAction" a.isCopyAction]
  read j := do
    let m ← j.members? ["UI.Hidden", "UI.Importance", "UI.IsCopyAction"]
    return {
      hidden := ← m.optional "UI.Hidden" Dynamic.flag
      importance := ← m.optional "UI.Importance"
        (.taggedEnumeration Importance.all Importance.name)
      isCopyAction := ← m.optional "UI.IsCopyAction" .flag }

end FieldAnnotations

namespace DataField

/-! ### Writing -/

/-- The member that names the type of a record. -/
def typeMember (name : String) : String × Option Json :=
  Codec.text.put "$Type" name

def fullName (name : String) : String :=
  "com.sap.vocabularies.UI.v1." ++ name

def toMembers : DataField → List (String × Option Json)
  | .value f =>
    let value := pathCodec.put "Value" f.value
    let label := Codec.text.putNullable "Label" f.label
    let annotations := FieldAnnotations.codec.put "annotations" f.annotations
    match f.kind with
    | .plain => [value, label, annotations]
    | .withUrl url => [value, label, Dynamic.text.putNullable "Url" url, annotations]
    | .withNavigationPath target => [value, label, pathCodec.put "Target" target, annotations]
    | .withAction a => [value, label, Codec.text.put "Action" a, annotations]
    | .withIntent object a =>
      [value, label, Codec.text.put "SemanticObject" object,
        Codec.text.putNullable "Action" a, annotations]
  | .reference f => [
      Codec.text.putNullable "Label" f.label,
      annotationPathCodec.put "Target" f.target,
      FieldAnnotations.codec.put "annotations" f.annotations]
  | .action f => [
      Codec.text.putNullable "Label" f.label,
      Codec.text.put "Action" f.action,
      Codec.flag.put "Inline" f.inRow,
      Codec.flag.put "Determining" f.determining,
      Codec.text.putNullable "InvocationGrouping" f.invocationGrouping,
      FieldAnnotations.codec.put "annotations" f.annotations]
  | .intent f => [
      Codec.text.putNullable "Label" f.label,
      Codec.text.put "SemanticObject" f.semanticObject,
      Codec.text.putNullable "Action" f.action,
      Dynamic.flag.putNullable "RequiresContext" f.requiresContext,
      Dynamic.flag.putNullable "NavigationAvailable" f.navigationAvailable,
      Codec.flag.put "Inline" f.inRow,
      Codec.flag.put "Determining" f.determining,
      FieldAnnotations.codec.put "annotations" f.annotations]
  | .unknown => []

def toJson (field : DataField) : Json :=
  let name := match field with
    | .unknown => "Unknown"
    | field => fullName field.typeName
  .record (typeMember name :: field.toMembers)

/-! ### Reading -/

/-- The annotations of a record, none by default. -/
def readAnnotations (m : Members) : Option FieldAnnotations :=
  m.orElse "annotations" FieldAnnotations.codec {}

/-- A record that shows a value; `kind` reads the members that its type adds. -/
def readValue (names : List String) (kind : Members → Option ValueField.Kind) (j : Json) :
    Option DataField := do
  let m ← j.members? (["Value", "Label"] ++ names ++ ["annotations"])
  return .value {
    kind := ← kind m
    value := ← m.required "Value" pathCodec
    label := ← m.optional "Label" .text
    annotations := ← readAnnotations m }

def readReference (j : Json) : Option DataField := do
  let m ← j.members? ["Label", "Target", "annotations"]
  return .reference {
    label := ← m.optional "Label" .text
    target := ← m.required "Target" annotationPathCodec
    annotations := ← readAnnotations m }

def readAction (j : Json) : Option DataField := do
  let m ← j.members?
    ["Label", "Action", "Inline", "Determining", "InvocationGrouping", "annotations"]
  return .action {
    label := ← m.optional "Label" .text
    action := ← m.required "Action" .text
    inRow := ← m.orElse "Inline" .flag false
    determining := ← m.orElse "Determining" .flag false
    invocationGrouping := ← m.optional "InvocationGrouping" .text
    annotations := ← readAnnotations m }

def readIntent (j : Json) : Option DataField := do
  let m ← j.members? ["Label", "SemanticObject", "Action", "RequiresContext",
    "NavigationAvailable", "Inline", "Determining", "annotations"]
  return .intent {
    label := ← m.optional "Label" .text
    semanticObject := ← m.required "SemanticObject" .text
    action := ← m.optional "Action" .text
    requiresContext := ← m.optional "RequiresContext" Dynamic.flag
    navigationAvailable := ← m.optional "NavigationAvailable" Dynamic.flag
    inRow := ← m.orElse "Inline" .flag false
    determining := ← m.orElse "Determining" .flag false
    annotations := ← readAnnotations m }

/-- The name of a type without its vocabulary, which must be there in full or by alias. -/
def shortName? (name : String) : Option String :=
  match Text.stripStart? "com.sap.vocabularies.UI.v1." name with
  | some short => some short
  | none => Text.stripStart? "UI." name

def ofMembers (typeName : String) (j : Json) : Option DataField :=
  match shortName? typeName with
  | some "DataField" => readValue [] (fun _ => some .plain) j
  | some "DataFieldWithUrl" =>
    readValue ["Url"] (fun m => (m.optional "Url" Dynamic.text).map .withUrl) j
  | some "DataFieldWithNavigationPath" =>
    readValue ["Target"] (fun m => (m.required "Target" pathCodec).map .withNavigationPath) j
  | some "DataFieldWithAction" =>
    readValue ["Action"] (fun m => (m.required "Action" .text).map .withAction) j
  | some "DataFieldWithIntentBasedNavigation" =>
    readValue ["SemanticObject", "Action"] (fun m => do
      return .withIntent (← m.required "SemanticObject" .text) (← m.optional "Action" .text)) j
  | some "DataFieldForAnnotation" => readReference j
  | some "DataFieldForAction" => readAction j
  | some "DataFieldForIntentBasedNavigation" => readIntent j
  | _ => some .unknown

def ofJson? (j : Json) : Option DataField :=
  match j.settle.member? "$Type" with
  | some (.str typeName) => ofMembers typeName j.settle
  | _ => some .unknown

/-- Records are objects that name their type.  A record of unknown type must still be readable
throughout. -/
def codec : Codec DataField :=
  Codec.readable { write := toJson, read := ofJson? }

end DataField

/-! ### Annotations made of records and paths -/

namespace FieldGroup

def codec : Codec FieldGroup where
  write g := .record [
    Codec.text.putNullable "Label" g.label,
    DataField.codec.list.put "Data" g.data]
  read j := do
    let m ← j.members? ["Label", "Data"]
    return {
      label := ← m.optional "Label" .text
      data := ← m.listOrEmpty "Data" DataField.codec }

end FieldGroup

namespace Number

/-- Numbers are written in double precision; whole numbers read as the nearest one. -/
def codec : Codec Number where
  write := .real
  read
    | .real x => if x.isFinite then some x else none
    | .int n => some (.ofInt n)
    | _ => none

end Number

namespace DataPoint

def codec : Codec DataPoint where
  write p := .record [
    Codec.text.putNullable "Title" p.title,
    pathCodec.put "Value" p.value,
    (Dynamic.codec Number.codec).putNullable "TargetValue" p.targetValue,
    Dynamic.text.putNullable "Criticality" p.criticality,
    Codec.text.putNullable "Visualization" p.visualization]
  read j := do
    let m ← j.members? ["Title", "Value", "TargetValue", "Criticality", "Visualization"]
    return {
      title := ← m.optional "Title" .text
      value := ← m.required "Value" pathCodec
      targetValue := ← m.optional "TargetValue" (Dynamic.codec Number.codec)
      criticality := ← m.optional "Criticality" Dynamic.text
      visualization := ← m.optional "Visualization" .text }

end DataPoint

namespace SortOrder

def codec : Codec SortOrder where
  write o := .record [
    pathCodec.put "Property" o.property,
    Codec.flag.put "Descending" o.descending]
  read j := do
    let m ← j.members? ["Property", "Descending"]
    return {
      property := ← m.required "Property" pathCodec
      descending := ← m.orElse "Descending" .flag false }

end SortOrder

namespace PresentationVariant

def codec : Codec PresentationVariant where
  write v := .record [
    SortOrder.codec.list.put "SortOrder" v.sortOrder,
    pathCodec.list.put "GroupBy" v.groupBy,
    pathCodec.list.put "Total" v.total,
    Codec.word.putNullable "MaxItems" v.maxItems,
    annotationPathCodec.list.put "Visualizations" v.visualizations]
  read j := do
    let m ← j.members? ["SortOrder", "GroupBy", "Total", "MaxItems", "Visualizations"]
    return {
      sortOrder := ← m.listOrEmpty "SortOrder" SortOrder.codec
      groupBy := ← m.listOrEmpty "GroupBy" pathCodec
      total := ← m.listOrEmpty "Total" pathCodec
      maxItems := ← m.optional "MaxItems" .word
      visualizations := ← m.listOrEmpty "Visualizations" annotationPathCodec }

end PresentationVariant

end TableCompiler
