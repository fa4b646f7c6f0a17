import TableCompiler.Service
import TableCompiler.DataField.Codec

/-!
# Service metadata as JSON

Every member is written, an unset one as `null`; on reading, all but the names and the types may
be missing.

* `Property.codec`, `NavigationProperty.codec`, `ComplexType.codec`, `EntityType.codec`;
* `EntitySet.codec`, `Operation.codec`, `Service.codec`.
-/

namespace TableCompiler

/-- A record whose only member is a value that may be unset. -/
def optionalMember {α : Type} (name : String) (c : Codec α) : Codec (Option α) where
  write a := .record [c.putNullable name a]
  read j := do (← j.members? [name]).optional name c

/-- A record whose only member is a list that may be missing. -/
def listMember {α : Type} (name : String) (c : Codec α) : Codec (List α) where
  write items := .record [c.list.put name items]
  read j := do (← j.members? [name]).listOrEmpty name c

/-! ### Types -/

namespace PropertyAnnotations

def codec : Codec PropertyAnnotations where
  write a := .record [
    Codec.text.putNullable "Common.Label" a.label,
    pathCodec.putNullable "Common.Text" a.text,
    TextArrangement.codec.putNullable "Common.Text@UI.TextArrangement" a.textArrangement,
    Dynamic.text.putNullable "Measures.ISOCurrency" a.isoCurrency,
    Dynamic.text.putNullable "Measures.Unit" a.unit,
    Dynamic.text.putNullable "Common.Timezone" a.timezone,
    Dynamic.flag.putNullable "UI.Hidden" a.hidden,
    Dynamic.text.putNullable "Common.SemanticObject" a.semanticObject,
    DataField.codec.putNullable "UI.DataFieldDefault" a.dataFieldDefault,
    Codec.flag.put "Common.IsDigitSequence" a.isDigitSequence,
    Codec.flag.put "Common.IsUpperCase" a.isUpperCase]
  read j := do
    let m ← j.members? ["Common.Label", "Common.Text", "Common.Text@UI.TextArrangement",
      "Measures.ISOCurrency", "Measures.Unit", "Common.Timezone", "UI.Hidden",
      "Common.SemanticObject", "UI.DataFieldDefault", "Common.IsDigitSequence",
      "Common.IsUpperCase"]
    return {
      label := ← m.optional "Common.Label" .text
      text := ← m.optional "Common.Text" pathCodec
      textArrangement := ← m.optional "Common.Text@UI.TextArrangement" TextArrangement.codec
      isoCurrency := ← m.optional "Measures.ISOCurrency" Dynamic.text
      unit := ← m.optional "Measures.Unit" Dynamic.text
      timezone := ← m.optional "Common.Timezone" Dynamic.text
      hidden := ← m.optional "UI.Hidden" Dynamic.flag
      semanticObject := ← m.optional "Common.SemanticObject" Dynamic.text
      dataFieldDefault := ← m.optional "UI.DataFieldDefault" DataField.codec
      isDigitSequence := ← m.orElse "Common.IsDigitSequence" .flag false
      isUpperCase := ← m.orElse "Common.IsUpperCase" .flag false }

end PropertyAnnotations

namespace Property

def codec : Codec Property where
  write p := .record [
    Codec.text.put "name" p.name,
    Codec.text.put "type" p.typeName,
    Codec.flag.put "nullable" p.nullable,
    Codec.word.putNullable "maxLength" p.maxLength,
    Codec.word.putNullable "precision" p.precision,
    Codec.word.putNullable "scale" p.scale,
    Codec.flag.put "isCollection" p.isCollection,
    PropertyAnnotations.codec.put "annotations" p.annotations]
  read j := do
    let m ← j.members? ["name", "type", "nullable", "maxLength", "precision", "scale",
      "isCollection", "annotations"]
    return {
      name := ← m.required "name" .text
      typeName := ← m.required "type" .text
      nullable := ← m.orElse "nullable" .flag true
      maxLength := ← m.optional "maxLength" .word
      precision := ← m.optional "precision" .word
      scale := ← m.optional "scale" .word
      isCollection := ← m.orElse "isCollection" .flag false
      annotations := ← m.orElse "annotations" PropertyAnnotations.codec {} }

end Property

namespace NavigationProperty

def codec : Codec NavigationProperty where
  write p := .record [
    Codec.text.put "name" p.name,
    Codec.text.put "targetType" p.targetType,
    Codec.flag.put "isCollection" p.isCollection]
  read j := do
    let m ← j.members? ["name", "targetType", "isCollection"]
    return {
      name := ← m.required "name" .text
      targetType := ← m.required "targetType" .text
      isCollection := ← m.orElse "isCollection" .flag false }

end NavigationProperty

namespace ComplexType

def codec : Codec ComplexType where
  write t := .record [
    Codec.text.put "name" t.name,
    Property.codec.list.put "properties" t.properties,
    NavigationProperty.codec.list.put "navigationProperties" t.navigationProperties]
  read j := do
    let m ← j.members? ["name", "properties", "navigationProperties"]
    return {
      name := ← m.required "name" .text
      properties := ← m.listOrEmpty "properties" Property.codec
      navigationProperties := ← m.listOrEmpty "navigationProperties" NavigationProperty.codec }

end ComplexType

namespace HeaderInfo

def codec : Codec HeaderInfo where
  write h := .record [
    Codec.text.putNullable "TypeName" h.typeName,
    Codec.text.putNullable "TypeNamePlural" h.typeNamePlural]
  read j := do
    let m ← j.members? ["TypeName", "TypeNamePlural"]
    return {
      typeName := ← m.optional "TypeName" .text
      typeNamePlural := ← m.optional "TypeNamePlural" .text }

end HeaderInfo

namespace ApplySupported

def codec : Codec ApplySupported where
  write a := .record [
    Codec.text.list.put "Transformations" a.transformations,
    pathCodec.list.put "GroupableProperties" a.groupableProperties,
    pathCodec.list.put "AggregatableProperties" a.aggregatableProperties]
  read j := do
    let m ← j.members? ["Transformations", "GroupableProperties", "AggregatableProperties"]
    return {
      transformations := ← m.listOrEmpty "Transformations" .text
      groupableProperties := ← m.listOrEmpty "GroupableProperties" pathCodec
      aggregatableProperties := ← m.listOrEmpty "AggregatableProperties" pathCodec }

end ApplySupported

namespace CustomAggregate

def codec : Codec CustomAggregate where
  write a := .record [
    Codec.text.putNullable "$Type" a.typeName,
    Codec.text.putNullable "Common.Label" a.label,
    pathCodec.list.put "Aggregation.ContextDefiningProperties" a.contextDefiningProperties]
  read j := do
    let m ← j.members? ["$Type", "Common.Label", "Aggregation.ContextDefiningProperties"]
    return {
      typeName := ← m.optional "$Type" .text
      label := ← m.optional "Common.Label" .text
      contextDefiningProperties :=
        ← m.listOrEmpty "Aggregation.ContextDefiningProperties" pathCodec }

end CustomAggregate

namespace RecursiveHierarchy

def codec : Codec RecursiveHierarchy where
  write h := .record [
    pathCodec.put "NodeProperty" h.nodeProperty,
    pathCodec.put "ParentNavigationProperty" h.parentNavigationProperty]
  read j := do
    let m ← j.members? ["NodeProperty", "ParentNavigationProperty"]
    return {
      nodeProperty := ← m.required "NodeProperty" pathCodec
      parentNavigationProperty := ← m.required "ParentNavigationProperty" pathCodec }

end RecursiveHierarchy

namespace EntityTypeAnnotations

def codec : Codec EntityTypeAnnotations where
  write a := .record [
    DataField.codec.list.dictionary.put "UI.LineItem" a.lineItems,
    FieldGroup.codec.dictionary.put "UI.FieldGroup" a.fieldGroups,
    DataPoint.codec.dictionary.put "UI.DataPoint" a.dataPoints,
    PresentationVariant.codec.dictionary.put "UI.PresentationVariant" a.presentationVariants,
    Dynamic.text.dictionary.put "UI.LineItem@UI.Criticality" a.lineItemCriticality,
    HeaderInfo.codec.putNullable "UI.HeaderInfo" a.headerInfo,
    Dynamic.flag.putNullable "UI.DeleteHidden" a.deleteHidden,
    Dynamic.flag.putNullable "UI.CreateHidden" a.createHidden,
    Dynamic.flag.putNullable "UI.UpdateHidden" a.updateHidden,
    pathCodec.list.put "Common.SemanticKey" a.semanticKey,
    ApplySupported.codec.putNullable "Aggregation.ApplySupported" a.applySupported,
    CustomAggregate.codec.dictionary.put "Aggregation.CustomAggregate" a.customAggregates,
    RecursiveHierarchy.codec.dictionary.put "Hierarchy.RecursiveHierarchy"
      a.recursiveHierarchies]
  read j := do
    let m ← j.members? ["UI.LineItem", "UI.FieldGroup", "UI.DataPoint",
      "UI.PresentationVariant", "UI.LineItem@UI.Criticality", "UI.HeaderInfo",
      "UI.DeleteHidden", "UI.CreateHidden", "UI.UpdateHidden", "Common.SemanticKey",
      "Aggregation.ApplySupported", "Aggregation.CustomAggregate",
      "Hierarchy.RecursiveHierarchy"]
    return {
      lineItems := ← m.dictionaryOrEmpty "UI.LineItem" DataField.codec.list
      fieldGroups := ← m.dictionaryOrEmpty "UI.FieldGroup" FieldGroup.codec
      dataPoints := ← m.dictionaryOrEmpty "UI.DataPoint" DataPoint.codec
      presentationVariants :=
        ← m.dictionaryOrEmpty "UI.PresentationVariant" PresentationVariant.codec
      lineItemCriticality := ← m.dictionaryOrEmpty "UI.LineItem@UI.Criticality" Dynamic.text
      headerInfo := ← m.optional "UI.HeaderInfo" HeaderInfo.codec
      deleteHidden := ← m.optional "UI.DeleteHidden" Dynamic.flag
      createHidden := ← m.optional "UI.CreateHidden" Dynamic.flag
      updateHidden := ← m.optional "UI.UpdateHidden" Dynamic.flag
      semanticKey := ← m.listOrEmpty "Common.SemanticKey" pathCodec
      applySupported := ← m.optional "Aggregation.ApplySupported" ApplySupported.codec
      customAggregates := ← m.dictionaryOrEmpty "Aggregation.CustomAggregate" CustomAggregate.codec
      recursiveHierarchies :=
        ← m.dictionaryOrEmpty "Hierarchy.RecursiveHierarchy" RecursiveHierarchy.codec }

end EntityTypeAnnotations

namespace EntityType

def codec : Codec EntityType where
  write t := .record [
    Codec.text.put "name" t.name,
    Codec.text.list.put "keys" t.keys,
    Property.codec.list.put "properties" t.properties,
    NavigationProperty.codec.list.put "navigationProperties" t.navigationProperties,
    EntityTypeAnnotations.codec.put "annotations" t.annotations]
  read j := do
    let m ← j.members? ["name", "keys", "properties", "navigationProperties", "annotations"]
    return {
      name := ← m.required "name" .text
      keys := ← m.listOrEmpty "keys" .text
      properties := ← m.listOrEmpty "properties" Property.codec
      navigationProperties := ← m.listOrEmpty "navigationProperties" NavigationProperty.codec
      annotations := ← m.orElse "annotations" EntityTypeAnnotations.codec {} }

end EntityType

/-! ### Entity sets -/

def deleteCodec : Codec (Option (Dynamic Bool)) := optionalMember "Deletable" Dynamic.flag

def updateCodec : Codec (Option (Dynamic Bool)) := optionalMember "Updatable" Dynamic.flag

def insertCodec : Codec (Option (Dynamic Bool)) := optionalMember "Insertable" Dynamic.flag

namespace NavigationRestriction

def codec : Codec NavigationRestriction where
  write r := .record [
    pathCodec.put "NavigationProperty" r.navigationProperty,
    deleteCodec.putNullable "DeleteRestrictions" r.deletable,
    updateCodec.putNullable "UpdateRestrictions" r.updatable,
    insertCodec.putNullable "InsertRestrictions" r.insertable]
  read j := do
    let m ← j.members? ["NavigationProperty", "DeleteRestrictions", "UpdateRestrictions",
      "InsertRestrictions"]
    return {
      navigationProperty := ← m.required "NavigationProperty" pathCodec
      deletable := ← m.optional "DeleteRestrictions" deleteCodec
      updatable := ← m.optional "UpdateRestrictions" updateCodec
      insertable := ← m.optional "InsertRestrictions" insertCodec }

end NavigationRestriction

namespace SortRestrictions

def codec : Codec SortRestrictions where
  write r := .record [
    Codec.flag.putNullable "Sortable" r.sortable,
    pathCodec.list.put "NonSortableProperties" r.nonSortableProperties]
  read j := do
    let m ← j.members? ["Sortable", "NonSortableProperties"]
    return {
      sortable := ← m.optional "Sortable" .flag
      nonSortableProperties := ← m.listOrEmpty "NonSortableProperties" pathCodec }

end SortRestrictions

namespace DraftRoot

def codec : Codec DraftRoot where
  write d := .record [
    Codec.text.putNullable "NewAction" d.newAction,
    Codec.text.putNullable "EditAction" d.editAction]
  read j := do
    let m ← j.members? ["NewAction", "EditAction"]
    return {
      newAction := ← m.optional "NewAction" .text
      editAction := ← m.optional "EditAction" .text }

end DraftRoot

namespace EntitySetAnnotations

def searchCodec : Codec (Option Bool) := optionalMember "Searchable" .flag

/-- The restrictions behind navigation properties. -/
def navigationCodec : Codec (List NavigationRestriction) :=
  listMember "RestrictedProperties" NavigationRestriction.codec

def stickyCodec : Codec (Option String) := optionalMember "NewAction" .text

def codec : Codec EntitySetAnnotations where
  write a := .record [
    deleteCodec.putNullable "Capabilities.DeleteRestrictions" a.deletable,
    updateCodec.putNullable "Capabilities.UpdateRestrictions" a.updatable,
    insertCodec.putNullable "Capabilities.InsertRestrictions" a.insertable,
    searchCodec.putNullable "Capabilities.SearchRestrictions" a.searchable,
    SortRestrictions.codec.putNullable "Capabilities.SortRestrictions" a.sortRestrictions,
    navigationCodec.putNullable "Capabilities.NavigationRestrictions" a.navigationRestrictions,
    DraftRoot.codec.putNullable "Common.DraftRoot" a.draftRoot,
    stickyCodec.putNullable "Session.StickySessionSupported" a.stickySession]
  read j := do
    let m ← j.members? ["Capabilities.DeleteRestrictions", "Capabilities.UpdateRestrictions",
      "Capabilities.InsertRestrictions", "Capabilities.SearchRestrictions",
      "Capabilities.SortRestrictions", "Capabilities.NavigationRestrictions",
      "Common.DraftRoot", "Session.StickySessionSupported"]
    return {
      deletable := ← m.optional "Capabilities.DeleteRestrictions" deleteCodec
      updatable := ← m.optional "Capabilities.UpdateRestrictions" updateCodec
      insertable := ← m.optional "Capabilities.InsertRestrictions" insertCodec
      searchable := ← m.optional "Capabilities.SearchRestrictions" searchCodec
      sortRestrictions := ← m.optional "Capabilities.SortRestrictions" SortRestrictions.codec
      navigationRestrictions :=
        ← m.optional "Capabilities.NavigationRestrictions" navigationCodec
      draftRoot := ← m.optional "Common.DraftRoot" DraftRoot.codec
      stickySession := ← m.optional "Session.StickySessionSupported" stickyCodec }

end EntitySetAnnotations

namespace EntitySet

def codec : Codec EntitySet where
  write s := .record [
    Codec.text.put "name" s.name,
    Codec.text.put "entityType" s.entityType,
    Codec.text.dictionary.put "navigationPropertyBindings" s.navigationPropertyBindings,
    EntitySetAnnotations.codec.put "annotations" s.annotations]
  read j := do
    let m ← j.members? ["name", "entityType", "navigationPropertyBindings", "annotations"]
    return {
      name := ← m.required "name" .text
      entityType := ← m.required "entityType" .text
      navigationPropertyBindings := ← m.dictionaryOrEmpty "navigationPropertyBindings" .text
      annotations := ← m.orElse "annotations" EntitySetAnnotations.codec {} }

end EntitySet

/-! ### Operations and the service -/

namespace Operation

/-- Annotations of an operation: whether it is available. -/
def annotationsCodec : Codec (Option (Dynamic Bool)) :=
  optionalMember "Core.OperationAvailable" Dynamic.flag

def codec : Codec Operation where
  write o := .record [
    Codec.text.put "name" o.name,
    Codec.flag.put "isBound" o.isBound,
    Codec.flag.put "isFunction" o.isFunction,
    Codec.text.putNullable "sourceType" o.sourceType,
    Codec.text.putNullable "bindingParameter" o.bindingParameter,
    Codec.flag.put "isStatic" o.isStatic,
    annotationsCodec.put "annotations" o.operationAvailable]
  read j := do
    let m ← j.members? ["name", "isBound", "isFunction", "sourceType", "bindingParameter",
      "isStatic", "annotations"]
    return {
      name := ← m.required "name" .text
      isBound := ← m.orElse "isBound" .flag false
      isFunction := ← m.orElse "isFunction" .flag false
      sourceType := ← m.optional "sourceType" .text
      bindingParameter := ← m.optional "bindingParameter" .text
      isStatic := ← m.orElse "isStatic" .flag false
      operationAvailable := ← m.orElse "annotations" annotationsCodec none }

end Operation

namespace Service

def codec : Codec Service where
  write s := .record [
    Codec.text.put "namespace" s.namespaceName,
    EntitySet.codec.list.put "entitySets" s.entitySets,
    EntityType.codec.list.put "entityTypes" s.entityTypes,
    ComplexType.codec.list.put "complexTypes" s.complexTypes,
    Operation.codec.list.put "actions" s.operations]
  read j := do
    let m ← j.members? ["namespace", "entitySets", "entityTypes", "complexTypes", "actions"]
    return {
      namespaceName := ← m.orElse "namespace" .text ""
      entitySets := ← m.listOrEmpty "entitySets" EntitySet.codec
      entityTypes := ← m.listOrEmpty "entityTypes" EntityType.codec
      complexTypes := ← m.listOrEmpty "complexTypes" ComplexType.codec
      operations := ← m.listOrEmpty "actions" Operation.codec }

end Service

end TableCompiler
