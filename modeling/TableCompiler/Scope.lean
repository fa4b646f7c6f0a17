import TableCompiler.Options
import TableCompiler.Reported
import TableCompiler.Request
import TableCompiler.Manifest
import TableCompiler.Service.Capability

/-!
# The scope of a table

A compilation first settles what the request is about: the entity set, the type of the rows, the
line item, the overrides of the manifest and the type of the table.

* `CompileError` — the conditions under which there is no table at all;
* `Context` — what all requests share: service, manifest and options;
* `Context.tableType` — the type of the table, with the types that replace an unsupported one;
* `Scope` and `Scope.resolve` — the settled request.
-/

namespace TableCompiler

/-! ### Errors -/

/-- Why there is no table. -/
inductive CompileError where
  | unknownEntitySet (name : String)
  | unknownEntityType (name : String)
  | unknownNavigation (entitySet path : String)
  | missingLineItem (path : AnnotationPath) (entityType : String)
  | creationRowWithNewAction (newAction : String)
deriving DecidableEq

namespace CompileError

def message : CompileError → String
  | .unknownEntitySet name => "entity set not found: " ++ name
  | .unknownEntityType name => "entity type not found: " ++ name
  | .unknownNavigation set path =>
    "navigation path '" ++ path ++ "' does not resolve from entity set " ++ set
  | .missingLineItem path type =>
    "line item " ++ path.text ++ " not found on entity type " ++ type
  | .creationRowWithNewAction newAction =>
    "creation mode CreationRow cannot be used with the custom new action " ++ newAction

end CompileError

/-! ### Context -/

/-- What all requests of a page share. -/
structure Context where
  service : Service
  manifest : Manifest := {}
  options : CompileOptions := {}

namespace Context

/-- The type of the table and, for a tree, the qualifier of its hierarchy.  An analytical table
of a type without aggregation becomes a grid table, and a tree table without a hierarchy of the
type a responsive one. -/
def tableType (c : Context) (t : EntityType) (settings : TableSettings) :
    Reported (TableType × Option String) :=
  match settings.tableType.getD c.options.defaultTableType with
  | .analytical =>
    if t.annotations.applySupported.isSome then pure (.analytical, none)
    else do
      .report (.noAggregation t.name)
      return (.grid, none)
  | .tree =>
    match settings.hierarchyQualifier.filter t.annotations.recursiveHierarchies.contains with
    | some qualifier => pure (.tree, some qualifier)
    | none => do
      .report (.noHierarchy t.name)
      return (.responsive, none)
  | type => pure (type, none)

end Context

namespace Service

/-- The entity set reached by following the bindings of navigation properties as far as they
exist. -/
def lastSet (s : Service) (set : EntitySet) : List String → EntitySet
  | [] => set
  | segment :: rest =>
    match (set.navigationPropertyBindings.get? segment).bind s.entitySet? with
    | some next => lastSet s next rest
    | none => set

/-- The records of the line item that a path names. -/
def lineItemAt? (s : Service) (t : EntityType) (path : AnnotationPath) :
    Option (List DataField) :=
  if path.term = .lineItem then
    match s.annotationAt? t path with
    | some ⟨.lineItem records, _, _⟩ => some records
    | _ => none
  else none

end Service

/-! ### Scope -/

/-- What a table is about. -/
structure Scope extends Context where
  entitySet : EntitySet
  /-- The entity set that holds the rows. -/
  targetSet : EntitySet
  /-- The type of the rows. -/
  entityType : EntityType
  /-- The navigation from the entity set to the rows, or the empty text. -/
  navigationPath : String
  lineItemPath : AnnotationPath
  /-- The records of the line item. -/
  lineItem : List DataField
  /-- The overrides of the manifest. -/
  control : Option ControlConfiguration
  tableType : TableType
  hierarchyQualifier : Option String

namespace Scope

/-- Whether the rows are those of an entity set itself. -/
def isEntitySet (s : Scope) : Bool :=
  s.navigationPath == ""

/-- The path of the rows, by which capabilities are looked up. -/
def dataPath (s : Scope) : String :=
  if s.isEntitySet then s.entitySet.name else s.entitySet.name ++ "/" ++ s.navigationPath

/-- The path of the line item from the root of the service. -/
def absoluteLineItemPath (s : Scope) : String :=
  "/" ++ s.entityType.name ++ "/" ++ s.lineItemPath.text

def recordPath (s : Scope) (index : Nat) : String :=
  s.absoluteLineItemPath ++ "/" ++ toString index

def settings (s : Scope) : TableSettings :=
  match s.control with
  | some control => control.tableSettings
  | none => {}

def isAnalytical (s : Scope) : Bool :=
  s.tableType == .analytical

/-- The property at a path from the type of the rows. -/
def property? (s : Scope) (path : PropertyPath) : Option PropertyTarget :=
  s.service.property? s.entityType path

end Scope

namespace Context

/-- The overrides for a line item behind a navigation. -/
def control? (c : Context) (navigationPath : String) (lineItem : AnnotationPath) :
    Option ControlConfiguration :=
  c.manifest.control? <|
    if navigationPath = "" then lineItem.text else navigationPath ++ "/" ++ lineItem.text

/-- Settles what a request is about. -/
def resolve (c : Context) (r : TableRequest) : Except CompileError (Reported Scope) := do
  let some set := c.service.entitySet? r.entitySet
    | throw (.unknownEntitySet r.entitySet)
  let some rootType := c.service.entityType? set.entityType
    | throw (.unknownEntityType set.entityType)
  let navigation := Text.trimBoth '/' r.navigationPath
  let some type := c.service.entityTypeAt? rootType navigation
    | throw (.unknownNavigation set.name navigation)
  let some records := c.service.lineItemAt? type r.lineItem
    | throw (.missingLineItem r.lineItem type.name)
  let control := c.control? navigation r.lineItem
  let settings := (control.map (·.tableSettings)).getD {}
  return do
    let (tableType, hierarchyQualifier) ← c.tableType type settings
    return {
      toContext := c
      entitySet := set
      targetSet := c.service.lastSet set (Text.segments '/' navigation)
      entityType := type
      navigationPath := navigation
      lineItemPath := r.lineItem
      lineItem := records
      control := control
      tableType := tableType
      hierarchyQualifier := hierarchyQualifier }

end Context

end TableCompiler
