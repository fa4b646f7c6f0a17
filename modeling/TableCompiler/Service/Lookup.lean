import TableCompiler.Service
import TableCompiler.AnnotationPath

/-!
# Looking things up in a service

* `Service.entitySet?`, `Service.entityType?`, `Service.complexType?`, `Service.operation?` — by
  name; an entity type also by its short name, an operation also with its binding type;
* `Service.entityTypeAt?` — the entity type at the end of a navigation;
* `PropertyTarget` and `Service.property?` — the property at the end of a path;
* `Service.isNavigationPath` — whether a path ends in a navigation property;
* `AnnotationTarget` and `Service.annotationAt?` — the annotation that a path names.
-/

namespace TableCompiler

namespace Service

/-! ### Names -/

def entitySet? (s : Service) (name : String) : Option EntitySet :=
  s.entitySets.find? (·.name == name)

/-- The first entity type with a name, in full or short. -/
def entityType? (s : Service) (name : String) : Option EntityType :=
  s.entityTypes.find? fun t => t.name == name || t.shortName == name

def complexType? (s : Service) (name : String) : Option ComplexType :=
  s.complexTypes.find? (·.name == name)

/-- The name of an operation and the binding type in parentheses after it.  Empty parentheses
and ones that are not closed name no type. -/
def operationName (name : String) : String × Option String :=
  match Text.cut? '(' name with
  | some (operation, rest) =>
    (operation, (Text.stripEnd? ")" rest).bind fun type => if type = "" then none else some type)
  | none => (name, none)

/-- The first operation with a name, and with the binding type if one is given. -/
def operation? (s : Service) (name : String) : Option Operation :=
  let (operation, type) := operationName name
  s.operations.find? fun o =>
    o.name == operation && (type.isNone || o.sourceType == type)

/-! ### Navigation -/

/-- The navigation property of a name and the entity type it leads to. -/
def navigation? (s : Service) (t : EntityType) (name : String) :
    Option (NavigationProperty × EntityType) := do
  let navigation ← t.navigationProperty? name
  let target ← s.entityType? navigation.targetType
  return (navigation, target)

/-- The entity type at the end of a list of navigation segments. -/
def follow? (s : Service) (t : EntityType) : List String → Option EntityType
  | [] => some t
  | segment :: rest => do
    let (_, target) ← s.navigation? t segment
    follow? s target rest

/-- The entity type at the end of a navigation path; empty segments do not count. -/
def entityTypeAt? (s : Service) (t : EntityType) (path : String) : Option EntityType :=
  s.follow? t (Text.segments '/' path)

end Service

/-! ### Properties -/

/-- A property reached from an entity type through navigation and complex properties. -/
structure PropertyTarget where
  property : Property
  /-- The entity type at the end of the navigation. -/
  entityType : EntityType
  /-- The path that was followed. -/
  path : PropertyPath
  /-- The navigation segments at its start. -/
  navigation : List String
  /-- Whether the path crosses a collection or ends in one. -/
  isMultiValue : Bool

namespace PropertyTarget

/-- The navigation with a slash after each segment. -/
def navigationPrefix (t : PropertyTarget) : String :=
  navigationText t.navigation

def crossesNavigation (t : PropertyTarget) : Bool :=
  !t.navigation.isEmpty

end PropertyTarget

namespace Service

/-- The property at the end of a path inside a complex type, and whether a collection was
crossed or reached. -/
def complexProperty? (s : Service) (t : ComplexType) : List String → Option (Property × Bool)
  | [] => none
  | [name] => (t.property? name).map fun p => (p, p.isCollection)
  | name :: rest => do
    let host ← t.property? name
    let type ← s.complexType? host.typeName
    let (p, multiple) ← complexProperty? s type rest
    return (p, host.isCollection || multiple)

/-- The property at the end of the segments of a path: what is followed is a navigation as long
as there is one of the name of the segment, and complex properties from then on. -/
def propertyAt? (s : Service) (t : EntityType) :
    List String → Option (Property × EntityType × List String × Bool)
  | [] => none
  | [name] => (t.property? name).map fun p => (p, t, [], p.isCollection)
  | name :: rest =>
    match s.navigation? t name with
    | some (navigation, target) => do
      let (p, host, crossed, multiple) ← propertyAt? s target rest
      return (p, host, name :: crossed, navigation.isCollection || multiple)
    | none => do
      let host ← t.property? name
      let type ← s.complexType? host.typeName
      let (p, multiple) ← s.complexProperty? type rest
      return (p, t, [], host.isCollection || multiple)

def property? (s : Service) (t : EntityType) (path : PropertyPath) : Option PropertyTarget :=
  (s.propertyAt? t (Text.split '/' path)).map fun (p, host, crossed, multiple) =>
    ⟨p, host, path, crossed, multiple⟩

/-- Whether a list of segments follows navigation properties to its end, of which the last
need not lead to a known entity type. -/
def isNavigation (s : Service) (t : EntityType) : List String → Bool
  | [] => false
  | [name] => (t.navigationProperty? name).isSome
  | name :: rest =>
    match s.navigation? t name with
    | some (_, target) => isNavigation s target rest
    | none => false

/-- Whether a path ends in a navigation property rather than a property. -/
def isNavigationPath (s : Service) (t : EntityType) (path : PropertyPath) : Bool :=
  s.isNavigation t (Text.split '/' path)

end Service

/-! ### Annotations -/

/-- An annotation that a path names. -/
inductive AnnotationTarget where
  | lineItem (records : List DataField)
  | fieldGroup (group : FieldGroup)
  | dataPoint (point : DataPoint)
  | presentationVariant (variant : PresentationVariant)

/-- An annotation together with the entity type that carries it. -/
structure ResolvedAnnotation where
  target : AnnotationTarget
  entityType : EntityType
  /-- The navigation to the entity type, with a slash after each segment. -/
  navigationPrefix : String

namespace EntityTypeAnnotations

/-- The annotation of a term and qualifier key. -/
def target? (a : EntityTypeAnnotations) (term : Term) (key : String) : Option AnnotationTarget :=
  match term with
  | .lineItem => (a.lineItems.get? key).map .lineItem
  | .fieldGroup => (a.fieldGroups.get? key).map .fieldGroup
  | .dataPoint => (a.dataPoints.get? key).map .dataPoint
  | .presentationVariant => (a.presentationVariants.get? key).map .presentationVariant
  | .other _ => none

end EntityTypeAnnotations

namespace Service

/-- The annotation that a path names relative to an entity type.  The navigation is followed as a
path, so a segment with a slash in it counts as several. -/
def annotationAt? (s : Service) (t : EntityType) (path : AnnotationPath) :
    Option ResolvedAnnotation := do
  let host ← s.entityTypeAt? t path.navigationPath
  let target ← host.annotations.target? path.term path.qualifierKey
  return ⟨target, host, path.navigationPrefix⟩

end Service

end TableCompiler
