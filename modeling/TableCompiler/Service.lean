import TableCompiler.DataField

/-!
# Service metadata

A snapshot of a service: its entity sets, entity types, complex types and operations, with the
annotations from which tables are compiled.  Annotations that may occur several times are
dictionaries from qualifiers; the unqualified one stands under the empty text.

* `Property`, `NavigationProperty`, `ComplexType`, `EntityType` — the types;
* `EntitySet` — the sets, with their capability restrictions;
* `Operation` — the actions and functions;
* `Service` — the snapshot.
-/

namespace TableCompiler

/-! ### Types -/

/-- Annotations of a property. -/
structure PropertyAnnotations where
  label : Option String := none
  text : Option PropertyPath := none
  textArrangement : Option TextArrangement := none
  isoCurrency : Option (Dynamic String) := none
  unit : Option (Dynamic String) := none
  timezone : Option (Dynamic String) := none
  hidden : Option (Dynamic Bool) := none
  semanticObject : Option (Dynamic String) := none
  dataFieldDefault : Option DataField := none
  isDigitSequence : Bool := false
  isUpperCase : Bool := false
deriving DecidableEq

/-- A property of an entity type or complex type. -/
structure Property where
  name : String
  /-- A primitive type `Edm.*`, or the name of a complex type. -/
  typeName : String
  nullable : Bool := true
  maxLength : Option UInt32 := none
  precision : Option UInt32 := none
  scale : Option UInt32 := none
  isCollection : Bool := false
  annotations : PropertyAnnotations := {}
deriving DecidableEq

/-- A property that leads to entities of another type. -/
structure NavigationProperty where
  name : String
  targetType : String
  isCollection : Bool := false
deriving DecidableEq

/-- A structured type without identity. -/
structure ComplexType where
  name : String
  properties : List Property := []
  navigationProperties : List NavigationProperty := []
deriving DecidableEq

/-- The singular and plural name of the entities of a type. -/
structure HeaderInfo where
  typeName : Option String := none
  typeNamePlural : Option String := none
deriving DecidableEq

/-- The aggregation that a type supports. -/
structure ApplySupported where
  transformations : List String := []
  groupableProperties : List PropertyPath := []
  aggregatableProperties : List PropertyPath := []
deriving DecidableEq

/-- An aggregate that the service computes for a property. -/
structure CustomAggregate where
  typeName : Option String := none
  label : Option String := none
  contextDefiningProperties : List PropertyPath := []
deriving DecidableEq

/-- A hierarchy among the entities of a type. -/
structure RecursiveHierarchy where
  nodeProperty : PropertyPath
  parentNavigationProperty : PropertyPath
deriving DecidableEq

/-- Annotations of an entity type. -/
structure EntityTypeAnnotations where
  lineItems : Dictionary (List DataField) := .empty
  fieldGroups : Dictionary FieldGroup := .empty
  dataPoints : Dictionary DataPoint := .empty
  presentationVariants : Dictionary PresentationVariant := .empty
  /-- The criticality of rows, by the qualifier of the line item. -/
  lineItemCriticality : Dictionary (Dynamic String) := .empty
  headerInfo : Option HeaderInfo := none
  deleteHidden : Option (Dynamic Bool) := none
  createHidden : Option (Dynamic Bool) := none
  updateHidden : Option (Dynamic Bool) := none
  semanticKey : List PropertyPath := []
  applySupported : Option ApplySupported := none
  /-- The custom aggregates, by the name of the aggregated property. -/
  customAggregates : Dictionary CustomAggregate := .empty
  recursiveHierarchies : Dictionary RecursiveHierarchy := .empty

/-- A type of entities. -/
structure EntityType where
  /-- The name with its namespace. -/
  name : String
  keys : List String := []
  properties : List Property := []
  navigationProperties : List NavigationProperty := []
  annotations : EntityTypeAnnotations := {}

/-! ### Entity sets -/

/-- Restrictions that hold when entities are reached through a navigation property. -/
structure NavigationRestriction where
  navigationProperty : PropertyPath
  deletable : Option (Option (Dynamic Bool)) := none
  updatable : Option (Option (Dynamic Bool)) := none
  insertable : Option (Option (Dynamic Bool)) := none
deriving DecidableEq

/-- Restrictions of sorting. -/
structure SortRestrictions where
  sortable : Option Bool := none
  nonSortableProperties : List PropertyPath := []
deriving DecidableEq

/-- The operations of a set whose entities are edited as drafts. -/
structure DraftRoot where
  newAction : Option String := none
  editAction : Option String := none
deriving DecidableEq

/-- Annotations of an entity set.  A restriction record that is there need not decide anything,
so the inner value of a restriction may be unset in a record that is set. -/
structure EntitySetAnnotations where
  deletable : Option (Option (Dynamic Bool)) := none
  updatable : Option (Option (Dynamic Bool)) := none
  insertable : Option (Option (Dynamic Bool)) := none
  searchable : Option (Option Bool) := none
  sortRestrictions : Option SortRestrictions := none
  navigationRestrictions : Option (List NavigationRestriction) := none
  draftRoot : Option DraftRoot := none
  /-- The new action of a sticky session, where sessions are supported. -/
  stickySession : Option (Option String) := none
deriving DecidableEq

/-- A set of entities. -/
structure EntitySet where
  name : String
  entityType : String
  /-- The entity sets that navigation properties lead to. -/
  navigationPropertyBindings : Dictionary String := .empty
  annotations : EntitySetAnnotations := {}

/-! ### Operations -/

/-- An action or function. -/
structure Operation where
  /-- The name with its namespace. -/
  name : String
  isBound : Bool := false
  isFunction : Bool := false
  /-- The entity type of the binding parameter. -/
  sourceType : Option String := none
  bindingParameter : Option String := none
  /-- Whether a bound operation is bound to a collection. -/
  isStatic : Bool := false
  operationAvailable : Option (Dynamic Bool) := none
deriving DecidableEq

/-- A snapshot of a service. -/
structure Service where
  namespaceName : String := ""
  entitySets : List EntitySet := []
  entityTypes : List EntityType := []
  complexTypes : List ComplexType := []
  operations : List Operation := []

/-! ### Properties -/

namespace Property

def isPrimitive (p : Property) : Bool :=
  Text.startsWith "Edm." p.typeName

def isHidden (p : Property) : Bool :=
  match p.annotations.hidden with
  | some hidden => hidden.isLiteralTrue
  | none => false

def textPath? (p : Property) : Option PropertyPath :=
  p.annotations.text

/-- How the value and its text partner are arranged, if there is a text partner. -/
def textArrangement? (p : Property) : Option TextArrangement :=
  p.annotations.text.bind fun _ => p.annotations.textArrangement

def currencyPath? (p : Property) : Option PropertyPath :=
  p.annotations.isoCurrency.bind (·.path?)

def unitPath? (p : Property) : Option PropertyPath :=
  p.annotations.unit.bind (·.path?)

def timezonePath? (p : Property) : Option PropertyPath :=
  p.annotations.timezone.bind (·.path?)

end Property

/-! ### Entity types -/

namespace EntityType

def shortName (t : EntityType) : String :=
  Text.afterLast '.' t.name

def property? (t : EntityType) (name : String) : Option Property :=
  t.properties.find? (·.name == name)

def navigationProperty? (t : EntityType) (name : String) : Option NavigationProperty :=
  t.navigationProperties.find? (·.name == name)

def isKey (t : EntityType) (name : String) : Bool :=
  t.keys.contains name

/-- Whether a path is part of the semantic key. -/
def isSemanticKey (t : EntityType) (path : PropertyPath) : Bool :=
  t.annotations.semanticKey.contains path

end EntityType

namespace ComplexType

def property? (t : ComplexType) (name : String) : Option Property :=
  t.properties.find? (·.name == name)

end ComplexType

namespace Operation

/-- The path that tells whether the operation is available, without the binding parameter
before it. -/
def availablePath? (o : Operation) : Option PropertyPath :=
  (o.operationAvailable.bind (·.path?)).map fun path =>
    match o.bindingParameter with
    | some parameter => (Text.stripStart? (parameter ++ "/") path).getD path
    | none => path

/-- Whether the operation works on selected rows. -/
def requiresContext (o : Operation) : Bool :=
  o.isBound && !o.isStatic

end Operation

end TableCompiler
