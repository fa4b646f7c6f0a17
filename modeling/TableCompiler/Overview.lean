import TableCompiler.Service.Lookup

/-!
# Overview of a service

* `SetOverview` — what an entity set offers for tables;
* `Service.overview` — the entity sets of a service, by name.
-/

namespace TableCompiler

/-- What an entity set offers for tables. -/
structure SetOverview where
  name : String
  entityType : String
  /-- How many properties the entities have; none if their type is not known. -/
  properties : Nat
  /-- The qualifiers of the line items. -/
  lineItems : List String
  /-- The qualifiers of the presentation variants. -/
  presentationVariants : List String
  /-- The navigation properties that are bound to an entity set. -/
  navigations : List String

namespace Service

def setOverview (s : Service) (set : EntitySet) : SetOverview :=
  let type := s.entityType? set.entityType
  { name := set.name
    entityType := set.entityType
    properties := (type.map (·.properties.length)).getD 0
    lineItems := (type.map (·.annotations.lineItems.keys)).getD []
    presentationVariants := (type.map (·.annotations.presentationVariants.keys)).getD []
    navigations := set.navigationPropertyBindings.keys }

/-- The entity sets of a service by name; sets of one name stay in their order. -/
def overview (s : Service) : List SetOverview :=
  (s.entitySets.map s.setOverview).mergeSort fun a b => !(b.name < a.name)

end Service

end TableCompiler
