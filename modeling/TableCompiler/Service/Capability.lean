import TableCompiler.Service.Lookup

/-!
# Capabilities

Whether rows can be deleted, updated, inserted or searched is asked for a data path: the name of
an entity set, optionally followed by a navigation.

* `Capability` — a fixed answer or the path of a property that holds it;
* `Service.targetSet?` — the entity set at the end of a data path;
* `Service.deletable`, `Service.updatable`, `Service.insertable` — restrictions of the last
  navigation come before those of the entity set, and without any the answer is yes;
* `Service.searchable` — only the entity set can restrict searching.
-/

namespace TableCompiler

/-- A fixed answer, or the path of a property of the rows that holds it. -/
inductive Capability where
  | fixed (granted : Bool)
  | byPath (path : PropertyPath)
deriving DecidableEq

namespace Capability

/-- The capability that a restriction leaves. -/
def ofDynamic : Dynamic Bool → Capability
  | .literal granted => .fixed granted
  | .path p => .byPath p

/-- Whether the answer is a fixed no. -/
def isDenied : Capability → Bool
  | .fixed granted => !granted
  | .byPath _ => false

end Capability

/-- The restrictions of one operation, at entity sets and behind navigation properties. -/
structure Restriction where
  ofSet : EntitySetAnnotations → Option (Option (Dynamic Bool))
  ofNavigation : NavigationRestriction → Option (Option (Dynamic Bool))

namespace Restriction

def delete : Restriction := ⟨(·.deletable), (·.deletable)⟩

def update : Restriction := ⟨(·.updatable), (·.updatable)⟩

def insert : Restriction := ⟨(·.insertable), (·.insertable)⟩

end Restriction

namespace Service

/-- The entity set reached from one by following the bindings of navigation properties. -/
def boundSet? (s : Service) (set : EntitySet) : List String → Option EntitySet
  | [] => some set
  | segment :: rest => do
    let name ← set.navigationPropertyBindings.get? segment
    let next ← s.entitySet? name
    boundSet? s next rest

/-- The entity set at the end of a data path. -/
def targetSet? (s : Service) (path : String) : Option EntitySet :=
  match Text.segments '/' path with
  | [] => none
  | name :: navigation => (s.entitySet? name).bind fun set => s.boundSet? set navigation

/-- What the restrictions of the last navigation of a data path say. -/
def navigationCapability? (s : Service) (r : Restriction) (path : String) : Option Capability := do
  let (parent, navigation) ← Text.cutLast? '/' path
  let set ← s.targetSet? parent
  let restrictions ← set.annotations.navigationRestrictions
  let restriction ← restrictions.find? (·.navigationProperty == navigation)
  let value ← (← r.ofNavigation restriction)
  return .ofDynamic value

/-- What the restrictions of the entity set at the end of a data path say. -/
def setCapability? (s : Service) (r : Restriction) (path : String) : Option Capability := do
  let set ← s.targetSet? path
  let value ← (← r.ofSet set.annotations)
  return .ofDynamic value

def capability (s : Service) (r : Restriction) (path : String) : Capability :=
  (s.navigationCapability? r path).getD ((s.setCapability? r path).getD (.fixed true))

def deletable (s : Service) (path : String) : Capability := s.capability .delete path

def updatable (s : Service) (path : String) : Capability := s.capability .update path

def insertable (s : Service) (path : String) : Capability := s.capability .insert path

def searchable (s : Service) (path : String) : Bool :=
  ((s.targetSet? path).bind fun set => set.annotations.searchable.join).getD true

end Service

end TableCompiler
