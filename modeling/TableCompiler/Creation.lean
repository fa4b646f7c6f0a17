import TableCompiler.Descriptor
import TableCompiler.Scope

/-!
# Creation of rows

* `Scope.creation` — how new rows are created, in another application or within this one;
* `Scope.inAppCreation` — within the application; a creation row cannot call a custom new action,
  and a new page without a route to it becomes inline creation.
-/

namespace TableCompiler

namespace EntitySet

/-- The action that creates an entity of the set: that of its drafts, or of its sessions. -/
def newAction? (set : EntitySet) : Option String :=
  (set.annotations.draftRoot.bind (·.newAction)).or set.annotations.stickySession.join

end EntitySet

namespace Scope

/-! ### Settings -/

/-- The name under which the manifest has the navigations of the table. -/
def navigationKey (s : Scope) : String :=
  if s.isEntitySet then s.entitySet.name else s.navigationPath

def navigation? (s : Scope) : Option NavigationSettings :=
  s.manifest.navigation? s.navigationKey

/-- Where creation navigates to. -/
def createTarget? (s : Scope) : Option NavigationTarget :=
  s.navigation?.bind (·.create)

def creationMode? (s : Scope) : Option CreationMode :=
  s.settings.creationMode.bind (·.mode)

/-- The outbound navigation of the creation settings, or else of the navigations. -/
def createOutbound? (s : Scope) : Option String :=
  (s.settings.creationMode.bind (·.outbound)).or (s.createTarget?.bind (·.outbound))

/-- Whether rows are to be created in another application: if the mode says so, or there is no
mode and creation navigates outbound. -/
def isExternalCreation (s : Scope) : Bool :=
  match s.creationMode? with
  | some mode => mode == .external
  | none => (s.createTarget?.bind (·.outbound)).isSome

/-- The route to the page of a new row. -/
def createRoute? (s : Scope) : Option String :=
  (s.createTarget?.bind (·.route)).or
    ((s.navigation?.bind (·.detail)).bind (·.route))

/-! ### Behaviour -/

def externalCreation (s : Scope) (outbound : String) : Reported ExternalCreation := do
  let detail := s.manifest.outbounds.get? outbound
  if detail.isNone then .report (.undeclaredOutbound outbound)
  return ⟨outbound, detail, s.navigation?⟩

/-- Creation within the application in a given mode. -/
def creationIn (s : Scope) (mode : CreationMode) (route : Option String) : InAppCreation where
  mode := mode
  append := (s.settings.creationMode.bind (·.createAtEnd)).getD (mode == .inlineCreationRows)
  newAction := s.targetSet.newAction?
  navigateToTarget := route

def inAppCreation (s : Scope) : Reported (Except CompileError InAppCreation) := do
  match s.creationMode?.getD .newPage with
  | .creationRow =>
    match s.targetSet.newAction? with
    | some newAction => return .error (.creationRowWithNewAction newAction)
    | none => return .ok (s.creationIn .creationRow none)
  | .newPage | .external =>
    match s.createRoute? with
    | some route => return .ok (s.creationIn .newPage (some route))
    | none =>
      .report (.missingRoute s.navigationKey)
      return .ok (s.creationIn .inline none)
  | mode => return .ok (s.creationIn mode none)

/-- How new rows are created.  External creation without an outbound navigation is creation on a
new page. -/
def creation (s : Scope) : Reported (Except CompileError CreateBehavior) := do
  if s.isExternalCreation then
    match s.createOutbound? with
    | some outbound => return .ok (.external (← s.externalCreation outbound))
    | none => .report .missingOutbound
  return (← s.inAppCreation).map .inApp

end Scope

end TableCompiler
