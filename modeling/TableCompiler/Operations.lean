import TableCompiler.Column.Visibility
import TableCompiler.Descriptor
import TableCompiler.Expression.Binding
import TableCompiler.Scope
import TableCompiler.Selection

/-!
# Standard operations

Creating, deleting, pasting and editing rows are offered as far as annotations, capabilities and
the mode of the page allow it.

* `OperationVisibility` and `Scope.operations` — when each operation is visible;
* `Scope.selectionInputs` — what selecting rows depends on, given the actions of the table.
-/

namespace TableCompiler

/-- When the standard operations are visible. -/
structure OperationVisibility where
  create : Expression
  delete : Expression
  paste : Expression
  massEdit : Expression

namespace OperationVisibility

def bindings (v : OperationVisibility) : ShowConfiguration where
  create := v.create.compile
  delete := v.delete.compile
  paste := v.paste.compile
  massEdit := v.massEdit.compile

end OperationVisibility

namespace Scope

/-- A capability as an expression.  On an entity set itself there is no row that a path could be
read at, so that one counts as granted. -/
def granted (s : Scope) : Capability → Expression
  | .fixed b => .ofBool b
  | .byPath p => if s.isEntitySet then .ofBool true else .ofPath p

/-- The page must be in edit mode, unless the rows are those of an entity set itself. -/
def editGate (s : Scope) : Expression :=
  if s.isEntitySet then .ofBool true else .isEditable

/-- When an operation is visible that an annotation can hide and a capability deny. -/
def operationVisibility (s : Scope) (hidden : Option (Dynamic Bool)) (c : Capability) :
    Expression :=
  .and [shown hidden "", s.granted c, s.editGate]

/-- Whether rows can be pasted: by default on object pages. -/
def enablesPaste (s : Scope) : Bool :=
  s.settings.enablePaste.getD (s.manifest.template == .objectPage)

def operations (s : Scope) : OperationVisibility :=
  let a := s.entityType.annotations
  let create := s.operationVisibility a.createHidden (s.service.insertable s.dataPath)
  { create := create
    delete := s.operationVisibility a.deleteHidden (s.service.deletable s.dataPath)
    paste := .and [create, .ofBool s.enablesPaste]
    massEdit :=
      if s.settings.enableMassEdit.getD false then
        s.operationVisibility a.updateHidden (s.service.updatable s.dataPath)
      else .ofBool false }

/-- What selecting rows depends on. -/
def selectionInputs (s : Scope) (actions : List Action) (v : OperationVisibility) :
    SelectionInputs :=
  let onRows := actions.filter fun a => a.requiresSelection == some true && a.visible != "false"
  { setting := s.settings.selectionMode
    isEntitySet := s.isEntitySet
    deletable := !(s.service.deletable s.dataPath).isDenied
    deleteVisibility := v.delete
    massEditVisibility := v.massEdit
    hasVisibleAction := onRows.any (·.visible == "true")
    actionVisibilities := onRows.map fun a => .ofBinding a.visible }

end Scope

end TableCompiler
