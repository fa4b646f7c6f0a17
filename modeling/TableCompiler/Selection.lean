import TableCompiler.Descriptor
import TableCompiler.Expression.Binding

/-!
# Selection of rows

How many rows can be selected depends on the manifest, on whether rows can be deleted or edited
together, and on the actions that need selected rows.

* `SelectionInputs` — all that the selection mode depends on;
* `SelectionInputs.expression` — the mode as an expression;
* `SelectionInputs.mode` — a fixed mode where the expression is a constant, else its binding.

The first rule that applies decides: no selection is wanted but rows can be deleted; an action on
selected rows is always visible; rows can be deleted or edited but there is no action on selected
rows; there are such actions, visible under conditions.
-/

namespace TableCompiler

/-- All that the selection mode depends on. -/
structure SelectionInputs where
  /-- The mode that the manifest asks for. -/
  setting : Option SelectionSetting
  /-- Whether the rows are those of an entity set itself. -/
  isEntitySet : Bool
  /-- Whether deleting is not ruled out by the service. -/
  deletable : Bool
  deleteVisibility : Expression
  massEditVisibility : Expression
  /-- Whether some action on selected rows is visible unconditionally. -/
  hasVisibleAction : Bool
  /-- When the actions on selected rows are visible. -/
  actionVisibilities : List Expression

namespace SelectionValue

def expression (v : SelectionValue) : Expression := .ofText v.name

end SelectionValue

namespace SelectionMode

/-- A fixed mode where the expression is the name of one, else its binding. -/
def ofExpression (e : Expression) : SelectionMode :=
  match e with
  | .constant (.text name) =>
    match SelectionValue.all.find? (·.name == name) with
    | some value => .fixed value
    | none => .binding e.compile
  | e => .binding e.compile

end SelectionMode

namespace SelectionInputs

def canDelete (i : SelectionInputs) : Bool := !i.deleteVisibility.isFalse

def canMassEdit (i : SelectionInputs) : Bool := !i.massEditVisibility.isFalse

/-- The mode that the manifest asks for, by default several rows; editing rows together overrules
the wish for none. -/
def value (i : SelectionInputs) : SelectionValue :=
  match i.setting with
  | some .single => .single
  | some .none => if i.canMassEdit then .multi else .none
  | _ => .multi

/-- The page is in edit mode and rows can be deleted or edited together. -/
def editGate (i : SelectionInputs) : Expression :=
  .and [.isEditable, .or [i.deleteVisibility, i.massEditVisibility]]

/-- A mode while a condition holds, else another one. -/
def during (condition : Expression) (mode otherwise : Expression) : Expression :=
  .ifElse condition mode otherwise

/-- The mode if no selection is wanted but rows can be deleted. -/
def unwanted (i : SelectionInputs) : Expression :=
  let none := SelectionValue.none.expression
  let multi := SelectionValue.multi.expression
  during i.editGate multi
    (if i.isEntitySet then during i.deleteVisibility multi none else none)

/-- The mode if there is no action on selected rows, but rows can be deleted or edited. -/
def withoutActions (i : SelectionInputs) : Expression :=
  let none := SelectionValue.none.expression
  if i.deletable || i.canMassEdit then
    if i.isEntitySet then i.value.expression
    else during i.editGate i.value.expression none
  else none

/-- The mode if there are actions on selected rows, visible under conditions. -/
def withActions (i : SelectionInputs) : Expression :=
  let mode := i.value.expression
  let byAction := during (.or i.actionVisibilities) mode SelectionValue.none.expression
  if i.isEntitySet then
    if i.canDelete || i.canMassEdit then mode else byAction
  else if i.deletable || i.canMassEdit then during i.editGate mode byAction
  else byAction

def expression (i : SelectionInputs) : Expression :=
  if i.setting = some .none ∧ i.canDelete then i.unwanted
  else if i.hasVisibleAction then i.value.expression
  else if i.actionVisibilities.isEmpty && (i.canDelete || i.canMassEdit) then i.withoutActions
  else i.withActions

def mode (i : SelectionInputs) : SelectionMode := .ofExpression i.expression

end SelectionInputs

end TableCompiler
