import TableCompiler.Column.Key
import TableCompiler.Column.Visibility
import TableCompiler.Descriptor
import TableCompiler.Expression.Binding
import TableCompiler.Scope

/-!
# Toolbar actions

The records of a line item for actions and navigations become actions of the toolbar.

* `selectedExactly`, `selectedAtLeastOne` — how many rows are selected, as expressions;
* `Operation.available`, `Operation.needsPrecomputedEnablement` — when an operation is enabled,
  and whether that can be told without looking at the selected rows;
* `ActionField.copyAction`, `Scope.operationAction`, `IntentField.toAction` — the actions of
  records;
* `Toolbar` and `Scope.toolbar` — the actions of a line item, and the keys of hidden records.
-/

namespace TableCompiler

/-! ### Enablement -/

/-- As many rows as given are selected. -/
def selectedExactly (count : Nat) : Expression :=
  .equal .numberOfSelectedContexts (.ofNat count)

/-- At least one row is selected. -/
def selectedAtLeastOne : Expression :=
  .greaterOrEqual .numberOfSelectedContexts (.ofNat 1)

/-- A dynamic truth value as an expression that is true or not. -/
def dynamicFlag (default : Bool) : Option (Dynamic Bool) → Expression
  | none => .ofBool default
  | some (.literal b) => .ofBool b
  | some (.path p) => .equal (.ofPath p) (.ofBool true)

namespace Operation

/-- Whether enablement cannot be evaluated on the selected rows: the operation is not bound to
rows, or to those of another type. -/
def needsPrecomputedEnablement (o : Operation) (t : EntityType) : Bool :=
  !o.requiresContext || o.sourceType.any fun type => type != t.name && type != t.shortName

/-- When the operation is available; it is unless it says otherwise. -/
def available (o : Operation) : Expression :=
  match o.operationAvailable, o.availablePath? with
  | some (.literal b), _ => .ofBool b
  | _, some p => .ofPath p
  | _, none => .ofBool true

end Operation

/-! ### Actions of records -/

namespace FieldAnnotations

/-- The visibility of the action of a record. -/
def actionVisible (a : FieldAnnotations) : String :=
  (shown a.hidden "").compile

end FieldAnnotations

namespace ActionField

/-- The action that copies the selected row. -/
def copyAction (field : ActionField) (key path : String) : Action where
  key := key
  kind := .copy
  annotationPath := some path
  text := some (field.label.getD "Copy")
  visible := field.annotations.actionVisible
  enabled := some (selectedExactly 1).compile
  isNavigable := some true
  requiresSelection := some true

/-- Whether the record asks for the action that copies the selected row. -/
def isCopy (field : ActionField) : Bool :=
  field.annotations.isCopyAction.getD false

end ActionField

namespace IntentField

/-- The action that navigates to another application: if it needs rows, some must be
selected. -/
def toAction (field : IntentField) (key path : String) : Action :=
  let needsContext := dynamicFlag false field.requiresContext
  let available := dynamicFlag true field.navigationAvailable
  { key := key
    kind := .forNavigation
    annotationPath := some path
    text := field.label
    visible := field.annotations.actionVisible
    enabled := some (Expression.and
      [available, .or [needsContext.not, selectedAtLeastOne]]).compile
    requiresSelection := some (!needsContext.isFalse) }

end IntentField

namespace Scope

/-- The action that calls an operation.  One that the service does not define is always enabled
and needs no rows. -/
def operationAction (s : Scope) (field : ActionField) (key path : String) : Reported Action := do
  let action : Action :=
    { key := key
      kind := .forAction
      annotationPath := some path
      text := field.label
      visible := field.annotations.actionVisible
      isNavigable := some true }
  match s.service.operation? field.action with
  | none =>
    .report (.unknownAction field.action)
    return { action with requiresSelection := some false, enabled := some "true" }
  | some o =>
    let enabled := (Expression.equal o.available (.ofBool true)).compile
    return { action with
      requiresSelection := some o.requiresContext
      enabled := if o.needsPrecomputedEnablement s.entityType then some enabled else none }

end Scope

/-! ### The toolbar -/

/-- The actions of a line item. -/
structure Toolbar where
  actions : List Action := []
  /-- The keys of the records that are hidden whatever the data. -/
  hidden : List String := []

namespace Toolbar

/-- Whether there is an action of a key. -/
def containsKey (t : Toolbar) (key : String) : Bool :=
  t.actions.any (·.key == key)

/-- Whether there is an action that copies the selected row. -/
def canCopy (t : Toolbar) : Bool :=
  t.actions.any (·.kind == .copy)

/-- The toolbar with one more action. -/
def push (t : Toolbar) (action : Action) : Toolbar :=
  { t with actions := t.actions ++ [action] }

/-- The toolbar with one more hidden record. -/
def hide (t : Toolbar) (key : String) : Toolbar :=
  { t with hidden := t.hidden ++ [key] }

end Toolbar

namespace Scope

/-- Adds the action of a record for an operation.  Only the first record that asks for the copy
action gets it; records of a row or of the page footer have no place in the toolbar. -/
def addOperation (s : Scope) (t : Toolbar) (field : ActionField) (key path : String) :
    Reported Toolbar := do
  if field.isCopy then
    return if t.canCopy then t else t.push (field.copyAction key path)
  else if field.annotations.isHidden then return t.hide key
  else if field.inRow || field.determining then return t
  else return t.push (← s.operationAction field key path)

/-- Adds the action of a record for a navigation. -/
def addIntent (t : Toolbar) (field : IntentField) (key path : String) : Toolbar :=
  if field.annotations.isHidden then t.hide key
  else if field.inRow || field.determining then t
  else t.push (field.toAction key path)

/-- Adds the action of the record at a place of the line item, unless there is one of its key. -/
def addAction (s : Scope) (t : Toolbar) (record : DataField × Nat) : Reported Toolbar :=
  let (field, index) := record
  match field, field.key? with
  | .action actionField, some key =>
    if t.containsKey key then pure t
    else s.addOperation t actionField key (s.recordPath index)
  | .intent intentField, some key =>
    if t.containsKey key then pure t
    else pure (addIntent t intentField key (s.recordPath index))
  | _, _ => pure t

/-- The actions of the line item, in its order. -/
def toolbar (s : Scope) : Reported Toolbar :=
  s.lineItem.zipIdx.foldlM s.addAction {}

end Scope

end TableCompiler
