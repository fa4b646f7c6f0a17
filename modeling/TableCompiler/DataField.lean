import TableCompiler.Dynamic
import TableCompiler.Vocabulary

/-!
# Data fields

A line item or a field group is a list of records of several types.  Records that show the
value of a property become columns, references to annotations become composite columns, and
records of actions and navigations become toolbar actions.

* `FieldAnnotations` — what every record may carry: visibility, importance, the copy mark;
* `ValueField`, `ReferenceField`, `ActionField`, `IntentField` — the families of records;
* `DataField` — a record, or one of a type that is not known;
* `FieldGroup`, `DataPoint`, `SortOrder`, `PresentationVariant` — annotations made of them.
-/

namespace TableCompiler

/-! ### Records -/

/-- Annotations on a record itself. -/
structure FieldAnnotations where
  hidden : Option (Dynamic Bool) := none
  importance : Option Importance := none
  isCopyAction : Option Bool := none
deriving DecidableEq

/-- What a record that shows a value does besides. -/
inductive ValueField.Kind where
  | plain
  | withUrl (url : Option (Dynamic String))
  | withNavigationPath (target : PropertyPath)
  | withAction (action : String)
  | withIntent (semanticObject : String) (action : Option String)
deriving DecidableEq

/-- A record that shows the value of a property. -/
structure ValueField where
  kind : ValueField.Kind
  value : PropertyPath
  label : Option String
  annotations : FieldAnnotations
deriving DecidableEq

/-- A record that refers to another annotation, by the text of its path. -/
structure ReferenceField where
  label : Option String
  target : String
  annotations : FieldAnnotations
deriving DecidableEq

/-- A record for an action of the service. -/
structure ActionField where
  label : Option String
  action : String
  inRow : Bool
  determining : Bool
  invocationGrouping : Option String
  annotations : FieldAnnotations
deriving DecidableEq

/-- A record for a navigation to another application. -/
structure IntentField where
  label : Option String
  semanticObject : String
  action : Option String
  requiresContext : Option (Dynamic Bool)
  navigationAvailable : Option (Dynamic Bool)
  inRow : Bool
  determining : Bool
  annotations : FieldAnnotations
deriving DecidableEq

/-- A record of a line item or field group. -/
inductive DataField where
  | value (field : ValueField)
  | reference (field : ReferenceField)
  | action (field : ActionField)
  | intent (field : IntentField)
  | unknown
deriving DecidableEq

namespace ValueField.Kind

def typeName : ValueField.Kind → String
  | .plain => "DataField"
  | .withUrl _ => "DataFieldWithUrl"
  | .withNavigationPath _ => "DataFieldWithNavigationPath"
  | .withAction _ => "DataFieldWithAction"
  | .withIntent _ _ => "DataFieldWithIntentBasedNavigation"

end ValueField.Kind

namespace FieldAnnotations

def isHidden (a : FieldAnnotations) : Bool :=
  match a.hidden with
  | some hidden => hidden.isLiteralTrue
  | none => false

end FieldAnnotations

namespace DataField

def typeName : DataField → String
  | .value field => field.kind.typeName
  | .reference _ => "DataFieldForAnnotation"
  | .action _ => "DataFieldForAction"
  | .intent _ => "DataFieldForIntentBasedNavigation"
  | .unknown => "Unknown"

def annotations? : DataField → Option FieldAnnotations
  | .value field => some field.annotations
  | .reference field => some field.annotations
  | .action field => some field.annotations
  | .intent field => some field.annotations
  | .unknown => none

def label? : DataField → Option String
  | .value field => field.label
  | .reference field => field.label
  | .action field => field.label
  | .intent field => field.label
  | .unknown => none

/-- The path of the value that a record shows. -/
def valuePath? : DataField → Option PropertyPath
  | .value field => some field.value
  | _ => none

/-- Whether a record becomes a toolbar action instead of a column. -/
def isAction : DataField → Bool
  | .action _ | .intent _ => true
  | _ => false

def hidden? (field : DataField) : Option (Dynamic Bool) :=
  field.annotations?.bind (·.hidden)

def isHidden (field : DataField) : Bool :=
  match field.annotations? with
  | some annotations => annotations.isHidden
  | none => false

def importance? (field : DataField) : Option Importance :=
  field.annotations?.bind (·.importance)

end DataField

/-! ### Annotations made of records and paths -/

/-- A group of fields that are shown together. -/
structure FieldGroup where
  label : Option String
  data : List DataField
deriving DecidableEq

/-- A single value with a target and a criticality. -/
structure DataPoint where
  title : Option String
  value : PropertyPath
  targetValue : Option (Dynamic Number)
  criticality : Option (Dynamic String)
  visualization : Option String
deriving DecidableEq

/-- One criterion of a sort order. -/
structure SortOrder where
  property : PropertyPath
  descending : Bool
deriving DecidableEq

/-- How a list is sorted, grouped and totalled, and what visualizations it is for. -/
structure PresentationVariant where
  sortOrder : List SortOrder
  groupBy : List PropertyPath
  total : List PropertyPath
  maxItems : Option UInt32
  /-- The texts of annotation paths. -/
  visualizations : List String
deriving DecidableEq

end TableCompiler
