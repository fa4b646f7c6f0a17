import TableCompiler.Service

/-!
# Importance of columns

* `EntityType.importance` — of the column of a record that shows a value;
* `EntityType.groupImportance` — of the column of a group.

A semantic key of the rows makes a column highly important.
-/

namespace TableCompiler

/-- The importance of the greatest weight, the first one of several. -/
def mostImportant? : List Importance → Option Importance
  | [] => none
  | i :: rest => some (rest.foldl (fun best i => if best.weight < i.weight then i else best) i)

namespace EntityType

def importance (t : EntityType) (field : DataField) (path : PropertyPath) : Importance :=
  if t.isSemanticKey path then .high else field.importance?.getD .none

def showsSemanticKey (t : EntityType) (field : DataField) : Bool :=
  field.valuePath?.any t.isSemanticKey

/-- The importance of a record that shows a group behind a navigation: that of the record, or
the greatest of the members. -/
def groupImportance (t : EntityType) (field : DataField) (group : FieldGroup)
    (navigation : String) : Importance :=
  if navigation == "" && group.data.any t.showsSemanticKey then .high
  else (field.importance?.or (mostImportant? (group.data.filterMap (·.importance?)))).getD .none

end EntityType

end TableCompiler
