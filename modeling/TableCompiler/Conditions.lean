import TableCompiler.Column.Key
import TableCompiler.Descriptor
import TableCompiler.Personalization
import TableCompiler.Scope

/-!
# Sorting, grouping and totals

A presentation variant says by which properties a table is sorted and grouped and which of them
are totalled.  Its paths are turned into names of columns.

* `Scope.variant?` — the presentation variant of a table;
* `Scope.conditionColumn?` — the column for a path of the variant;
* `Scope.sorters?`, `Scope.groupLevels?`, `Scope.totals?` — the conditions;
* `Scope.threshold` — how many rows are requested at a time.
-/

namespace TableCompiler

/-! ### The variant -/

namespace PresentationVariant

/-- Whether a variant is for a line item: it names no visualization at all, or a line item of
the same qualifier. -/
def shows (v : PresentationVariant) (lineItem : AnnotationPath) : Bool :=
  v.visualizations.isEmpty || v.visualizations.any fun text =>
    match AnnotationPath.ofText text with
    | .ok path => path.term == .lineItem && path.qualifier == lineItem.qualifier
    | .error _ => false

end PresentationVariant

namespace Service

def variantAt? (s : Service) (t : EntityType) (path : AnnotationPath) :
    Option PresentationVariant :=
  match s.annotationAt? t path with
  | some ⟨.presentationVariant v, _, _⟩ => some v
  | _ => none

end Service

namespace Scope

/-- The presentation variant of the table: the one that was asked for, or else the unqualified
one of the type of the rows if it is for the line item. -/
def variant? (s : Scope) (requested : Option AnnotationPath) :
    Reported (Option PresentationVariant) := do
  match requested with
  | none =>
    return (s.entityType.annotations.presentationVariants.get? "").filter
      (·.shows s.lineItemPath)
  | some path =>
    match s.service.variantAt? s.entityType path with
    | some v => return some v
    | none =>
      .report (.unresolvedVariant path)
      return none

/-- How many rows are requested at a time. -/
def threshold (s : Scope) (v : Option PresentationVariant) : UInt32 :=
  (v.bind (·.maxItems)).getD (s.options.threshold s.tableType)

/-! ### Columns of conditions -/

/-- The name of the column that a path of a variant stands for: a column of that name that shows
no other columns, else the second column of the property, else any column of that name. -/
def conditionName? (columns : List Column) (path : PropertyPath) : Option String :=
  if columns.any fun c => c.name == path && !c.isComposite then some path
  else if columns.any (·.name == propertyAlias path) then some (propertyAlias path)
  else if columns.any (·.name == path) then some path
  else none

/-- The name of the column for a path of a variant.  Navigation properties have none. -/
def conditionColumn? (s : Scope) (columns : List Column) (role : ConditionRole)
    (path : PropertyPath) : Reported (Option String) := do
  if s.service.isNavigationPath s.entityType path then
    .report (.navigationCondition path role)
    return none
  else match conditionName? columns path with
    | some name => return some name
    | none =>
      .report (.unmatchedCondition path role)
      return none

/-- The first of several paths for which there is a column. -/
def firstColumn? (s : Scope) (columns : List Column) (role : ConditionRole) :
    List PropertyPath → Reported (Option String)
  | [] => return none
  | path :: rest => do
    match ← s.conditionColumn? columns role path with
    | some name => return some name
    | none => firstColumn? s columns role rest

/-! ### Conditions -/

def nonempty? {α : Type} (items : List α) : Option (List α) :=
  if items.isEmpty then none else some items

def sorters? (s : Scope) (columns : List Column) (v : PresentationVariant) :
    Reported (Option (List Sorter)) := do
  return nonempty? (← v.sortOrder.filterMapM fun order => do
    return (← s.conditionColumn? columns .sorter order.property).map (⟨·, order.descending⟩))

/-- The names of the columns by which the table is grouped: all of them in an analytical table,
the first one in a responsive table. -/
def groupLevels? (s : Scope) (columns : List Column) (v : PresentationVariant) :
    Reported (Option (List String)) := do
  match s.tableType with
  | .analytical =>
    return nonempty? (← v.groupBy.filterMapM (s.conditionColumn? columns .groupLevel))
  | .responsive => return (← s.firstColumn? columns .groupLevel v.groupBy).map ([·])
  | _ => return none

/-- The names of the columns of an analytical table that have totals. -/
def totals? (s : Scope) (columns : List Column) (v : PresentationVariant) :
    Reported (Option (Dictionary Unit)) := do
  if !s.isAnalytical then return none
  let names ← v.total.filterMapM (s.conditionColumn? columns .total)
  return (nonempty? names).map fun names => .ofList (names.map (·, ()))

end Scope

end TableCompiler
