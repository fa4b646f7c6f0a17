import TableCompiler.Scope

/-!
# Personalization

* `PersonalizationFeature` — what users can change about a table;
* `Scope.personalization?` — the features of a table, separated by commas, or none.

Only analytical and responsive tables can be grouped, and only analytical ones have totals.
-/

namespace TableCompiler

/-- What users can change about a table. -/
inductive PersonalizationFeature where
  | sort
  | column
  | filter
  | group
  | aggregate
deriving DecidableEq

namespace PersonalizationFeature

/-- Every feature, in the order in which features are listed. -/
def all : List PersonalizationFeature := [.sort, .column, .filter, .group, .aggregate]

def name : PersonalizationFeature → String
  | .sort => "Sort"
  | .column => "Column"
  | .filter => "Filter"
  | .group => "Group"
  | .aggregate => "Aggregate"

end PersonalizationFeature

namespace TableType

def supportsGroup : TableType → Bool
  | .analytical | .responsive => true
  | .grid | .tree => false

def supports (t : TableType) : PersonalizationFeature → Bool
  | .group => t.supportsGroup
  | .aggregate => t == .analytical
  | _ => true

end TableType

namespace PersonalizationOptions

def asksFor (o : PersonalizationOptions) : PersonalizationFeature → Bool
  | .sort => o.sort.getD false
  | .column => o.column.getD false
  | .filter => o.filter.getD false
  | .group => o.group.getD false
  | .aggregate => o.aggregate.getD false

end PersonalizationOptions

namespace Manifest

/-- Whether tables are filtered by themselves because there is no filter bar for them. -/
def filtersInTable (m : Manifest) : Bool :=
  m.template != .listReport || m.variantManagement == .control || m.hideFilterBar

end Manifest

namespace Scope

def wants (s : Scope) (feature : PersonalizationFeature) : Bool :=
  match s.settings.personalization with
  | some (.enabled b) => b
  | some (.options o) => o.asksFor feature
  | none => feature != .filter || s.manifest.filtersInTable

def personalization? (s : Scope) : Option String :=
  match PersonalizationFeature.all.filter fun f => s.wants f && s.tableType.supports f with
  | [] => none
  | features => some (",".intercalate (features.map (·.name)))

end Scope

end TableCompiler
