import TableCompiler.Column.Key
import TableCompiler.Descriptor
import TableCompiler.Scope

/-!
# Aggregation

The columns of an analytical table are marked as far as they can be aggregated, and custom
aggregates are wired to the columns of their properties.  Currencies and units are never
aggregated on their own.

* `Aggregation` — columns and aggregates while they are wired;
* `Analytics` — the switches and aggregates of a table;
* `Scope.aggregate` — wires the columns of a table.
-/

namespace TableCompiler

/-- Columns with the aggregates wired to them so far. -/
structure Aggregation where
  columns : List Column
  /-- The aggregates, by the name of their column. -/
  aggregates : Dictionary AggregateDefinition := .empty

namespace Aggregation

/-- The name of the column of a property: one that shows no other columns, or the second one of
the property. -/
def columnName? (columns : List Column) (property : PropertyPath) : Option String :=
  if columns.any fun c => c.name == property && !c.isComposite then some property
  else if columns.any (·.name == propertyAlias property) then some (propertyAlias property)
  else none

/-- Whether a column is the one of a property. -/
def isColumnOf (property name : String) (c : Column) : Bool :=
  c.name == name && (name != property || !c.isComposite)

/-- Changes the first column that satisfies a condition. -/
def updateFirst (p : Column → Bool) (f : Column → Column) : List Column → List Column
  | [] => []
  | c :: rest => if p c then f c :: rest else c :: updateFirst p f rest

def wire (a : Aggregation) (property name : String) (definition : CustomAggregateDefinition) :
    Aggregation where
  columns := updateFirst (isColumnOf property name)
    (fun c => { c with aggregatable := some true, extension := some ⟨some definition⟩ }) a.columns
  aggregates := a.aggregates.insert name ⟨definition, property⟩

def mark (a : Aggregation) (property : PropertyPath) : Aggregation :=
  match columnName? a.columns property with
  | some name =>
    { a with columns :=
        updateFirst (isColumnOf property name) ({ · with aggregatable := some true }) a.columns }
  | none => a

end Aggregation

/-- The switches and aggregates of a table. -/
structure Analytics where
  columns : List Column
  aggregates : Option (Dictionary AggregateDefinition) := none
  enableAnalytics : Option Bool := none
  enableBasicSearch : Option Bool := none

namespace CustomAggregate

def definition (a : CustomAggregate) : CustomAggregateDefinition :=
  ⟨a.contextDefiningProperties, a.label⟩

end CustomAggregate

namespace ApplySupported

/-- Whether rows can be searched before they are aggregated. -/
def supportsSearch (a : ApplySupported) : Bool :=
  a.transformations.contains "search"

end ApplySupported

namespace Scope

/-- Wires the custom aggregate of a property, unless the property is a unit. -/
def wireAggregate (units : Dictionary Unit) (a : Aggregation)
    (entry : String × CustomAggregate) : Reported Aggregation := do
  let (property, aggregate) := entry
  if units.contains property then return a
  else match Aggregation.columnName? a.columns property with
    | some name => return a.wire property name aggregate.definition
    | none =>
      .report (.unmatchedAggregate property)
      return a

/-- Marks and wires the columns of an analytical table; those of others are left as they are. -/
def aggregate (s : Scope) (units : Dictionary Unit) (columns : List Column) :
    Reported Analytics := do
  if !s.isAnalytical then return ⟨columns, none, none, none⟩
  let annotations := s.entityType.annotations
  let wired ← annotations.customAggregates.entries.foldlM (wireAggregate units) ⟨columns, .empty⟩
  let properties := ((annotations.applySupported.map (·.aggregatableProperties)).getD []).filter
    (!units.contains ·)
  return {
    columns := (properties.foldl Aggregation.mark wired).columns
    aggregates := some wired.aggregates
    enableAnalytics := some true
    enableBasicSearch := some (annotations.applySupported.any (·.supportsSearch)) }

end Scope

end TableCompiler
