import TableCompiler.Proofs.Aggregates
import TableCompiler.Proofs.PropertyColumns

/-!
# Conditions that are kept

Sorting, grouping and totals turn the paths of a presentation variant into names of columns in one
and the same way.  For a primitive property of the rows there always is such a name, its column
shows the property, and where a custom aggregate of the property was wired, the aggregates have it
under this very name.

* `Scope.target?` — the column that a condition on a path is turned into;
* `Scope.KeepsConditions`, `Scope.keepsConditions_of_table` — the conditions of a table, entry by
  entry;
* `Columns.Serves.exists_conditionName?` — the column of a property is found;
* `Scope.IsKnownAs`, `Scope.Yields.isKnownAs` — what a property goes by in a table;
* `Context.properties_and_conditions_kept` — properties are shown and conditions on them are kept.
-/

namespace TableCompiler

open Aggregation (Wires)

/-! ### Conditions, entry by entry -/

namespace Scope

variable {s : Scope} {columns : List Column}

/-- The name of the column that a condition on a path is turned into, if there is one. -/
def target? (s : Scope) (columns : List Column) (path : PropertyPath) : Option String :=
  if s.service.isNavigationPath s.entityType path then none else conditionName? columns path

/-- What a condition is for decides what is reported, not which column it names. -/
theorem value_conditionColumn? (role : ConditionRole) (path : PropertyPath) :
    (s.conditionColumn? columns role path).value = s.target? columns path := by
  rw [conditionColumn?, target?]
  split
  · rfl
  · cases conditionName? columns path <;> rfl

theorem value_conditionColumns? (role : ConditionRole) (paths : List PropertyPath) :
    (paths.filterMapM (s.conditionColumn? columns role)).value =
      paths.filterMap (s.target? columns) := by
  rw [Reported.value_filterMapM]
  exact List.filterMap_congr fun path _ => value_conditionColumn? role path

theorem value_firstColumn? (role : ConditionRole) (paths : List PropertyPath) :
    (s.firstColumn? columns role paths).value.toList =
      (paths.filterMap (s.target? columns)).take 1 := by
  induction paths with
  | nil => rfl
  | cons path rest ih =>
    rw [firstColumn?, Reported.value_bind, value_conditionColumn?, List.filterMap_cons]
    cases s.target? columns path with
    | none => exact ih
    | some name => rfl

theorem getD_nonempty? {α : Type} (items : List α) : (nonempty? items).getD [] = items := by
  cases items <;> rfl

/-- The conditions of a table are those of a variant: sorters and group levels entry by entry and
in order, as far as there are columns, and totals as a set. -/
structure KeepsConditions (s : Scope) (v : PresentationVariant) (t : Table) : Prop where
  sorters : t.configuration.sorters.getD [] =
    v.sortOrder.filterMap fun order =>
      (s.target? t.columns order.property).map (⟨·, order.descending⟩)
  analytical : s.tableType = .analytical →
    t.configuration.groupLevels.getD [] = v.groupBy.filterMap (s.target? t.columns)
  responsive : s.tableType = .responsive →
    t.configuration.groupLevels.getD [] = (v.groupBy.filterMap (s.target? t.columns)).take 1
  totals : s.tableType = .analytical → ∀ name,
    (t.configuration.totals.getD .empty).contains name = true ↔
      ∃ path ∈ v.total, s.target? t.columns path = some name

theorem value_sorters? (v : PresentationVariant) :
    (s.sorters? columns v).value.getD [] = v.sortOrder.filterMap fun order =>
      (s.target? columns order.property).map (⟨·, order.descending⟩) := by
  rw [sorters?, Reported.value_bind, Reported.value_filterMapM, Reported.value_pure, getD_nonempty?]
  refine List.filterMap_congr fun order _ => ?_
  rw [Reported.value_bind, value_conditionColumn?, Reported.value_pure]

theorem value_groupLevels?_of_analytical (h : s.tableType = .analytical)
    (v : PresentationVariant) :
    (s.groupLevels? columns v).value.getD [] = v.groupBy.filterMap (s.target? columns) := by
  rw [groupLevels?, h, Reported.value_bind, value_conditionColumns?, Reported.value_pure,
    getD_nonempty?]

theorem value_groupLevels?_of_responsive (h : s.tableType = .responsive)
    (v : PresentationVariant) :
    (s.groupLevels? columns v).value.getD [] =
      (v.groupBy.filterMap (s.target? columns)).take 1 := by
  rw [groupLevels?, h, Reported.value_bind, Reported.value_pure, ← value_firstColumn? .groupLevel]
  cases (s.firstColumn? columns .groupLevel v.groupBy).value <;> rfl

theorem contains_totals? (h : s.tableType = .analytical) (v : PresentationVariant)
    (name : String) :
    ((s.totals? columns v).value.getD .empty).contains name = true ↔
      ∃ path ∈ v.total, s.target? columns path = some name := by
  have hanalytical : s.isAnalytical = true := beq_iff_eq.2 h
  have htotals : (s.totals? columns v).value.getD .empty =
      .ofList ((v.total.filterMap (s.target? columns)).map (·, ())) := by
    simp only [totals?, hanalytical, Bool.not_true, Bool.false_eq_true, if_false,
      Reported.value_bind, Reported.value_pure, value_conditionColumns?]
    cases v.total.filterMap (s.target? columns) <;> rfl
  have hkeys : ∀ names : List String, (names.map (·, ())).map (·.1) = names := by
    intro names
    rw [List.map_map]
    exact List.map_id names
  rw [htotals, Dictionary.contains_ofList, hkeys, List.mem_filterMap]

/-- **Conditions, entry by entry.**  A table keeps the conditions of the variant in effect. -/
theorem keepsConditions_of_table {requested : Option AnnotationPath} {t : Table}
    (h : (s.table requested).value = .ok t) {v : PresentationVariant}
    (hv : (s.variant? requested).value = some v) : s.KeepsConditions v t := by
  have hconditions := conditions_of_table h
  rw [hv] at hconditions
  simp only [conditions, Reported.value_bind, Reported.value_pure, TableConditions.mk.injEq]
    at hconditions
  obtain ⟨hsorters, hlevels, htotals⟩ := hconditions
  refine ⟨?_, fun htype => ?_, fun htype => ?_, fun htype name => ?_⟩
  · rw [hsorters, value_sorters?]
  · rw [hlevels, value_groupLevels?_of_analytical htype]
  · rw [hlevels, value_groupLevels?_of_responsive htype]
  · rw [htotals, contains_totals? htype]

end Scope

/-! ### The column of a property is found -/

/-- **The column of a property is found**, and it shows the property. -/
theorem Columns.Serves.exists_conditionName? {columns : List Column} {path : PropertyPath}
    (h : Columns.Serves columns path) :
    ∃ name, Scope.conditionName? columns path = some name ∧ Columns.Shows columns path name := by
  obtain ⟨own, hown, hname, hpath⟩ := h.own
  rw [Scope.conditionName?]
  by_cases hplain : (columns.any fun c => c.name == path && !c.isComposite) = true
  · rw [if_pos hplain]
    exact ⟨path, rfl, h.own⟩
  · rw [if_neg hplain]
    by_cases halias : columns.any (·.name == propertyAlias path) = true
    · rw [if_pos halias]
      -- the second column is the right one because the first one shows others
      have hcomposite : own.isComposite = true := by
        by_contra hnot
        refine hplain (List.any_eq_true.2 ⟨own, hown, ?_⟩)
        rw [hname, beq_self_eq_true, Bool.eq_false_iff.2 hnot]
        rfl
      obtain ⟨other, hother, hotherName⟩ := List.any_eq_true.1 halias
      have hotherPath := h.second own hown hname hcomposite other hother (beq_iff_eq.1 hotherName)
      exact ⟨propertyAlias path, rfl, other, hother, beq_iff_eq.1 hotherName, hotherPath⟩
    · rw [if_neg halias]
      have hany : columns.any (·.name == path) = true :=
        List.any_eq_true.2 ⟨own, hown, beq_iff_eq.2 hname⟩
      rw [if_pos hany]
      exact ⟨path, rfl, h.own⟩

/-- A property that is named like no navigation property is no navigation path. -/
theorem Service.HasProperNames.not_isNavigationPath {s : Service} {t : EntityType}
    (hs : s.HasProperNames) (ht : t ∈ s.entityTypes) {p : Property} (hp : p ∈ t.properties) :
    s.isNavigationPath t p.name = false := by
  have hslash : '/' ∉ p.name.toList := (hs.simple.property t ht p hp).not_mem_slash
  rw [isNavigationPath, Text.split_of_not_mem hslash, isNavigation, Option.isSome_eq_false_iff,
    Option.isNone_iff_eq_none, EntityType.navigationProperty?, List.find?_eq_none]
  intro navigation hnavigation hname
  have hdisjoint := List.disjoint_of_nodup_append (hs.distinct t ht)
  refine hdisjoint (List.mem_map_of_mem hp) ?_
  exact List.mem_map.2 ⟨navigation, hnavigation, beq_iff_eq.1 hname⟩

/-! ### What a property goes by -/

/-- Conditions on a property name a column that shows it, and aggregates have the property under the
name of this column alone, at any rate if its custom aggregate was wired. -/
structure Scope.IsKnownAs (s : Scope) (t : Table) (path : PropertyPath) (name : String) :
    Prop where
  target : s.target? t.columns path = some name
  shows : Columns.Shows t.columns path name
  aggregated : ∀ aggregates, t.aggregates = some aggregates → ∀ other definition,
    aggregates.get? other = some definition → (definition.relativePath = path ↔ other = name)
  wired : ∀ aggregates, t.aggregates = some aggregates → ∀ aggregate,
    s.entityType.annotations.customAggregates.get? path = some aggregate →
    (∃ other, Wires s.pool.value.units t.columns path other) →
    aggregates.get? name = some ⟨aggregate.definition, path⟩

namespace Scope.Yields

variable {s : Scope} {t : Table}

/-- The aggregates of a table are those that are wired to its columns. -/
theorem holds_aggregates (h : s.Yields t) {aggregates : Dictionary AggregateDefinition}
    (haggregates : t.aggregates = some aggregates)
    (hmarks : ∀ name ∈ s.entityType.annotations.customAggregates.keys,
      ¬ propertyMark.toList <+: name.toList) :
    Aggregation.Holds s.pool.value.units t.columns
      s.entityType.annotations.customAggregates.entries aggregates := by
  rw [h.aggregates, analytics] at haggregates
  have hsettled : t.columns.map (·.settled) =
      (s.mergeColumns s.builtColumns).value.map (·.settled) := by
    rw [h.columns, analytics, settled_aggregate]
  intro name definition
  rw [get?_aggregates haggregates hmarks name definition]
  have hwires : ∀ path, Wires s.pool.value.units t.columns path name ↔
      Wires s.pool.value.units (s.mergeColumns s.builtColumns).value path name := by
    intro path
    have hfound := Aggregation.columnName?_of_settled hsettled path
    exact ⟨fun hw => ⟨hw.notUnit, hfound ▸ hw.found⟩, fun hw => ⟨hw.notUnit, hfound ▸ hw.found⟩⟩
  simp only [hwires]

/-- **A property goes by one name** in the conditions and in the aggregates of a table. -/
theorem isKnownAs (h : s.Yields t) (hs : s.service.HasProperNames)
    (ht : s.entityType ∈ s.service.entityTypes) {p : Property} (hp : p ∈ s.entityType.properties)
    (hprimitive : p.isPrimitive = true) : ∃ name, s.IsKnownAs t p.name name := by
  obtain ⟨name, hname, hshows⟩ := (h.serves hs ht hp hprimitive).exists_conditionName?
  have hmarks : ∀ key ∈ s.entityType.annotations.customAggregates.keys,
      ¬ propertyMark.toList <+: key.toList := fun key hkey =>
    not_mark_prefix_of_not_mem ((hs.aggregates _ ht key hkey).2 ':' (by decide))
  have hmark : ¬ propertyMark.toList <+: p.name.toList :=
    not_mark_prefix_of_not_mem ((hs.simple.property _ ht p hp).2 ':' (by decide))
  -- what the aggregate of the property is wired to, conditions name
  have hwired : ∀ {units : Dictionary Unit} {other : String},
      Wires units t.columns p.name other → other = name := by
    intro units other hwires
    exact Option.some.inj ((conditionName?_of_columnName? hwires.found).symm.trans hname)
  refine ⟨name, ?_, hshows, ?_, ?_⟩
  · rw [target?, hs.not_isNavigationPath ht hp]
    exact hname
  · intro aggregates haggregates other definition hget
    have hholds := h.holds_aggregates haggregates hmarks
    obtain ⟨entry, hentry, hwires, rfl⟩ := (hholds other definition).1 hget
    show entry.1 = p.name ↔ other = name
    constructor
    · intro hpath
      exact hwired (hpath ▸ hwires)
    · rintro rfl
      have hkey := hmarks entry.1 (List.mem_map_of_mem hentry)
      exact path_eq_of_names hkey hmark (Aggregation.columnName?_cases hwires.found)
        (conditionName?_cases hname)
  · rintro aggregates haggregates aggregate hget ⟨other, hwires⟩
    have hholds := h.holds_aggregates haggregates hmarks
    obtain rfl := hwired hwires
    exact (hholds _ _).2
      ⟨(p.name, aggregate), Dictionary.get?_eq_some_iff_mem.1 hget, hwires, rfl⟩

end Scope.Yields

/-! ### Tables -/

namespace Context

/-- **Properties are shown and conditions on them are kept.**  Where all names are proper, every
primitive property of the rows has a column of its name.  Conditions and aggregates know the
property by one name, that of a column which shows it; and the table is sorted, grouped and totalled
by the names of the paths of the presentation variant in effect. -/
theorem properties_and_conditions_kept (c : Context) (r : TableRequest)
    (hnames : c.service.HasProperNames) (scope : Reported Scope) (t : Table)
    (hscope : c.resolve r = .ok scope) (h : (c.compile r).value = .ok t) :
    (∀ p ∈ scope.value.entityType.properties, p.isPrimitive = true →
      Columns.Shows t.columns p.name p.name ∧ ∃ name, scope.value.IsKnownAs t p.name name) ∧
    ∀ v, (scope.value.variant? r.presentationVariant).value = some v →
      scope.value.KeepsConditions v t := by
  obtain ⟨settled, hsettled, hyields⟩ := exists_yields h
  obtain rfl := Except.ok.inj (hscope.symm.trans hsettled)
  obtain ⟨hservice, htype⟩ := entityType_mem hscope
  rw [← hservice] at hnames htype
  constructor
  · intro p hp hprimitive
    exact ⟨(hyields.serves hnames htype hp hprimitive).own,
      hyields.isKnownAs hnames htype hp hprimitive⟩
  · intro v hv
    rw [compile, hscope] at h
    exact Scope.keepsConditions_of_table h hv

/-- The column of the amounts in the table of orders shows their currencies as well, so the amounts
go by their second name. -/
theorem properties_and_conditions_kept_orders :
    ∃ scope t v, orders.service.HasProperNames ∧
      orders.resolve { entitySet := "Orders" } = .ok scope ∧
      (orders.compile { entitySet := "Orders" }).value = .ok t ∧
      (scope.value.variant? none).value = some v ∧ v.total = ["Amount"] ∧
      Columns.Shows t.columns "Amount" "Amount" ∧
      scope.value.IsKnownAs t "Amount" "Property::Amount" ∧
      scope.value.KeepsConditions v t := by
  have hnames : orders.service.HasProperNames := by decide +kernel
  have hrun : (match orders.resolve { entitySet := "Orders" },
      (orders.compile { entitySet := "Orders" }).value with
    | .ok scope, .ok t =>
      (scope.value.entityType.properties.any fun p => p.name == "Amount" && p.isPrimitive) &&
        decide (scope.value.target? t.columns "Amount" = some "Property::Amount") &&
        (scope.value.variant? none).value.any fun v => v.total == ["Amount"]
    | _, _ => false) = true := by decide +kernel
  split at hrun
  · rename_i scope t hscope ht
    rw [Bool.and_eq_true, Bool.and_eq_true, List.any_eq_true, decide_eq_true_iff,
      Option.any_eq_true] at hrun
    obtain ⟨⟨⟨p, hp, hproperty⟩, htarget⟩, v, hv, htotal⟩ := hrun
    rw [Bool.and_eq_true, beq_iff_eq] at hproperty
    obtain ⟨hname, hprimitive⟩ := hproperty
    obtain ⟨hproperties, hconditions⟩ := orders.properties_and_conditions_kept
      { entitySet := "Orders" } hnames scope t hscope ht
    obtain ⟨hshown, name, hknown⟩ := hproperties p hp hprimitive
    rw [hname] at hshown hknown
    obtain rfl := Option.some.inj (hknown.target.symm.trans htarget)
    exact ⟨scope, t, v, hnames, hscope, ht, hv, beq_iff_eq.1 htotal, hshown, hknown,
      hconditions v hv⟩
  · cases hrun

end Context

end TableCompiler
