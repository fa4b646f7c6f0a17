import TableCompiler.Compile
import TableCompiler.Proofs.Column.Merged

/-!
# Conditions and aggregates name columns

Sorting, grouping and totals are found among the columns of the finished table, aggregates among
the columns before they are marked.  Marking keeps the names.

* `Scope.mem_of_conditionColumn?`, `Scope.mem_of_firstColumn?` — what is found is a column;
* `Scope.conditionName?_of_columnName?` — it is the one of aggregates, if these find one;
* `Scope.mem_of_sorters?`, `Scope.mem_of_groupLevels?`, `Scope.mem_of_totals?`;
* `Scope.keys_aggregates_subset` — every aggregate stands under the name of a column.
-/

namespace TableCompiler

namespace Scope

variable {s : Scope} {columns : List Column}

/-! ### Conditions -/

theorem mem_of_any_name {columns : List Column} {name : String}
    (h : columns.any (·.name == name) = true) : name ∈ columns.map (·.name) := by
  obtain ⟨c, hc, heq⟩ := List.any_eq_true.1 h
  exact List.mem_map.2 ⟨c, hc, beq_iff_eq.1 heq⟩

theorem mem_of_any_name_and {columns : List Column} {name : String} {p : Column → Bool}
    (h : (columns.any fun c => c.name == name && p c) = true) : name ∈ columns.map (·.name) := by
  obtain ⟨c, hc, heq⟩ := List.any_eq_true.1 h
  exact List.mem_map.2 ⟨c, hc, beq_iff_eq.1 (Bool.and_eq_true_iff.1 heq).1⟩

theorem mem_of_conditionName? {path : PropertyPath} {name : String}
    (h : conditionName? columns path = some name) : name ∈ columns.map (·.name) := by
  rw [conditionName?] at h
  split at h
  · rename_i hplain
    exact Option.some.inj h ▸ mem_of_any_name_and hplain
  · split at h
    · rename_i halias
      exact Option.some.inj h ▸ mem_of_any_name halias
    · split at h
      · rename_i hname
        exact Option.some.inj h ▸ mem_of_any_name hname
      · cases h

/-- A condition names one of the two columns that a property can have. -/
theorem conditionName?_cases {path : PropertyPath} {name : String}
    (h : conditionName? columns path = some name) : name = path ∨ name = propertyAlias path := by
  rw [conditionName?] at h
  split at h
  · exact .inl (Option.some.inj h).symm
  · split at h
    · exact .inr (Option.some.inj h).symm
    · split at h
      · exact .inl (Option.some.inj h).symm
      · cases h

/-- Conditions find the column that aggregates are wired to. -/
theorem conditionName?_of_columnName? {path : PropertyPath} {name : String}
    (h : Aggregation.columnName? columns path = some name) :
    conditionName? columns path = some name := by
  rw [Aggregation.columnName?] at h
  rw [conditionName?]
  split at h
  · rename_i hplain
    rwa [if_pos hplain]
  · rename_i hplain
    rw [if_neg hplain]
    split at h
    · rename_i halias
      rwa [if_pos halias]
    · cases h

theorem mem_of_conditionColumn? {role : ConditionRole} {path : PropertyPath} {name : String}
    (h : (s.conditionColumn? columns role path).value = some name) :
    name ∈ columns.map (·.name) := by
  rw [conditionColumn?] at h
  split at h
  · cases h
  · split at h
    · rename_i found hfound
      exact Option.some.inj h ▸ mem_of_conditionName? hfound
    · cases h

theorem mem_of_firstColumn? {role : ConditionRole} {paths : List PropertyPath} {name : String}
    (h : (s.firstColumn? columns role paths).value = some name) : name ∈ columns.map (·.name) := by
  induction paths with
  | nil => cases h
  | cons path rest ih =>
    rw [firstColumn?, Reported.value_bind] at h
    split at h
    · rename_i found hfound
      obtain rfl := Option.some.inj h
      exact mem_of_conditionColumn? hfound
    · exact ih h

theorem mem_of_nonempty? {α : Type} {items found : List α} (h : nonempty? items = some found) :
    found = items := by
  rw [nonempty?] at h
  split at h
  · cases h
  · exact (Option.some.inj h).symm

theorem mem_of_sorters? {v : PresentationVariant} {sorters : List Sorter}
    (h : (s.sorters? columns v).value = some sorters) :
    ∀ sorter ∈ sorters, sorter.name ∈ columns.map (·.name) := by
  rw [sorters?, Reported.value_bind, Reported.value_filterMapM, Reported.value_pure] at h
  intro sorter hsorter
  rw [mem_of_nonempty? h, List.mem_filterMap] at hsorter
  obtain ⟨order, -, hfound⟩ := hsorter
  obtain ⟨name, hname, rfl⟩ := Option.map_eq_some_iff.1 hfound
  exact mem_of_conditionColumn? hname

theorem mem_of_groupLevels? {v : PresentationVariant} {levels : List String}
    (h : (s.groupLevels? columns v).value = some levels) :
    levels ⊆ columns.map (·.name) := by
  intro name hname
  rw [groupLevels?] at h
  split at h
  · rw [Reported.value_bind, Reported.value_filterMapM, Reported.value_pure] at h
    rw [mem_of_nonempty? h, List.mem_filterMap] at hname
    obtain ⟨path, -, hfound⟩ := hname
    exact mem_of_conditionColumn? hfound
  · obtain ⟨first, hfirst, rfl⟩ := Option.map_eq_some_iff.1 h
    rw [List.mem_singleton.1 hname]
    exact mem_of_firstColumn? hfirst
  · cases h

theorem mem_of_totals? {v : PresentationVariant} {totals : Dictionary Unit}
    (h : (s.totals? columns v).value = some totals) : totals.keys ⊆ columns.map (·.name) := by
  intro name hname
  simp only [totals?] at h
  split at h
  · cases h
  · obtain ⟨names, hnames, rfl⟩ := Option.map_eq_some_iff.1 h
    have hmem := Dictionary.mem_keys_ofList hname
    rw [List.map_map, mem_of_nonempty? hnames, Reported.value_filterMapM] at hmem
    obtain ⟨found, hfound, rfl⟩ := List.mem_map.1 hmem
    obtain ⟨path, -, hpath⟩ := List.mem_filterMap.1 hfound
    exact mem_of_conditionColumn? hpath

/-- **Conditions name columns.** -/
theorem mem_of_conditions {variant : Option PresentationVariant} {conditions : TableConditions}
    (h : conditions = (s.conditions columns variant).value) :
    (∀ sorters, conditions.sorters = some sorters →
      ∀ sorter ∈ sorters, sorter.name ∈ columns.map (·.name)) ∧
    (∀ levels, conditions.groupLevels = some levels → levels ⊆ columns.map (·.name)) ∧
    (∀ totals, conditions.totals = some totals → totals.keys ⊆ columns.map (·.name)) := by
  rw [h]
  cases variant with
  | none => exact ⟨fun _ h => (nomatch h), fun _ h => (nomatch h), fun _ h => (nomatch h)⟩
  | some v =>
    exact ⟨fun _ => mem_of_sorters?, fun _ => mem_of_groupLevels?, fun _ => mem_of_totals?⟩

end Scope

/-! ### Aggregates -/

namespace Aggregation

theorem mem_of_columnName? {columns : List Column} {property : PropertyPath} {name : String}
    (h : columnName? columns property = some name) : name ∈ columns.map (·.name) :=
  Scope.mem_of_conditionName? (Scope.conditionName?_of_columnName? h)

end Aggregation

/-- Columns that are settled alike have the same names. -/
theorem Column.names_eq_of_settled {b c : List Column}
    (h : b.map (·.settled) = c.map (·.settled)) : b.map (·.name) = c.map (·.name) := by
  have hnames := congrArg (List.map (·.name)) h
  rw [List.map_map, List.map_map] at hnames
  exact hnames

namespace Scope

/-- Every aggregate that is wired stands under the name of a column. -/
theorem keys_wireAggregate_subset (units : Dictionary Unit) {a : Aggregation}
    (entry : String × CustomAggregate) (h : a.aggregates.keys ⊆ a.columns.map (·.name)) :
    (wireAggregate units a entry).value.aggregates.keys ⊆ a.columns.map (·.name) := by
  obtain ⟨property, aggregate⟩ := entry
  simp only [wireAggregate]
  split
  · exact h
  · split
    · rename_i name hname
      intro key hkey
      rcases Dictionary.mem_keys_insert hkey with rfl | hold
      · exact Aggregation.mem_of_columnName? hname
      · exact h hold
    · exact h

/-- **Aggregates name columns.** -/
theorem keys_aggregates_subset (s : Scope) (units : Dictionary Unit) (columns : List Column)
    {aggregates : Dictionary AggregateDefinition}
    (h : (s.aggregate units columns).value.aggregates = some aggregates) :
    aggregates.keys ⊆ columns.map (·.name) := by
  simp only [aggregate] at h
  split at h
  · cases h
  · simp only [Reported.value_bind, Reported.value_foldlM, Reported.value_pure] at h
    obtain rfl := Option.some.inj h
    have hwired : ∀ entries : List (String × CustomAggregate), ∀ a : Aggregation,
        a.columns.map (·.name) = columns.map (·.name) →
        a.aggregates.keys ⊆ columns.map (·.name) →
        (entries.foldl (fun a entry => (wireAggregate units a entry).value) a).aggregates.keys ⊆
          columns.map (·.name) := by
      intro entries
      induction entries with
      | nil => exact fun a _ hkeys => hkeys
      | cons entry rest ih =>
        intro a hnames hkeys
        refine ih _ ?_ ?_
        · rw [← hnames]
          exact Column.names_eq_of_settled (settled_wireAggregate units a entry)
        · rw [← hnames] at hkeys ⊢
          exact keys_wireAggregate_subset units entry hkeys
    exact hwired _ _ rfl (List.nil_subset _)

end Scope

end TableCompiler
