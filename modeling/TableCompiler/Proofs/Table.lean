import TableCompiler.Proofs.Column.Collected
import TableCompiler.Proofs.Column.Merged

/-!
# What a compiled table is made of

A compilation that succeeds settles a scope, and every part of the table is a function of it.  The
columns are the linked columns of the pool together with custom ones; overrides and aggregation
reach only members that are not settled before.

* `Scope.builtColumns`, `Scope.analytics` — the linked columns, and the columns of the table;
* `Scope.Yields`, `Context.exists_yields` — how the parts of a table come from its scope;
* `Context.exists_configuration` — what the table is and does;
* `Scope.Yields.settled_perm` — the columns of a table, up to order and what is set later;
* `Context.orders` — a page on which all kinds of columns occur.
-/

namespace TableCompiler

namespace Scope

/-! ### The parts of a table -/

/-- The columns with the names of those they depend on, before the manifest adds any. -/
def builtColumns (s : Scope) : List Column := s.pool.value.columns

/-- The columns of the table and what is aggregated. -/
def analytics (s : Scope) : Analytics :=
  (s.aggregate s.pool.value.units (s.mergeColumns s.builtColumns).value).value

/-- How the columns, the actions and the conditions of a table come from its scope. -/
structure Yields (s : Scope) (t : Table) : Prop where
  columns : t.columns = s.analytics.columns
  aggregates : t.aggregates = s.analytics.aggregates
  actions : t.actions = (s.mergeActions s.toolbar.value).value
  conditions : ∃ variant, (⟨t.configuration.sorters, t.configuration.groupLevels,
    t.configuration.totals⟩ : TableConditions) = (s.conditions t.columns variant).value

theorem yields_of_table {s : Scope} {requested : Option AnnotationPath} {t : Table}
    (h : (s.table requested).value = .ok t) : s.Yields t := by
  rw [table] at h
  simp only [Reported.value_bind, ← ColumnArena.columns_pool] at h
  split at h
  · cases h
  · obtain rfl := Except.ok.inj h
    exact ⟨rfl, rfl, rfl, _, rfl⟩

/-- The conditions of a table are those of the presentation variant in effect. -/
theorem conditions_of_table {s : Scope} {requested : Option AnnotationPath} {t : Table}
    (h : (s.table requested).value = .ok t) :
    (⟨t.configuration.sorters, t.configuration.groupLevels, t.configuration.totals⟩ :
      TableConditions) = (s.conditions t.columns (s.variant? requested).value).value := by
  rw [table] at h
  simp only [Reported.value_bind, ← ColumnArena.columns_pool] at h
  split at h
  · cases h
  · obtain rfl := Except.ok.inj h
    rfl

end Scope

/-- **The scope of a table.**  A compilation that succeeds has settled a scope. -/
theorem Context.exists_yields {c : Context} {r : TableRequest} {t : Table}
    (h : (c.compile r).value = .ok t) :
    ∃ scope, c.resolve r = .ok scope ∧ scope.value.Yields t := by
  rw [compile] at h
  split at h
  · cases h
  · rename_i scope hscope
    exact ⟨scope, hscope, Scope.yields_of_table h⟩

/-- What a table is and does is settled by its scope and its actions, up to creation and the
presentation variant. -/
theorem Scope.exists_configuration {s : Scope} {requested : Option AnnotationPath} {t : Table}
    (h : (s.table requested).value = .ok t) :
    ∃ creation variant conditions,
      t.configuration = s.configuration t.actions creation variant conditions := by
  rw [table] at h
  simp only [Reported.value_bind, ← ColumnArena.columns_pool] at h
  split at h
  · cases h
  · obtain rfl := Except.ok.inj h
    exact ⟨_, _, _, rfl⟩

/-- The configuration of a table that is compiled, for the scope of its request. -/
theorem Context.exists_configuration {c : Context} {r : TableRequest} {scope : Reported Scope}
    {t : Table} (hscope : c.resolve r = .ok scope) (h : (c.compile r).value = .ok t) :
    ∃ creation variant conditions,
      t.configuration = scope.value.configuration t.actions creation variant conditions := by
  rw [compile, hscope] at h
  exact Scope.exists_configuration h

namespace Scope.Yields

variable {s : Scope} {t : Table}

/-! ### The columns of a table -/

/-- **The columns of a table** are the built ones and the custom ones, but for their order and for
what the manifest and aggregation set. -/
theorem settled_perm (h : s.Yields t) :
    ∃ custom : List Column, (custom.map (·.key)).Nodup ∧
      (∀ c ∈ custom, Columns.IsCustom s.builtColumns c) ∧
      (t.columns.map (·.settled)).Perm ((s.builtColumns ++ custom).map (·.settled)) := by
  obtain ⟨custom, hnodup, hcustom, hperm⟩ := s.mergeColumns_spec s.builtColumns
  refine ⟨custom, hnodup, hcustom, ?_⟩
  rw [h.columns, analytics, settled_aggregate]
  exact hperm

/-- A built column is a column of the table. -/
theorem exists_mem (h : s.Yields t) {b : Column} (hb : b ∈ s.builtColumns) :
    ∃ c ∈ t.columns, c.settled = b.settled := by
  obtain ⟨custom, -, -, hperm⟩ := h.settled_perm
  have hmem : b.settled ∈ t.columns.map (·.settled) :=
    hperm.mem_iff.2 (List.mem_map_of_mem (List.mem_append_left _ hb))
  exact List.mem_map.1 hmem

/-- A column of the table is a built one or a custom one. -/
theorem of_mem (h : s.Yields t) {c : Column} (hc : c ∈ t.columns) :
    (∃ b ∈ s.builtColumns, b.settled = c.settled) ∨
      ∃ b, Columns.IsCustom s.builtColumns b ∧ b.settled = c.settled := by
  obtain ⟨custom, -, hcustom, hperm⟩ := h.settled_perm
  have hmem : c.settled ∈ (s.builtColumns ++ custom).map (·.settled) :=
    hperm.mem_iff.1 (List.mem_map_of_mem hc)
  obtain ⟨b, hb, heq⟩ := List.mem_map.1 hmem
  rcases List.mem_append.1 hb with hb | hb
  · exact .inl ⟨b, hb, heq⟩
  · exact .inr ⟨b, hcustom b hb, heq⟩

end Scope.Yields

/-! ### A page of orders -/

/-- Orders with a currency, behind which a supplier has a name; records, actions and a custom
column of the manifest repeat and mix. -/
def Context.orders : Context where
  service := {
    entitySets := [{ name := "Orders", entityType := "shop.Order" }]
    entityTypes := [
      { name := "shop.Order"
        properties := [
          { name := "ID", typeName := "Edm.String" },
          { name := "Amount", typeName := "Edm.Decimal",
            annotations := { isoCurrency := some (.path "Currency") } },
          { name := "Currency", typeName := "Edm.String" },
          { name := "Supplier", typeName := "Edm.String",
            annotations := { text := some "toSupplier/Name", textArrangement := some .textOnly } }]
        navigationProperties := [{ name := "toSupplier", targetType := "shop.Supplier" }]
        annotations := {
          lineItems := .ofList [("", [
            DataField.value ⟨.plain, "Amount", none, {}⟩,
            DataField.value ⟨.plain, "Amount", none, {}⟩,
            .reference ⟨none, "@UI.FieldGroup#Main", {}⟩,
            .action ⟨none, "shop.approve", false, false, none, {}⟩,
            .action ⟨none, "shop.approve", false, false, none, {}⟩])]
          fieldGroups := .ofList [("Main", {
            label := none
            data := [
              .value ⟨.plain, "ID", none, {}⟩,
              .value ⟨.plain, "Supplier", none, {}⟩] })]
          presentationVariants := .ofList [("",
            { sortOrder := [⟨"Amount", true⟩], groupBy := ["ID"], total := ["Amount"]
              maxItems := none, visualizations := [] })]
          applySupported := some { aggregatableProperties := ["Amount"] }
          customAggregates := .ofList [("Amount", {})] } },
      { name := "shop.Supplier"
        properties := [{ name := "Name", typeName := "Edm.String" }] }] }
  manifest := { controls := .ofList [("@UI.LineItem",
    { columns := .ofList [("Note", { template := some "Note", properties := ["Amount", "ID"] })]
      actions := .ofList [("Archive", {})]
      tableSettings := { tableType := some .analytical } })] }

theorem Context.orders_compiles :
    ∃ t, (orders.compile { entitySet := "Orders" }).value = .ok t := by
  have hok : (orders.compile { entitySet := "Orders" }).value.isOk = true := by decide +kernel
  cases h : (orders.compile { entitySet := "Orders" }).value with
  | error e =>
    rw [h] at hok
    cases hok
  | ok t => exact ⟨t, rfl⟩

end TableCompiler
