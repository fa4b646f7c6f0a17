import TableCompiler.Proofs.AggregatedColumns
import TableCompiler.Proofs.KeptConditions

/-!
# Aggregates and their columns

Wiring keeps the definition of an aggregate twice: in the map of the table, under the name of a
column, and in the extension of that column.  Both always agree.  The column shows the property of
the aggregate unless it is a custom one: the search goes by names, and an entry of the manifest can
take a name that no column of a property has.

* `Aggregation.IsWired` — columns and aggregates agree;
* `Aggregation.IsWired.wire`, `Aggregation.IsWired.mark` — and stay so, step by step;
* `Scope.isWired_aggregate`, `Scope.Yields.isWired` — so they do in an analytical table;
* `Scope.Yields.relativePath_iff` — a column that goes by a name of a property;
* `Context.aggregates_shown` — the aggregates of a table.
-/

namespace TableCompiler

namespace Aggregation

/-! ### Columns and aggregates agree -/

/-- What the columns carry is what the aggregates have under their names, and every aggregate has
its column. -/
structure IsWired (a : Aggregation) : Prop where
  nodup : (a.columns.map (·.name)).Nodup
  extension : ∀ c ∈ a.columns,
    c.extension = (a.aggregates.get? c.name).map fun d => ⟨some d.defaultAggregate⟩
  aggregatable : ∀ c ∈ a.columns, a.aggregates.contains c.name = true →
    c.aggregatable = some true
  found : ∀ name, a.aggregates.contains name = true → ∃ c ∈ a.columns, c.name = name

namespace IsWired

variable {a : Aggregation} {path : PropertyPath} {name : String}

/-- The column of a property is changed, and with it at most the aggregate of that name. -/
theorem update (h : a.IsWired) (hname : columnName? a.columns path = some name)
    {f : Column → Column} (hf : ∀ c, (f c).name = c.name ∧ (f c).aggregatable = some true)
    {aggregates : Dictionary AggregateDefinition}
    (hothers : ∀ other, other ≠ name → aggregates.get? other = a.aggregates.get? other)
    (hown : ∀ c ∈ a.columns, c.name = name →
      (f c).extension = (aggregates.get? name).map fun d => ⟨some d.defaultAggregate⟩) :
    IsWired ⟨updateFirst (isColumnOf path name) f a.columns, aggregates⟩ := by
  rw [updateFirst_eq_map f h.nodup fun c hc => isColumnOf_iff h.nodup hname hc]
  have hnames : ∀ c : Column, (if c.name = name then f c else c).name = c.name := by
    intro c
    split
    · exact (hf c).1
    · rfl
  refine ⟨?_, ?_, ?_, ?_⟩
  · have hsame : (fun c : Column => (if c.name = name then f c else c).name) = (·.name) :=
      funext hnames
    rw [List.map_map, Function.comp_def, hsame]
    exact h.nodup
  · intro c hc
    obtain ⟨old, hold, rfl⟩ := List.mem_map.1 hc
    rw [hnames]
    by_cases hsame : old.name = name
    · rw [if_pos hsame, hown old hold hsame, hsame]
    · rw [if_neg hsame, hothers _ hsame]
      exact h.extension old hold
  · intro c hc hcontains
    obtain ⟨old, hold, rfl⟩ := List.mem_map.1 hc
    rw [hnames] at hcontains
    by_cases hsame : old.name = name
    · rw [if_pos hsame]
      exact (hf old).2
    · rw [Dictionary.contains, hothers _ hsame] at hcontains
      rw [if_neg hsame]
      exact h.aggregatable old hold hcontains
  · intro other hcontains
    have hold : ∃ c ∈ a.columns, c.name = other := by
      by_cases hsame : other = name
      · obtain ⟨c, hc, hcname, -⟩ := exists_of_columnName? hname
        exact ⟨c, hc, hcname.trans hsame.symm⟩
      · rw [Dictionary.contains, hothers _ hsame] at hcontains
        exact h.found other hcontains
    obtain ⟨c, hc, rfl⟩ := hold
    exact ⟨_, List.mem_map_of_mem hc, hnames c⟩

/-- The aggregate of a property joins the others, and its column carries it. -/
theorem wire (h : a.IsWired) (hname : columnName? a.columns path = some name)
    (definition : CustomAggregateDefinition) : (a.wire path name definition).IsWired := by
  have hget := fun other => Dictionary.get?_insert a.aggregates name other ⟨definition, path⟩
  refine h.update hname (fun c => ?_) (fun other hother => ?_) (fun c hc hcname => ?_)
  · exact ⟨rfl, rfl⟩
  · rw [hget, if_neg hother]
  · rw [hget, if_pos rfl]
    rfl

/-- A mark on a column changes nothing about aggregates. -/
theorem mark (h : a.IsWired) (path : PropertyPath) : (a.mark path).IsWired := by
  rw [Aggregation.mark]
  split
  · rename_i name hname
    refine h.update hname (fun c => ?_) (fun other hother => rfl) (fun c hc hcname => ?_)
    · exact ⟨rfl, rfl⟩
    · rw [← hcname]
      exact h.extension c hc
  · exact h

theorem wireAggregate {units : Dictionary Unit} (h : a.IsWired)
    (entry : String × CustomAggregate) : (Scope.wireAggregate units a entry).value.IsWired := by
  obtain ⟨path, aggregate⟩ := entry
  simp only [Scope.wireAggregate]
  split
  · exact h
  · split
    · rename_i name hname
      exact h.wire hname aggregate.definition
    · exact h

/-- Wiring and marking, one after the other. -/
theorem run (h : a.IsWired) (units : Dictionary Unit) (entries : List (String × CustomAggregate))
    (paths : List PropertyPath) :
    (paths.foldl Aggregation.mark
      (entries.foldl (fun a entry => (Scope.wireAggregate units a entry).value) a)).IsWired := by
  have hwired : (entries.foldl (fun a entry => (Scope.wireAggregate units a entry).value)
      a).IsWired :=
    List.foldlRecOn (motive := IsWired) entries _ h fun _ hb entry _ => hb.wireAggregate entry
  exact List.foldlRecOn (motive := IsWired) paths _ hwired fun _ hb path _ => hb.mark path

end IsWired

theorem aggregates_foldl_mark (paths : List PropertyPath) (a : Aggregation) :
    (paths.foldl Aggregation.mark a).aggregates = a.aggregates := by
  induction paths generalizing a with
  | nil => rfl
  | cons path paths ih =>
    rw [List.foldl_cons, ih, Aggregation.mark]
    split <;> rfl

end Aggregation

namespace Scope

open Aggregation (IsWired)

variable {s : Scope}

/-- **Columns and aggregates agree** in an analytical table, if nothing is aggregated beforehand. -/
theorem isWired_aggregate {units : Dictionary Unit} {columns : List Column}
    (hanalytical : s.isAnalytical = true) (hnodup : (columns.map (·.name)).Nodup)
    (hfresh : ∀ c ∈ columns, c.extension = none) :
    ∃ aggregates, (s.aggregate units columns).value.aggregates = some aggregates ∧
      IsWired ⟨(s.aggregate units columns).value.columns, aggregates⟩ := by
  have hstart : IsWired ⟨columns, .empty⟩ := by
    refine ⟨hnodup, hfresh, fun c hc hcontains => ?_, fun name hcontains => ?_⟩
    · cases hcontains
    · cases hcontains
  have hrun := hstart.run units s.entityType.annotations.customAggregates.entries
    (((s.entityType.annotations.applySupported.map (·.aggregatableProperties)).getD []).filter
      (!units.contains ·))
  simp only [aggregate, hanalytical, Bool.not_true, Bool.false_eq_true, if_false,
    Reported.value_bind, Reported.value_foldlM, Reported.value_pure]
  refine ⟨_, rfl, ?_⟩
  rw [← Aggregation.aggregates_foldl_mark]
  exact hrun

/-- So do those of a table that is compiled. -/
theorem Yields.isWired {t : Table} (h : s.Yields t) (hanalytical : s.isAnalytical = true) :
    ∃ aggregates, t.aggregates = some aggregates ∧ IsWired ⟨t.columns, aggregates⟩ := by
  rw [h.aggregates, h.columns]
  exact isWired_aggregate hanalytical h.nodup_merged fun _ hc => (unwired_mergeColumns hc).2

/-! ### Columns of properties and custom columns -/

/-- A built column that goes by the first or the second name of a property shows it. -/
theorem relativePath_of_built (hs : s.service.NamesAvoid ':')
    (ht : s.entityType ∈ s.service.entityTypes) {path : PropertyPath}
    (hmarker : '@' ∉ path.toList) (hmark : ¬ propertyMark.toList <+: path.toList) {b : Column}
    (hb : b ∈ s.builtColumns) (hname : b.name = path ∨ b.name = propertyAlias path) :
    b.relativePath = some path := by
  rcases hname with hname | halias
  · have hready := collected_isReady hs ht
    obtain ⟨d, hd, rfl⟩ := exists_of_mem_builtColumns hb
    rcases s.collected_isDistinct.link_cases hd with ⟨e, he, hlinked⟩ | ⟨column, hanswers, rfl⟩
    · have hcolumn : d.column = e.column := congrArg (·.1) hlinked.core_eq
      have hename : e.name = path := hlinked.name_eq.symm.trans hname
      show d.column.relativePath = some path
      rw [hcolumn, relativePath_of_name hs ht he (hename ▸ hmarker), hename]
    · obtain ⟨hidden, hbuild, hnames, -⟩ := hanswers
      have hhidden : hidden.name = path := (hready.faithful.name hbuild).symm.trans hname
      have hsame : hidden.path = path := by
        rcases hnames with heq | ⟨heq, -⟩
        · exact heq.symm.trans hhidden
        · refine (hmark ?_).elim
          rw [← hhidden, heq, toList_propertyAlias]
          exact List.prefix_append _ _
      rw [← hsame]
      show column.relativePath = _
      exact hready.faithful.relativePath hbuild
  · exact Yields.relativePath_of_alias hs ht hb halias

/-- **A column that goes by a name of a property** shows the property unless it is a custom one. -/
theorem Yields.relativePath_iff {t : Table} (h : s.Yields t) (hs : s.service.NamesAvoid ':')
    (ht : s.entityType ∈ s.service.entityTypes) {path : PropertyPath}
    (hmarker : '@' ∉ path.toList) (hmark : ¬ propertyMark.toList <+: path.toList) {c : Column}
    (hc : c ∈ t.columns) (hname : c.name = path ∨ c.name = propertyAlias path) :
    c.relativePath = some path ↔ c.kind ≠ .slot := by
  rcases h.of_mem hc with ⟨b, hb, heq⟩ | ⟨b, hb, heq⟩
  · have hkind : c.kind = b.kind := Column.eq_of_settled (·.kind) (fun _ => rfl) heq.symm
    have hpath : c.relativePath = b.relativePath :=
      Column.eq_of_settled (·.relativePath) (fun _ => rfl) heq.symm
    rw [hkind, hpath]
    rw [← Column.name_eq_of_settled heq] at hname
    exact iff_of_true (relativePath_of_built hs ht hmarker hmark hb hname) (isUntouched hb).kind
  · obtain ⟨entry, names, -, hentry⟩ := hb.exists_entry
    rw [hentry] at heq
    have hkind : ColumnKind.slot = c.kind := Column.eq_of_settled (·.kind) (fun _ => rfl) heq
    have hpath : none = c.relativePath := Column.eq_of_settled (·.relativePath) (fun _ => rfl) heq
    rw [← hkind, ← hpath]
    exact iff_of_false nofun fun hnot => hnot rfl

end Scope

/-! ### Tables -/

namespace Context

/-- **Aggregates are shown.**  Every aggregate of an analytical table has a column of its name,
which can be aggregated and carries its definition, and no other column carries one.  The column
shows the property of the aggregate unless it is a custom one, which it never is for a primitive
property of the rows if all names are proper. -/
theorem aggregates_shown (c : Context) (r : TableRequest) (scope : Reported Scope) (t : Table)
    (hscope : c.resolve r = .ok scope) (h : (c.compile r).value = .ok t)
    (hanalytical : scope.value.isAnalytical = true) (hnames : c.service.HasSimpleNames)
    (hkeys : ∀ u ∈ c.service.entityTypes, ∀ key ∈ u.annotations.customAggregates.keys,
      ∀ char ∈ ['/', '@', '#', ':'], char ∉ key.toList) :
    ∃ aggregates, t.aggregates = some aggregates ∧
      (∀ name definition, aggregates.get? name = some definition → ∃ column ∈ t.columns,
        column.name = name ∧ column.aggregatable = some true ∧
        column.extension = some ⟨some definition.defaultAggregate⟩ ∧
        (column.relativePath = some definition.relativePath ↔ column.kind ≠ .slot) ∧
        (c.service.HasProperNames → ∀ p ∈ scope.value.entityType.properties,
          p.isPrimitive = true → definition.relativePath = p.name → column.kind ≠ .slot)) ∧
      ∀ column ∈ t.columns, ∀ extension, column.extension = some extension →
        ∃ definition, aggregates.get? column.name = some definition ∧
          extension = ⟨some definition.defaultAggregate⟩ := by
  obtain ⟨settled, hsettled, hyields⟩ := exists_yields h
  obtain rfl := Except.ok.inj (hscope.symm.trans hsettled)
  obtain ⟨hservice, htype⟩ := entityType_mem hscope
  rw [← hservice] at hnames hkeys htype ⊢
  have hmarks : ∀ key ∈ scope.value.entityType.annotations.customAggregates.keys,
      ¬ propertyMark.toList <+: key.toList := fun key hkey =>
    Scope.not_mark_prefix_of_not_mem (hkeys _ htype key hkey ':' (by decide))
  obtain ⟨aggregates, haggregates, hwired⟩ := hyields.isWired hanalytical
  refine ⟨aggregates, haggregates, ?_, ?_⟩
  · intro name definition hget
    have hcontains : aggregates.contains name = true := by
      rw [Dictionary.contains, hget]
      rfl
    obtain ⟨column, hcolumn, rfl⟩ := hwired.found name hcontains
    have hextension := hwired.extension column hcolumn
    rw [hget] at hextension
    -- the column was found for the property of the aggregate
    obtain ⟨entry, hentry, hwires, rfl⟩ :=
      (hyields.holds_aggregates haggregates hmarks column.name definition).1 hget
    have hkey : entry.1 ∈ scope.value.entityType.annotations.customAggregates.keys :=
      List.mem_map_of_mem hentry
    have hshown : column.relativePath = some entry.1 ↔ column.kind ≠ .slot :=
      hyields.relativePath_iff (hnames ':' (by decide)) htype
        (hkeys _ htype entry.1 hkey '@' (by decide)) (hmarks entry.1 hkey) hcolumn
        (Aggregation.columnName?_cases hwires.found)
    refine ⟨column, hcolumn, rfl, hwired.aggregatable column hcolumn hcontains, hextension, hshown,
      ?_⟩
    intro hproper p hp hprimitive hname
    obtain ⟨known, hknown⟩ := hyields.isKnownAs hproper htype hp hprimitive
    have hsame : column.name = known := (hknown.aggregated aggregates haggregates _ _ hget).1 hname
    obtain ⟨own, hown, hownName, hownPath⟩ := hknown.shows
    obtain rfl := hyields.columns_areDistinct.eq_of_name hown hcolumn (hownName.trans hsame.symm)
    exact hshown.1 (hownPath.trans (congrArg some hname.symm))
  · intro column hcolumn extension hextension
    rw [hwired.extension column hcolumn, Option.map_eq_some_iff] at hextension
    obtain ⟨definition, hget, rfl⟩ := hextension
    exact ⟨definition, hget, rfl⟩

/-- Sales with a custom aggregate for their total, for which the manifest has an entry with a
template; the rows have that property or not. -/
def sales (properties : List Property) : Context where
  service := {
    entitySets := [{ name := "Sales", entityType := "shop.Sale" }]
    entityTypes := [
      { name := "shop.Sale"
        properties := { name := "ID", typeName := "Edm.String" } :: properties
        annotations := {
          lineItems := .ofList [("", [DataField.value ⟨.plain, "ID", none, {}⟩])]
          applySupported := some {}
          customAggregates := .ofList [("Total", {})] } }] }
  manifest := { controls := .ofList [("@UI.LineItem",
    { columns := .ofList [("Total", { template := some "Total" })]
      tableSettings := { tableType := some .analytical } })] }

/-- The property of the total. -/
def total : Property where
  name := "Total"
  typeName := "Edm.Decimal"

/-- If the rows have the property, its column carries the aggregate. -/
theorem aggregates_shown_sales :
    ∃ t, ((sales [total]).compile { entitySet := "Sales" }).value = .ok t ∧
      ∃ column ∈ t.columns, column.name = "Total" ∧ column.aggregatable = some true ∧
        column.extension = some ⟨some {}⟩ ∧ column.relativePath = some "Total" := by
  have hproper : (sales [total]).service.HasProperNames := by decide +kernel
  have hrun : (match (sales [total]).resolve { entitySet := "Sales" },
      ((sales [total]).compile { entitySet := "Sales" }).value with
    | .ok scope, .ok t => decide (scope.value.isAnalytical = true ∧
        total ∈ scope.value.entityType.properties ∧
        t.aggregates.bind (·.get? "Total") = some ⟨{}, "Total"⟩)
    | _, _ => false) = true := by decide +kernel
  split at hrun
  · rename_i scope t hscope ht
    obtain ⟨hanalytical, hproperty, hentry⟩ := of_decide_eq_true hrun
    obtain ⟨aggregates, haggregates, hshown, -⟩ := (sales [total]).aggregates_shown
      { entitySet := "Sales" } scope t hscope ht hanalytical hproper.hasSimpleNames
      fun u hu key hkey => (hproper.aggregates u hu key hkey).2
    rw [haggregates, Option.bind_some] at hentry
    obtain ⟨column, hcolumn, hname, haggregatable, hextension, hpath, hslot⟩ :=
      hshown "Total" _ hentry
    exact ⟨t, ht, column, hcolumn, hname, haggregatable, hextension,
      hpath.2 (hslot hproper total hproperty rfl rfl)⟩
  · cases hrun

-- without the property the custom column does
example :
    [[total], []].map (fun properties =>
      match ((sales properties).compile { entitySet := "Sales" }).value with
      | .ok t => t.columns.filterMap fun c =>
          if c.extension.isSome then some (c.name, c.kind, c.relativePath) else none
      | .error _ => []) =
      [[("Total", .property, some "Total")], [("Total", .slot, none)]] := by
  decide +kernel

end Context

end TableCompiler
