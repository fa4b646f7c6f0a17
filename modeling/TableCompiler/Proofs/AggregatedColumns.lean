import TableCompiler.Proofs.Aggregates
import TableCompiler.Proofs.Column.Units
import TableCompiler.Proofs.CustomElements
import TableCompiler.Proofs.Uniqueness

/-!
# Columns that are aggregated

A column of an analytical table can be aggregated if it is found for a property that the service
offers to aggregate and that is no currency or unit.  Which properties are currencies or units is
told by the columns that were collected, so the currency or unit of a property is aggregated after
all if the property was collected with no column.

* `Aggregation.updateFirst_eq_map` — what is changed is the column of a name;
* `Aggregation.IsMarked`, `Scope.isMarked_aggregate` — the columns that can be aggregated;
* `Table.NeverAggregates` — a property that is not aggregated;
* `Scope.Yields.neverAggregates_iff` — when this is so;
* `Context.units_not_aggregated` — the currencies and units of a compiled table.
-/

namespace TableCompiler

namespace Aggregation

variable {columns : List Column} {path : PropertyPath} {name : String}

/-! ### The column of a property -/

theorem propertyAlias_ne_self (path : PropertyPath) : propertyAlias path ≠ path := by
  intro h
  have hlength := congrArg (fun text : String => text.toList.length) h
  rw [toList_propertyAlias, List.length_append] at hlength
  exact absurd hlength (by simp [propertyMark])

/-- The column of a property is there, and shows no others if it has the name of the property. -/
theorem exists_of_columnName? (h : columnName? columns path = some name) :
    ∃ c ∈ columns, c.name = name ∧ (name = path → c.isComposite = false) := by
  rw [columnName?] at h
  split at h
  · rename_i hplain
    obtain rfl := Option.some.inj h
    obtain ⟨c, hc, hown⟩ := List.any_eq_true.1 hplain
    rw [Bool.and_eq_true, beq_iff_eq, Bool.not_eq_true'] at hown
    exact ⟨c, hc, hown.1, fun _ => hown.2⟩
  · split at h
    · rename_i halias
      obtain rfl := Option.some.inj h
      obtain ⟨c, hc, hown⟩ := List.any_eq_true.1 halias
      exact ⟨c, hc, beq_iff_eq.1 hown, fun heq => (propertyAlias_ne_self path heq).elim⟩
    · cases h

/-- Where names are distinct the column of a property is known by its name. -/
theorem isColumnOf_iff (hnodup : (columns.map (·.name)).Nodup)
    (h : columnName? columns path = some name) {c : Column} (hc : c ∈ columns) :
    isColumnOf path name c = true ↔ c.name = name := by
  rw [isColumnOf, Bool.and_eq_true, beq_iff_eq, and_iff_left_iff_imp]
  intro hname
  obtain ⟨own, hown, hownName, hplain⟩ := exists_of_columnName? h
  obtain rfl := List.inj_on_of_nodup_map hnodup hc hown (hname.trans hownName.symm)
  by_cases hpath : name = path
  · rw [hplain hpath, Bool.not_false, Bool.or_true]
  · rw [bne_iff_ne.2 hpath, Bool.true_or]

/-- Where names are distinct and a condition picks out a name, the first column that satisfies the
condition is the one of that name. -/
theorem updateFirst_eq_map {p : Column → Bool} (f : Column → Column)
    (hnodup : (columns.map (·.name)).Nodup)
    (hp : ∀ c ∈ columns, p c = true ↔ c.name = name) :
    updateFirst p f columns = columns.map fun c => if c.name = name then f c else c := by
  induction columns with
  | nil => rfl
  | cons c rest ih =>
    rw [List.map_cons, List.nodup_cons] at hnodup
    rw [updateFirst, List.map_cons]
    by_cases hname : c.name = name
    · rw [if_pos ((hp c List.mem_cons_self).2 hname), if_pos hname]
      have hkept : ∀ other ∈ rest, (if other.name = name then f other else other) = id other := by
        intro other hother
        refine if_neg fun heq => hnodup.1 ?_
        rw [hname, ← heq]
        exact List.mem_map_of_mem hother
      rw [List.map_congr_left hkept, List.map_id]
    · rw [if_neg fun h => hname ((hp c List.mem_cons_self).1 h), if_neg hname,
        ih hnodup.2 fun other hother => hp other (List.mem_cons_of_mem c hother)]

/-! ### Marks on columns -/

variable {units : Dictionary Unit} {done : List PropertyPath} {b : List Column}

/-- Columns with nothing changed that is settled, of which those can be aggregated that are found
for one of some paths. -/
structure IsMarked (units : Dictionary Unit) (columns : List Column) (done : List PropertyPath)
    (b : List Column) : Prop where
  settled : b.map (·.settled) = columns.map (·.settled)
  marked : ∀ c ∈ b, c.aggregatable = some true ↔ ∃ path ∈ done, Wires units columns path c.name

namespace IsMarked

/-- A path for which no column is found changes nothing. -/
theorem skip (h : IsMarked units columns done b) (hnone : ∀ name, ¬ Wires units columns path name) :
    IsMarked units columns (done ++ [path]) b where
  settled := h.settled
  marked := by
    intro c hc
    rw [h.marked c hc]
    constructor
    · rintro ⟨other, hother, hwires⟩
      exact ⟨other, List.mem_append_left _ hother, hwires⟩
    · rintro ⟨other, hother, hwires⟩
      rcases List.mem_append.1 hother with hother | hother
      · exact ⟨other, hother, hwires⟩
      · rw [List.mem_singleton.1 hother] at hwires
        exact (hnone _ hwires).elim

/-- A path for which a column is found marks just that column. -/
theorem update (h : IsMarked units columns done b) (hnodup : (columns.map (·.name)).Nodup)
    (hwires : Wires units columns path name) {f : Column → Column}
    (hf : ∀ c, (f c).settled = c.settled ∧ (f c).aggregatable = some true) :
    IsMarked units columns (done ++ [path]) (updateFirst (isColumnOf path name) f b) where
  settled := (settled_updateFirst _ (fun c => (hf c).1) b).trans h.settled
  marked := by
    have hnames : b.map (·.name) = columns.map (·.name) := by
      have hsettled := congrArg (List.map (·.name)) h.settled
      rw [List.map_map, List.map_map] at hsettled
      exact hsettled
    have hfound : columnName? b path = some name :=
      (columnName?_of_settled h.settled path).trans hwires.found
    have hself : path ∈ done ++ [path] := List.mem_append_right _ (List.mem_singleton_self path)
    rw [updateFirst_eq_map f (hnames ▸ hnodup) fun c hc =>
      isColumnOf_iff (hnames ▸ hnodup) hfound hc]
    intro c hc
    obtain ⟨old, hold, rfl⟩ := List.mem_map.1 hc
    split
    · rename_i hname
      have hsame : (f old).name = name :=
        (Column.name_eq_of_settled (hf old).1).trans hname
      exact iff_of_true (hf old).2 ⟨path, hself, hsame ▸ hwires⟩
    · rename_i hname
      rw [h.marked old hold]
      constructor
      · rintro ⟨other, hother, hwires'⟩
        exact ⟨other, List.mem_append_left _ hother, hwires'⟩
      · rintro ⟨other, hother, hwires'⟩
        rcases List.mem_append.1 hother with hother | hother
        · exact ⟨other, hother, hwires'⟩
        · -- a path finds one column only, and that has another name
          rw [List.mem_singleton.1 hother] at hwires'
          exact (hname (Option.some.inj (hwires'.found.symm.trans hwires.found))).elim

variable {a : Aggregation}

/-- One more custom aggregate. -/
theorem wireAggregate (h : IsMarked units columns done a.columns)
    (hnodup : (columns.map (·.name)).Nodup) (entry : String × CustomAggregate) :
    IsMarked units columns (done ++ [entry.1])
      (Scope.wireAggregate units a entry).value.columns := by
  obtain ⟨path, aggregate⟩ := entry
  simp only [Scope.wireAggregate]
  split
  · rename_i hunit
    refine h.skip fun name hwires => ?_
    rw [hwires.notUnit] at hunit
    cases hunit
  · rename_i hunit
    rw [columnName?_of_settled h.settled]
    split
    · rename_i name hname
      exact h.update hnodup ⟨Bool.eq_false_iff.2 hunit, hname⟩ fun c => ⟨rfl, rfl⟩
    · rename_i hnone
      refine h.skip fun name hwires => ?_
      cases hnone.symm.trans hwires.found

/-- One more property that the service offers to aggregate. -/
theorem mark (h : IsMarked units columns done a.columns) (hnodup : (columns.map (·.name)).Nodup)
    (hunit : units.contains path = false) :
    IsMarked units columns (done ++ [path]) (a.mark path).columns := by
  rw [Aggregation.mark, columnName?_of_settled h.settled]
  split
  · rename_i name hname
    exact h.update hnodup ⟨hunit, hname⟩ fun c => ⟨rfl, rfl⟩
  · rename_i hnone
    refine h.skip fun name hwires => ?_
    cases hnone.symm.trans hwires.found

theorem foldl_wireAggregate (h : IsMarked units columns done a.columns)
    (hnodup : (columns.map (·.name)).Nodup) (entries : List (String × CustomAggregate)) :
    IsMarked units columns (done ++ entries.map (·.1))
      (entries.foldl (fun a entry => (Scope.wireAggregate units a entry).value) a).columns := by
  induction entries generalizing done a with
  | nil =>
    rw [List.map_nil, List.append_nil]
    exact h
  | cons entry entries ih =>
    have hnext := ih (h.wireAggregate hnodup entry)
    rw [List.append_assoc, List.singleton_append] at hnext
    exact hnext

theorem foldl_mark (h : IsMarked units columns done a.columns)
    (hnodup : (columns.map (·.name)).Nodup) {paths : List PropertyPath}
    (hunits : ∀ path ∈ paths, units.contains path = false) :
    IsMarked units columns (done ++ paths) (paths.foldl Aggregation.mark a).columns := by
  induction paths generalizing done a with
  | nil =>
    rw [List.append_nil]
    exact h
  | cons path paths ih =>
    have hnext := ih (h.mark hnodup (hunits path List.mem_cons_self))
      fun other hother => hunits other (List.mem_cons_of_mem path hother)
    rw [List.append_assoc, List.singleton_append] at hnext
    exact hnext

end IsMarked

end Aggregation

namespace Scope

open Aggregation (Wires IsMarked)

variable {s : Scope}

/-- What the service offers to aggregate: the properties with custom aggregates, and those that can
be aggregated. -/
def aggregateCandidates (s : Scope) : List PropertyPath :=
  s.entityType.annotations.customAggregates.keys ++
    (s.entityType.annotations.applySupported.map (·.aggregatableProperties)).getD []

/-- **Columns that can be aggregated.**  In an analytical table these are the ones that are found
for what is offered to be aggregated and is no unit. -/
theorem isMarked_aggregate {units : Dictionary Unit} {columns : List Column}
    (hanalytical : s.isAnalytical = true) (hnodup : (columns.map (·.name)).Nodup)
    (hfresh : ∀ c ∈ columns, c.aggregatable = none) :
    IsMarked units columns s.aggregateCandidates (s.aggregate units columns).value.columns := by
  have hstart : IsMarked units columns [] (⟨columns, .empty⟩ : Aggregation).columns := by
    refine ⟨rfl, fun c hc => ?_⟩
    rw [hfresh c hc]
    refine iff_of_false (fun h => by cases h) ?_
    rintro ⟨path, hpath, -⟩
    cases hpath
  have hunits : ∀ path ∈ ((s.entityType.annotations.applySupported.map
      (·.aggregatableProperties)).getD []).filter (!units.contains ·),
      units.contains path = false := by
    intro path hpath
    have hunit := (List.mem_filter.1 hpath).2
    rwa [Bool.not_eq_true'] at hunit
  have hmarked := (hstart.foldl_wireAggregate hnodup
    s.entityType.annotations.customAggregates.entries).foldl_mark hnodup hunits
  have hcolumns : (s.aggregate units columns).value.columns =
      ((((s.entityType.annotations.applySupported.map (·.aggregatableProperties)).getD []).filter
        (!units.contains ·)).foldl Aggregation.mark
        (s.entityType.annotations.customAggregates.entries.foldl
          (fun a entry => (wireAggregate units a entry).value) ⟨columns, .empty⟩)).columns := by
    simp only [aggregate, hanalytical, Bool.not_true, Bool.false_eq_true, if_false,
      Reported.value_bind, Reported.value_foldlM, Reported.value_pure]
  rw [hcolumns]
  refine ⟨hmarked.settled, fun c hc => (hmarked.marked c hc).trans ?_⟩
  -- units are left out beforehand, and would not be wired anyhow
  rw [List.nil_append]
  constructor
  · rintro ⟨path, hpath, hwires⟩
    refine ⟨path, ?_, hwires⟩
    rcases List.mem_append.1 hpath with hpath | hpath
    · exact List.mem_append_left _ hpath
    · exact List.mem_append_right _ (List.mem_filter.1 hpath).1
  · rintro ⟨path, hpath, hwires⟩
    refine ⟨path, ?_, hwires⟩
    rcases List.mem_append.1 hpath with hpath | hpath
    · exact List.mem_append_left _ hpath
    · refine List.mem_append_right _ (List.mem_filter.2 ⟨hpath, ?_⟩)
      rw [hwires.notUnit]
      rfl

/-- Nothing is aggregated beforehand. -/
theorem unwired_mergeColumns {c : Column} (h : c ∈ (s.mergeColumns s.builtColumns).value) :
    c.aggregatable = none ∧ c.extension = none := by
  rcases mem_mergeColumns h with ⟨b, hb, rfl | ⟨entry, rfl⟩⟩ | ⟨entry, key, names, rfl⟩
  · exact ⟨(isUntouched hb).aggregatable, (isUntouched hb).extension⟩
  · exact ⟨(isUntouched hb).aggregatable, (isUntouched hb).extension⟩
  · exact ⟨rfl, rfl⟩

end Scope

/-! ### Properties that are not aggregated -/

/-- A property is not aggregated: no aggregate is that of the property, and no column of its name or
second name can be aggregated. -/
structure Table.NeverAggregates (t : Table) (path : PropertyPath) : Prop where
  aggregates : ∀ aggregates, t.aggregates = some aggregates → ∀ name definition,
    aggregates.get? name = some definition → definition.relativePath ≠ path
  columns : ∀ c ∈ t.columns, c.name = path ∨ c.name = propertyAlias path →
    c.aggregatable ≠ some true

namespace Scope

open Aggregation (Wires IsMarked)

variable {s : Scope} {t : Table}

/-- Aggregation does not change the names of the merged columns. -/
theorem Yields.nodup_merged (h : s.Yields t) :
    ((s.mergeColumns s.builtColumns).value.map (·.name)).Nodup := by
  have hsame := congrArg (List.map (·.name))
    (s.settled_aggregate s.pool.value.units (s.mergeColumns s.builtColumns).value)
  rw [List.map_map, List.map_map] at hsame
  have hdistinct := h.columns_areDistinct.names
  rw [h.columns] at hdistinct
  exact hsame ▸ hdistinct

/-- **When a property is not aggregated**: it is noted as a unit, it is not offered, or it has no
column. -/
theorem Yields.neverAggregates_iff (h : s.Yields t) (hanalytical : s.isAnalytical = true)
    (hplain : ∀ path ∈ s.aggregateCandidates, ':' ∉ path.toList) {path : PropertyPath}
    (hpath : ':' ∉ path.toList) :
    t.NeverAggregates path ↔ s.NotesUnit path ∨ path ∉ s.aggregateCandidates ∨
      Aggregation.columnName? t.columns path = none := by
  have hmarked : IsMarked s.pool.value.units (s.mergeColumns s.builtColumns).value
      s.aggregateCandidates t.columns := by
    rw [h.columns]
    exact isMarked_aggregate hanalytical h.nodup_merged fun _ hc => (unwired_mergeColumns hc).1
  have hfound : Aggregation.columnName? t.columns path =
      Aggregation.columnName? (s.mergeColumns s.builtColumns).value path :=
    Aggregation.columnName?_of_settled hmarked.settled path
  have hmarks : ∀ {path : PropertyPath}, ':' ∉ path.toList →
      ¬ propertyMark.toList <+: path.toList := not_mark_prefix_of_not_mem
  constructor
  · intro hnever
    by_contra hcontra
    rw [not_or, not_or, not_not] at hcontra
    obtain ⟨hunit, hoffered, hcolumn⟩ := hcontra
    obtain ⟨name, hname⟩ := Option.ne_none_iff_exists'.1 hcolumn
    obtain ⟨c, hc, hcname, -⟩ := Aggregation.exists_of_columnName? hname
    have hwires : Wires s.pool.value.units (s.mergeColumns s.builtColumns).value path c.name := by
      refine ⟨?_, ?_⟩
      · rw [← Bool.not_eq_true, contains_units_iff]
        exact hunit
      · rw [← hfound, hname, hcname]
    refine hnever.columns c hc ?_ ((hmarked.marked c hc).2 ⟨path, hoffered, hwires⟩)
    rw [hcname]
    exact Aggregation.columnName?_cases hname
  · intro hreason
    have hnone : ∀ name, path ∈ s.aggregateCandidates →
        ¬ Wires s.pool.value.units (s.mergeColumns s.builtColumns).value path name := by
      intro name hoffered hwires
      rcases hreason with hunit | hnot | hcolumn
      · have hcontains := contains_units_iff.2 hunit
        rw [hwires.notUnit] at hcontains
        cases hcontains
      · exact hnot hoffered
      · rw [hfound, hwires.found] at hcolumn
        cases hcolumn
    refine ⟨?_, ?_⟩
    · intro aggregates haggregates name definition hget hrelative
      rw [h.aggregates] at haggregates
      have hholds := get?_aggregates haggregates fun key hkey =>
        hmarks (hplain key (List.mem_append_left _ hkey))
      obtain ⟨entry, hentry, hwires, rfl⟩ := (hholds name definition).1 hget
      obtain rfl : entry.1 = path := hrelative
      exact hnone name (List.mem_append_left _ (List.mem_map_of_mem hentry)) hwires
    · intro c hc hname haggregatable
      obtain ⟨other, hother, hwires⟩ := (hmarked.marked c hc).1 haggregatable
      have hsame : other = path := path_eq_of_names (hmarks (hplain other hother)) (hmarks hpath)
        (Aggregation.columnName?_cases hwires.found) hname
      exact hnone c.name (hsame ▸ hother) (hsame ▸ hwires)

end Scope

namespace Context

/-- **Currencies and units.**  In an analytical table a property is not aggregated if it is noted as
a currency or unit, and otherwise only if it is not offered or has no column.  The currency or unit
of a primitive property of the rows is noted, however the property is shown, unless the text of an
earlier property takes its place. -/
theorem units_not_aggregated (c : Context) (r : TableRequest) (scope : Reported Scope) (t : Table)
    (hscope : c.resolve r = .ok scope) (h : (c.compile r).value = .ok t)
    (hanalytical : scope.value.isAnalytical = true) (hnames : c.service.HasSimpleNames)
    (hplain : ∀ path ∈ scope.value.aggregateCandidates, ':' ∉ path.toList) :
    (∀ unit, scope.value.service.Finds scope.value.entityType unit →
      (t.NeverAggregates unit ↔ scope.value.NotesUnit unit ∨
        unit ∉ scope.value.aggregateCandidates ∨
        Aggregation.columnName? t.columns unit = none)) ∧
    ∀ before p after, scope.value.entityType.properties = before ++ p :: after →
      p.isPrimitive = true → ∀ unit,
      scope.value.service.MeasuredBy scope.value.entityType p.name unit →
      ¬ scope.value.IsForestalled before p → t.NeverAggregates unit := by
  obtain ⟨settled, hsettled, hyields⟩ := exists_yields h
  obtain rfl := Except.ok.inj (hscope.symm.trans hsettled)
  obtain ⟨hservice, htype⟩ := entityType_mem hscope
  rw [← hservice] at hnames htype
  have hiff : ∀ unit, scope.value.service.Finds scope.value.entityType unit →
      (t.NeverAggregates unit ↔ scope.value.NotesUnit unit ∨
        unit ∉ scope.value.aggregateCandidates ∨
        Aggregation.columnName? t.columns unit = none) := by
    intro unit hfinds
    obtain ⟨target, htarget⟩ := Option.isSome_iff_exists.1 hfinds
    exact hyields.neverAggregates_iff hanalytical hplain
      ((hnames ':' (by decide)).not_mem_path (by decide) htype htarget)
  refine ⟨hiff, fun before p after hturn hprimitive unit hunit hfree => ?_⟩
  obtain ⟨-, -, -, -, -, hfinds⟩ := id hunit
  exact (hiff unit hfinds).2
    (.inl (Scope.notesUnit_of_measuredBy hnames htype hturn hprimitive hunit hfree))

/-- Products with an amount in a unit, which is also offered to be aggregated; the amount is the
text of the product and is declared before or after it. -/
def products (amountFirst : Bool) : Context where
  service := {
    entitySets := [{ name := "Products", entityType := "shop.Product" }]
    entityTypes := [
      { name := "shop.Product"
        properties :=
          let product : Property :=
            { name := "Product", typeName := "Edm.String",
              annotations := { text := some "Amount", textArrangement := some .textOnly } }
          let amount : Property :=
            { name := "Amount", typeName := "Edm.Decimal",
              annotations := { unit := some (.path "Unit") } }
          { name := "ID", typeName := "Edm.String" } ::
            (if amountFirst then [amount, product] else [product, amount]) ++
              [{ name := "Unit", typeName := "Edm.String" }]
        annotations := {
          lineItems := .ofList [("", [DataField.value ⟨.plain, "ID", none, {}⟩])]
          applySupported := some {}
          customAggregates := .ofList [("Unit", {})] } }] }
  manifest := { controls := .ofList [("@UI.LineItem",
    { tableSettings := { tableType := some .analytical } })] }

/-- The unit of the amount is not aggregated if the amount is declared first. -/
theorem units_not_aggregated_products :
    ∃ scope t before p, (products true).resolve { entitySet := "Products" } = .ok scope ∧
      ((products true).compile { entitySet := "Products" }).value = .ok t ∧
      scope.value.service.MeasuredBy scope.value.entityType p.name "Unit" ∧
      ¬ scope.value.IsForestalled before p ∧ "Unit" ∈ scope.value.aggregateCandidates ∧
      t.NeverAggregates "Unit" := by
  have hsimple : (products true).service.HasSimpleNames := by decide
  have hrun : (match (products true).resolve { entitySet := "Products" },
      ((products true).compile { entitySet := "Products" }).value with
    | .ok scope, .ok _ =>
      (scope.value.entityType.properties.drop 1).head?.any fun p => decide (
        p.isPrimitive = true ∧ scope.value.isAnalytical = true ∧
        scope.value.service.MeasuredBy scope.value.entityType p.name "Unit" ∧
        (∀ q ∈ scope.value.entityType.properties.take 1,
          (scope.value.service.partners? scope.value.entityType q.name).bind
            (·.textOnly?) = none) ∧
        scope.value.aggregateCandidates = ["Unit"])
    | _, _ => false) = true := by decide +kernel
  split at hrun
  · rename_i scope t hscope ht
    obtain ⟨p, hhead, hchecked⟩ := (Option.any_eq_true _ _).1 hrun
    obtain ⟨hprimitive, hanalytical, hunit, htexts, hoffered⟩ := of_decide_eq_true hchecked
    obtain ⟨after, hafter⟩ := List.head?_eq_some_iff.1 hhead
    have hturn : scope.value.entityType.properties =
        scope.value.entityType.properties.take 1 ++ p :: after := by
      rw [← hafter, List.take_append_drop]
    have hfree : ¬ scope.value.IsForestalled (scope.value.entityType.properties.take 1) p := by
      rintro ⟨earlier, q, text, hfront, -, -, htext, -⟩
      have hq := hfront.subset (List.mem_append_right _ (List.mem_singleton_self q))
      have hnone := htexts q hq
      rw [Service.ShowsText.iff_partners.1 htext] at hnone
      cases hnone
    have hplain : ∀ path ∈ scope.value.aggregateCandidates, ':' ∉ path.toList := by
      rw [hoffered]
      decide
    have hunits := (products true).units_not_aggregated { entitySet := "Products" } scope t hscope
      ht hanalytical hsimple hplain
    exact ⟨scope, t, _, p, hscope, ht, hunit, hfree, by rw [hoffered]; decide,
      hunits.2 _ p after hturn hprimitive "Unit" hunit hfree⟩
  · cases hrun

-- the amount is shown as the text of the product when it is its turn, and its unit is aggregated
example :
    (match ((products false).compile { entitySet := "Products" }).value with
    | .ok t => (t.aggregates.map (·.keys),
        t.columns.filterMap fun c => if c.aggregatable = some true then some c.name else none)
    | .error _ => (none, [])) = (some ["Unit"], ["Unit"]) := by
  decide +kernel

end Context

end TableCompiler
