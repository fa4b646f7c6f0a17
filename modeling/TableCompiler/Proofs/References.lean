import TableCompiler.Proofs.AnnotationPath
import TableCompiler.Proofs.Column.References
import TableCompiler.Proofs.Conditions
import TableCompiler.Proofs.Uniqueness

/-!
# References in a table

Columns refer to columns, and sorting, grouping, totals and aggregates refer to columns too.  All
of them do so by the name of a column of the table.  Where no name of the service has a colon, the
references between columns are one level deep besides: a second name of a property starts like no
other name, so it is free for a hidden column.

* `Scope.collected_isFresh`, `Scope.hiddenColumn?_isFaithful` — the linking starts well;
* `Scope.collected_avoidsAliases` — and finds second names free;
* `Table.IsClosed`, `Table.IsFlat` — references lead to columns, and to such as show no others;
* `Context.references_closed` — a whole table.
-/

namespace TableCompiler

/-! ### The pool before linking -/

namespace Scope

variable {s : Scope}

theorem collected_isFresh (s : Scope) : s.collected.IsFresh where
  distinct := s.collected_isDistinct
  links := fun _ he => (collects_of_mem he).links_eq.1
  additionalLinks := fun _ he => (collects_of_mem he).links_eq.2
  isComposite := fun _ he => (collects_of_mem he).isComposite_eq

/-- The hidden column of a property is the one that was asked for. -/
theorem hiddenColumn?_isFaithful (s : Scope) : IsFaithful s.hiddenColumn? := by
  have hall : ∀ {hidden column}, s.hiddenColumn? hidden = some column →
      column.name = hidden.name ∧ column.key = hidden.key ∧
        column.relativePath = some hidden.path := by
    intro hidden column h
    obtain ⟨t, ht, rfl⟩ := Option.map_eq_some_iff.1 h
    have hpath : t.path = hidden.path := Service.property?_path ht
    dsimp only
    split
    · exact ⟨rfl, rfl, congrArg some hpath⟩
    · exact ⟨rfl, rfl, congrArg some hpath⟩
  exact ⟨fun h => (hall h).1, fun h => (hall h).2.1, fun h => (hall h).2.2⟩

theorem not_mark_prefix_of_not_mem {text : String} (h : ':' ∉ text.toList) :
    ¬ propertyMark.toList <+: text.toList :=
  fun hmarked => h (hmarked.subset (by decide))

/-- The name of the column of a record is a path of the record, which starts like no second
name. -/
theorem Renders.not_mark_prefix (hs : s.service.NamesAvoid ':')
    (ht : s.entityType ∈ s.service.entityTypes) {field : DataField} {key : String}
    {column : Column} (h : s.Renders field key column) :
    ¬ propertyMark.toList <+: column.name.toList := by
  cases h with
  | value hfield hproperty hprimitive =>
    refine not_mark_prefix_of_not_mem ?_
    show ':' ∉ (PropertyTarget.path _).toList
    rw [Service.property?_path hproperty]
    exact hs.not_mem_path (by decide) ht hproperty
  | group hfield hpath hresolved htarget => exact hs.not_mark_prefix ht hpath hresolved
  | point hfield hpath hresolved htarget hvalue => exact hs.not_mark_prefix ht hpath hresolved

/-- **Second names are free** before the linking. -/
theorem collected_avoidsAliases (hs : s.service.NamesAvoid ':')
    (ht : s.entityType ∈ s.service.entityTypes) : s.collected.AvoidsAliases := by
  have hnames : ∀ e ∈ s.collected.entries, ¬ propertyMark.toList <+: e.name.toList := by
    intro e he
    cases collects_of_mem he with
    | record hfield hcolumn =>
      obtain ⟨key, -, hrenders⟩ := recordColumn_eq_some hcolumn
      exact hrenders.not_mark_prefix hs ht
    | @property p t hp hprimitive hproperty isTextOnly =>
      have hname : (s.propertyEntry p t isTextOnly).name = p.name := by
        cases isTextOnly <;> rfl
      rw [hname]
      exact not_mark_prefix_of_not_mem (hs.property _ ht p hp)
    | text hp htext hproperty =>
      exact not_mark_prefix_of_not_mem (hs.not_mem_path (by decide) ht hproperty)
  intro path hmem
  obtain ⟨e, he, heq⟩ := List.mem_map.1 hmem
  refine hnames e he ?_
  rw [heq, propertyAlias, String.toList_append]
  exact List.prefix_append _ _

end Scope

/-! ### References of columns -/

namespace Column

/-- A column refers to columns of the given names, to none twice. -/
structure RefersWithin (c : Column) (names : List String) : Prop where
  shown : c.propertyInfos ⊆ names
  loaded : c.additionalPropertyInfos ⊆ names
  nodup : (c.propertyInfos ++ c.additionalPropertyInfos).Nodup

/-- A column refers to another one. -/
def RefersTo (c : Column) (name : String) : Prop :=
  name ∈ c.propertyInfos ∨ name ∈ c.additionalPropertyInfos

variable {b c : Column}

theorem RefersWithin.of_settled {names : List String} (hb : b.RefersWithin names)
    (h : b.settled = c.settled) : c.RefersWithin names := by
  have hshown := propertyInfos_eq_of_settled h
  have hloaded := additionalPropertyInfos_eq_of_settled h
  refine ⟨?_, ?_, ?_⟩
  · rw [← hshown]
    exact hb.shown
  · rw [← hloaded]
    exact hb.loaded
  · rw [← hshown, ← hloaded]
    exact hb.nodup

theorem RefersTo.of_settled {name : String} (hc : c.RefersTo name) (h : b.settled = c.settled) :
    b.RefersTo name := by
  rw [RefersTo, propertyInfos_eq_of_settled h, additionalPropertyInfos_eq_of_settled h]
  exact hc

end Column

namespace Scope

variable {s : Scope}

theorem exists_of_mem_builtColumns {b : Column} (hb : b ∈ s.builtColumns) :
    ∃ e ∈ (s.collected.link s.hiddenColumn?).pool.entries, b = e.linkedColumn := by
  rw [builtColumns, value_pool, ColumnPool.columns, List.mem_map] at hb
  obtain ⟨e, he, rfl⟩ := hb
  exact ⟨e, he, rfl⟩

theorem linkedColumn_mem_builtColumns {e : PooledColumn}
    (he : e ∈ (s.collected.link s.hiddenColumn?).pool.entries) :
    e.linkedColumn ∈ s.builtColumns := by
  rw [builtColumns, value_pool]
  exact List.mem_map_of_mem he

theorem names_builtColumns (s : Scope) :
    s.builtColumns.map (·.name) = (s.collected.link s.hiddenColumn?).pool.names := by
  rw [builtColumns, value_pool, ColumnPool.columns, List.map_map]
  rfl

/-- Built columns refer to built columns. -/
theorem refersWithin_of_built {b : Column} (hb : b ∈ s.builtColumns) :
    b.RefersWithin (s.builtColumns.map (·.name)) := by
  obtain ⟨e, he, rfl⟩ := exists_of_mem_builtColumns hb
  obtain ⟨hshown, hloaded⟩ := s.collected_isFresh.link_closed he
  rw [names_builtColumns]
  exact ⟨hshown, hloaded, s.collected_isFresh.link_nodup he⟩

/-- Built columns refer to other columns, and to such as show no properties. -/
theorem flat_of_built (hs : s.service.NamesAvoid ':') (ht : s.entityType ∈ s.service.entityTypes)
    {b d : Column} (hb : b ∈ s.builtColumns) (hd : d ∈ s.builtColumns) (h : b.RefersTo d.name) :
    d.name ≠ b.name ∧ d.propertyInfos = [] := by
  obtain ⟨e, he, rfl⟩ := exists_of_mem_builtColumns hb
  obtain ⟨e', he', rfl⟩ := exists_of_mem_builtColumns hd
  exact s.collected_isFresh.link_flat s.hiddenColumn?_isFaithful
    (collected_avoidsAliases hs ht) he he' h

end Scope

namespace Columns.IsCustom

variable {columns : Columns} {c : Column}

/-- A custom column refers to built columns that show no others. -/
theorem refersWithin (h : columns.IsCustom c) : c.RefersWithin (columns.map (·.name)) := by
  obtain ⟨entry, names, ⟨hnodup, hplain⟩, heq⟩ := h.exists_entry
  rw [heq]
  refine ⟨?_, List.nil_subset _, ?_⟩
  · intro name hname
    obtain ⟨b, hb, rfl, -⟩ := hplain name hname
    exact List.mem_map_of_mem hb
  · show (names ++ []).Nodup
    rw [List.append_nil]
    exact hnodup

theorem exists_plain (h : columns.IsCustom c) {name : String} (hname : c.RefersTo name) :
    ∃ b ∈ columns, b.name = name ∧ b.propertyInfos = [] := by
  obtain ⟨entry, names, ⟨-, hplain⟩, heq⟩ := h.exists_entry
  rw [heq] at hname
  rcases hname with hname | hname
  · exact hplain name hname
  · exact (List.not_mem_nil hname).elim

end Columns.IsCustom

/-! ### References of a table -/

namespace Table

/-- Whatever refers to a column does so by the name of a column of the table, and no column refers
to another one twice. -/
structure IsClosed (t : Table) : Prop where
  columns : ∀ c ∈ t.columns, c.RefersWithin (t.columns.map (·.name))
  sorters : ∀ sorters, t.configuration.sorters = some sorters →
    ∀ sorter ∈ sorters, sorter.name ∈ t.columns.map (·.name)
  groupLevels : ∀ levels, t.configuration.groupLevels = some levels →
    levels ⊆ t.columns.map (·.name)
  totals : ∀ totals, t.configuration.totals = some totals → totals.keys ⊆ t.columns.map (·.name)
  aggregates : ∀ aggregates, t.aggregates = some aggregates →
    aggregates.keys ⊆ t.columns.map (·.name)

/-- Columns refer to other columns, and to such as show no properties themselves. -/
structure IsFlat (t : Table) : Prop where
  irrefl : ∀ c ∈ t.columns, ¬ c.RefersTo c.name
  depth : ∀ c ∈ t.columns, ∀ d ∈ t.columns, c.RefersTo d.name → d.propertyInfos = []

end Table

namespace Scope.Yields

variable {s : Scope} {t : Table}

/-- The names of the built columns are names of the table. -/
theorem names_subset (h : s.Yields t) :
    s.builtColumns.map (·.name) ⊆ t.columns.map (·.name) := by
  intro name hname
  obtain ⟨b, hb, rfl⟩ := List.mem_map.1 hname
  obtain ⟨c, hc, heq⟩ := h.exists_mem hb
  exact List.mem_map.2 ⟨c, hc, Column.name_eq_of_settled heq⟩

theorem isClosed (h : s.Yields t) : t.IsClosed := by
  obtain ⟨variant, hvariant⟩ := h.conditions
  obtain ⟨hsorters, hlevels, htotals⟩ := mem_of_conditions hvariant
  refine ⟨?_, hsorters, hlevels, htotals, ?_⟩
  · intro c hc
    have hwithin : ∀ b : Column, b.RefersWithin (s.builtColumns.map (·.name)) →
        b.settled = c.settled → c.RefersWithin (t.columns.map (·.name)) := by
      intro b hb heq
      have hc := hb.of_settled heq
      exact ⟨List.Subset.trans hc.shown h.names_subset, List.Subset.trans hc.loaded h.names_subset,
        hc.nodup⟩
    rcases h.of_mem hc with ⟨b, hb, heq⟩ | ⟨b, hb, heq⟩
    · exact hwithin b (refersWithin_of_built hb) heq
    · exact hwithin b hb.refersWithin heq
  · intro aggregates haggregates
    rw [h.aggregates, analytics] at haggregates
    have hkeys := keys_aggregates_subset s _ _ haggregates
    have hnames : t.columns.map (·.name) =
        (s.mergeColumns s.builtColumns).value.map (·.name) := by
      rw [h.columns]
      exact Column.names_eq_of_settled (s.settled_aggregate _ _)
    rw [hnames]
    exact hkeys

/-- Where no name has a colon, every reference leads to another column without references. -/
theorem flat_of_refersTo (h : s.Yields t) (hs : s.service.NamesAvoid ':')
    (ht : s.entityType ∈ s.service.entityTypes) {c d : Column} (hc : c ∈ t.columns)
    (hd : d ∈ t.columns) (href : c.RefersTo d.name) :
    d.name ≠ c.name ∧ d.propertyInfos = [] := by
  -- a custom column is no target, since references lead to built columns
  have htarget : (∃ b ∈ s.builtColumns, b.name = d.name) →
      ∃ e ∈ s.builtColumns, e.settled = d.settled := by
    rintro ⟨b, hb, hname⟩
    rcases h.of_mem hd with hbuilt | ⟨custom, hcustom, heq⟩
    · exact hbuilt
    · refine (hcustom.name_ne b hb ?_).elim
      rw [hname, Column.name_eq_of_settled heq]
  rcases h.of_mem hc with ⟨b, hb, heq⟩ | ⟨b, hb, heq⟩
  · have hb' : b.RefersTo d.name := href.of_settled heq
    have hwithin := refersWithin_of_built hb
    have hname : d.name ∈ s.builtColumns.map (·.name) :=
      hb'.elim (fun hmem => hwithin.shown hmem) (fun hmem => hwithin.loaded hmem)
    obtain ⟨e, he, hed⟩ := htarget (List.mem_map.1 hname)
    have hed' := Column.name_eq_of_settled hed
    rw [← hed'] at hb' ⊢
    rw [← Column.name_eq_of_settled heq, ← Column.propertyInfos_eq_of_settled hed]
    exact flat_of_built hs ht hb he hb'
  · obtain ⟨plain, hplain, hname, hnil⟩ := hb.exists_plain (href.of_settled heq)
    obtain ⟨e, he, hed⟩ := htarget ⟨plain, hplain, hname⟩
    have hsame : plain = e := by
      refine s.builtColumns_areDistinct.eq_of_name hplain he ?_
      rw [hname, Column.name_eq_of_settled hed]
    refine ⟨?_, ?_⟩
    · rw [← hname, ← Column.name_eq_of_settled heq]
      exact hb.name_ne plain hplain
    · rw [← Column.propertyInfos_eq_of_settled hed, ← hsame]
      exact hnil

end Scope.Yields

namespace Context

/-- **Reference integrity.**  In a table that is compiled, everything that refers to a column
refers to one of the table.  Where no property and no navigation property of the service has a
colon in its name, no column refers to itself and references are one level deep. -/
theorem references_closed (c : Context) (r : TableRequest) (t : Table)
    (h : (c.compile r).value = .ok t) :
    t.IsClosed ∧ (c.service.NamesAvoid ':' → t.IsFlat) := by
  obtain ⟨scope, hscope, hyields⟩ := exists_yields h
  obtain ⟨hservice, htype⟩ := entityType_mem hscope
  refine ⟨hyields.isClosed, fun hs => ?_⟩
  rw [← hservice] at hs htype
  refine ⟨?_, ?_⟩
  · intro column hcolumn href
    exact (hyields.flat_of_refersTo hs htype hcolumn hcolumn href).1 rfl
  · intro column hcolumn other hother href
    exact (hyields.flat_of_refersTo hs htype hcolumn hother href).2

theorem references_closed_orders :
    ∃ t, (orders.compile { entitySet := "Orders" }).value = .ok t ∧ t.IsClosed ∧
      orders.service.NamesAvoid ':' ∧ t.IsFlat := by
  obtain ⟨t, ht⟩ := orders_compiles
  obtain ⟨hclosed, hflat⟩ := orders.references_closed { entitySet := "Orders" } t ht
  have hnames : orders.service.NamesAvoid ':' := by decide
  exact ⟨t, ht, hclosed, hnames, hflat hnames⟩

end Context

end TableCompiler
