import TableCompiler.Proofs.Column.Origin

/-!
# Columns that rows can be sorted by

A column that shows a property can be sorted by only if the property can: the entity set of the rows
does not restrict it, its type has an order, and it has a single value.  For the column of a record
this is the whole condition.  A custom column does not ask: rows can be sorted by it as soon as an
entry of the manifest names a property for it, even where no row can be sorted at all.

* `Scope.CanSortBy`, `Scope.isSortable_iff` — properties that rows can be sorted by;
* `Scope.ShowsSortable` — a column shows such a property;
* `Scope.Renders.sortable_iff`, `Scope.sortable_built` — columns as they are built;
* `Scope.Yields.sortable_custom` — custom columns;
* `Context.columns_sortable` — the columns of a compiled table.
-/

namespace TableCompiler

namespace Scope

variable {s : Scope}

/-! ### Properties -/

/-- The entity set of the rows declares that they cannot be sorted. -/
def ForbidsSorting (s : Scope) : Prop :=
  ∃ restrictions, s.targetSet.annotations.sortRestrictions = some restrictions ∧
    restrictions.sortable = some false

/-- Rows can be sorted by a property: nothing restricts it, and it has one value, of a type with an
order. -/
structure CanSortBy (s : Scope) (t : PropertyTarget) : Prop where
  allowed : ¬ s.ForbidsSorting
  unlisted : ∀ restrictions, s.targetSet.annotations.sortRestrictions = some restrictions →
    t.path ∉ restrictions.nonSortableProperties
  ordered : isSortableType t.property.typeName = true
  single : t.isMultiValue = false

theorem isSortable_iff {t : PropertyTarget} : s.isSortable t = true ↔ s.CanSortBy t := by
  have hrestricted : (!s.targetSet.annotations.sortRestrictions.any (·.forbids t.path)) = true ↔
      ¬ s.ForbidsSorting ∧ ∀ restrictions,
        s.targetSet.annotations.sortRestrictions = some restrictions →
        t.path ∉ restrictions.nonSortableProperties := by
    rw [ForbidsSorting]
    cases s.targetSet.annotations.sortRestrictions with
    | none => simp
    | some restrictions => simp [SortRestrictions.forbids]
  rw [isSortable, Bool.and_eq_true, Bool.and_eq_true, hrestricted, Bool.not_eq_true']
  constructor
  · rintro ⟨⟨⟨hallowed, hunlisted⟩, hordered⟩, hsingle⟩
    exact ⟨hallowed, hunlisted, hordered, hsingle⟩
  · rintro ⟨hallowed, hunlisted, hordered, hsingle⟩
    exact ⟨⟨⟨hallowed, hunlisted⟩, hordered⟩, hsingle⟩

/-- A column shows a property of the rows that they can be sorted by. -/
def ShowsSortable (s : Scope) (c : Column) : Prop :=
  ∃ t, c.relativePath = some t.path ∧ s.property? t.path = some t ∧ s.CanSortBy t

theorem showsSortable_iff {c : Column} {path : PropertyPath} {t : PropertyTarget}
    (ht : s.property? path = some t) (hpath : c.relativePath = some t.path) :
    s.ShowsSortable c ↔ s.isSortable t = true := by
  have hself : s.property? t.path = some t := by
    rw [Service.property?_path ht]
    exact ht
  rw [isSortable_iff]
  constructor
  · rintro ⟨other, hother, hfound, hsort⟩
    rw [← Option.some.inj (hpath.symm.trans hother), hself] at hfound
    exact Option.some.inj hfound ▸ hsort
  · intro hsort
    exact ⟨t, hpath, hself, hsort⟩

/-! ### Columns as they are built -/

/-- Rows can be sorted by the column of a record exactly if it shows a property that they can be
sorted by.  The column of a group shows none. -/
theorem Renders.sortable_iff {field : DataField} {key : String} {column : Column}
    (h : s.Renders field key column) : column.sortable = true ↔ s.ShowsSortable column := by
  cases h with
  | value hfield ht hprimitive => exact (showsSortable_iff ht rfl).symm
  | group hfield hpath hresolved htarget =>
    refine iff_of_false (fun h => by cases h) ?_
    rintro ⟨t, hnone, -⟩
    cases hnone
  | point hfield hpath hresolved htarget ht => exact (showsSortable_iff ht rfl).symm

/-- The column of a property may have lost its order, but never gained one. -/
theorem showsSortable_mark {c : Column} {path : PropertyPath} {t : PropertyTarget}
    (ht : s.property? path = some t) (hpath : c.relativePath = some t.path)
    (hsortable : c.sortable = s.isSortable t) (isTextOnly : Bool)
    (h : (if isTextOnly then fixOrder c else c).sortable = true) :
    s.ShowsSortable (if isTextOnly then fixOrder c else c) := by
  cases isTextOnly with
  | true => cases h
  | false => exact (showsSortable_iff ht hpath).2 (hsortable.symm.trans h)

/-- Rows can be sorted by a column only if it shows a property that they can be sorted by, and by
the column of a record exactly then. -/
structure SortsAs (s : Scope) (c : Column) : Prop where
  shows : c.sortable = true → s.ShowsSortable c
  record : c.kind = .lineItem → s.ShowsSortable c → c.sortable = true

theorem SortsAs.of_bare {b c : Column} (hb : s.SortsAs b) (h : b.bare = c.bare) : s.SortsAs c := by
  have hsortable : b.sortable = c.sortable := Column.eq_of_bare (·.sortable) (fun _ => rfl) h
  have hkind : b.kind = c.kind := Column.eq_of_bare (·.kind) (fun _ => rfl) h
  have hpath : b.relativePath = c.relativePath :=
    Column.eq_of_bare (·.relativePath) (fun _ => rfl) h
  have hshows : s.ShowsSortable b ↔ s.ShowsSortable c := by
    rw [ShowsSortable, ShowsSortable, hpath]
  refine ⟨fun hsort => ?_, fun hrecord hshown => ?_⟩
  · exact hshows.1 (hb.shows (hsortable.trans hsort))
  · exact hsortable.symm.trans (hb.record (hkind.trans hrecord) (hshows.2 hshown))

theorem sortsAs_of_collected {e : PooledColumn} (he : e ∈ s.collected.entries) :
    s.SortsAs e.column := by
  cases collects_of_mem he with
  | record hfield hcolumn =>
    obtain ⟨key, -, hrenders⟩ := recordColumn_eq_some hcolumn
    exact ⟨hrenders.sortable_iff.1, fun _ => hrenders.sortable_iff.2⟩
  | property hp hprimitive ht isTextOnly =>
    refine ⟨showsSortable_mark ht rfl rfl isTextOnly, fun hrecord => ?_⟩
    cases isTextOnly <;> cases hrecord
  | text hp htext ht => exact ⟨nofun, nofun⟩

theorem sortsAs_of_hidden {hidden : HiddenColumn} {column : Column}
    (h : s.hiddenColumn? hidden = some column) : s.SortsAs column := by
  obtain ⟨t, ht, rfl⟩ := Option.map_eq_some_iff.1 h
  refine ⟨showsSortable_mark ht rfl rfl hidden.isTextOnly, fun hrecord => ?_⟩
  dsimp only at hrecord
  split at hrecord <;> cases hrecord

/-! ### Columns of tables -/

namespace Yields

variable {t : Table} {c : Column}

/-- The columns of a table that are not custom keep what they were built with. -/
theorem sortsAs (h : s.Yields t) (hc : c ∈ t.columns) (hkind : c.kind ≠ .slot) : s.SortsAs c := by
  cases h.origin hc with
  | collected he hbare => exact (sortsAs_of_collected he).of_bare hbare
  | hidden hbuild hmark hmem hbare => exact (sortsAs_of_hidden hbuild).of_bare hbare
  | custom hbare =>
    have hslot : ColumnKind.slot = c.kind := Column.eq_of_bare (·.kind) (fun _ => rfl) hbare
    exact (hkind hslot.symm).elim

/-- **Custom columns.**  Rows can be sorted by one as soon as it names a column, and the columns
that it names are others than custom ones. -/
theorem sortable_custom (h : s.Yields t) (hc : c ∈ t.columns) (hkind : c.kind = .slot) :
    (c.sortable = true ↔ c.propertyInfos ≠ []) ∧
      ∀ name ∈ c.propertyInfos, ∃ other ∈ t.columns, other.name = name ∧ other.kind ≠ .slot := by
  rcases h.of_mem hc with ⟨b, hb, heq⟩ | ⟨b, hb, heq⟩
  · have hslot : b.kind = c.kind := Column.eq_of_settled (·.kind) (fun _ => rfl) heq
    exact ((isUntouched hb).kind (hslot.trans hkind)).elim
  · obtain ⟨entry, names, hplain, hentry⟩ := hb.exists_entry
    rw [hentry] at heq
    have hsortable : (!names.isEmpty) = c.sortable :=
      Column.eq_of_settled (·.sortable) (fun _ => rfl) heq
    have hinfos : names = c.propertyInfos := Column.propertyInfos_eq_of_settled heq
    rw [← hsortable, ← hinfos, Bool.not_eq_true', List.isEmpty_eq_false_iff]
    refine ⟨.rfl, fun name hname => ?_⟩
    obtain ⟨built, hbuilt, hbname, -⟩ := hplain.2 name hname
    obtain ⟨other, hother, hsame⟩ := h.exists_mem hbuilt
    have hotherKind : other.kind = built.kind :=
      Column.eq_of_settled (·.kind) (fun _ => rfl) hsame
    exact ⟨other, hother, (Column.name_eq_of_settled hsame).trans hbname,
      hotherKind ▸ (isUntouched hbuilt).kind⟩

end Yields

end Scope

namespace Context

/-- **Columns that rows can be sorted by.**  The column of a record is one exactly if it shows a
property that rows can be sorted by, and that of a bare property only then; a custom column is one
as soon as it names another column, none of which is custom.  So where the entity set of the rows
forbids sorting, just these custom columns are left. -/
theorem columns_sortable (c : Context) (r : TableRequest) (scope : Reported Scope) (t : Table)
    (hscope : c.resolve r = .ok scope) (h : (c.compile r).value = .ok t) (column : Column)
    (hcolumn : column ∈ t.columns) :
    (column.kind = .lineItem → (column.sortable = true ↔ scope.value.ShowsSortable column)) ∧
    (column.kind = .property → column.sortable = true → scope.value.ShowsSortable column) ∧
    (column.kind = .slot → (column.sortable = true ↔ column.propertyInfos ≠ []) ∧
      ∀ name ∈ column.propertyInfos, ∃ other ∈ t.columns,
        other.name = name ∧ other.kind ≠ .slot) ∧
    (scope.value.ForbidsSorting →
      (column.sortable = true ↔ column.kind = .slot ∧ column.propertyInfos ≠ [])) := by
  obtain ⟨settled, hsettled, hyields⟩ := exists_yields h
  obtain rfl := Except.ok.inj (hscope.symm.trans hsettled)
  have hbuilt := hyields.sortsAs hcolumn
  have hcustom := hyields.sortable_custom hcolumn
  refine ⟨?_, ?_, hcustom, ?_⟩
  · intro hkind
    have hsorts := hbuilt (by rw [hkind]; exact nofun)
    exact ⟨hsorts.shows, hsorts.record hkind⟩
  · intro hkind
    exact (hbuilt (by rw [hkind]; exact nofun)).shows
  · intro hforbids
    by_cases hkind : column.kind = .slot
    · rw [(hcustom hkind).1]
      exact (and_iff_right hkind).symm
    · refine iff_of_false (fun hsort => ?_) fun hslot => hkind hslot.1
      obtain ⟨target, -, -, hcan⟩ := (hbuilt hkind).shows hsort
      exact hcan.allowed hforbids

/-- Postings in a set with restrictions of sorting; the manifest adds a column for their numbers. -/
def postings (restrictions : SortRestrictions) : Context where
  service := {
    entitySets := [
      { name := "Postings", entityType := "fin.Posting"
        annotations := { sortRestrictions := some restrictions } }]
    entityTypes := [
      { name := "fin.Posting"
        properties := [{ name := "ID", typeName := "Edm.String" }]
        annotations := {
          lineItems := .ofList [("", [DataField.value ⟨.plain, "ID", none, {}⟩])] } }] }
  manifest := { controls := .ofList [("@UI.LineItem",
    { columns := .ofList [("Note", { template := some "Note", properties := ["ID"] })] })] }

/-- In a set without restrictions the column of the numbers can be sorted by, and it shows them. -/
theorem columns_sortable_postings :
    ∃ scope t, (postings {}).resolve { entitySet := "Postings" } = .ok scope ∧
      ((postings {}).compile { entitySet := "Postings" }).value = .ok t ∧
      ∃ column ∈ t.columns, column.name = "ID" ∧ column.sortable = true ∧
        scope.value.ShowsSortable column := by
  have hrun : (match (postings {}).resolve { entitySet := "Postings" },
      ((postings {}).compile { entitySet := "Postings" }).value with
    | .ok _, .ok t => t.columns.any fun column => decide (
        column.name = "ID" ∧ column.kind = .lineItem ∧ column.sortable = true)
    | _, _ => false) = true := by decide +kernel
  split at hrun
  · rename_i scope t hscope ht
    obtain ⟨column, hcolumn, hchecked⟩ := List.any_eq_true.1 hrun
    obtain ⟨hname, hkind, hsort⟩ := of_decide_eq_true hchecked
    obtain ⟨hrecord, -⟩ := (postings {}).columns_sortable { entitySet := "Postings" } scope t hscope
      ht column hcolumn
    exact ⟨scope, t, hscope, ht, column, hcolumn, hname, hsort, (hrecord hkind).1 hsort⟩
  · cases hrun

/-- In a set that forbids sorting the custom column is one to sort by all the same, and that of the
numbers, which is the only one it names, is not. -/
theorem note_sortable_of_forbidden :
    ∃ scope t, (postings { sortable := some false }).resolve { entitySet := "Postings" } =
        .ok scope ∧
      ((postings { sortable := some false }).compile { entitySet := "Postings" }).value = .ok t ∧
      scope.value.targetSet.annotations.sortRestrictions = some { sortable := some false } ∧
      ∃ column ∈ t.columns, column.kind = .slot ∧ column.sortable = true ∧
        column.propertyInfos = ["ID"] ∧
        ∀ other ∈ t.columns, other.name = "ID" → other.sortable = false := by
  have hrun : (match (postings { sortable := some false }).resolve { entitySet := "Postings" },
      ((postings { sortable := some false }).compile { entitySet := "Postings" }).value with
    | .ok scope, .ok t =>
      decide (scope.value.targetSet.annotations.sortRestrictions =
          some { sortable := some false }) &&
        t.columns.any (fun column => decide (column.kind = .slot ∧ column.sortable = true ∧
          column.propertyInfos = ["ID"])) &&
        t.columns.all fun other => decide (other.name = "ID" → other.sortable = false)
    | _, _ => false) = true := by decide +kernel
  split at hrun
  · rename_i scope t hscope ht
    simp only [Bool.and_eq_true, decide_eq_true_iff, List.any_eq_true, List.all_eq_true] at hrun
    obtain ⟨⟨hset, column, hcolumn, hkind, hsort, hinfos⟩, hother⟩ := hrun
    exact ⟨scope, t, hscope, ht, hset, column, hcolumn, hkind, hsort, hinfos, hother⟩
  · cases hrun

end Context

end TableCompiler
