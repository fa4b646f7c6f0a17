import Mathlib.Data.List.Forall2
import TableCompiler.Proofs.Column.Origin
import TableCompiler.Proofs.CustomElements

/-!
# The columns of the records, in their order

The line item comes first into the pool, so a record is refused for an earlier record alone, and
only for one that has a column.  What comes later, bare properties, hidden columns and custom ones,
may stand between the columns of records but does not move them.

* `Scope.CanShow`, `Scope.recordColumn_isSome_iff` — the records that show something;
* `Scope.Places` — the places of the records that have columns, so far;
* `Scope.Places.step`, `Scope.exists_places` — one record, and the whole line item;
* `Columns.ofRecords` — the columns of records among others, and why nothing else changes them;
* `Context.records_in_order` — the columns of records in a compiled table.
-/

namespace TableCompiler

/-! ### Records that show something -/

/-- The name that the column of a record goes by: the path of its value, or the text of its
target. -/
def DataField.columnName? : DataField → Option String
  | .value field => some field.value
  | .reference field => some field.target
  | _ => none

namespace Scope

variable {s : Scope}

/-- A record shows something: its value is the path of a primitive property, or its target is a
group, or a data point with a value that is found behind the navigation of the target. -/
inductive CanShow (s : Scope) : DataField → Prop
  | value {record : ValueField} {t : PropertyTarget} (ht : s.property? record.value = some t)
      (hprimitive : t.property.isPrimitive = true) : CanShow s (.value record)
  | group {record : ReferenceField} {path : AnnotationPath} {resolved : ResolvedAnnotation}
      {group : FieldGroup} (hpath : AnnotationPath.ofText record.target = .ok path)
      (hresolved : s.service.annotationAt? s.entityType path = some resolved)
      (htarget : resolved.target = .fieldGroup group) : CanShow s (.reference record)
  | point {record : ReferenceField} {path : AnnotationPath} {resolved : ResolvedAnnotation}
      {point : DataPoint} {t : PropertyTarget}
      (hpath : AnnotationPath.ofText record.target = .ok path)
      (hresolved : s.service.annotationAt? s.entityType path = some resolved)
      (htarget : resolved.target = .dataPoint point)
      (ht : s.property? (resolved.navigationPrefix ++ point.value) = some t) :
      CanShow s (.reference record)

theorem Renders.canShow {record : DataField} {key : String} {column : Column}
    (h : s.Renders record key column) : s.CanShow record := by
  cases h with
  | value hfield ht hprimitive =>
    subst hfield
    exact .value ht hprimitive
  | group hfield hpath hresolved htarget =>
    subst hfield
    exact .group hpath hresolved htarget
  | point hfield hpath hresolved htarget ht =>
    subst hfield
    exact .point hpath hresolved htarget ht

/-- A record has a column exactly if it shows something. -/
theorem recordColumn_isSome_iff {record : DataField} :
    (s.recordColumn record).value.isSome = true ↔ s.CanShow record := by
  constructor
  · intro h
    obtain ⟨column, hcolumn⟩ := Option.isSome_iff_exists.1 h
    obtain ⟨key, -, hrenders⟩ := recordColumn_eq_some hcolumn
    exact hrenders.canShow
  · intro h
    unfold recordColumn
    cases h with
    | value ht hprimitive => simp only [DataField.key?, valueColumn, ht, hprimitive, if_true,
        Reported.value_pure, Option.isSome_some]
    | group hpath hresolved htarget => simp only [DataField.key?, referenceColumn, hpath,
        hresolved, htarget, Reported.value_pure, Option.isSome_some]
    | point hpath hresolved htarget ht => simp only [DataField.key?, referenceColumn, hpath,
        hresolved, htarget, dataPointColumn, ht, Reported.value_pure, Option.isSome_some]

/-- The column of a record goes by the name and the key of the record. -/
theorem name_and_key_of_recordColumn {record : DataField} {column : Column}
    (h : (s.recordColumn record).value = some column) :
    record.columnName? = some column.name ∧ record.key? = some column.key := by
  obtain ⟨key, hkey, hrenders⟩ := recordColumn_eq_some h
  refine ⟨?_, by rw [hkey, hrenders.key_eq]⟩
  cases hrenders with
  | value hfield ht hprimitive =>
    subst hfield
    exact congrArg some (Service.property?_path ht).symm
  | group hfield hpath hresolved htarget =>
    subst hfield
    rfl
  | point hfield hpath hresolved htarget ht =>
    subst hfield
    rfl

/-! ### One record after the other -/

/-- A record is new if it shares neither name nor key with a record at one of some places before
it. -/
def IsNew (s : Scope) (places : List Nat) (index : Nat) (record : DataField) : Prop :=
  ∀ j ∈ places, j < index → ∀ earlier, s.lineItem[j]? = some earlier →
    earlier.columnName? ≠ record.columnName? ∧ earlier.key? ≠ record.key?

/-- A place behind a record does not make it less new. -/
theorem isNew_append {places : List Nat} {place index : Nat} (h : index ≤ place)
    {record : DataField} :
    s.IsNew (places ++ [place]) index record ↔ s.IsNew places index record := by
  refine ⟨fun hnew j hj => hnew j (List.mem_append_left _ hj), fun hnew j hj hlt => ?_⟩
  rcases List.mem_append.1 hj with hj | hj
  · exact hnew j hj hlt
  · rw [List.mem_singleton.1 hj] at hlt
    exact absurd hlt (Nat.not_lt.2 h)

/-- A column is that of the record at a place. -/
structure IsColumnAt (s : Scope) (index : Nat) (c : Column) : Prop where
  isPartOfLineItem : c.isPartOfLineItem = true
  path : c.annotationPath = some (s.recordPath index)
  exists_record : ∃ record, s.lineItem[index]? = some record ∧
    record.columnName? = some c.name ∧ record.key? = some c.key

/-- The places of the records with columns among the first `count` records: those that show
something and are new. -/
structure Places (s : Scope) (count : Nat) (places : List Nat) (columns : List Column) :
    Prop where
  ascending : places.Pairwise (· < ·)
  bounded : ∀ i ∈ places, i < count
  mem_iff : ∀ i < count, i ∈ places ↔
    ∃ record, s.lineItem[i]? = some record ∧ s.CanShow record ∧ s.IsNew places i record
  columns : places.Forall₂ s.IsColumnAt columns

namespace Places

variable {count : Nat} {places : List Nat} {columns : List Column} {record : DataField}

/-- A column that is there belongs to a record at one of the places. -/
theorem exists_of_mem_columns (h : s.Places count places columns) {c : Column} (hc : c ∈ columns) :
    ∃ j ∈ places, s.IsColumnAt j c := by
  obtain ⟨n, hn, rfl⟩ := List.getElem_of_mem hc
  have hlength : n < places.length := h.columns.length_eq ▸ hn
  exact ⟨places[n], List.getElem_mem hlength, h.columns.get hlength hn⟩

/-- A record at one of the places has its column. -/
theorem exists_column (h : s.Places count places columns) {j : Nat} (hj : j ∈ places) :
    ∃ c ∈ columns, s.IsColumnAt j c := by
  obtain ⟨n, hn, rfl⟩ := List.getElem_of_mem hj
  have hlength : n < columns.length := h.columns.length_eq ▸ hn
  exact ⟨columns[n], List.getElem_mem hlength, h.columns.get hn hlength⟩

/-- A record that shows something is refused exactly if it is not new. -/
theorem isNew_iff (h : s.Places count places columns) {column : Column}
    (hcolumn : record.columnName? = some column.name ∧ record.key? = some column.key) :
    s.IsNew places count record ↔
      column.name ∉ columns.map (·.name) ∧ column.key ∉ columns.map (·.key) := by
  constructor
  · intro hnew
    refine ⟨fun hmem => ?_, fun hmem => ?_⟩
    · obtain ⟨c, hc, hname⟩ := List.mem_map.1 hmem
      obtain ⟨j, hj, -, -, earlier, hearlier, hown, -⟩ := h.exists_of_mem_columns hc
      refine (hnew j hj (h.bounded j hj) earlier hearlier).1 ?_
      rw [hown, hcolumn.1, hname]
    · obtain ⟨c, hc, hkey⟩ := List.mem_map.1 hmem
      obtain ⟨j, hj, -, -, earlier, hearlier, -, hown⟩ := h.exists_of_mem_columns hc
      refine (hnew j hj (h.bounded j hj) earlier hearlier).2 ?_
      rw [hown, hcolumn.2, hkey]
  · rintro ⟨hname, hkey⟩ j hj - earlier hearlier
    obtain ⟨c, hc, -, -, other, hother, hown⟩ := h.exists_column hj
    obtain rfl := Option.some.inj (hother.symm.trans hearlier)
    rw [hown.1, hown.2, hcolumn.1, hcolumn.2]
    refine ⟨fun heq => hname ?_, fun heq => hkey ?_⟩
    · rw [← Option.some.inj heq]
      exact List.mem_map_of_mem hc
    · rw [← Option.some.inj heq]
      exact List.mem_map_of_mem hc

/-- A record without a column leaves the places as they are. -/
theorem skip (h : s.Places count places columns) (hrecord : s.lineItem[count]? = some record)
    (hrefused : ¬ (s.CanShow record ∧ s.IsNew places count record)) :
    s.Places (count + 1) places columns where
  ascending := h.ascending
  bounded := fun i hi => Nat.lt_succ_of_lt (h.bounded i hi)
  columns := h.columns
  mem_iff := by
    intro i hi
    rcases Nat.lt_succ_iff_lt_or_eq.1 hi with hi | rfl
    · exact h.mem_iff i hi
    · refine iff_of_false (fun hmem => absurd (h.bounded i hmem) (Nat.lt_irrefl i)) ?_
      rintro ⟨other, hother, hshown⟩
      obtain rfl := Option.some.inj (hrecord.symm.trans hother)
      exact hrefused hshown

/-- A record with a column adds its place. -/
theorem add (h : s.Places count places columns) (hrecord : s.lineItem[count]? = some record)
    (hshow : s.CanShow record) (hnew : s.IsNew places count record) {column : Column}
    (hcolumn : s.IsColumnAt count column) :
    s.Places (count + 1) (places ++ [count]) (columns ++ [column]) where
  ascending := by
    refine List.pairwise_append.2 ⟨h.ascending, List.pairwise_singleton _ _, fun i hi j hj => ?_⟩
    rw [List.mem_singleton.1 hj]
    exact h.bounded i hi
  bounded := by
    intro i hi
    rcases List.mem_append.1 hi with hi | hi
    · exact Nat.lt_succ_of_lt (h.bounded i hi)
    · rw [List.mem_singleton.1 hi]
      exact Nat.lt_succ_self count
  columns := List.rel_append h.columns (.cons hcolumn .nil)
  mem_iff := by
    intro i hi
    rcases Nat.lt_succ_iff_lt_or_eq.1 hi with hi | rfl
    · have hold : i ∈ places ++ [count] ↔ i ∈ places := by
        rw [List.mem_append, List.mem_singleton, or_iff_left (Nat.ne_of_lt hi)]
      rw [hold, h.mem_iff i hi]
      simp only [isNew_append (Nat.le_of_lt hi)]
    · refine iff_of_true (List.mem_append_right _ (List.mem_singleton_self i)) ?_
      exact ⟨record, hrecord, hshow, (isNew_append (Nat.le_refl i)).2 hnew⟩

/-- **One record.**  It gets the next place if it shows something new, and none otherwise. -/
theorem step {p : ColumnPool} (h : s.Places count places (p.entries.map (·.column)))
    (hrecord : s.lineItem[count]? = some record) :
    ∃ more, s.Places (count + 1) more
      ((s.addRecord p (record, count)).value.entries.map (·.column)) := by
  have hnew : ∀ {column}, (s.recordColumn record).value = some column →
      (s.IsNew places count record ↔ column.name ∉ p.names ∧ column.key ∉ p.keys) := by
    intro column hcolumn
    have hiff := h.isNew_iff (name_and_key_of_recordColumn hcolumn)
    rw [List.map_map, List.map_map] at hiff
    exact hiff
  rcases s.addRecord_cases p record count with
    ⟨heq, hnone | ⟨column, hcolumn, htaken⟩⟩ | ⟨column, hcolumn, hname, hkey, heq⟩
  · rw [heq]
    refine ⟨places, h.skip hrecord fun hshown => ?_⟩
    rw [← recordColumn_isSome_iff, hnone] at hshown
    cases hshown.1
  · rw [heq]
    refine ⟨places, h.skip hrecord fun hshown => ?_⟩
    obtain ⟨hname, hkey⟩ := (hnew hcolumn).1 hshown.2
    exact htaken.elim hname hkey
  · have hshow : s.CanShow record := by
      rw [← recordColumn_isSome_iff, hcolumn]
      rfl
    have hown := name_and_key_of_recordColumn hcolumn
    have hplaced : s.IsColumnAt count (s.recordEntry count record column).column :=
      ⟨rfl, rfl, record, hrecord, hown⟩
    refine ⟨places ++ [count], ?_⟩
    rw [heq, ColumnPool.push, List.map_append]
    exact h.add hrecord hshow ((hnew hcolumn).2 ⟨hname, hkey⟩) hplaced

end Places

/-- **All records.**  The columns of the line item are those of the records that show something
new, in their order. -/
theorem exists_places (s : Scope) :
    ∃ places, s.Places s.lineItem.length places (s.addLineItem.value.entries.map (·.column)) := by
  -- the records that are done stand in front, and the count is theirs
  have hrun : ∀ (todo done : List DataField) (p : ColumnPool), s.lineItem = done ++ todo →
      (∃ places, s.Places done.length places (p.entries.map (·.column))) →
      ∃ places, s.Places s.lineItem.length places
        (((todo.zipIdx done.length).foldl (fun p record => (s.addRecord p record).value)
          p).entries.map (·.column)) := by
    intro todo
    induction todo with
    | nil =>
      intro done p hsplit h
      rw [hsplit, List.append_nil]
      exact h
    | cons record todo ih =>
      rintro done p hsplit ⟨places, h⟩
      have hrecord : s.lineItem[done.length]? = some record := by
        rw [hsplit, List.getElem?_append_right (Nat.le_refl _), Nat.sub_self,
          List.getElem?_cons_zero]
      have hnext := ih (done ++ [record]) (s.addRecord p (record, done.length)).value
        (by rw [hsplit, List.append_assoc, List.singleton_append])
      rw [List.length_append, List.length_singleton] at hnext
      exact hnext (h.step hrecord)
  rw [addLineItem, addRecords, Reported.value_foldlM]
  refine hrun s.lineItem [] {} rfl ⟨[], .nil, ?_, ?_, .nil⟩
  · intro i hi
    cases hi
  · intro i hi
    cases hi

end Scope

/-! ### Among the other columns -/

namespace Columns

/-- The columns of records among others, without the members that are set later. -/
def ofRecords (columns : Columns) : List Column :=
  (columns.map (·.bare)).filter (·.isPartOfLineItem)

variable {columns : Columns}

theorem ofRecords_eq_map (columns : Columns) :
    columns.ofRecords = (columns.filter (·.isPartOfLineItem)).map (·.bare) := by
  rw [ofRecords, List.filter_map]
  rfl

theorem ofRecords_append (columns more : Columns) :
    Columns.ofRecords (columns ++ more) = columns.ofRecords ++ more.ofRecords := by
  rw [ofRecords, List.map_append, List.filter_append]
  rfl

theorem ofRecords_eq_nil (h : ∀ c ∈ columns, c.isPartOfLineItem = false) :
    columns.ofRecords = [] := by
  rw [ofRecords_eq_map, List.map_eq_nil_iff, List.filter_eq_nil_iff]
  intro c hc
  rw [h c hc]
  exact Bool.false_ne_true

/-- What is set later does not matter for the columns of records. -/
theorem ofRecords_of_settled {more : Columns}
    (h : columns.map (·.settled) = more.map (·.settled)) : columns.ofRecords = more.ofRecords := by
  have hbare : ∀ columns : Columns,
      columns.map (·.bare) = (columns.map (·.settled)).map (·.bare) := by
    intro columns
    rw [List.map_map]
    rfl
  rw [ofRecords, hbare, h, ← hbare, ← ofRecords]

/-- **Custom columns stand between.**  Merging leaves the columns of records as they are, in their
order. -/
theorem ofRecords_merge (columns : Columns) (entries : Dictionary ManifestColumn) :
    Columns.ofRecords (columns.merge entries).value = columns.ofRecords := by
  have hmerged := columns.merge_isArrangement entries
  have hoverride : Columns.ofRecords (columns.override entries) = columns.ofRecords :=
    ofRecords_of_settled (columns.settled_override entries)
  have hsub : columns.ofRecords.Sublist (Columns.ofRecords (columns.merge entries).value) := by
    rw [← hoverride]
    exact (((List.sublist_append_left _ _).trans hmerged.fixed).map _).filter _
  refine (hsub.eq_of_length ?_).symm
  have hcustom : Columns.ofRecords ((columns.custom entries).value.map (·.1)) = [] :=
    ofRecords_eq_nil fun c hc => by
      obtain ⟨entry, key, names, rfl⟩ := exists_of_mem_custom hc
      rfl
  have hlength := ((hmerged.perm.map (·.bare)).filter (·.isPartOfLineItem)).length_eq
  change (Columns.ofRecords _).length = (Columns.ofRecords (_ ++ _)).length at hlength
  rw [hlength, ofRecords_append, hcustom, List.append_nil, hoverride]

end Columns

namespace Scope

variable {s : Scope}

/-- The columns of bare properties are those of no record. -/
theorem ofRecords_insert {p : ColumnPool} {column : Column} (origin : ColumnOrigin)
    (r : RelatedProperties) (h : column.isPartOfLineItem = false) :
    Columns.ofRecords ((p.insert column origin r).entries.map (·.column)) =
      Columns.ofRecords (p.entries.map (·.column)) := by
  rcases p.insert_cases column origin r with ⟨-, -, heq⟩ | ⟨-, heq⟩
  · rw [heq, ColumnPool.push, List.map_append, Columns.ofRecords_append]
    have hnone : Columns.ofRecords
        ([(ColumnEntry.ofColumn column origin r : PooledColumn)].map (·.column)) = [] := by
      refine Columns.ofRecords_eq_nil fun c hc => ?_
      rw [List.mem_singleton.1 hc]
      exact h
    rw [hnone, List.append_nil]
  · rw [heq]

theorem ofRecords_addText (s : Scope) (p : ColumnPool) (path : PropertyPath) :
    Columns.ofRecords ((s.addText p path).entries.map (·.column)) =
      Columns.ofRecords (p.entries.map (·.column)) := by
  rcases s.addText_cases p path with heq | ⟨t, -, heq⟩
  · rw [heq]
  · rw [heq]
    exact ofRecords_insert _ _ rfl

theorem ofRecords_addProperty (s : Scope) (p : ColumnPool) (property : Property) :
    Columns.ofRecords ((s.addProperty p property).entries.map (·.column)) =
      Columns.ofRecords (p.entries.map (·.column)) := by
  rcases s.addProperty_cases p property with heq | ⟨-, -, t, -, heq⟩
  · rw [heq]
  · rw [heq]
    refine List.foldlRecOn (motive := fun q : ColumnPool =>
      Columns.ofRecords (q.entries.map (·.column)) = Columns.ofRecords (p.entries.map (·.column)))
      _ _ ?_ fun q hq path _ => (s.ofRecords_addText q path).trans hq
    refine ofRecords_insert _ _ ?_
    cases p.isTextOnly property.name <;> rfl

/-- Bare properties come behind the line item. -/
theorem ofRecords_collected (s : Scope) :
    Columns.ofRecords (s.collected.entries.map (·.column)) =
      Columns.ofRecords (s.addLineItem.value.entries.map (·.column)) :=
  List.foldlRecOn (motive := fun q : ColumnPool =>
    Columns.ofRecords (q.entries.map (·.column)) =
      Columns.ofRecords (s.addLineItem.value.entries.map (·.column)))
    _ _ rfl fun q hq property _ => (s.ofRecords_addProperty q property).trans hq

/-- Linking keeps what is collected in its place and adds hidden columns behind it. -/
theorem ofRecords_builtColumns (s : Scope) :
    Columns.ofRecords s.builtColumns =
      Columns.ofRecords (s.collected.entries.map (·.column)) := by
  obtain ⟨-, -, linked, added, hadded, hpool, hlinked⟩ :=
    ColumnPool.link_spec s.hiddenColumn? s.collected_isDistinct
  have hentries : s.pool.value.entries = linked ++ added.map .related := by
    rw [value_pool, hpool]
  have hbare : s.builtColumns.map (·.bare) =
      (linked.map (·.column) ++ added).map (·.bare) := by
    rw [builtColumns, ColumnPool.columns, hentries]
    simp only [List.map_append, List.map_map]
    rfl
  have hhidden : Columns.ofRecords added = [] := by
    refine Columns.ofRecords_eq_nil fun c hc => ?_
    obtain ⟨hidden, hbuild, -⟩ := hadded c hc
    obtain ⟨t, -, rfl⟩ := Option.map_eq_some_iff.1 hbuild
    dsimp only
    split <;> rfl
  have hcolumns : linked.map (·.column) = s.collected.entries.map (·.column) := by
    have hsame : s.collected.entries.Forall₂ (fun e d => e.column = d.column) linked :=
      hlinked.imp fun _ _ h => (congrArg (·.1) h.core_eq).symm
    exact (List.forall₂_eq_eq_eq ▸ List.forall₂_map_left_iff.2
      (List.forall₂_map_right_iff.2 hsame) :
        s.collected.entries.map (·.column) = linked.map (·.column)).symm
  rw [Columns.ofRecords, hbare, ← Columns.ofRecords, Columns.ofRecords_append, hhidden,
    List.append_nil, hcolumns]

/-- **The columns of records in a table** are those of the line item. -/
theorem Yields.ofRecords_eq {t : Table} (h : s.Yields t) :
    Columns.ofRecords t.columns =
      Columns.ofRecords (s.addLineItem.value.entries.map (·.column)) := by
  rw [h.columns, analytics, Columns.ofRecords_of_settled (s.settled_aggregate _ _)]
  have hmerged : Columns.ofRecords (s.mergeColumns s.builtColumns).value =
      Columns.ofRecords s.builtColumns := by
    rw [mergeColumns]
    split
    · exact Columns.ofRecords_merge _ _
    · rfl
  rw [hmerged, ofRecords_builtColumns, ofRecords_collected]

theorem isColumnAt_bare_iff {index : Nat} {c : Column} :
    s.IsColumnAt index c.bare ↔ s.IsColumnAt index c :=
  ⟨fun h => ⟨h.isPartOfLineItem, h.path, h.exists_record⟩,
   fun h => ⟨h.isPartOfLineItem, h.path, h.exists_record⟩⟩

/-- The columns of records in a table stand as the records do. -/
theorem Yields.forall₂_isColumnAt {t : Table} (h : s.Yields t) {places : List Nat}
    (hplaces : places.Forall₂ s.IsColumnAt (s.addLineItem.value.entries.map (·.column))) :
    places.Forall₂ s.IsColumnAt (t.columns.filter (·.isPartOfLineItem)) := by
  have hall : (s.addLineItem.value.entries.map (·.column)).filter (·.isPartOfLineItem) =
      s.addLineItem.value.entries.map (·.column) := by
    refine List.filter_eq_self.2 fun c hc => ?_
    obtain ⟨n, hn, rfl⟩ := List.getElem_of_mem hc
    exact (hplaces.get (hplaces.length_eq ▸ hn) hn).isPartOfLineItem
  have hsame := h.ofRecords_eq
  rw [Columns.ofRecords_eq_map, Columns.ofRecords_eq_map, hall] at hsame
  have hbare : places.Forall₂ s.IsColumnAt
      ((s.addLineItem.value.entries.map (·.column)).map (·.bare)) :=
    List.forall₂_map_right_iff.2 (hplaces.imp fun _ _ => isColumnAt_bare_iff.2)
  rw [← hsame] at hbare
  exact (List.forall₂_map_right_iff.1 hbare).imp fun _ _ => isColumnAt_bare_iff.1

end Scope

namespace Context

/-- **Records in order.**  The columns of the line item in a table are those of records at places
that ascend.  A record has one exactly if it shows something and shares neither its name nor its key
with an earlier record that has one. -/
theorem records_in_order (c : Context) (r : TableRequest) (scope : Reported Scope) (t : Table)
    (hscope : c.resolve r = .ok scope) (h : (c.compile r).value = .ok t) :
    ∃ places : List Nat, places.Pairwise (· < ·) ∧
      places.Forall₂ scope.value.IsColumnAt (t.columns.filter (·.isPartOfLineItem)) ∧
      ∀ i, i ∈ places ↔ ∃ record, scope.value.lineItem[i]? = some record ∧
        scope.value.CanShow record ∧
        ∀ j ∈ places, j < i → ∀ earlier, scope.value.lineItem[j]? = some earlier →
          earlier.columnName? ≠ record.columnName? ∧ earlier.key? ≠ record.key? := by
  obtain ⟨settled, hsettled, hyields⟩ := exists_yields h
  obtain rfl := Except.ok.inj (hscope.symm.trans hsettled)
  obtain ⟨places, hplaces⟩ := scope.value.exists_places
  refine ⟨places, hplaces.ascending, hyields.forall₂_isColumnAt hplaces.columns, fun i => ?_⟩
  by_cases hi : i < scope.value.lineItem.length
  · exact hplaces.mem_iff i hi
  · refine iff_of_false (fun hmem => hi (hplaces.bounded i hmem)) ?_
    rintro ⟨record, hrecord, -⟩
    exact hi (List.getElem?_eq_some_iff.1 hrecord).1

/-- The amount of an order is in the line item twice and has one column, before that of the group;
the actions have none. -/
theorem records_in_order_orders :
    ∃ scope t, ∃ places : List Nat, orders.resolve { entitySet := "Orders" } = .ok scope ∧
      (orders.compile { entitySet := "Orders" }).value = .ok t ∧
      places.Forall₂ scope.value.IsColumnAt (t.columns.filter (·.isPartOfLineItem)) ∧
      0 ∈ places ∧ 1 ∉ places ∧ 2 ∈ places := by
  let amount : DataField := .value ⟨.plain, "Amount", none, {}⟩
  let group : DataField := .reference ⟨none, "@UI.FieldGroup#Main", {}⟩
  have hrun : (match orders.resolve { entitySet := "Orders" },
      (orders.compile { entitySet := "Orders" }).value with
    | .ok scope, .ok t => decide (scope.value.lineItem.take 3 = [amount, amount, group] ∧
        (scope.value.recordColumn amount).value.isSome = true ∧
        (scope.value.recordColumn group).value.isSome = true)
    | _, _ => false) = true := by decide +kernel
  split at hrun
  · rename_i scope t hscope ht
    obtain ⟨hfirst, hamount, hgroup⟩ := of_decide_eq_true hrun
    have hat : ∀ i < 3, scope.value.lineItem[i]? = [amount, amount, group][i]? := by
      intro i hi
      rw [← hfirst, List.getElem?_take, if_pos hi]
    obtain ⟨places, -, hcolumns, hplaces⟩ :=
      orders.records_in_order { entitySet := "Orders" } scope t hscope ht
    have hzero : 0 ∈ places :=
      (hplaces 0).2 ⟨amount, hat 0 (by decide), Scope.recordColumn_isSome_iff.1 hamount,
        fun j _ hj => absurd hj (Nat.not_lt_zero j)⟩
    have hone : 1 ∉ places := by
      intro hmem
      obtain ⟨record, hrecord, -, hnew⟩ := (hplaces 1).1 hmem
      obtain rfl := Option.some.inj ((hat 1 (by decide)).symm.trans hrecord)
      exact (hnew 0 hzero (by decide) amount (hat 0 (by decide))).1 rfl
    refine ⟨scope, t, places, hscope, ht, hcolumns, hzero, hone, ?_⟩
    refine (hplaces 2).2 ⟨group, hat 2 (by decide), Scope.recordColumn_isSome_iff.1 hgroup, ?_⟩
    intro j hj hlt earlier hearlier
    have hj : j = 0 := by
      rcases Nat.lt_succ_iff_lt_or_eq.1 hlt with hlt | rfl
      · exact Nat.lt_one_iff.1 hlt
      · exact (hone hj).elim
    subst hj
    obtain rfl := Option.some.inj ((hat 0 (by decide)).symm.trans hearlier)
    decide
  · cases hrun

end Context

end TableCompiler
