import TableCompiler.Compile
import TableCompiler.Proofs.Column.View
import TableCompiler.Proofs.Reported

/-!
# The columns before linking

Before dependencies are linked the pool holds columns of records, of bare properties and of texts
that are shown in place of a value, and nothing else.

* `ColumnStore.Agree`, `ColumnArena.agrees_pool` — the same is collected in an arena and in a pool;
* `Scope.Renders`, `Scope.recordColumn_eq_some` — when a record has a column, and which one;
* `Scope.collected`, `Scope.value_pool` — the pool before linking, and the one after it;
* `Scope.addRecord_cases`, `Scope.addText_cases`, `Scope.addProperty_cases`,
  `Scope.addProperty_of_free` — what a step of the collection does;
* `Scope.Collects`, `Scope.collects_of_mem` — what its entries are;
* `Scope.collected_isDistinct` — neither names nor keys are repeated in it;
* `Scope.propertyEntry_mem_addProperty` — a property whose name and key are free has an entry.
-/

namespace TableCompiler

/-! ### Arenas and pools -/

/-- A relation of stores that answer the same, and still do when the same column is inserted. -/
structure ColumnStore.Agree {σ τ : Type} [ColumnStore σ] [ColumnStore τ] (R : σ → τ → Prop) :
    Prop where
  containsName : ∀ {a b}, R a b → ∀ name,
    ColumnStore.containsName a name = ColumnStore.containsName b name
  isTextOnly : ∀ {a b}, R a b → ∀ path,
    ColumnStore.isTextOnly a path = ColumnStore.isTextOnly b path
  insert : ∀ {a b}, R a b → ∀ column origin r,
    R (ColumnStore.insert a column origin r) (ColumnStore.insert b column origin r)

namespace ColumnStore.Agree

variable {σ τ : Type} [ColumnStore σ] [ColumnStore τ] {R : σ → τ → Prop} {a : σ} {b : τ}

theorem addText (hR : Agree R) (s : Scope) (h : R a b) (text : PropertyPath) :
    R (s.addText a text) (s.addText b text) := by
  rw [Scope.addText, Scope.addText, hR.containsName h]
  split
  · exact h
  · split
    · exact h
    · exact hR.insert h _ _ _

theorem addProperty (hR : Agree R) (s : Scope) (h : R a b) (p : Property) :
    R (s.addProperty a p) (s.addProperty b p) := by
  rw [Scope.addProperty, Scope.addProperty, hR.containsName h, hR.isTextOnly h]
  split
  · exact h
  · split
    · exact h
    · exact List.foldl_rel (hR.insert h _ _ _) fun text _ _ _ h => hR.addText s h text

/-- The columns of all properties are collected alike. -/
theorem addProperties (hR : Agree R) (s : Scope) (h : R a b) :
    R (s.addProperties a) (s.addProperties b) :=
  List.foldl_rel h fun p _ _ _ h => hR.addProperty s h p

theorem addRecord (hR : Agree R) (s : Scope) (h : R a b) (record : DataField × Nat) :
    R (s.addRecord a record).value (s.addRecord b record).value := by
  rw [Scope.addRecord, Scope.addRecord, Reported.value_bind, Reported.value_bind]
  cases (s.recordColumn record.1).value with
  | none => exact h
  | some column => exact hR.insert h _ _ _

/-- The columns of all records are collected alike. -/
theorem addRecords (hR : Agree R) (s : Scope) (h : R a b) :
    R (s.addRecords a).value (s.addRecords b).value := by
  rw [Scope.addRecords, Scope.addRecords, Reported.value_foldlM, Reported.value_foldlM]
  exact List.foldl_rel h fun record _ _ _ h => hR.addRecord s h record

end ColumnStore.Agree

namespace ColumnArena

/-- A sound arena and what is seen of it. -/
def Viewed (a : ColumnArena) (p : ColumnPool) : Prop := a.IsSound ∧ a.pool = p

theorem viewed_empty : Viewed {} {} := ⟨isSound_empty, rfl⟩

theorem agrees_pool : ColumnStore.Agree Viewed where
  containsName := by
    rintro a _ ⟨ha, rfl⟩ name
    exact (ha.containsName_pool name).symm
  isTextOnly := by
    rintro a _ ⟨-, rfl⟩ path
    rfl
  insert := by
    rintro a _ ⟨ha, rfl⟩ column origin r
    exact ⟨ha.insert column origin r, ha.pool_insert column origin r⟩

end ColumnArena

namespace Scope

/-! ### Columns of records -/

/-- How a record gets its column. -/
inductive Renders (s : Scope) (field : DataField) (key : String) : Column → Prop
  | value {record : ValueField} {t : PropertyTarget} (hfield : field = .value record)
      (ht : s.property? record.value = some t) (hprimitive : t.property.isPrimitive = true) :
      Renders s field key (s.propertyRecordColumn field t key)
  | group {record : ReferenceField} {path : AnnotationPath} {resolved : ResolvedAnnotation}
      {group : FieldGroup} (hfield : field = .reference record)
      (hpath : AnnotationPath.ofText record.target = .ok path)
      (hresolved : s.service.annotationAt? s.entityType path = some resolved)
      (htarget : resolved.target = .fieldGroup group) :
      Renders s field key (s.groupColumn field record.target key group resolved path.qualifier)
  | point {record : ReferenceField} {path : AnnotationPath} {resolved : ResolvedAnnotation}
      {point : DataPoint} {t : PropertyTarget} (hfield : field = .reference record)
      (hpath : AnnotationPath.ofText record.target = .ok path)
      (hresolved : s.service.annotationAt? s.entityType path = some resolved)
      (htarget : resolved.target = .dataPoint point)
      (ht : s.property? (resolved.navigationPrefix ++ point.value) = some t) :
      Renders s field key (s.pointColumn field record.target key point t)

theorem valueColumn_eq_some {s : Scope} {record : ValueField} {key : String} {column : Column}
    (h : (s.valueColumn (.value record) record.value key).value = some column) :
    s.Renders (.value record) key column := by
  rw [valueColumn] at h
  split at h
  · cases h
  · rename_i t ht
    split at h
    · rename_i hprimitive
      obtain rfl := Option.some.inj h
      exact .value rfl ht hprimitive
    · cases h

theorem referenceColumn_eq_some {s : Scope} {record : ReferenceField} {key : String}
    {column : Column}
    (h : (s.referenceColumn (.reference record) record.target key).value = some column) :
    s.Renders (.reference record) key column := by
  rw [referenceColumn] at h
  split at h
  · cases h
  · rename_i path hpath
    split at h
    · cases h
    · rename_i resolved hresolved
      split at h
      · rename_i group htarget
        obtain rfl := Option.some.inj h
        exact .group rfl hpath hresolved htarget
      · rename_i point htarget
        simp only [dataPointColumn] at h
        split at h
        · rename_i t ht
          obtain rfl := Option.some.inj h
          exact .point rfl hpath hresolved htarget ht
        · cases h
      · cases h

/-- **Records and their columns.**  A record has a column only if what it shows is found. -/
theorem recordColumn_eq_some {s : Scope} {field : DataField} {column : Column}
    (h : (s.recordColumn field).value = some column) :
    ∃ key, field.key? = some key ∧ s.Renders field key column := by
  unfold recordColumn at h
  split at h
  · rename_i record key hkey
    exact ⟨key, hkey, valueColumn_eq_some h⟩
  · rename_i record key hkey
    exact ⟨key, hkey, referenceColumn_eq_some h⟩
  · cases h

theorem Renders.key_eq {s : Scope} {field : DataField} {key : String} {column : Column}
    (h : s.Renders field key column) : column.key = key := by
  cases h <;> rfl

/-! ### The pool before linking -/

/-- The pool of the columns of all records, in the order of the line item. -/
def addLineItem (s : Scope) : Reported ColumnPool := s.addRecords {}

/-- The columns of records, of properties and of texts, with nothing linked. -/
def collected (s : Scope) : ColumnPool := s.addProperties s.addLineItem.value

/-- The columns with their dependencies linked. -/
def pool (s : Scope) : Reported ColumnPool := ColumnArena.pool <$> s.arena

/-- **The pool of a scope.**  What is collected in an arena and linked there is what a pool would
have. -/
theorem value_pool (s : Scope) : s.pool.value = (s.collected.link s.hiddenColumn?).pool := by
  have hrecords := ColumnArena.agrees_pool.addRecords s ColumnArena.viewed_empty
  have hproperties := ColumnArena.agrees_pool.addProperties s hrecords
  show ((s.addProperties (s.addRecords ({} : ColumnArena)).value).link
    fun _ => s.hiddenColumn?).arena.pool = _
  rw [hproperties.1.pool_link, hproperties.2]
  rfl

/-- The entry of a record at a place of the line item. -/
def recordEntry (s : Scope) (index : Nat) (field : DataField) (column : Column) : PooledColumn :=
  .ofColumn (s.placeRecord index (s.service.collectField s.entityType field) column) .lineItem
    (s.service.collectField s.entityType field)

/-- The column of a property that no record shows. -/
def rawColumn (s : Scope) (p : Property) (t : PropertyTarget) (isTextOnly : Bool) : Column :=
  if isTextOnly then fixOrder (offered p (s.propertyColumn t p.name (propertyKey p.name)))
  else offered p (s.propertyColumn t p.name (propertyKey p.name))

/-- The entry of a property that no record shows. -/
def propertyEntry (s : Scope) (p : Property) (t : PropertyTarget) (isTextOnly : Bool) :
    PooledColumn :=
  .ofColumn (s.rawColumn p t isTextOnly) .property
    (s.service.collectProperty s.entityType p.name .property)

/-- The entry of a text that is shown in place of a value. -/
def textEntry (s : Scope) (path : PropertyPath) (t : PropertyTarget) : PooledColumn :=
  .ofColumn (offered t.property (fixOrder (s.propertyColumn t path (propertyKey path)))) .property
    {}

/-! ### Steps of the collection -/

/-- What a record does to the pool: nothing, unless it has a column whose name and key are free. -/
theorem addRecord_cases (s : Scope) (p : ColumnPool) (field : DataField) (index : Nat) :
    (s.addRecord p (field, index)).value = p ∧ ((s.recordColumn field).value = none ∨
      ∃ column, (s.recordColumn field).value = some column ∧
        (column.name ∈ p.names ∨ column.key ∈ p.keys)) ∨
    ∃ column, (s.recordColumn field).value = some column ∧
      column.name ∉ p.names ∧ column.key ∉ p.keys ∧
      (s.addRecord p (field, index)).value =
        p.push (s.recordEntry index field column).column .lineItem
          (s.service.collectField s.entityType field) := by
  rw [addRecord, Reported.value_bind]
  cases (s.recordColumn field).value with
  | none => exact .inl ⟨rfl, .inl rfl⟩
  | some column =>
    rcases p.insert_cases (s.recordEntry index field column).column .lineItem
      (s.service.collectField s.entityType field) with ⟨hname, hkey, heq⟩ | ⟨htaken, heq⟩
    · exact .inr ⟨column, rfl, hname, hkey, heq⟩
    · exact .inl ⟨heq, .inr ⟨column, rfl, htaken⟩⟩

/-- What a text in place of a value does to the pool. -/
theorem addText_cases (s : Scope) (p : ColumnPool) (path : PropertyPath) :
    s.addText p path = p ∨ ∃ t, s.property? path = some t ∧
      s.addText p path = p.insert (s.textEntry path t).column .property {} := by
  rw [addText]
  split
  · exact .inl rfl
  · split
    · exact .inl rfl
    · rename_i t ht
      exact .inr ⟨t, ht, rfl⟩

/-- What a property does to the pool: nothing, unless it is primitive and found and its name is
free. -/
theorem addProperty_cases (s : Scope) (p : ColumnPool) (property : Property) :
    s.addProperty p property = p ∨
    property.isPrimitive = true ∧ property.name ∉ p.names ∧
      ∃ t, s.property? property.name = some t ∧
        s.addProperty p property =
          (s.service.collectProperty s.entityType property.name .property).textOnly.foldl s.addText
            (p.insert (s.rawColumn property t (p.isTextOnly property.name)) .property
              (s.service.collectProperty s.entityType property.name .property)) := by
  rw [addProperty]
  split
  · exact .inl rfl
  · rename_i hskip
    rw [Bool.or_eq_true, not_or, Bool.not_eq_true', Bool.not_eq_false,
      ColumnPool.containsName_store, ColumnPool.containsName_iff] at hskip
    split
    · exact .inl rfl
    · rename_i t ht
      exact .inr ⟨hskip.1, hskip.2, t, ht, rfl⟩

/-- The column of a property whose name is free is refused only for its key. -/
theorem insert_rawColumn_cases {s : Scope} {p : ColumnPool} {property : Property}
    (hname : property.name ∉ p.names) (t : PropertyTarget) (isTextOnly : Bool)
    (r : RelatedProperties) :
    propertyKey property.name ∉ p.keys ∧
        p.insert (s.rawColumn property t isTextOnly) .property r =
          p.push (s.rawColumn property t isTextOnly) .property r ∨
      propertyKey property.name ∈ p.keys ∧
        p.insert (s.rawColumn property t isTextOnly) .property r = p := by
  have hcolumn : (s.rawColumn property t isTextOnly).name = property.name ∧
      (s.rawColumn property t isTextOnly).key = propertyKey property.name := by
    cases isTextOnly <;> exact ⟨rfl, rfl⟩
  have hinsert := p.insert_cases (s.rawColumn property t isTextOnly) .property r
  rw [hcolumn.1, hcolumn.2] at hinsert
  rcases hinsert with ⟨-, hkey, heq⟩ | ⟨htaken, heq⟩
  · exact .inl ⟨hkey, heq⟩
  · exact .inr ⟨htaken.resolve_left hname, heq⟩

/-- A primitive property whose name and key are free gets its column. -/
theorem addProperty_of_free {s : Scope} {p : ColumnPool} {property : Property}
    {t : PropertyTarget} (hprimitive : property.isPrimitive = true)
    (hname : property.name ∉ p.names) (hkey : propertyKey property.name ∉ p.keys)
    (ht : s.property? property.name = some t) :
    s.addProperty p property =
      (s.service.collectProperty s.entityType property.name .property).textOnly.foldl s.addText
        (p.push (s.rawColumn property t (p.isTextOnly property.name)) .property
          (s.service.collectProperty s.entityType property.name .property)) := by
  have hskip : ¬ (!property.isPrimitive || p.containsName property.name) = true := by
    rw [hprimitive, Bool.not_true, Bool.false_or, ColumnPool.containsName_iff]
    exact hname
  have hinsert := (insert_rawColumn_cases (s := s) hname t (p.isTextOnly property.name)
    (s.service.collectProperty s.entityType property.name .property)).resolve_right
      fun htaken => hkey htaken.1
  rw [addProperty, ColumnPool.containsName_store, if_neg hskip, ht, ← hinsert.2]
  rfl

/-! ### Entries of the pool before linking -/

/-- What the entries of the pool before linking are. -/
inductive Collects (s : Scope) : PooledColumn → Prop
  | record {index : Nat} {field : DataField} {column : Column}
      (hfield : s.lineItem[index]? = some field)
      (hcolumn : (s.recordColumn field).value = some column) :
      Collects s (s.recordEntry index field column)
  | property {p : Property} {t : PropertyTarget} (hp : p ∈ s.entityType.properties)
      (hprimitive : p.isPrimitive = true) (ht : s.property? p.name = some t)
      (isTextOnly : Bool) : Collects s (s.propertyEntry p t isTextOnly)
  | text {p : Property} {path : PropertyPath} {t : PropertyTarget}
      (hp : p ∈ s.entityType.properties)
      (htext : path ∈ (s.service.collectProperty s.entityType p.name .property).textOnly)
      (ht : s.property? path = some t) : Collects s (s.textEntry path t)

/-- What every insertion keeps while columns are collected. -/
structure IsCollected (s : Scope) (p : ColumnPool) : Prop where
  distinct : p.IsDistinct
  collects : ∀ e ∈ p.entries, s.Collects e

theorem IsCollected.insert {s : Scope} {p : ColumnPool} (hp : s.IsCollected p) {column : Column}
    {origin : ColumnOrigin} {r : RelatedProperties}
    (h : s.Collects (.ofColumn column origin r)) : s.IsCollected (p.insert column origin r) := by
  refine ⟨hp.distinct.insert column origin r, fun e he => ?_⟩
  rcases ColumnPool.mem_insert he with he | rfl
  · exact hp.collects e he
  · exact h

theorem IsCollected.addRecord {s : Scope} {p : ColumnPool} (hp : s.IsCollected p)
    {record : DataField × Nat} (h : s.lineItem[record.2]? = some record.1) :
    s.IsCollected (s.addRecord p record).value := by
  obtain ⟨field, index⟩ := record
  rw [Scope.addRecord, Reported.value_bind]
  cases hcolumn : (s.recordColumn field).value with
  | none => exact hp
  | some column => exact hp.insert (.record h hcolumn)

theorem isCollected_addLineItem (s : Scope) : s.IsCollected s.addLineItem.value := by
  rw [addLineItem, addRecords, Reported.value_foldlM]
  refine List.foldlRecOn _ _ ⟨ColumnPool.isDistinct_empty, by simp⟩ fun p hp record hrecord => ?_
  exact hp.addRecord (List.mem_zipIdx_iff_getElem?.1 hrecord)

theorem IsCollected.addText {s : Scope} {p : ColumnPool} (hp : s.IsCollected p)
    {property : Property} (hproperty : property ∈ s.entityType.properties) {path : PropertyPath}
    (h : path ∈ (s.service.collectProperty s.entityType property.name .property).textOnly) :
    s.IsCollected (s.addText p path) := by
  rcases s.addText_cases p path with heq | ⟨t, ht, heq⟩
  · rw [heq]
    exact hp
  · rw [heq]
    exact hp.insert (.text hproperty h ht)

theorem IsCollected.addProperty {s : Scope} {p : ColumnPool} (hp : s.IsCollected p)
    {property : Property} (hproperty : property ∈ s.entityType.properties) :
    s.IsCollected (s.addProperty p property) := by
  rcases s.addProperty_cases p property with heq | ⟨hprimitive, -, t, ht, heq⟩
  · rw [heq]
    exact hp
  · rw [heq]
    refine List.foldlRecOn _ _ ?_ fun q hq text htext => hq.addText hproperty htext
    exact hp.insert (.property hproperty hprimitive ht (p.isTextOnly property.name))

/-- **The pool before linking** has distinct names and keys, and entries of three kinds only. -/
theorem isCollected_collected (s : Scope) : s.IsCollected s.collected := by
  rw [collected, addProperties]
  refine List.foldlRecOn _ _ s.isCollected_addLineItem fun p hp property hproperty => ?_
  exact hp.addProperty hproperty

theorem collects_of_mem {s : Scope} {e : PooledColumn} (h : e ∈ s.collected.entries) :
    s.Collects e :=
  s.isCollected_collected.collects e h

theorem collected_isDistinct (s : Scope) : s.collected.IsDistinct :=
  s.isCollected_collected.distinct

/-! ### Entries stay -/

theorem entries_subset_insert (p : ColumnPool) (column : Column) (origin : ColumnOrigin)
    (r : RelatedProperties) : p.entries ⊆ (p.insert column origin r).entries := by
  rcases p.insert_cases column origin r with ⟨-, -, heq⟩ | ⟨-, heq⟩
  · rw [heq]
    exact List.subset_append_left _ _
  · rw [heq]
    exact List.Subset.refl _

theorem entries_subset_addText (s : Scope) (p : ColumnPool) (path : PropertyPath) :
    p.entries ⊆ (s.addText p path).entries := by
  rcases s.addText_cases p path with heq | ⟨t, -, heq⟩
  · rw [heq]
    exact List.Subset.refl _
  · rw [heq]
    exact entries_subset_insert p _ _ _

theorem entries_subset_foldl_addText (s : Scope) (p : ColumnPool) (paths : List PropertyPath) :
    p.entries ⊆ (paths.foldl s.addText p).entries := by
  refine List.foldlRecOn (motive := fun q : ColumnPool => p.entries ⊆ q.entries) _ _
    (List.Subset.refl _) ?_
  intro q hq path _
  exact List.Subset.trans hq (s.entries_subset_addText q path)

theorem entries_subset_addProperty (s : Scope) (p : ColumnPool) (property : Property) :
    p.entries ⊆ (s.addProperty p property).entries := by
  rcases s.addProperty_cases p property with heq | ⟨-, -, t, -, heq⟩
  · rw [heq]
    exact List.Subset.refl _
  · rw [heq]
    exact List.Subset.trans (entries_subset_insert p _ _ _) (s.entries_subset_foldl_addText _ _)

/-- A primitive property whose name and key are free has its entry. -/
theorem propertyEntry_mem_addProperty {s : Scope} {p : ColumnPool} {property : Property}
    {t : PropertyTarget} (hprimitive : property.isPrimitive = true)
    (hname : property.name ∉ p.names) (hkey : propertyKey property.name ∉ p.keys)
    (ht : s.property? property.name = some t) :
    s.propertyEntry property t (p.isTextOnly property.name) ∈
      (s.addProperty p property).entries := by
  rw [addProperty_of_free hprimitive hname hkey ht]
  refine s.entries_subset_foldl_addText _ _ ?_
  exact List.mem_append_right _ (List.mem_singleton_self _)

/-! ### What all entries have in common -/

namespace Collects

variable {s : Scope} {e : PooledColumn}

theorem exists_ofColumn (h : s.Collects e) :
    ∃ column origin r, e = .ofColumn column origin r := by
  cases h <;> exact ⟨_, _, _, rfl⟩

/-- Nothing is linked yet. -/
theorem links_eq (h : s.Collects e) : e.links = [] ∧ e.additionalLinks = [] := by
  obtain ⟨column, origin, r, rfl⟩ := h.exists_ofColumn
  exact ⟨rfl, rfl⟩

theorem isComposite_eq (h : s.Collects e) : e.isComposite = !e.pending.isEmpty := by
  obtain ⟨column, origin, r, rfl⟩ := h.exists_ofColumn
  rfl

end Collects

end Scope

end TableCompiler
