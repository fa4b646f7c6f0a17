import TableCompiler.Proofs.Column.Origin

/-!
# The type that carries a line item

The path of a line item may navigate, and then another type than that of the rows carries it.  The
columns of its records show what is found from the type of the rows all the same, so a record is
shown as it was meant only if both types find the same property.

* `Service.lineItemAt?_eq_some`, `Context.carrier` — the type that carries the line item;
* `Service.SameProperty` — two types find the same property at a path;
* `Scope.Yields.valueColumn_spec` — what the column of a record shows;
* `Context.records_resolved_on_rows` — when that is what the record was meant to show.
-/

namespace TableCompiler

/-! ### The carrier of a line item -/

namespace Service

variable {s : Service} {t u : EntityType}

theorem lineItemAt?_eq_some {path : AnnotationPath} {records : List DataField}
    (h : s.lineItemAt? t path = some records) :
    ∃ host, s.entityTypeAt? t path.navigationPath = some host ∧
      host.annotations.lineItems.get? path.qualifierKey = some records := by
  rw [lineItemAt?] at h
  split at h
  · rename_i hterm
    split at h
    · rename_i found host further hresolved
      obtain rfl := Option.some.inj h
      obtain ⟨hfollow, htarget, -⟩ := annotationAt?_eq_some hresolved
      rw [hterm] at htarget
      obtain ⟨records, hrecords, heq⟩ := Option.map_eq_some_iff.1 htarget
      obtain rfl := AnnotationTarget.lineItem.inj heq
      exact ⟨host, hfollow, hrecords⟩
    · cases h
  · cases h

/-- Two types find the same property of the same type at a path. -/
def SameProperty (s : Service) (t u : EntityType) (path : PropertyPath) : Prop :=
  ∃ a b, s.property? t path = some a ∧ s.property? u path = some b ∧
    a.property = b.property ∧ a.entityType = b.entityType

theorem SameProperty.refl {path : PropertyPath} (h : s.Finds t path) :
    s.SameProperty t t path := by
  obtain ⟨a, ha⟩ := Option.isSome_iff_exists.1 h
  exact ⟨a, a, ha, ha, rfl, rfl⟩

/-- What is found by a mere name belongs to the type itself. -/
theorem entityType_of_property? {name : PropertyPath} (hslash : '/' ∉ name.toList)
    {a : PropertyTarget} (h : s.property? t name = some a) : a.entityType = t := by
  rw [property?, Text.split_of_not_mem hslash, propertyAt?, Option.map_map] at h
  obtain ⟨p, -, rfl⟩ := Option.map_eq_some_iff.1 h
  rfl

/-- Different types never find the same property by a mere name. -/
theorem SameProperty.eq_of_name {name : PropertyPath} (h : s.SameProperty t u name)
    (hslash : '/' ∉ name.toList) : u = t := by
  obtain ⟨a, b, ha, hb, -, htype⟩ := h
  rw [← entityType_of_property? hslash ha, ← entityType_of_property? hslash hb, htype]

end Service

/-- The line item of a settled request is carried by the type that its path leads to. -/
theorem Context.carrier {c : Context} {r : TableRequest} {scope : Reported Scope}
    (h : c.resolve r = .ok scope) :
    ∃ host, scope.value.service.entityTypeAt? scope.value.entityType
        r.lineItem.navigationPath = some host ∧
      host.annotations.lineItems.get? r.lineItem.qualifierKey = some scope.value.lineItem := by
  rw [resolve] at h
  split at h
  · split at h
    · dsimp only at h
      split at h
      · split at h
        · rename_i records hrecords
          obtain rfl := Except.ok.inj h
          exact Service.lineItemAt?_eq_some hrecords
        · cases h
      · cases h
    · cases h
  · cases h

/-! ### Columns of records -/

/-- The column of a record with a value shows the primitive property that is found at the value
from the type of the rows. -/
theorem Scope.Yields.valueColumn_spec {s : Scope} {t : Table} (h : s.Yields t) {column : Column}
    (hcolumn : column ∈ t.columns) {index : Nat} {record : ValueField}
    (hrecord : s.lineItem[index]? = some (.value record))
    (hpath : column.annotationPath = some (s.recordPath index)) :
    column.relativePath = some record.value ∧
      ∃ target, s.property? record.value = some target ∧ target.property.isPrimitive = true := by
  obtain ⟨built, hbuilt, -, hbare⟩ := h.exists_recordEntry hcolumn hrecord hpath
  have hrelative : (s.recordEntry index (.value record) built).column.relativePath =
      column.relativePath := Column.eq_of_bare (·.relativePath) (fun _ => rfl) hbare
  obtain ⟨key, -, hrenders⟩ := recordColumn_eq_some hbuilt
  cases hrenders with
  | @value record' target hfield htarget hprimitive =>
    obtain rfl := DataField.value.inj hfield
    refine ⟨?_, target, htarget, hprimitive⟩
    rw [← hrelative]
    exact congrArg some (Service.property?_path htarget)
  | group hfield => cases hfield
  | point hfield => cases hfield

namespace Context

/-- **Records are resolved on the rows.**  The column of a record with a value shows the property
that is found from the type of the rows.  That is the property found from the type that carries the
line item, if the two types are one, as they are for a path without navigation; and where the value
is a mere name, only then. -/
theorem records_resolved_on_rows (c : Context) (r : TableRequest) (scope : Reported Scope)
    (t : Table) (hscope : c.resolve r = .ok scope) (h : (c.compile r).value = .ok t) :
    ∃ host, scope.value.service.entityTypeAt? scope.value.entityType
        r.lineItem.navigationPath = some host ∧
      host.annotations.lineItems.get? r.lineItem.qualifierKey = some scope.value.lineItem ∧
      (r.lineItem.navigation = [] → host = scope.value.entityType) ∧
      ∀ column ∈ t.columns, ∀ index record,
        scope.value.lineItem[index]? = some (.value record) →
        column.annotationPath = some (scope.value.recordPath index) →
        column.relativePath = some record.value ∧
        (∃ target, scope.value.property? record.value = some target ∧
          target.property.isPrimitive = true) ∧
        (host = scope.value.entityType →
          scope.value.service.SameProperty scope.value.entityType host record.value) ∧
        ('/' ∉ record.value.toList →
          scope.value.service.SameProperty scope.value.entityType host record.value →
          host = scope.value.entityType) := by
  obtain ⟨settled, hsettled, hyields⟩ := exists_yields h
  obtain rfl := Except.ok.inj (hscope.symm.trans hsettled)
  obtain ⟨host, hfollow, hcarried⟩ := carrier hscope
  refine ⟨host, hfollow, hcarried, ?_, ?_⟩
  · intro hnavigation
    rw [AnnotationPath.navigationPath, hnavigation] at hfollow
    exact (Option.some.inj hfollow).symm
  · intro column hcolumn index record hrecord hpath
    obtain ⟨hrelative, target, htarget, hprimitive⟩ :=
      hyields.valueColumn_spec hcolumn hrecord hpath
    refine ⟨hrelative, ⟨target, htarget, hprimitive⟩, ?_, ?_⟩
    · rintro rfl
      exact .refl (Option.isSome_iff_exists.2 ⟨target, htarget⟩)
    · exact fun hslash hsame => hsame.eq_of_name hslash

/-- The amounts in the table of orders are those that the line item of orders names. -/
theorem records_resolved_on_rows_orders :
    ∃ scope t column, orders.resolve { entitySet := "Orders" } = .ok scope ∧
      (orders.compile { entitySet := "Orders" }).value = .ok t ∧ column ∈ t.columns ∧
      column.annotationPath = some (scope.value.recordPath 0) ∧
      column.relativePath = some "Amount" ∧
      scope.value.service.SameProperty scope.value.entityType scope.value.entityType
        "Amount" := by
  have hrun : (match orders.resolve { entitySet := "Orders" },
      (orders.compile { entitySet := "Orders" }).value with
    | .ok scope, .ok t =>
      decide (scope.value.lineItem[0]? = some (.value ⟨.plain, "Amount", none, {}⟩)) &&
        t.columns.any (·.annotationPath == some (scope.value.recordPath 0))
    | _, _ => false) = true := by decide +kernel
  split at hrun
  · rename_i scope t hscope ht
    rw [Bool.and_eq_true, decide_eq_true_iff, List.any_eq_true] at hrun
    obtain ⟨hrecord, column, hcolumn, hpath⟩ := hrun
    rw [beq_iff_eq] at hpath
    obtain ⟨host, -, -, hhost, hcolumns⟩ :=
      orders.records_resolved_on_rows { entitySet := "Orders" } scope t hscope ht
    obtain ⟨hrelative, -, hsame, -⟩ := hcolumns column hcolumn 0 _ hrecord hpath
    obtain rfl := hhost rfl
    exact ⟨scope, t, column, hscope, ht, hcolumn, hpath, hrelative, hsame rfl⟩
  · cases hrun

/-- Orders with numbers for names; their suppliers have texts, and a line item. -/
def homonymous : Context where
  service := {
    entitySets := [{ name := "Orders", entityType := "shop.Order" }]
    entityTypes := [
      { name := "shop.Order"
        properties := [{ name := "Name", typeName := "Edm.Int32" }]
        navigationProperties := [{ name := "toSupplier", targetType := "shop.Supplier" }] },
      { name := "shop.Supplier"
        properties := [{ name := "Name", typeName := "Edm.String" }]
        annotations := {
          lineItems := .ofList [("", [DataField.value ⟨.plain, "Name", none, {}⟩])] } }] }

-- the record of the supplier is shown by the number of the order
example :
    (match (homonymous.compile
        { entitySet := "Orders", lineItem := ⟨["toSupplier"], .lineItem, none⟩ }).value with
    | .ok t => t.columns.map fun c => (c.name, c.typeConfig.map (·.className))
    | .error _ => []) = [("Name", some "sap.ui.model.odata.type.Int32")] := by
  decide +kernel

end Context

end TableCompiler
