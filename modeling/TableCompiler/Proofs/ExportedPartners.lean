import TableCompiler.Proofs.Column.Marks
import TableCompiler.Proofs.Navigation

/-!
# Partners in export settings

A column that shows a property names the currency or unit and the time zone of the property, by
their paths behind the navigation to the property.  What is collected for a column is looked up and
left out if it is not there; what is named is not, so a name leads nowhere if the annotation of the
property does.

* `PropertyTarget.exportPartners` — the partners that are named;
* `ExportSettings.named`, `PropertyTarget.named_exportSettings` — where they are named;
* `Scope.Describes`, `Scope.Yields.describes_or` — the columns that show a property, and the others;
* `Scope.Names`, `Scope.Describes.names_iff` — the properties that a column names;
* `Context.exported_partners_found` — when they are there.
-/

namespace TableCompiler

/-! ### Partners that are named -/

namespace ExportSettings

/-- The properties that are named: that of the unit, and that of the time zone. -/
def named (s : ExportSettings) : Option PropertyPath × Option PropertyPath :=
  (s.unitProperty, s.timezoneProperty)

variable (navigation : String) (held : Dynamic String) (s : ExportSettings)

@[simp] theorem named_ofType (p : Property) (label : Option String) :
    (ofType p label).named = (none, none) := rfl

@[simp] theorem named_typed (type : ExportType) :
    { s with exportType := type : ExportSettings }.named = s.named := rfl

@[simp] theorem named_withUnit : (withUnit navigation held s).named =
    ((held.path?.map (navigation ++ ·)).or s.named.1, s.named.2) := by
  cases held <;> rfl

@[simp] theorem named_withTimezone : (withTimezone navigation held s).named =
    (s.named.1, (held.path?.map (navigation ++ ·)).or s.named.2) := by
  cases held <;> rfl

@[simp] theorem named_withArrangement (arrangement : TextArrangement) :
    (withArrangement arrangement s).named = s.named := by
  rw [withArrangement]
  split <;> rfl

end ExportSettings

namespace PropertyTarget

/-- The path of the currency, or else of the unit, as it is seen from the type of the property. -/
def unitPartner? (t : PropertyTarget) : Option PropertyPath :=
  (t.property.annotations.isoCurrency.or t.property.annotations.unit).bind (·.path?)

/-- The partners that the column of a property names. -/
def exportPartners (t : PropertyTarget) : List PropertyPath :=
  t.unitPartner?.toList ++ t.property.timezonePath?.toList

theorem named_exportSettings (t : PropertyTarget) (label : Option String) :
    (t.exportSettings label).named = (t.unitPartner?.map (t.navigationPrefix ++ ·),
      t.property.timezonePath?.map (t.navigationPrefix ++ ·)) := by
  simp only [exportSettings, unitPartner?, Property.timezonePath?]
  cases t.property.annotations.isoCurrency <;> cases t.property.annotations.unit <;>
    cases t.property.annotations.timezone <;> cases t.property.textArrangement? <;> simp

/-- A unit that is held by a property is shown by the path of the property. -/
theorem unit?_of_unitPartner? {t : PropertyTarget} {partner : PropertyPath}
    (h : t.unitPartner? = some partner) : t.unit? = some (t.navigationPrefix ++ partner) := by
  obtain ⟨unit, hunit, hpath⟩ := Option.bind_eq_some_iff.1 h
  rw [unit?, hunit, Option.map_some]
  cases unit with
  | path p =>
    obtain rfl := Option.some.inj hpath
    rfl
  | literal code => cases hpath

end PropertyTarget

/-! ### Columns that show a property -/

namespace Scope

/-- A column shows one property, with the export settings and the unit of the property. -/
structure Describes (s : Scope) (c : Column) (t : PropertyTarget) : Prop where
  path : c.relativePath = some t.path
  found : s.property? t.path = some t
  exportSettings : ∃ label, c.exportSettings = some (t.exportSettings label)
  unit : c.unit = t.unit?

end Scope

namespace Column

/-- A column shows no property of its own, and names none. -/
structure NamesNone (c : Column) : Prop where
  path : c.relativePath = none
  named : ∀ settings ∈ c.exportSettings, settings.named = (none, none)

theorem NamesNone.of_bare {b c : Column} (h : b.NamesNone) (hbare : b.bare = c.bare) :
    c.NamesNone := by
  refine ⟨(eq_of_bare (·.relativePath) (fun _ => rfl) hbare).symm.trans h.path, ?_⟩
  rw [← eq_of_bare (·.exportSettings) (fun _ => rfl) hbare]
  exact h.named

end Column

namespace Scope

variable {s : Scope} {b c : Column} {t : PropertyTarget}

theorem Describes.of_bare (h : s.Describes b t) (hbare : b.bare = c.bare) : s.Describes c t := by
  refine ⟨?_, h.found, ?_, ?_⟩
  · exact (Column.eq_of_bare (·.relativePath) (fun _ => rfl) hbare).symm.trans h.path
  · rw [← Column.eq_of_bare (·.exportSettings) (fun _ => rfl) hbare]
    exact h.exportSettings
  · exact (Column.eq_of_bare (·.unit) (fun _ => rfl) hbare).symm.trans h.unit

/-- What is found at a path is found at the path that it has. -/
theorem property?_self {path : PropertyPath} (h : s.property? path = some t) :
    s.property? t.path = some t := by
  rw [Service.property?_path h]
  exact h

/-- The column of a record shows a property, or it is that of a group and names none. -/
theorem describes_or_of_record {index : Nat} {field : DataField} {column : Column}
    (h : (s.recordColumn field).value = some column) :
    (∃ t, s.Describes (s.recordEntry index field column).column t) ∨
      (s.recordEntry index field column).column.NamesNone := by
  obtain ⟨key, -, hrenders⟩ := recordColumn_eq_some h
  cases hrenders with
  | value hfield ht hprimitive => exact .inl ⟨_, rfl, property?_self ht, ⟨_, rfl⟩, rfl⟩
  | point hfield hpath hresolved htarget ht =>
    exact .inl ⟨_, rfl, property?_self ht, ⟨_, rfl⟩, rfl⟩
  | group hfield hpath hresolved htarget =>
    refine .inr ⟨rfl, ?_⟩
    simp only [recordEntry, ColumnEntry.ofColumn, placeRecord, groupColumn, Option.none_or]
    split
    · rintro settings ⟨⟩
    · rintro settings ⟨⟩
      rfl

/-- The column of a bare property shows it. -/
theorem describes_rawColumn (p : Property) (ht : s.property? p.name = some t)
    (isTextOnly : Bool) : s.Describes (s.rawColumn p t isTextOnly) t := by
  cases isTextOnly <;> exact ⟨rfl, property?_self ht, ⟨_, rfl⟩, rfl⟩

theorem exists_describes_hidden {hidden : HiddenColumn} (h : s.hiddenColumn? hidden = some c) :
    ∃ t, s.Describes c t := by
  obtain ⟨t, ht, rfl⟩ := Option.map_eq_some_iff.1 h
  refine ⟨t, ?_⟩
  dsimp only
  split <;> exact ⟨rfl, property?_self ht, ⟨_, rfl⟩, rfl⟩

/-- **Every column** of a table shows a property, or names none. -/
theorem Yields.describes_or {table : Table} (h : s.Yields table) (hc : c ∈ table.columns) :
    (∃ t, s.Describes c t) ∨ c.NamesNone := by
  cases h.origin hc with
  | collected he hbare =>
    cases collects_of_mem he with
    | record hfield hcolumn =>
      rcases describes_or_of_record hcolumn with ⟨t, ht⟩ | hnone
      · exact .inl ⟨t, ht.of_bare hbare⟩
      · exact .inr (hnone.of_bare hbare)
    | property hp hprimitive ht isTextOnly =>
      exact .inl ⟨_, (describes_rawColumn _ ht isTextOnly).of_bare hbare⟩
    | @text p path t hp htext ht =>
      have htext : s.Describes (s.textEntry path t).column t :=
        ⟨rfl, property?_self ht, ⟨_, rfl⟩, rfl⟩
      exact .inl ⟨t, htext.of_bare hbare⟩
  | hidden hbuild hmark hmem hbare =>
    obtain ⟨t, ht⟩ := exists_describes_hidden hbuild
    exact .inl ⟨t, ht.of_bare hbare⟩
  | custom hbare =>
    refine .inr (Column.NamesNone.of_bare ⟨rfl, ?_⟩ hbare)
    exact fun settings hnone => (Option.not_mem_none settings hnone).elim

/-! ### What a column names -/

/-- A column names a property: in its export settings, or as a unit that is held by a property. -/
inductive Names (s : Scope) (c : Column) (path : PropertyPath) : Prop
  | unitProperty (h : c.exportSettings.bind (·.unitProperty) = some path) : Names s c path
  | timezoneProperty (h : c.exportSettings.bind (·.timezoneProperty) = some path) : Names s c path
  | unit {t : PropertyTarget} {partner : PropertyPath} (hpath : c.relativePath = some t.path)
      (ht : s.property? t.path = some t) (hpartner : t.unitPartner? = some partner)
      (hunit : c.unit = some path) : Names s c path

variable {path : PropertyPath}

theorem not_names (h : c.NamesNone) : ¬ s.Names c path := by
  rintro (hunit | hzone | ⟨hpath, -⟩)
  · obtain ⟨settings, hsettings, hunit⟩ := Option.bind_eq_some_iff.1 hunit
    cases (congrArg Prod.fst (h.named settings hsettings)).symm.trans hunit
  · obtain ⟨settings, hsettings, hzone⟩ := Option.bind_eq_some_iff.1 hzone
    cases (congrArg Prod.snd (h.named settings hsettings)).symm.trans hzone
  · rw [h.path] at hpath
    cases hpath

namespace Describes

/-- A column shows at most one property. -/
theorem eq_of_path {u : PropertyTarget} (h : s.Describes c t) (hpath : c.relativePath = some u.path)
    (hu : s.property? u.path = some u) : u = t := by
  have hsame : t.path = u.path := Option.some.inj (h.path.symm.trans hpath)
  have hfound := h.found
  rw [hsame, hu] at hfound
  exact Option.some.inj hfound

/-- A column that shows a property names its partners, behind the navigation to the property. -/
theorem names_iff (h : s.Describes c t) :
    s.Names c path ↔ ∃ partner ∈ t.exportPartners, t.navigationPrefix ++ partner = path := by
  obtain ⟨label, hsettings⟩ := h.exportSettings
  have hunit : c.exportSettings.bind (·.unitProperty) =
      t.unitPartner?.map (t.navigationPrefix ++ ·) := by
    rw [hsettings]
    exact congrArg Prod.fst (t.named_exportSettings label)
  have hzone : c.exportSettings.bind (·.timezoneProperty) =
      t.property.timezonePath?.map (t.navigationPrefix ++ ·) := by
    rw [hsettings]
    exact congrArg Prod.snd (t.named_exportSettings label)
  simp only [PropertyTarget.exportPartners, List.mem_append, Option.mem_toList]
  constructor
  · rintro (hnamed | hnamed | @⟨u, partner, hpath, hu, hpartner, hnamed⟩)
    · rw [hunit] at hnamed
      obtain ⟨partner, hpartner, heq⟩ := Option.map_eq_some_iff.1 hnamed
      exact ⟨partner, .inl hpartner, heq⟩
    · rw [hzone] at hnamed
      obtain ⟨partner, hpartner, heq⟩ := Option.map_eq_some_iff.1 hnamed
      exact ⟨partner, .inr hpartner, heq⟩
    · obtain rfl := h.eq_of_path hpath hu
      rw [h.unit, PropertyTarget.unit?_of_unitPartner? hpartner] at hnamed
      exact ⟨partner, .inl hpartner, Option.some.inj hnamed⟩
  · rintro ⟨partner, hpartner | hpartner, rfl⟩
    · refine .unitProperty ?_
      rw [hunit, hpartner, Option.map_some]
    · refine .timezoneProperty ?_
      rw [hzone, hpartner, Option.map_some]

/-- What a column names is there exactly if it was collected with the property. -/
theorem finds_iff_technical (h : s.Describes c t) (hnamed : s.Names c path) :
    s.service.Finds s.entityType path ↔
      ∃ p, s.service.partners? s.entityType t.path = some p ∧ path ∈ p.technical := by
  constructor
  · intro hfinds
    obtain ⟨partner, hpartner, hpath⟩ := h.names_iff.1 hnamed
    have hresolved : s.service.partnerAt? s.entityType t.navigationPrefix partner = some path :=
      Service.partnerAt?_eq_some_iff.2 ⟨hpath, hfinds⟩
    have htarget : s.service.property? s.entityType t.path = some t := h.found
    refine ⟨_, by rw [Service.partners?, htarget, Option.map_some], ?_⟩
    rw [PropertyTarget.exportPartners, List.mem_append, Option.mem_toList, Option.mem_toList]
      at hpartner
    rw [Partners.technical, List.mem_append, Option.mem_toList, List.mem_filterMap]
    rcases hpartner with hunit | hzone
    · refine .inl ⟨partner, ?_, hresolved⟩
      rw [List.mem_append, Option.mem_toList, Option.mem_toList, Property.currencyPath?,
        Property.unitPath?]
      rw [PropertyTarget.unitPartner?] at hunit
      cases hcurrency : t.property.annotations.isoCurrency with
      | none =>
        rw [hcurrency, Option.none_or] at hunit
        exact .inr hunit
      | some currency =>
        rw [hcurrency] at hunit
        exact .inl hunit
    · refine .inr ?_
      dsimp only
      rw [hzone, Option.bind_some]
      exact hresolved
  · rintro ⟨p, hp, hmem⟩
    exact (Service.partners?_found hp).2.technical path hmem

end Describes

end Scope

namespace Context

/-- **Partners in export settings.**  What a column names is the partners of the property that it
shows, behind the navigation to the property.  All of it is there exactly if the partners are, as
they are seen from the type that has the property; and what is there is just what was collected for
the property. -/
theorem exported_partners_found (c : Context) (r : TableRequest) (scope : Reported Scope)
    (t : Table) (hscope : c.resolve r = .ok scope) (h : (c.compile r).value = .ok t) :
    ∀ column ∈ t.columns,
      (∀ path, scope.value.Names column path ↔ ∃ target, scope.value.Describes column target ∧
        ∃ partner ∈ target.exportPartners, target.navigationPrefix ++ partner = path) ∧
      ((∀ path, scope.value.Names column path →
          scope.value.service.Finds scope.value.entityType path) ↔
        ∀ target, scope.value.Describes column target → ∀ partner ∈ target.exportPartners,
          scope.value.service.Finds target.entityType partner) ∧
      ∀ path, scope.value.Names column path →
        (scope.value.service.Finds scope.value.entityType path ↔ ∃ shown p,
          column.relativePath = some shown ∧
          scope.value.service.partners? scope.value.entityType shown = some p ∧
          path ∈ p.technical) := by
  obtain ⟨settled, hsettled, hyields⟩ := exists_yields h
  obtain rfl := Except.ok.inj (hscope.symm.trans hsettled)
  intro column hcolumn
  rcases hyields.describes_or hcolumn with ⟨target, htarget⟩ | hnone
  · have honly : ∀ other, scope.value.Describes column other → other = target :=
      fun other hother => htarget.eq_of_path hother.path hother.found
    refine ⟨fun path => ?_, ?_, fun path hnamed => ?_⟩
    · rw [htarget.names_iff]
      constructor
      · exact fun hpartner => ⟨target, htarget, hpartner⟩
      · rintro ⟨other, hother, hpartner⟩
        obtain rfl := honly other hother
        exact hpartner
    · constructor
      · intro hall other hother partner hpartner
        obtain rfl := honly other hother
        refine (Service.finds_behind_iff hother.found partner).1 (hall _ ?_)
        exact htarget.names_iff.2 ⟨partner, hpartner, rfl⟩
      · intro hpartners path hnamed
        obtain ⟨partner, hpartner, rfl⟩ := htarget.names_iff.1 hnamed
        exact (Service.finds_behind_iff htarget.found partner).2
          (hpartners target htarget partner hpartner)
    · rw [htarget.finds_iff_technical hnamed]
      constructor
      · rintro ⟨p, hp, hmem⟩
        exact ⟨target.path, p, htarget.path, hp, hmem⟩
      · rintro ⟨shown, p, hshown, hp, hmem⟩
        obtain rfl := Option.some.inj (htarget.path.symm.trans hshown)
        exact ⟨p, hp, hmem⟩
  · have hnever : ∀ other, ¬ scope.value.Describes column other := by
      intro other hother
      cases hnone.path.symm.trans hother.path
    refine ⟨fun path => iff_of_false (Scope.not_names hnone) ?_, ?_, fun path hnamed => ?_⟩
    · rintro ⟨other, hother, -⟩
      exact hnever other hother
    · exact iff_of_true (fun path hnamed => (Scope.not_names hnone hnamed).elim)
        fun other hother => (hnever other hother).elim
    · exact (Scope.not_names hnone hnamed).elim

/-- The column of the amounts of orders names the currency, which is there. -/
theorem exported_partners_found_orders :
    ∃ scope t column, orders.resolve { entitySet := "Orders" } = .ok scope ∧
      (orders.compile { entitySet := "Orders" }).value = .ok t ∧ column ∈ t.columns ∧
      column.annotationPath = some (scope.value.recordPath 0) ∧
      scope.value.Names column "Currency" ∧
      scope.value.service.Finds scope.value.entityType "Currency" := by
  have hrun : (match orders.resolve { entitySet := "Orders" },
      (orders.compile { entitySet := "Orders" }).value with
    | .ok scope, .ok t =>
      (t.columns.any fun column => decide (
        column.annotationPath = some (scope.value.recordPath 0) ∧
        column.relativePath = some "Amount" ∧
        column.exportSettings.bind (·.unitProperty) = some "Currency")) &&
      (scope.value.service.partners? scope.value.entityType "Amount").any
        ("Currency" ∈ ·.technical)
    | _, _ => false) = true := by decide +kernel
  split at hrun
  · rename_i scope t hscope ht
    rw [Bool.and_eq_true, List.any_eq_true, Option.any_eq_true] at hrun
    obtain ⟨⟨column, hcolumn, hchecked⟩, p, hp, hmem⟩ := hrun
    obtain ⟨hpath, hshown, hunit⟩ := of_decide_eq_true hchecked
    have hnamed : scope.value.Names column "Currency" := .unitProperty hunit
    obtain ⟨-, -, hfound⟩ :=
      orders.exported_partners_found { entitySet := "Orders" } scope t hscope ht column hcolumn
    exact ⟨scope, t, column, hscope, ht, hcolumn, hpath, hnamed,
      (hfound "Currency" hnamed).2 ⟨"Amount", p, hshown, hp, of_decide_eq_true hmem⟩⟩
  · cases hrun

/-- Parcels with a weight in a unit that they do not have. -/
def parcels : Context where
  service := {
    entitySets := [{ name := "Parcels", entityType := "shop.Parcel" }]
    entityTypes := [
      { name := "shop.Parcel"
        properties := [
          { name := "Weight", typeName := "Edm.Decimal",
            annotations := { unit := some (.path "WeightUnit") } }]
        annotations := {
          lineItems := .ofList [("", [DataField.value ⟨.plain, "Weight", none, {}⟩])] } }] }

-- the unit is named, in the export settings and beside the weight, though nothing depends on it
example :
    (match (parcels.compile { entitySet := "Parcels" }).value with
    | .ok t => t.columns.map fun c => (c.name, c.exportSettings.bind (·.unitProperty), c.unit,
        c.propertyInfos ++ c.additionalPropertyInfos)
    | .error _ => []) = [("Weight", some "WeightUnit", some "WeightUnit", [])] := by
  decide +kernel

end Context

end TableCompiler
