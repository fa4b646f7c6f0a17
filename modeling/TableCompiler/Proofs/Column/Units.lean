import TableCompiler.Proofs.CollectedDependencies

/-!
# Currencies and units that are noted

Whoever collects a column notes the currencies and units of what it shows.  A bare property notes
its own only with a column of its own, and when it is its turn the column of a text may stand in its
place.

* `Service.MeasuredBy` — a property has a currency or unit that is found;
* `Service.mem_units_collectValue` — it is collected with the property;
* `Scope.NotesUnit`, `Scope.contains_units_iff` — the units that the pool has noted in the end;
* `Scope.IsForestalled` — the column of a text stands in the place of a property;
* `Scope.notesUnit_of_measuredBy` — the units of all other properties are noted.
-/

namespace TableCompiler

/-! ### Collected units -/

namespace RelatedProperties

theorem units_foldl_addProperty (r : RelatedProperties) (paths : List PropertyPath) :
    (paths.foldl addProperty r).units = r.units :=
  foldl_keeps (f := addProperty) (g := (·.units)) (fun _ _ => rfl) paths r

theorem units_addAdditional (r : RelatedProperties) (path : PropertyPath) :
    (r.addAdditional path).units = r.units := by
  rw [addAdditional]
  split <;> rfl

theorem units_foldl_addAdditional (r : RelatedProperties) (paths : List PropertyPath) :
    (paths.foldl addAdditional r).units = r.units :=
  foldl_keeps (g := (·.units)) units_addAdditional paths r

theorem units_addPartners (r : RelatedProperties) (p : Partners) :
    (r.addPartners p).units = r.units := by
  simp only [addPartners, units_foldl_addAdditional]
  split
  · rfl
  · exact units_foldl_addAdditional _ _

theorem units_addShown (r : RelatedProperties) (path : PropertyPath) (p : Partners) :
    (r.addShown path p).units = r.units := by
  rw [addShown]
  split
  · rw [units_addAdditional, units_foldl_addProperty]
    rfl
  · rw [units_foldl_addProperty]
    rfl

theorem mem_units_note {r : RelatedProperties} {p : Partners} {unit : PropertyPath} :
    unit ∈ (r.note p).units ↔ unit ∈ r.units ∨ unit ∈ p.units :=
  foldl_gathers_items (M := fun units unit => unit ∈ units) (fun _ _ _ => mem_addUnique) _ _ _

end RelatedProperties

namespace Service

/-- The property at a path has a currency or unit that is found. -/
def MeasuredBy (s : Service) (t : EntityType) (path unit : PropertyPath) : Prop :=
  ∃ target partner, s.property? t path = some target ∧
    (target.property.currencyPath? = some partner ∨
      target.property.unitPath? = some partner) ∧
    target.navigationPrefix ++ partner = unit ∧ s.Finds t unit

variable {s : Service} {t : EntityType} {path unit : PropertyPath}

theorem measuredBy_iff_partners :
    s.MeasuredBy t path unit ↔ ∃ p, s.partners? t path = some p ∧ unit ∈ p.units := by
  cases htarget : s.property? t path with
  | none => simp [MeasuredBy, partners?, htarget]
  | some target =>
    simp only [MeasuredBy, partners?, htarget, Option.map_some, Option.some_inj, exists_and_left,
      exists_eq_left', List.mem_filterMap, List.mem_append, Option.mem_toList,
      partnerAt?_eq_some_iff]

instance : Decidable (s.MeasuredBy t path unit) :=
  decidable_of_iff ((s.partners? t path).any (unit ∈ ·.units)) (by
    rw [measuredBy_iff_partners, Option.any_eq_true]
    simp only [decide_eq_true_eq])

/-- **Units are collected with the property**, however the property is treated. -/
theorem mem_units_collectValue {mode : CollectMode} {r : RelatedProperties} :
    unit ∈ (s.collectValue t mode path r).units ↔ unit ∈ r.units ∨ s.MeasuredBy t path unit := by
  rw [measuredBy_iff_partners, collectValue]
  cases hpartners : s.partners? t path with
  | none => simp
  | some p =>
    have hnoted : unit ∈ (r.note p).units ↔
        unit ∈ r.units ∨ ∃ q, some p = some q ∧ unit ∈ q.units := by
      simp only [RelatedProperties.mem_units_note, Option.some_inj, exists_eq_left']
    rw [← hnoted]
    cases mode with
    | property => rw [RelatedProperties.units_addPartners]
    | member => rw [RelatedProperties.units_addShown]
    | column =>
      dsimp only
      split
      · rfl
      · rw [RelatedProperties.units_addShown]

theorem mem_units_collectProperty {mode : CollectMode} :
    unit ∈ (s.collectProperty t path mode).units ↔ s.MeasuredBy t path unit := by
  rw [collectProperty, mem_units_collectValue]
  exact or_iff_right List.not_mem_nil

end Service

/-! ### Units of a pool -/

namespace Scope

variable {s : Scope} {p : ColumnPool} {unit : PropertyPath}

theorem units_addText (s : Scope) (p : ColumnPool) (text : PropertyPath) :
    (s.addText p text).units = p.units := by
  rcases s.addText_cases p text with heq | ⟨t, -, heq⟩
  · rw [heq]
  · rw [heq]
    rcases p.insert_cases (s.textEntry text t).column .property {} with ⟨-, -, heq⟩ | ⟨-, heq⟩
    · rw [heq]
      rfl
    · rw [heq]

theorem units_foldl_addText (s : Scope) (p : ColumnPool) (texts : List PropertyPath) :
    (texts.foldl s.addText p).units = p.units :=
  foldl_keeps (g := (·.units)) s.units_addText texts p

/-- **One turn.**  A property notes its units exactly if it takes a column of its own. -/
theorem contains_units_addProperty {before after : List Property} {property : Property}
    (hturn : s.entityType.properties = before ++ property :: after) :
    (s.addProperty (s.poolBefore before) property).units.contains unit = true ↔
      (s.poolBefore before).units.contains unit = true ∨
        s.TakesColumn before property ∧
          s.service.MeasuredBy s.entityType property.name unit := by
  by_cases htakes : s.TakesColumn before property
  · by_cases hfound : (s.property? property.name).isSome
    · obtain ⟨t, ht⟩ := Option.isSome_iff_exists.1 hfound
      rw [addProperty_of_free htakes.primitive htakes.name htakes.key ht, units_foldl_addText,
        ColumnPool.push, Dictionary.contains_extend, Service.mem_units_collectProperty, or_comm]
      simp only [htakes, true_and]
    · have hnone : s.property? property.name = none := Option.not_isSome_iff_eq_none.1 hfound
      have hmeasured : ¬ s.service.MeasuredBy s.entityType property.name unit := by
        rintro ⟨target, -, htarget, -⟩
        cases hnone.symm.trans htarget
      rcases s.addProperty_cases (s.poolBefore before) property with heq | ⟨-, -, t, ht, -⟩
      · simp only [heq, hmeasured, and_false, or_false]
      · cases hnone.symm.trans ht
  · simp only [htakes, false_and, or_false]
    rcases s.addProperty_cases (s.poolBefore before) property with
      heq | ⟨hprimitive, hname, t, ht, heq⟩
    · rw [heq]
    · rw [heq, units_foldl_addText]
      rcases insert_rawColumn_cases (s := s) hname t
        ((s.poolBefore before).isTextOnly property.name)
        (s.service.collectProperty s.entityType property.name .property) with
        ⟨hkey, -⟩ | ⟨-, hrefused⟩
      · exact (htakes ⟨⟨after, hturn⟩, hprimitive, hname, hkey⟩).elim
      · rw [hrefused]

/-- The units so far are those of the records with columns. -/
structure NotesRecords (s : Scope) (unit : PropertyPath) (p : ColumnPool) : Prop where
  contains_iff : p.units.contains unit = true ↔
    ∃ index field column, s.lineItem[index]? = some field ∧
      s.recordEntry index field column ∈ p.entries ∧
      unit ∈ (s.service.collectField s.entityType field).units

theorem NotesRecords.addRecord (hp : s.NotesRecords unit p) {record : DataField × Nat}
    (hrecord : s.lineItem[record.2]? = some record.1) :
    s.NotesRecords unit (s.addRecord p record).value := by
  obtain ⟨field, index⟩ := record
  rcases s.addRecord_cases p field index with ⟨heq, -⟩ | ⟨column, -, -, -, heq⟩
  · rw [heq]
    exact hp
  · refine ⟨?_⟩
    rw [heq, ColumnPool.push, Dictionary.contains_extend, hp.contains_iff]
    constructor
    · rintro (hunit | ⟨index', field', column', hfield', he, hunit⟩)
      · exact ⟨index, field, column, hrecord,
          List.mem_append_right _ (List.mem_singleton_self _), hunit⟩
      · exact ⟨index', field', column', hfield', List.mem_append_left _ he, hunit⟩
    · rintro ⟨index', field', column', hfield', he, hunit⟩
      rcases List.mem_append.1 he with he | he
      · exact .inr ⟨index', field', column', hfield', he, hunit⟩
      · have hplace : s.recordPath index' = s.recordPath index :=
          Option.some.inj (congrArg (·.column.annotationPath) (List.mem_singleton.1 he))
        rw [s.recordPath_injective hplace, hrecord] at hfield'
        obtain rfl := Option.some.inj hfield'
        exact .inl hunit

theorem notesRecords_addLineItem (s : Scope) (unit : PropertyPath) :
    s.NotesRecords unit s.addLineItem.value := by
  rw [addLineItem, addRecords, Reported.value_foldlM]
  refine List.foldlRecOn (motive := fun q : ColumnPool => s.NotesRecords unit q) _ _ ?_
    fun p hp record hrecord => hp.addRecord (List.mem_zipIdx_iff_getElem?.1 hrecord)
  refine ⟨iff_of_false Bool.false_ne_true ?_⟩
  rintro ⟨index, field, column, -, he, -⟩
  cases he

/-- **All turns.**  The units before a turn are those of records and of properties that have taken
columns of their own. -/
theorem contains_units_poolBefore {before after : List Property}
    (hsplit : s.entityType.properties = before ++ after) :
    (s.poolBefore before).units.contains unit = true ↔
      s.addLineItem.value.units.contains unit = true ∨
        ∃ earlier p, earlier ++ [p] <+: before ∧ s.TakesColumn earlier p ∧
          s.service.MeasuredBy s.entityType p.name unit := by
  induction before using List.reverseRecOn generalizing after with
  | nil =>
    refine (or_iff_left ?_).symm
    rintro ⟨earlier, p, hfront, -⟩
    exact List.append_ne_nil_of_right_ne_nil _ (List.cons_ne_nil p []) (List.prefix_nil.1 hfront)
  | append_singleton before q ih =>
    have hturn : s.entityType.properties = before ++ q :: after := by
      rw [hsplit, List.append_assoc, List.singleton_append]
    rw [poolBefore_append, List.foldl_cons, List.foldl_nil, contains_units_addProperty hturn,
      ih hturn, or_assoc]
    refine or_congr_right ?_
    constructor
    · rintro (⟨earlier, p, hfront, hp⟩ | hq)
      · exact ⟨earlier, p, hfront.trans (List.prefix_append _ _), hp⟩
      · exact ⟨before, q, List.prefix_refl _, hq⟩
    · rintro ⟨earlier, p, hfront, hp⟩
      rcases List.prefix_concat_iff.1 hfront with hlast | hfront
      · obtain ⟨rfl, hsame⟩ := List.append_inj' hlast rfl
        obtain rfl := List.singleton_inj.1 hsame
        exact .inr hp
      · exact .inl ⟨earlier, p, hfront, hp⟩

theorem addLineItem_subset_collected (s : Scope) :
    s.addLineItem.value.entries ⊆ s.collected.entries :=
  poolBefore_subset_collected (List.nil_append _).symm

/-- A unit is noted with a column that is collected: with the column of a record that shows
something measured by it, or with the column of its own that a property measured by it takes. -/
inductive NotesUnit (s : Scope) (unit : PropertyPath) : Prop
  | record {index : Nat} {field : DataField} {column : Column}
      (hfield : s.lineItem[index]? = some field)
      (he : s.recordEntry index field column ∈ s.collected.entries)
      (hunit : unit ∈ (s.service.collectField s.entityType field).units) : NotesUnit s unit
  | property {before : List Property} {p : Property} (hp : s.TakesColumn before p)
      (hunit : s.service.MeasuredBy s.entityType p.name unit) : NotesUnit s unit

/-- **Noted units.**  What the pool holds as units in the end was noted with a column. -/
theorem contains_units_iff : s.pool.value.units.contains unit = true ↔ s.NotesUnit unit := by
  have hlink : s.pool.value.units = s.collected.units := by
    obtain ⟨-, -, linked, added, -, hpool, -⟩ :=
      ColumnPool.link_spec s.hiddenColumn? s.collected_isDistinct
    rw [value_pool, hpool]
  rw [hlink, collected_eq_poolBefore, contains_units_poolBefore (List.append_nil _).symm,
    (s.notesRecords_addLineItem unit).contains_iff]
  constructor
  · rintro (⟨index, field, column, hfield, he, hunit⟩ | ⟨before, p, -, hp, hunit⟩)
    · exact .record hfield (s.addLineItem_subset_collected he) hunit
    · exact .property hp hunit
  · rintro (⟨hfield, he, hunit⟩ | ⟨hp, hunit⟩)
    · exact .inl ⟨_, _, _, hfield, mem_addLineItem he rfl, hunit⟩
    · exact .inr ⟨_, _, hp.isPrefix, hp, hunit⟩

/-! ### Units that are noted -/

/-- A text in place of a value goes by the key of a property, and the property with the value has
its turn before the other one. -/
def IsForestalled (s : Scope) (before : List Property) (p : Property) : Prop :=
  ∃ earlier q text, earlier ++ [q] <+: before ∧ q.isPrimitive = true ∧
    q.name ∉ (s.poolBefore earlier).names ∧
    s.service.ShowsText s.entityType q.name text ∧ propertyKey text = propertyKey p.name

/-- The record behind a column of a mere name shows the property of that name. -/
theorem value_of_recordColumn {field : DataField} {column : Column}
    (h : (s.recordColumn field).value = some column) (hname : '@' ∉ column.name.toList) :
    ∃ record : ValueField, field = .value record ∧ record.value = column.name := by
  obtain ⟨key, -, hrenders⟩ := recordColumn_eq_some h
  cases hrenders with
  | @value record t hfield ht hprimitive =>
    exact ⟨record, hfield, (Service.property?_path ht).symm⟩
  | group hfield hpath => exact (AnnotationPath.ofText_ne_ok hname _ hpath).elim
  | point hfield hpath => exact (AnnotationPath.ofText_ne_ok hname _ hpath).elim

/-- Mere names are known by their keys. -/
theorem name_eq_of_propertyKey (hs : s.service.HasSimpleNames)
    (ht : s.entityType ∈ s.service.entityTypes) {p q : Property}
    (hp : p ∈ s.entityType.properties) (hq : q ∈ s.entityType.properties)
    (h : propertyKey q.name = propertyKey p.name) : q.name = p.name := by
  have hplain : ∀ p ∈ s.entityType.properties, IsPlainPath p.name := by
    intro p hp
    have hfree : ∀ c ∈ ['/', '@', '#', ':'], c ∉ p.name.toList :=
      fun c hc => (hs c hc).property _ ht p hp
    exact .of_name ⟨hfree ':' (by decide), hfree '@' (by decide), hfree '#' (by decide)⟩
      (hfree '/' (by decide))
  exact propertyKey_injective (hplain q hq) (hplain p hp) h

/-- **Units are noted.**  The units of a primitive property of the rows are noted, unless a text
stands in its place when it is its turn. -/
theorem notesUnit_of_measuredBy (hs : s.service.HasSimpleNames)
    (ht : s.entityType ∈ s.service.entityTypes) {before after : List Property} {p : Property}
    (hturn : s.entityType.properties = before ++ p :: after) (hprimitive : p.isPrimitive = true)
    (hunit : s.service.MeasuredBy s.entityType p.name unit) (hfree : ¬ s.IsForestalled before p) :
    s.NotesUnit unit := by
  have hp : p ∈ s.entityType.properties := by
    rw [hturn]
    exact List.mem_append_right _ List.mem_cons_self
  by_cases htakes : s.TakesColumn before p
  · exact .property htakes hunit
  -- another column has the name or the key
  have htaken : ∃ e ∈ (s.poolBefore before).entries,
      e.name = p.name ∨ e.column.key = propertyKey p.name := by
    by_cases hname : p.name ∈ (s.poolBefore before).names
    · obtain ⟨e, he, heq⟩ := List.mem_map.1 hname
      exact ⟨e, he, .inl heq⟩
    · have hkey : propertyKey p.name ∈ (s.poolBefore before).keys := by
        by_contra hkey
        exact htakes ⟨⟨after, hturn⟩, hprimitive, hname, hkey⟩
      obtain ⟨e, he, heq⟩ := List.mem_map.1 hkey
      exact ⟨e, he, .inr heq⟩
  obtain ⟨e, he, hsame⟩ := htaken
  have hcollected : e ∈ s.collected.entries := poolBefore_subset_collected hturn he
  rcases mem_poolBefore he with hrecord | ⟨earlier, q, hfront, hadds⟩
  · obtain ⟨index, field, column, hfield, rfl, -⟩ := s.marksRecords_addLineItem.marked e hrecord
    obtain ⟨built, hbuilt, heq⟩ := eq_recordEntry hfield hcollected rfl
    have hname : built.name = p.name := by
      rcases hsame with hname | hkey
      · rw [heq] at hname
        exact hname
      · refine (not_mark_prefix_key hcollected rfl ?_).elim
        rw [hkey, propertyKey, String.toList_append]
        exact List.prefix_append _ _
    have hmere : '@' ∉ built.name.toList := hname ▸ (hs '@' (by decide)).property _ ht p hp
    obtain ⟨record, rfl, hvalue⟩ := value_of_recordColumn hbuilt hmere
    refine .record hfield hcollected ?_
    rw [Service.collectField, Service.mem_units_collectValue, hvalue, hname]
    exact .inr hunit
  · obtain ⟨rest, hrest⟩ := hfront
    cases hadds with
    | property hqprimitive hqname hqkey htarget =>
      have hq : q ∈ s.entityType.properties := by
        rw [hturn, ← hrest]
        simp
      have hsameName : q.name = p.name := by
        rcases hsame with hname | hkey
        · rw [← hname]
          cases (s.poolBefore earlier).isTextOnly q.name <;> rfl
        · refine name_eq_of_propertyKey hs ht hp hq ?_
          rw [← hkey]
          cases (s.poolBefore earlier).isTextOnly q.name <;> rfl
      have hqturn : ∃ after, s.entityType.properties = earlier ++ q :: after :=
        ⟨rest ++ p :: after, by rw [hturn, ← hrest]; simp⟩
      exact .property ⟨hqturn, hqprimitive, hqname, hqkey⟩ (hsameName ▸ hunit)
    | @text text target hqprimitive hqname htext htarget =>
      refine (hfree ⟨earlier, q, text, ⟨rest, hrest⟩, hqprimitive, hqname, htext, ?_⟩).elim
      rcases hsame with hname | hkey
      · exact congrArg propertyKey hname
      · exact hkey

end Scope

end TableCompiler
