import TableCompiler.Proofs.CollectedDependencies

/-!
# The columns of the properties of the rows

Whatever the line item and the manifest say, a primitive property of the rows has a column of its
name.  If that column shows other columns, then it is the column of a record, which needs the second
name of its own property, or a bare one, which has the key that a custom column would need for the
second name.  Either way no other column can go by the second name.

* `Service.HasProperNames` — simple names of which none occurs twice in a type;
* `Scope.exists_entry_of_property` — the entry of a property before the linking;
* `Scope.alias_mem_names_of_record` — the second name, if the entry is that of a record;
* `Columns.Serves` — the columns of a property among those of a table;
* `Scope.Yields.serves` — the columns of a table serve every primitive property.
-/

namespace TableCompiler

open Linking (LinkedFrom shownLinks loadedLinks addLinks)

/-! ### Proper names -/

/-- A name without the characters that paths and keys are made with. -/
def IsSimpleName (name : String) : Prop :=
  name ≠ "" ∧ ∀ c ∈ ['/', '@', '#', ':'], c ∉ name.toList

-- the second part character by character of the list, not of all there are
instance (name : String) : Decidable (IsSimpleName name) :=
  @instDecidableAnd (name ≠ "") _ inferInstance
    (List.decidableBAll (· ∉ name.toList) ['/', '@', '#', ':'])

/-- All names are simple, those of custom aggregates too, and neither a property nor a navigation
property shares its name with another one of its type. -/
structure Service.HasProperNames (s : Service) : Prop where
  simple : s.EveryName IsSimpleName
  aggregates : ∀ t ∈ s.entityTypes, ∀ name ∈ t.annotations.customAggregates.keys,
    IsSimpleName name
  distinct : ∀ t ∈ s.entityTypes,
    (t.properties.map (·.name) ++ t.navigationProperties.map (·.name)).Nodup

instance (s : Service) : Decidable s.HasProperNames :=
  decidable_of_iff (s.EveryName IsSimpleName ∧
      (∀ t ∈ s.entityTypes, ∀ name ∈ t.annotations.customAggregates.keys, IsSimpleName name) ∧
      ∀ t ∈ s.entityTypes,
        (t.properties.map (·.name) ++ t.navigationProperties.map (·.name)).Nodup)
    ⟨fun h => ⟨h.1, h.2.1, h.2.2⟩, fun h => ⟨h.simple, h.aggregates, h.distinct⟩⟩

theorem IsSimpleName.isClean {name : String} (h : IsSimpleName name) : IsClean name.toList :=
  ⟨h.2 ':' (by decide), h.2 '@' (by decide), h.2 '#' (by decide)⟩

theorem IsSimpleName.not_mem_slash {name : String} (h : IsSimpleName name) :
    '/' ∉ name.toList :=
  h.2 '/' (by decide)

namespace Service.HasProperNames

variable {s : Service}

theorem hasSimpleNames (hs : s.HasProperNames) : s.HasSimpleNames :=
  fun c hc => hs.simple.imp fun _ h => h.2 c hc

theorem nonempty (hs : s.HasProperNames) : s.EveryName (· ≠ "") :=
  hs.simple.imp fun _ h => h.1

end Service.HasProperNames

/-! ### What the record of a property needs -/

/-- The column of a record that shows anything besides its property needs its property too. -/
theorem Service.mem_collectField_value {s : Service} {t : EntityType} {record : ValueField}
    (h : (s.collectField t (.value record)).properties ≠ []) :
    record.value ∈ (s.collectField t (.value record)).properties ∨
      record.value ∈ (s.collectField t (.value record)).additional := by
  rw [collectField, collectValue] at h ⊢
  cases hpartners : s.partners? t record.value with
  | none =>
    rw [hpartners] at h
    exact (h rfl).elim
  | some p =>
    rw [hpartners] at h
    dsimp only at h ⊢
    by_cases hempty : p.isEmpty = true
    · rw [if_pos hempty] at h
      exact (h rfl).elim
    · rw [if_neg hempty]
      exact (RelatedProperties.includes_addShown _ p _ _).2 (.inr (.inl rfl))

/-! ### Wanted columns are there -/

/-- A dependency that is not crowded out has its wanted column in the end. -/
theorem ColumnPool.IsReady.wanted_mem_names {p : ColumnPool}
    {build : HiddenColumn → Option Column} {P : PropertyPath → Prop} (h : p.IsReady build P)
    {c d : PooledColumn} (hc : c ∈ p.entries)
    (hlinked : LinkedFrom build p (p.link build).pool c d) {path : PropertyPath}
    (hpath : path ∈ c.pending ∨ path ∈ c.pendingAdditional)
    (hkept : ¬ Columns.IsCrowded (p.link build).pool.columns path (p.linkName c.name path)) :
    p.linkName c.name path ∈ (p.link build).pool.names := by
  have hname : c.name ∈ p.names := List.mem_map_of_mem hc
  have hmem : p.linkName c.name path ∈ d.links ∨ p.linkName c.name path ∈ d.additionalLinks := by
    obtain ⟨l, -, hto, hfrom, rfl⟩ := hlinked
    rcases hpath with hshown | hloaded
    · have hlater : Grown build (addLinks build c.name [] c.pending (c.links, l)).2.pool
          (p.link build).pool := (Linking.loadedLinks_extended_shown build l c).grown.trans hfrom
      have hstart : Grown build p (c.links, l).2.pool := hto
      have hlink := Linking.addLinks_keeps h hname (h.pending c hc).2 hstart hlater hshown hkept
      exact .inl (hlink.resolve_right List.not_mem_nil)
    · have hstart : Grown build p (c.additionalLinks, (shownLinks build l c).2).2.pool :=
        hto.trans (Linking.addLinks_extended [] c.pending (c.links, l)).grown
      exact (Linking.addLinks_keeps h hname (h.pendingAdditional c hc) hstart hfrom hloaded
        hkept).symm
  exact h.mem_names_of_link hc hlinked hmem

namespace Scope

variable {s : Scope} {p : Property}

/-! ### The entry of a property -/

/-- The record of an entry that goes by a mere name shows the property of that name. -/
theorem eq_value_of_name {e : PooledColumn} (he : e ∈ s.collected.entries)
    (horigin : e.origin = .lineItem) (hname : '@' ∉ e.name.toList) :
    ∃ record : ValueField, record.value = e.name ∧
      e.column.relativePath = some e.name ∧
      e.pending = (s.service.collectField s.entityType (.value record)).properties ∧
      e.pendingAdditional = (s.service.collectField s.entityType (.value record)).additional := by
  cases collects_of_mem he with
  | @record index field column hfield hcolumn =>
    obtain ⟨key, -, hrenders⟩ := recordColumn_eq_some hcolumn
    cases hrenders with
    | @value record t hvalue ht hprimitive =>
      subst hvalue
      have hpath : t.path = record.value := Service.property?_path ht
      exact ⟨record, hpath.symm, rfl, rfl, rfl⟩
    | group hvalue hpath hresolved htarget => exact (AnnotationPath.ofText_ne_ok hname _ hpath).elim
    | point hvalue hpath hresolved htarget ht =>
      exact (AnnotationPath.ofText_ne_ok hname _ hpath).elim
  | property hp hprimitive hfound isTextOnly => cases horigin
  | text hp htext hfound => cases horigin

/-- An entry that goes by a mere name shows the property of that name. -/
theorem relativePath_of_name (hs : s.service.NamesAvoid ':')
    (ht : s.entityType ∈ s.service.entityTypes) {e : PooledColumn}
    (he : e ∈ s.collected.entries) (hname : '@' ∉ e.name.toList) :
    e.column.relativePath = some e.name := by
  by_cases horigin : e.origin = .lineItem
  · obtain ⟨record, -, hpath, -⟩ := eq_value_of_name he horigin hname
    exact hpath
  · exact ((collected_isReady hs ht).served e he horigin).2.2

/-- The key of a bare property belongs to a column of its name. -/
theorem name_of_propertyKey (hs : s.service.HasProperNames)
    (ht : s.entityType ∈ s.service.entityTypes) (hp : p ∈ s.entityType.properties)
    {e : PooledColumn} (he : e ∈ s.collected.entries)
    (hkey : e.column.key = propertyKey p.name) : e.origin ≠ .lineItem ∧ e.name = p.name := by
  have hsimple : IsSimpleName p.name := hs.simple.property _ ht p hp
  have hnotRecord : e.origin ≠ .lineItem := by
    intro horigin
    refine not_mark_prefix_key he horigin ?_
    rw [hkey, propertyKey, String.toList_append]
    exact List.prefix_append _ _
  have hready := collected_isReady (hs.hasSimpleNames ':' (by decide)) ht
  obtain ⟨hfinds, hown, -⟩ := hready.served e he hnotRecord
  have hplain := isPlainPath_of_finds hs.hasSimpleNames hs.nonempty ht hfinds
  have hname : IsPlainPath p.name := .of_name hsimple.isClean hsimple.not_mem_slash
  exact ⟨hnotRecord, propertyKey_injective hplain hname (hown.symm.trans hkey)⟩

/-- **Every primitive property has an entry.** -/
theorem exists_entry_of_property (hs : s.service.HasProperNames)
    (ht : s.entityType ∈ s.service.entityTypes) (hp : p ∈ s.entityType.properties)
    (hprimitive : p.isPrimitive = true) : ∃ e ∈ s.collected.entries, e.name = p.name := by
  obtain ⟨before, after, hsplit⟩ := List.append_of_mem hp
  have hcollected : (s.poolBefore before).entries ⊆ s.collected.entries :=
    poolBefore_subset_collected hsplit
  by_cases hname : p.name ∈ (s.poolBefore before).names
  · obtain ⟨e, he, heq⟩ := List.mem_map.1 hname
    exact ⟨e, hcollected he, heq⟩
  · have hkey : propertyKey p.name ∉ (s.poolBefore before).keys := by
      intro hmem
      obtain ⟨e, he, hekey⟩ := List.mem_map.1 hmem
      have heq := (name_of_propertyKey hs ht hp (hcollected he) hekey).2
      exact hname (heq ▸ List.mem_map_of_mem he)
    have hturn : s.TakesColumn before p := ⟨⟨after, hsplit⟩, hprimitive, hname, hkey⟩
    have hslash : '/' ∉ p.name.toList := (hs.simple.property _ ht p hp).not_mem_slash
    obtain ⟨target, htarget⟩ :=
      Option.isSome_iff_exists.1 (Service.property?_of_mem (s := s.service) hslash hp)
    refine ⟨_, hturn.mem_collected htarget, ?_⟩
    cases (s.poolBefore before).isTextOnly p.name <;> rfl

/-! ### The second name of a property -/

/-- The column of a record does not serve itself. -/
theorem linkName_self {e : PooledColumn} (he : e ∈ s.collected.entries) :
    s.collected.linkName e.name e.name = propertyAlias e.name := by
  rcases s.collected.linkName_cases e.name e.name with
    ⟨hnot, -⟩ | ⟨host, -, hname, hserve, -⟩ | ⟨host, -, -, -, heq⟩
  · exact (hnot (List.mem_map_of_mem he)).elim
  · rw [PooledColumn.canServe, hname, bne_self_eq_false, Bool.false_and, Bool.false_and] at hserve
    cases hserve
  · exact heq

/-- The column of a record leaves the keys of its property to others, so the second name of the
property is not crowded out. -/
theorem not_isCrowded_of_record (hs : s.service.HasProperNames)
    (ht : s.entityType ∈ s.service.entityTypes) (hp : p ∈ s.entityType.properties)
    {e : PooledColumn} (he : e ∈ s.collected.entries) (horigin : e.origin = .lineItem)
    (hname : e.name = p.name) :
    ¬ Columns.IsCrowded (s.collected.link s.hiddenColumn?).pool.columns p.name
      (propertyAlias p.name) := by
  have hsimple : IsSimpleName p.name := hs.simple.property _ ht p hp
  have hplain : IsPlainPath p.name := .of_name hsimple.isClean hsimple.not_mem_slash
  have hready := collected_isReady (hs.hasSimpleNames ':' (by decide)) ht
  have hpaths : ∀ path, s.service.Finds s.entityType path → IsPlainPath path :=
    fun _ => isPlainPath_of_finds hs.hasSimpleNames hs.nonempty ht
  have hrecord : ∀ c ∈ s.collected.entries, c.origin = .lineItem →
      c.column.key ≠ propertyKey p.name := by
    intro c hc hcorigin hkey
    exact (name_of_propertyKey hs ht hp hc hkey).1 hcorigin
  intro hcrowded
  rw [ColumnPool.isCrowded_iff] at hcrowded
  obtain ⟨d, hd, hkey, hother⟩ := hcrowded (propertyKey p.name) (List.mem_pair.2 (.inl rfl))
  rcases hready.name_and_key hd with
    ⟨c, hc, hcorigin, hcolumn⟩ | ⟨path, hpath, ⟨hdname, hdkey⟩ | ⟨hdname, -, hdkey | hdkey⟩⟩
  · exact hrecord c hc hcorigin (hcolumn ▸ hkey)
  · -- the column of the name is that of the record, which has a key of its own
    have hsame : path = p.name :=
      propertyKey_injective (hpaths path hpath) hplain (hdkey.symm.trans hkey)
    obtain ⟨e', he', hcolumn, -⟩ := exists_pooled he
    have hdistinct := (ColumnPool.link_spec s.hiddenColumn? s.collected_isDistinct).1
    have hdname' : d.name = e'.name := by
      rw [hdname, hsame, ColumnEntry.name, hcolumn]
      exact hname.symm
    have hde : d = e' := hdistinct.eq_of_name hd he' hdname'
    exact hrecord e he horigin (hcolumn ▸ hde ▸ hkey)
  · have hsame : path = p.name :=
      propertyKey_injective (hpaths path hpath) hplain (hdkey.symm.trans hkey)
    exact hother (hsame ▸ hdname)
  · exact propertyKey_propertyAlias_ne_of_name hsimple.isClean hsimple.not_mem_slash
      (hdkey.symm.trans hkey)

/-- **The second name of a record.**  If the column of a record shows other columns besides that of
its property, there is a column of the second name. -/
theorem alias_mem_names_of_record (hs : s.service.HasProperNames)
    (ht : s.entityType ∈ s.service.entityTypes) (hp : p ∈ s.entityType.properties)
    {e : PooledColumn} (he : e ∈ s.collected.entries) (horigin : e.origin = .lineItem)
    (hname : e.name = p.name) (hpending : e.pending ≠ []) :
    propertyAlias p.name ∈ (s.collected.link s.hiddenColumn?).pool.names := by
  have hsimple : IsSimpleName e.name := hname ▸ hs.simple.property _ ht p hp
  obtain ⟨record, hvalue, -, hshown, hloaded⟩ := eq_value_of_name he horigin hsimple.isClean.marker
  have hneeded : e.name ∈ e.pending ∨ e.name ∈ e.pendingAdditional := by
    rw [hshown] at hpending
    rw [hshown, hloaded, ← hvalue]
    exact Service.mem_collectField_value hpending
  have hready := collected_isReady (hs.hasSimpleNames ':' (by decide)) ht
  obtain ⟨d, -, -, hlinked⟩ := exists_pooled he
  have hkept := not_isCrowded_of_record hs ht hp he horigin hname
  rw [← hname, ← linkName_self he] at hkept ⊢
  exact hready.wanted_mem_names he hlinked hneeded hkept

end Scope

/-! ### The columns of a table -/

/-- The columns of a property among others: there is one of its name, and if that one shows other
columns, no column goes by the second name but one that shows the property. -/
structure Columns.Serves (columns : Columns) (path : PropertyPath) : Prop where
  own : columns.Shows path path
  second : ∀ c ∈ columns, c.name = path → c.isComposite = true →
    ∀ d ∈ columns, d.name = propertyAlias path → d.relativePath = some path

namespace Scope.Yields

variable {s : Scope} {t : Table} {p : Property}

/-- A built column of a second name shows the property. -/
theorem relativePath_of_alias (hs : s.service.NamesAvoid ':')
    (ht : s.entityType ∈ s.service.entityTypes) {path : PropertyPath} {b : Column}
    (hb : b ∈ s.builtColumns) (hname : b.name = propertyAlias path) :
    b.relativePath = some path := by
  have hready := collected_isReady hs ht
  obtain ⟨d, hd, rfl⟩ := exists_of_mem_builtColumns hb
  rcases s.collected_isDistinct.link_cases hd with ⟨c, hc, hlinked⟩ | ⟨column, hanswers, rfl⟩
  · refine (hready.avoids path ?_).elim
    have hcname : c.name = propertyAlias path := hlinked.name_eq.symm.trans hname
    exact hcname ▸ List.mem_map_of_mem hc
  · obtain ⟨hidden, hbuild, hnames, -⟩ := hanswers
    have hhidden : hidden.name = propertyAlias path :=
      (hready.faithful.name hbuild).symm.trans hname
    have hsame : hidden.path = path := by
      rcases hnames with heq | ⟨heq, -⟩
      · refine (hready.unmarked _ (hready.of_build hbuild) ?_).elim
        rw [← heq, hhidden, toList_propertyAlias]
        exact List.prefix_append _ _
      · exact propertyAlias_injective (heq.symm.trans hhidden)
    rw [← hsame]
    show column.relativePath = _
    exact hready.faithful.relativePath hbuild

/-- No custom column takes the second name of a property whose column shows others. -/
theorem name_ne_alias_of_custom (hs : s.service.HasProperNames)
    (ht : s.entityType ∈ s.service.entityTypes) (hp : p ∈ s.entityType.properties)
    {e : PooledColumn} (he : e ∈ s.collected.entries) (hname : e.name = p.name)
    (hpending : e.pending ≠ []) {b : Column} (hb : Columns.IsCustom s.builtColumns b) :
    b.name ≠ propertyAlias p.name := by
  intro hbname
  by_cases horigin : e.origin = .lineItem
  · have hmem : propertyAlias p.name ∈ s.builtColumns.map (·.name) := by
      rw [names_builtColumns]
      exact alias_mem_names_of_record hs ht hp he horigin hname hpending
    obtain ⟨built, hbuilt, heq⟩ := List.mem_map.1 hmem
    exact hb.name_ne built hbuilt (heq.trans hbname.symm)
  · -- the bare column has the key that the custom one would need
    have hsimple : IsSimpleName p.name := hs.simple.property _ ht p hp
    have hready := collected_isReady (hs.hasSimpleNames ':' (by decide)) ht
    obtain ⟨d, hd, hcolumn, -⟩ := exists_pooled he
    have hkey : d.linkedColumn.key = propertyAlias p.name := by
      show d.column.key = _
      rw [hcolumn, (hready.served e he horigin).2.1, hname]
      exact propertyKey_eq_propertyAlias hsimple.isClean hsimple.not_mem_slash
    obtain ⟨entry, names, -, hentry⟩ := hb.exists_entry
    have hbkey : b.name = b.key := congrArg (·.name) hentry
    exact hb.key_ne _ (linkedColumn_mem_builtColumns hd) (by rw [hkey, ← hbname, hbkey])

/-- **The columns of a property.**  A table has a column of the name of every primitive property of
the rows, and no other column is mistaken for one of the property. -/
theorem serves (h : s.Yields t) (hs : s.service.HasProperNames)
    (ht : s.entityType ∈ s.service.entityTypes) (hp : p ∈ s.entityType.properties)
    (hprimitive : p.isPrimitive = true) : Columns.Serves t.columns p.name := by
  obtain ⟨e, he, hname⟩ := exists_entry_of_property hs ht hp hprimitive
  obtain ⟨d, hd, hcolumn, hlinked⟩ := exists_pooled he
  obtain ⟨c, hc, hsettled⟩ := h.exists_mem (linkedColumn_mem_builtColumns hd)
  have hcname : c.name = p.name := by
    rw [Column.name_eq_of_settled hsettled, ← hname]
    exact hlinked.name_eq
  refine ⟨⟨c, hc, hcname, ?_⟩, ?_⟩
  · have hsimple : IsSimpleName e.name := hname ▸ hs.simple.property _ ht p hp
    rw [Column.eq_of_settled (·.relativePath) (fun _ => rfl) hsettled, ← hname,
      ← relativePath_of_name (hs.hasSimpleNames ':' (by decide)) ht he hsimple.isClean.marker,
      ← hcolumn]
    rfl
  · intro own hown hownName hcomposite other hother halias
    obtain rfl := h.columns_areDistinct.eq_of_name hown hc (hownName.trans hcname.symm)
    have hpending : e.pending ≠ [] := by
      intro hnil
      have hlinks : d.links = [] := hlinked.links_eq_nil (collects_of_mem he).links_eq.1 hnil
      have hinfos : own.propertyInfos = [] :=
        (Column.propertyInfos_eq_of_settled hsettled).trans hlinks
      rw [Column.isComposite, hinfos] at hcomposite
      cases hcomposite
    rcases h.of_mem hother with ⟨b, hb, heq⟩ | ⟨b, hb, heq⟩
    · have hbname := (Column.name_eq_of_settled heq).trans halias
      rw [← relativePath_of_alias (hs.hasSimpleNames ':' (by decide)) ht hb hbname]
      exact (Column.eq_of_settled (·.relativePath) (fun _ => rfl) heq).symm
    · have hbname := (Column.name_eq_of_settled heq).trans halias
      exact (name_ne_alias_of_custom hs ht hp he hname hpending hb hbname).elim

end Scope.Yields

end TableCompiler
