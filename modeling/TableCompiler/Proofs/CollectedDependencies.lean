import TableCompiler.Proofs.Column.Crowding
import TableCompiler.Proofs.Column.Marks

/-!
# Collected dependencies in a table

What was collected for the column of a record or of a bare property is linked to columns that show
it, at its place, unless other columns hold both keys that its hidden column could have.  That can
only be where a name is empty or is `Property`: a path through a navigation property `Property` has
the key to fall back on of the path behind it.

* `Service.HasSimpleNames` — names without the characters that paths and keys are made with;
* `Scope.HasOwnColumn` — the properties that get a column of their own;
* `Scope.Collected` — what was collected for a column of a table;
* `Scope.collected_isReady`, `Scope.Collected.exists_linked` — the pool behind the table;
* `Context.dependencies_kept` — which dependencies are kept.
-/

namespace TableCompiler

open Linking (LinkedFrom)

/-- No name has a character that paths of properties, annotations or keys are made with. -/
def Service.HasSimpleNames (s : Service) : Prop :=
  ∀ c ∈ ['/', '@', '#', ':'], s.NamesAvoid c

-- character by character of the list, not of all there are
instance (s : Service) : Decidable s.HasSimpleNames :=
  List.decidableBAll s.NamesAvoid ['/', '@', '#', ':']

namespace Scope

variable {s : Scope}

/-! ### The pool before linking -/

/-- The pool before linking offers all that linking rests on. -/
theorem collected_isReady (hs : s.service.NamesAvoid ':')
    (ht : s.entityType ∈ s.service.entityTypes) :
    s.collected.IsReady s.hiddenColumn? (s.service.Finds s.entityType) where
  fresh := s.collected_isFresh
  faithful := s.hiddenColumn?_isFaithful
  answers := by
    intro hidden
    rw [hiddenColumn?, Option.isSome_map]
    rfl
  unmarked := by
    intro path hpath
    obtain ⟨t, hfound⟩ := Option.isSome_iff_exists.1 hpath
    exact not_mark_prefix_of_not_mem (hs.not_mem_path (by decide) ht hfound)
  avoids := collected_avoidsAliases hs ht
  served := by
    intro e he horigin
    cases collects_of_mem he with
    | record hfield hcolumn => exact (horigin rfl).elim
    | @property p t hp hprimitive hfound isTextOnly =>
      have hpath : t.path = p.name := Service.property?_path hfound
      have hfinds : s.service.Finds s.entityType p.name :=
        Option.isSome_iff_exists.2 ⟨t, hfound⟩
      cases isTextOnly <;> exact ⟨hfinds, rfl, congrArg some hpath⟩
    | @text p path t hp htext hfound =>
      have hpath : t.path = path := Service.property?_path hfound
      exact ⟨Option.isSome_iff_exists.2 ⟨t, hfound⟩, rfl, congrArg some hpath⟩
  pending := by
    intro e he
    cases collects_of_mem he with
    | @record index field column hfield hcolumn =>
      have hsound := Service.collectField_isSound s.service s.entityType field
      exact ⟨hsound.nodup, hsound.properties⟩
    | @property p t hp hprimitive hfound isTextOnly =>
      have hsound := Service.collectProperty_isSound s.service s.entityType p.name .property
      exact ⟨hsound.nodup, hsound.properties⟩
    | text hp htext hfound => exact ⟨List.nodup_nil, by simp [textEntry, ColumnEntry.ofColumn]⟩
  pendingAdditional := by
    intro e he
    cases collects_of_mem he with
    | record hfield hcolumn =>
      exact (Service.collectField_isSound s.service s.entityType _).additional
    | property hp hprimitive hfound isTextOnly =>
      exact (Service.collectProperty_isSound s.service s.entityType _ .property).additional
    | text hp htext hfound => simp [textEntry, ColumnEntry.ofColumn]

/-- The key of the column of a record is no key of a bare property. -/
theorem not_mark_prefix_key {e : PooledColumn} (he : e ∈ s.collected.entries)
    (horigin : e.origin = .lineItem) : ¬ propertyMark.toList <+: e.column.key.toList := by
  cases collects_of_mem he with
  | @record index field column hfield hcolumn =>
    obtain ⟨key, hkey, hrenders⟩ := recordColumn_eq_some hcolumn
    have hcolumnKey : (s.recordEntry index field column).column.key = key := hrenders.key_eq
    rw [hcolumnKey]
    exact DataField.not_mark_prefix_of_key? hkey
  | property hp hprimitive hfound isTextOnly => cases horigin
  | text hp htext hfound => cases horigin

/-- Paths of simple names that are not empty are read off their keys. -/
theorem isPlainPath_of_finds (hs : s.service.HasSimpleNames)
    (hnames : s.service.EveryName (· ≠ "")) (ht : s.entityType ∈ s.service.entityTypes)
    {path : PropertyPath} (hpath : s.service.Finds s.entityType path) : IsPlainPath path := by
  obtain ⟨t, hfound⟩ := Option.isSome_iff_exists.1 hpath
  refine ⟨⟨?_, ?_, ?_⟩, ?_⟩
  · exact (hs ':' (by decide)).not_mem_path (by decide) ht hfound
  · exact (hs '@' (by decide)).not_mem_path (by decide) ht hfound
  · exact (hs '#' (by decide)).not_mem_path (by decide) ht hfound
  · intro hhead
    obtain ⟨rest, hrest⟩ := List.head?_eq_some_iff.1 hhead
    refine hnames.of_path ht hfound "" ?_ rfl
    rw [Text.split, hrest, Text.splitChars_cons_self, List.map_cons]
    exact List.mem_cons_self

/-- **Nothing is crowded out** where names are simple and none is empty or `Property`. -/
theorem collected_not_isCrowded (hs : s.service.HasSimpleNames)
    (hnames : s.service.EveryName fun name => name ≠ "" ∧ name ≠ "Property")
    (ht : s.entityType ∈ s.service.entityTypes) (owner : String) {path : PropertyPath}
    (hpath : s.service.Finds s.entityType path) :
    ¬ Columns.IsCrowded (s.collected.link s.hiddenColumn?).pool.columns path
      (s.collected.linkName owner path) := by
  have hready := collected_isReady (hs ':' (by decide)) ht
  refine hready.not_isCrowded (fun _ => not_mark_prefix_key) ?_ owner hpath
  intro path hpath
  obtain ⟨t, hfound⟩ := Option.isSome_iff_exists.1 hpath
  exact ⟨isPlainPath_of_finds hs (hnames.imp fun _ h => h.1) ht hpath,
    fun hmem => (hnames.of_path ht hfound _ hmem).2 rfl⟩

/-! ### What was collected for a column -/

/-- A property gets a column of its own if it is primitive and neither a record nor an earlier
property has taken its name or its key. -/
def HasOwnColumn (s : Scope) (p : Property) : Prop :=
  ∃ before after, s.entityType.properties = before ++ p :: after ∧ p.isPrimitive = true ∧
    p.name ∉ (before.foldl s.addProperty s.addLineItem.value).names ∧
    propertyKey p.name ∉ (before.foldl s.addProperty s.addLineItem.value).keys

/-- What was collected for a column of a table: for the column of a record, what the record shows,
and for the column of a bare property its partners. -/
inductive Collected (s : Scope) (column : Column) : RelatedProperties → Prop
  | record {index : Nat} {field : DataField} (hfield : s.lineItem[index]? = some field)
      (hpath : column.annotationPath = some (s.recordPath index)) :
      Collected s column (s.service.collectField s.entityType field)
  | property {p : Property} (hp : s.HasOwnColumn p) (hname : column.name = p.name) :
      Collected s column (s.service.collectProperty s.entityType p.name .property)

/-- A property that gets a column of its own has an entry in the pool. -/
theorem HasOwnColumn.exists_entry (hs : s.service.NamesAvoid '/')
    (ht : s.entityType ∈ s.service.entityTypes) {p : Property} (hp : s.HasOwnColumn p) :
    ∃ t isTextOnly, s.propertyEntry p t isTextOnly ∈ s.collected.entries := by
  obtain ⟨before, after, hproperties, hprimitive, hname, hkey⟩ := hp
  have hmem : p ∈ s.entityType.properties := by
    rw [hproperties]
    exact List.mem_append_right _ List.mem_cons_self
  obtain ⟨t, hfound⟩ := Option.isSome_iff_exists.1
    (Service.property?_of_mem (hs.property _ ht p hmem) hmem)
  have hturn : s.TakesColumn before p := ⟨⟨after, hproperties⟩, hprimitive, hname, hkey⟩
  exact ⟨t, _, hturn.mem_collected hfound⟩

/-- The entry of a record is found by the place of the record. -/
theorem exists_linked_record {index : Nat} {field : DataField}
    (hfield : s.lineItem[index]? = some field) {d : PooledColumn}
    (hd : d ∈ (s.collected.link s.hiddenColumn?).pool.entries)
    (hpath : d.column.annotationPath = some (s.recordPath index)) :
    ∃ c ∈ s.collected.entries, c.pending = (s.service.collectField s.entityType field).properties ∧
      c.pendingAdditional = (s.service.collectField s.entityType field).additional ∧
      LinkedFrom s.hiddenColumn? s.collected (s.collected.link s.hiddenColumn?).pool c d := by
  rcases s.collected_isDistinct.link_cases hd with ⟨c, hc, hlinked⟩ | ⟨column, hanswers, rfl⟩
  · have hcolumn : d.column = c.column := congrArg (·.1) hlinked.core_eq
    rw [hcolumn] at hpath
    obtain ⟨column, -, rfl⟩ := eq_recordEntry hfield hc hpath
    exact ⟨_, hc, rfl, rfl, hlinked⟩
  · obtain ⟨hidden, hbuild, -, -⟩ := hanswers
    have hnone : (ColumnEntry.related column : PooledColumn).column.annotationPath = none :=
      annotationPath_hiddenColumn? hbuild
    rw [hnone] at hpath
    cases hpath

end Scope

namespace Scope.Yields

variable {s : Scope} {t : Table}

/-- The columns of the linked pool are among those of the table. -/
theorem columns_include (h : s.Yields t) :
    Columns.Include t.columns (s.collected.link s.hiddenColumn?).pool where
  toAreDistinct := h.columns_areDistinct
  exists_column := by
    intro e he
    obtain ⟨c, hc, heq⟩ := h.exists_mem (linkedColumn_mem_builtColumns he)
    have hkey : c.key = e.linkedColumn.key := Column.eq_of_settled (·.key) (fun _ => rfl) heq
    have hname : c.name = e.linkedColumn.name := Column.name_eq_of_settled heq
    have hpath : c.relativePath = e.linkedColumn.relativePath :=
      Column.eq_of_settled (·.relativePath) (fun _ => rfl) heq
    exact ⟨c, hc, hkey, hname, hpath⟩

/-- **The entry behind a column.**  A column for which something was collected comes from an entry
of the pool with just these dependencies. -/
theorem exists_linked (h : s.Yields t) (hs : s.service.NamesAvoid '/')
    (ht : s.entityType ∈ s.service.entityTypes) {column : Column} (hcolumn : column ∈ t.columns)
    {r : RelatedProperties} (hr : s.Collected column r) :
    ∃ c ∈ s.collected.entries, ∃ d, c.name = column.name ∧ c.pending = r.properties ∧
      c.pendingAdditional = r.additional ∧ d.links = column.propertyInfos ∧
      d.additionalLinks = column.additionalPropertyInfos ∧
      LinkedFrom s.hiddenColumn? s.collected (s.collected.link s.hiddenColumn?).pool c d := by
  have hsame : ∀ {d : PooledColumn}, d.linkedColumn.settled = column.settled →
      d.name = column.name ∧ d.links = column.propertyInfos ∧
        d.additionalLinks = column.additionalPropertyInfos := by
    intro d heq
    have hname : d.linkedColumn.name = column.name := Column.name_eq_of_settled heq
    exact ⟨hname, Column.propertyInfos_eq_of_settled heq,
      Column.additionalPropertyInfos_eq_of_settled heq⟩
  cases hr with
  | @record index field hfield hpath =>
    have hpathOf : ∀ {b : Column}, b.settled = column.settled →
        b.annotationPath = some (s.recordPath index) := by
      intro b heq
      rw [Column.eq_of_settled (·.annotationPath) (fun _ => rfl) heq, hpath]
    rcases h.of_mem hcolumn with ⟨b, hb, heq⟩ | ⟨b, hb, heq⟩
    · obtain ⟨d, hd, rfl⟩ := exists_of_mem_builtColumns hb
      have hdpath : d.linkedColumn.annotationPath = some (s.recordPath index) := hpathOf heq
      obtain ⟨c, hc, hpending, hadditional, hlinked⟩ := exists_linked_record hfield hd hdpath
      obtain ⟨hname, hlinks, hadditionalLinks⟩ := hsame heq
      exact ⟨c, hc, d, hlinked.name_eq.symm.trans hname, hpending, hadditional, hlinks,
        hadditionalLinks, hlinked⟩
    · obtain ⟨entry, names, -, hentry⟩ := hb.exists_entry
      have hnone := hpathOf heq
      rw [hentry] at hnone
      cases hnone
  | @property p hp hname =>
    obtain ⟨target, isTextOnly, hentry⟩ := hp.exists_entry hs ht
    obtain ⟨d, hd, hlinked⟩ := s.collected_isDistinct.exists_linked hentry
    have hentryName : (s.propertyEntry p target isTextOnly).name = p.name := by
      cases isTextOnly <;> rfl
    obtain ⟨c, hc, heq⟩ := h.exists_mem (linkedColumn_mem_builtColumns hd)
    have hcolumnEq : c = column := by
      refine h.columns_areDistinct.eq_of_name hc hcolumn ?_
      have hdname : d.linkedColumn.name = p.name := hlinked.name_eq.trans hentryName
      rw [Column.name_eq_of_settled heq, hdname, hname]
    obtain ⟨-, hlinks, hadditionalLinks⟩ := hsame (hcolumnEq ▸ heq).symm
    exact ⟨_, hentry, d, hentryName.trans hname.symm, rfl, rfl, hlinks, hadditionalLinks, hlinked⟩

end Scope.Yields

namespace Context

/-- **No collected dependency is lost but for its keys.**  Where names are simple, the columns that
a column shows are those of the properties collected for it, one by one and in their order, exactly
if for none of them other columns hold both keys; and what is collected to be loaded besides is
linked exactly if other columns do not hold both of its keys.  Neither happens if no name is empty
or `Property`. -/
theorem dependencies_kept (c : Context) (r : TableRequest) (scope : Reported Scope) (t : Table)
    (hscope : c.resolve r = .ok scope) (h : (c.compile r).value = .ok t)
    (hnames : c.service.HasSimpleNames) (column : Column) (hcolumn : column ∈ t.columns)
    (related : RelatedProperties) (hrelated : scope.value.Collected column related) :
    (related.properties.Forall₂ (Columns.Shows t.columns) column.propertyInfos ↔
      ∀ path ∈ related.properties, ¬ Columns.IsCrowded t.columns path
        (scope.value.collected.linkName column.name path)) ∧
    (∀ path ∈ related.additional,
      (∃ name, column.RefersTo name ∧ Columns.Shows t.columns path name) ↔
        ¬ Columns.IsCrowded t.columns path
          (scope.value.collected.linkName column.name path)) ∧
    (c.service.EveryName (fun name => name ≠ "" ∧ name ≠ "Property") →
      related.properties.Forall₂ (Columns.Shows t.columns) column.propertyInfos ∧
      ∀ path ∈ related.additional,
        ∃ name, column.RefersTo name ∧ Columns.Shows t.columns path name) := by
  obtain ⟨settled, hsettled, hyields⟩ := exists_yields h
  obtain rfl := Except.ok.inj (hscope.symm.trans hsettled)
  obtain ⟨hservice, htype⟩ := entityType_mem hscope
  rw [← hservice] at hnames htype ⊢
  have hready := Scope.collected_isReady (hnames ':' (by decide)) htype
  have hcolumns := hyields.columns_include
  obtain ⟨entry, hentry, d, hname, hpending, hadditional, hlinks, hadditionalLinks, hlinked⟩ :=
    hyields.exists_linked (hnames '/' (by decide)) htype hcolumn hrelated
  have hrefers : ∀ name, column.RefersTo name ↔ name ∈ d.links ∨ name ∈ d.additionalLinks := by
    intro name
    rw [hlinks, hadditionalLinks]
    rfl
  rw [← hpending, ← hadditional, ← hname, ← hlinks]
  simp only [hrefers]
  refine ⟨hready.shown_iff hcolumns hentry hlinked,
    fun path hpath => hready.loaded_iff hcolumns hentry hlinked hpath, fun hproper => ?_⟩
  have hself := (ColumnPool.link_spec scope.value.hiddenColumn?
    scope.value.collected_isDistinct).1.include_self
  have hfree : ∀ path, scope.value.service.Finds scope.value.entityType path →
      ¬ Columns.IsCrowded (scope.value.collected.link scope.value.hiddenColumn?).pool.columns path
        (scope.value.collected.linkName entry.name path) :=
    fun _ => Scope.collected_not_isCrowded hnames hproper htype entry.name
  refine ⟨?_, ?_⟩
  · have hshown := (hready.shown_iff hself hentry hlinked).2
      fun path hpath => hfree path ((hready.pending entry hentry).2 path hpath)
    exact hshown.imp fun _ _ => hcolumns.shows
  · intro path hpath
    obtain ⟨name, hmem, hshows⟩ := (hready.loaded_iff hself hentry hlinked hpath).2
      (hfree path (hready.pendingAdditional entry hentry path hpath))
    exact ⟨name, hmem, hcolumns.shows hshows⟩

/-- The column of the group of orders shows what is collected for the group, property by
property. -/
theorem dependencies_kept_orders :
    ∃ scope t column field, orders.resolve { entitySet := "Orders" } = .ok scope ∧
      (orders.compile { entitySet := "Orders" }).value = .ok t ∧
      orders.service.HasSimpleNames ∧ column ∈ t.columns ∧
      column.annotationPath = some (scope.value.recordPath 2) ∧
      scope.value.lineItem[2]? = some field ∧
      (scope.value.service.collectField scope.value.entityType field).properties.Forall₂
        (Columns.Shows t.columns) column.propertyInfos := by
  have hsimple : orders.service.HasSimpleNames := by decide
  have hproper : orders.service.EveryName fun name => name ≠ "" ∧ name ≠ "Property" := by decide
  have hrun : (match orders.resolve { entitySet := "Orders" },
      (orders.compile { entitySet := "Orders" }).value with
    | .ok scope, .ok t => scope.value.lineItem[2]?.isSome &&
        t.columns.any (·.annotationPath == some (scope.value.recordPath 2))
    | _, _ => false) = true := by decide +kernel
  split at hrun
  · rename_i scope t hscope ht
    rw [Bool.and_eq_true, List.any_eq_true] at hrun
    obtain ⟨hfield, column, hcolumn, hpath⟩ := hrun
    obtain ⟨field, hfield⟩ := Option.isSome_iff_exists.1 hfield
    rw [beq_iff_eq] at hpath
    have hkept := orders.dependencies_kept { entitySet := "Orders" } scope t hscope ht hsimple
      column hcolumn _ (.record hfield hpath)
    exact ⟨scope, t, column, field, hscope, ht, hsimple, hcolumn, hpath, hfield,
      (hkept.2.2 hproper).1⟩
  · cases hrun

/-- A page with a navigation property `Property`: the unit of the amount has the text in its place,
so it needs the second name of its own property, and with it the key of the property behind the
navigation. -/
def crossed : Context where
  service := {
    entitySets := [{ name := "Items", entityType := "shop.Item" }]
    entityTypes := [
      { name := "shop.Item"
        properties := [
          { name := "Unit", typeName := "Edm.String",
            annotations := { text := some "UnitText", textArrangement := some .textOnly } },
          { name := "UnitText", typeName := "Edm.String" },
          { name := "Amount", typeName := "Edm.Decimal",
            annotations := { unit := some (.path "Unit") } }]
        navigationProperties := [{ name := "Property", targetType := "shop.Property" }]
        annotations := {
          lineItems := .ofList [("", [
            DataField.value ⟨.plain, "Amount", none, {}⟩,
            DataField.reference ⟨none, "@UI.FieldGroup#Main", {}⟩])]
          fieldGroups := .ofList [("Main", {
            label := none
            data := [.value ⟨.plain, "Property/Unit", none, {}⟩] })] } },
      { name := "shop.Property"
        properties := [{ name := "Unit", typeName := "Edm.String" }] }] }
  manifest := {}
  options := {}

-- the group shows a property, but its column has lost it
example :
    (match crossed.resolve { entitySet := "Items" },
      (crossed.compile { entitySet := "Items" }).value with
    | .ok scope, .ok t =>
      (scope.value.lineItem.map fun field =>
        (scope.value.service.collectField scope.value.entityType field).properties,
       (t.column? "@UI.FieldGroup#Main").map (·.propertyInfos))
    | _, _ => ([], none)) = ([["Amount", "Unit"], ["Property/Unit"]], some []) := by
  decide +kernel

end Context

end TableCompiler
