import TableCompiler.Proofs.Column.Marks

/-!
# Columns of texts that are shown in place of a value

Rows are not to be sorted or grouped by a text that is shown in place of a value.  The column of the
text keeps to this if the text is marked when the column is made, and the mark may come too late:
a property whose own turn is before that of the property with the text takes a column that rows can
be sorted by.

* `Table.Unordered` — rows are neither sorted nor grouped by the columns of a property;
* `Scope.MarksInTime` — the columns of a property find it marked when they are made;
* `Scope.Yields.unordered_iff` — these are the same for a property that rows can be sorted by;
* `Scope.marksInTime_of_prefix` — a mark that comes before the turn of the property is in time;
* `Context.texts_unordered` — the texts in a compiled table.
-/

namespace TableCompiler

/-- Rows are neither sorted nor grouped by a column. -/
def Column.IsUnordered (c : Column) : Prop := c.sortable = false ∧ c.isGroupable = false

/-- Rows are neither sorted nor grouped by the columns of the bare property at a path. -/
def Table.Unordered (t : Table) (path : PropertyPath) : Prop :=
  ∀ c ∈ t.columns, c.kind = .property → c.relativePath = some path → c.IsUnordered

theorem Column.IsUnordered.of_bare {b c : Column} (hb : b.IsUnordered) (h : b.bare = c.bare) :
    c.IsUnordered :=
  ⟨(eq_of_bare (·.sortable) (fun _ => rfl) h).symm.trans hb.1,
   (eq_of_bare (·.isGroupable) (fun _ => rfl) h).symm.trans hb.2⟩

namespace Scope

variable {s : Scope} {path : PropertyPath}

/-- Whether rows could be sorted or grouped by a property, if it were not marked. -/
def canOrder (s : Scope) (t : PropertyTarget) : Bool :=
  s.isSortable t || s.isGroupable t.path (s.isSortable t)

/-- The columns of a property find it marked when they are made: a column of its own at the turn of
the property, and a hidden one at the end. -/
structure MarksInTime (s : Scope) (path : PropertyPath) : Prop where
  turn : ∀ before p, s.TakesColumn before p → p.name = path →
    (s.poolBefore before).isTextOnly path = true
  hidden : ∀ e ∈ s.pool.value.entries, e.origin = .related → e.column.relativePath = some path →
    s.collected.isTextOnly path = true

/-! ### Columns of bare properties -/

/-- Rows are ordered by the column of a property if they can be and the property is not marked. -/
theorem unordered_mark_iff {t : PropertyTarget} {c : Column}
    (hsortable : c.sortable = s.isSortable t)
    (hgroupable : c.isGroupable = s.isGroupable t.path (s.isSortable t)) (isTextOnly : Bool) :
    (if isTextOnly then fixOrder c else c).IsUnordered ↔
      (s.canOrder t = true → isTextOnly = true) := by
  cases isTextOnly with
  | true => exact iff_of_true ⟨rfl, rfl⟩ fun _ => rfl
  | false =>
    rw [if_neg Bool.false_ne_true, Column.IsUnordered, hsortable, hgroupable, canOrder,
      Bool.or_eq_true, imp_iff_not Bool.false_ne_true, not_or, Bool.not_eq_true, Bool.not_eq_true]

theorem unordered_rawColumn_iff (p : Property) (t : PropertyTarget) (isTextOnly : Bool) :
    (s.rawColumn p t isTextOnly).IsUnordered ↔ (s.canOrder t = true → isTextOnly = true) :=
  unordered_mark_iff rfl rfl isTextOnly

theorem unordered_hiddenColumn?_iff {hidden : HiddenColumn} {c : Column} {t : PropertyTarget}
    (h : s.hiddenColumn? hidden = some c) (ht : s.property? hidden.path = some t) :
    c.IsUnordered ↔ (s.canOrder t = true → hidden.isTextOnly = true) := by
  rw [hiddenColumn?, ht] at h
  obtain rfl := Option.some.inj h
  exact unordered_mark_iff rfl rfl hidden.isTextOnly

/-- The column of a property shows it, and is known as that of a bare property. -/
theorem rawColumn_spec (p : Property) {t : PropertyTarget} (ht : s.property? p.name = some t)
    (isTextOnly : Bool) : (s.rawColumn p t isTextOnly).kind = .property ∧
      (s.rawColumn p t isTextOnly).relativePath = some p.name := by
  rw [← Service.property?_path ht]
  cases isTextOnly <;> exact ⟨rfl, rfl⟩

theorem hiddenColumn?_spec {hidden : HiddenColumn} {c : Column}
    (h : s.hiddenColumn? hidden = some c) :
    c.kind = .property ∧ c.relativePath = some hidden.path := by
  refine ⟨?_, s.hiddenColumn?_isFaithful.relativePath h⟩
  obtain ⟨t, -, rfl⟩ := Option.map_eq_some_iff.1 h
  dsimp only
  split <;> rfl

/-- The columns of records are known as such. -/
theorem kind_of_mem_addLineItem {e : PooledColumn} (he : e ∈ s.addLineItem.value.entries) :
    e.column.kind = .lineItem := by
  have horigin : e.origin = .lineItem := by
    obtain ⟨index, field, column, -, rfl, -⟩ := s.marksRecords_addLineItem.marked e he
    rfl
  cases s.isCollected_addLineItem.collects e he with
  | record hfield hcolumn =>
    obtain ⟨key, -, hrenders⟩ := recordColumn_eq_some hcolumn
    cases hrenders <;> rfl
  | property hp hprimitive hfound isTextOnly => cases horigin
  | text hp htext hfound => cases horigin

/-- A hidden column was asked for with the mark of what is collected. -/
theorem exists_of_related {e : PooledColumn} (he : e ∈ s.pool.value.entries)
    (horigin : e.origin = .related) :
    ∃ hidden, s.hiddenColumn? hidden = some e.column ∧
      hidden.isTextOnly = s.collected.isTextOnly hidden.path := by
  rcases pool_cases he with ⟨d, hd, hcore⟩ | ⟨hidden, b, hbuild, hmark, rfl⟩
  · have hnever : d.origin ≠ .related := by
      cases collects_of_mem hd <;> exact fun h => by cases h
    exact (hnever ((congrArg (·.2.1) hcore).symm.trans horigin)).elim
  · exact ⟨hidden, hbuild, hmark⟩

/-! ### The columns of one property -/

namespace Yields

variable {t : Table}

/-- A column of a property that became one of the table is unordered if those of the table are. -/
theorem isUnordered_of_unordered (h : t.Unordered path) {b : Column} (hkind : b.kind = .property)
    (hpath : b.relativePath = some path) (hb : ∃ c ∈ t.columns, c.bare = b.bare) :
    b.IsUnordered := by
  obtain ⟨c, hc, hbare⟩ := hb
  refine (h c hc ?_ ?_).of_bare hbare
  · exact (Column.eq_of_bare (·.kind) (fun _ => rfl) hbare).trans hkind
  · exact (Column.eq_of_bare (·.relativePath) (fun _ => rfl) hbare).trans hpath

theorem marksInTime_of_unordered (h : s.Yields t) (hunordered : t.Unordered path)
    {target : PropertyTarget} (htarget : s.property? path = some target)
    (hcan : s.canOrder target = true) : s.MarksInTime path where
  turn := by
    rintro before p hp rfl
    obtain ⟨hkind, hpath⟩ := rawColumn_spec p htarget ((s.poolBefore before).isTextOnly p.name)
    have hraw := isUnordered_of_unordered hunordered hkind hpath
      (h.exists_of_collected (hp.mem_collected htarget))
    exact (unordered_rawColumn_iff p target _).1 hraw hcan
  hidden := by
    intro e he horigin hpath
    obtain ⟨hidden, hbuild, hmark⟩ := exists_of_related he horigin
    obtain ⟨hkind, hhidden⟩ := hiddenColumn?_spec hbuild
    obtain rfl := Option.some.inj (hhidden.symm.trans hpath)
    have hcolumn := isUnordered_of_unordered hunordered hkind hpath (h.exists_of_pool he)
    rw [← hmark]
    exact (unordered_hiddenColumn?_iff hbuild htarget).1 hcolumn hcan

theorem unordered_of_marksInTime (h : s.Yields t)
    (hmarks : (s.property? path).any s.canOrder = true → s.MarksInTime path) :
    t.Unordered path := by
  intro c hc hkind hpath
  have hmarked : ∀ {target : PropertyTarget}, s.property? path = some target →
      s.canOrder target = true → s.MarksInTime path := by
    intro target htarget hcan
    refine hmarks ?_
    rw [htarget]
    exact hcan
  have hkindOf : ∀ {b : Column}, b.bare = c.bare → b.kind = .property := by
    intro b hbare
    rw [Column.eq_of_bare (·.kind) (fun _ => rfl) hbare, hkind]
  have hpathOf : ∀ {b : Column}, b.bare = c.bare → b.relativePath = some path := by
    intro b hbare
    rw [Column.eq_of_bare (·.relativePath) (fun _ => rfl) hbare, hpath]
  cases h.origin hc with
  | collected he hbare =>
    cases gains_of_mem he with
    | record he =>
      have hrecord := hkindOf hbare
      rw [kind_of_mem_addLineItem he] at hrecord
      cases hrecord
    | @property before p target hp htarget =>
      have hname : p.name = path :=
        Option.some.inj ((rawColumn_spec p htarget _).2.symm.trans (hpathOf hbare))
      refine ((unordered_rawColumn_iff p target _).2 fun hcan => ?_).of_bare hbare
      rw [hname] at htarget ⊢
      exact (hmarked htarget hcan).turn before p hp hname
    | text htarget => exact Column.IsUnordered.of_bare ⟨rfl, rfl⟩ hbare
  | @hidden hidden b hbuild hmark hmem hbare =>
    have hhidden : hidden.path = path :=
      Option.some.inj ((hiddenColumn?_spec hbuild).2.symm.trans (hpathOf hbare))
    obtain ⟨target, htarget, -⟩ := Option.map_eq_some_iff.1 hbuild
    refine ((unordered_hiddenColumn?_iff hbuild htarget).2 fun hcan => ?_).of_bare hbare
    rw [hmark, hhidden]
    exact (hmarked (hhidden ▸ htarget) hcan).hidden _ hmem rfl (hpathOf hbare)
  | custom hbare => cases hkindOf hbare

/-- **Marks count when columns are made.**  Rows are neither sorted nor grouped by the columns of a
property exactly if they cannot be, or if the columns find the property marked. -/
theorem unordered_iff (h : s.Yields t) (path : PropertyPath) :
    t.Unordered path ↔
      ((s.property? path).any s.canOrder = true → s.MarksInTime path) := by
  refine ⟨fun hunordered hcan => ?_, h.unordered_of_marksInTime⟩
  obtain ⟨target, htarget, hcan⟩ := (Option.any_eq_true _ _).1 hcan
  exact h.marksInTime_of_unordered hunordered htarget hcan

end Yields

/-! ### Marks that are in time -/

/-- **A mark before the turn is in time.** -/
theorem marksInTime_of_prefix {before : List Property}
    (hbefore : before <+: s.entityType.properties)
    (hmark : (s.poolBefore before).isTextOnly path = true)
    (hfree : ∀ p ∈ before, p.name ≠ path) : s.MarksInTime path where
  turn := by
    intro earlier p hp hname
    have hmem : p ∉ before := fun hmem => hfree p hmem hname
    have hprefix : before <+: earlier := by
      rcases List.prefix_or_prefix_of_prefix hbefore hp.isPrefix with hshort | hlong
      · refine (List.prefix_concat_iff.1 hshort).resolve_left ?_
        rintro rfl
        exact hmem (List.mem_append_right _ (List.mem_singleton_self p))
      · exact (hmem (hlong.subset (List.mem_append_right _ (List.mem_singleton_self p)))).elim
    obtain ⟨more, rfl⟩ := hprefix
    exact isTextOnly_poolBefore_append hmark more
  hidden := by
    intro e _ _ _
    obtain ⟨more, hmore⟩ := hbefore
    rw [collected_eq_poolBefore, ← hmore]
    exact isTextOnly_poolBefore_append hmark more

end Scope

namespace Context

/-- **Texts in place of a value.**  Rows are neither sorted nor grouped by the columns of a text
exactly if they could not be anyhow, or if the columns find the text marked when they are made.  A
property with such a text marks it if a record shows the property, or if the property takes a column
of its own and the property of the text is not declared before it. -/
theorem texts_unordered (c : Context) (r : TableRequest) (scope : Reported Scope) (t : Table)
    (hscope : c.resolve r = .ok scope) (h : (c.compile r).value = .ok t) :
    (∀ text, t.Unordered text ↔
      ((scope.value.property? text).any scope.value.canOrder = true →
        scope.value.MarksInTime text)) ∧
    ∀ p ∈ scope.value.entityType.properties, ∀ text,
      scope.value.service.ShowsText scope.value.entityType p.name text →
      ((∃ column ∈ t.columns, ∃ index record,
          scope.value.lineItem[index]? = some (.value record) ∧ record.value = p.name ∧
          column.annotationPath = some (scope.value.recordPath index)) → t.Unordered text) ∧
      ∀ before, scope.value.TakesColumn before p →
        (∀ q ∈ before ++ [p], q.name ≠ text) → t.Unordered text := by
  obtain ⟨settled, hsettled, hyields⟩ := exists_yields h
  obtain rfl := Except.ok.inj (hscope.symm.trans hsettled)
  refine ⟨hyields.unordered_iff, fun p _ text htext => ⟨?_, ?_⟩⟩
  · rintro ⟨column, hcolumn, index, record, hrecord, hvalue, hpath⟩
    obtain ⟨built, -, hentry, -⟩ := hyields.exists_recordEntry hcolumn hrecord hpath
    rw [← hvalue] at htext
    have hmark := Scope.isTextOnly_of_recordEntry hrecord hentry htext.mem_collectField
    exact hyields.unordered_of_marksInTime fun _ =>
      Scope.marksInTime_of_prefix (List.nil_prefix) hmark (fun _ h => by cases h)
  · intro before hp hfree
    obtain ⟨target, -, htarget, -⟩ := id htext
    have hmark := hp.isTextOnly htext.mem_collectProperty htarget
    exact hyields.unordered_of_marksInTime fun _ =>
      Scope.marksInTime_of_prefix hp.isPrefix hmark hfree

/-- The names of the suppliers of orders stand for the suppliers, and rows are not ordered by
them. -/
theorem texts_unordered_orders :
    ∃ scope t before p, orders.resolve { entitySet := "Orders" } = .ok scope ∧
      (orders.compile { entitySet := "Orders" }).value = .ok t ∧
      scope.value.service.ShowsText scope.value.entityType p.name "toSupplier/Name" ∧
      scope.value.TakesColumn before p ∧ (∀ q ∈ before ++ [p], q.name ≠ "toSupplier/Name") ∧
      (∃ column ∈ t.columns, column.kind = .property ∧
        column.relativePath = some "toSupplier/Name") ∧
      t.Unordered "toSupplier/Name" := by
  have hrun : (match orders.resolve { entitySet := "Orders" },
      (orders.compile { entitySet := "Orders" }).value with
    | .ok scope, .ok t =>
      (scope.value.entityType.properties.drop 3).head?.any (fun p => decide (
        scope.value.service.ShowsText scope.value.entityType p.name "toSupplier/Name" ∧
        p.isPrimitive = true ∧
        p.name ∉ (scope.value.poolBefore (scope.value.entityType.properties.take 3)).names ∧
        propertyKey p.name ∉
          (scope.value.poolBefore (scope.value.entityType.properties.take 3)).keys ∧
        ∀ q ∈ scope.value.entityType.properties.take 3 ++ [p], q.name ≠ "toSupplier/Name")) &&
      decide (∃ column ∈ t.columns, column.kind = .property ∧
        column.relativePath = some "toSupplier/Name")
    | _, _ => false) = true := by decide +kernel
  split at hrun
  · rename_i scope t hscope ht
    rw [Bool.and_eq_true, Option.any_eq_true] at hrun
    obtain ⟨⟨p, hhead, hchecked⟩, hcolumn⟩ := hrun
    obtain ⟨htext, hprimitive, hname, hkey, hfree⟩ := of_decide_eq_true hchecked
    obtain ⟨after, hafter⟩ := List.head?_eq_some_iff.1 hhead
    have hturn : scope.value.TakesColumn (scope.value.entityType.properties.take 3) p := by
      refine ⟨⟨after, ?_⟩, hprimitive, hname, hkey⟩
      rw [← hafter, List.take_append_drop]
    have hmem : p ∈ scope.value.entityType.properties :=
      hturn.isPrefix.subset (List.mem_append_right _ (List.mem_singleton_self p))
    have hunordered := orders.texts_unordered { entitySet := "Orders" } scope t hscope ht
    exact ⟨scope, t, _, p, hscope, ht, htext, hturn, hfree, of_decide_eq_true hcolumn,
      (hunordered.2 p hmem "toSupplier/Name" htext).2 _ hturn hfree⟩
  · cases hrun

/-- Products with a text for their supplier that is declared before the supplier. -/
def textFirst : Context where
  service := {
    entitySets := [{ name := "Products", entityType := "shop.Product" }]
    entityTypes := [
      { name := "shop.Product"
        properties := [
          { name := "ID", typeName := "Edm.String" },
          { name := "SupplierName", typeName := "Edm.String" },
          { name := "Supplier", typeName := "Edm.String",
            annotations := { text := some "SupplierName", textArrangement := some .textOnly } }]
        annotations := {
          lineItems := .ofList [("", [DataField.value ⟨.plain, "ID", none, {}⟩])] } }] }

-- the text is marked only at the turn of the supplier, so rows can be sorted by it
example :
    (match (textFirst.compile { entitySet := "Products" }).value with
    | .ok t => t.columns.map fun c => (c.name, c.sortable)
    | .error _ => []) = [("ID", true), ("SupplierName", true), ("Supplier", true)] := by
  decide +kernel

end Context

end TableCompiler
