import TableCompiler.Proofs.References

/-!
# Where the columns of a table come from

A column of a table was collected, or it is a hidden column that linking has asked for, or a custom
one.  What the manifest, aggregation and linking set aside, it is still the column that it was.

* `Column.bare`, `Column.eq_of_bare` — a column without the members that are set later;
* `ColumnPool.marked`, `ColumnPool.link_marked` — hidden columns are marked as texts that are shown
  in place of a value just as the pool marks them;
* `Scope.Origin`, `Scope.Yields.origin` — where a column comes from;
* `Column.IsUntouched`, `Scope.isUntouched` — columns as they are built;
* `Scope.Yields.exists_of_collected` — what is collected becomes a column;
* `Scope.Yields.exists_recordEntry` — the entry behind the column of a record.
-/

namespace TableCompiler

open Linking (LinkedFrom)

namespace Column

/-- A column without the members that linking, the manifest and aggregation set. -/
def bare (c : Column) : Column :=
  { c.settled with
    propertyInfos := []
    additionalPropertyInfos := [] }

/-- Columns that are the same when bare agree in every other member. -/
theorem eq_of_bare {α : Type} (f : Column → α) (hf : ∀ c, f c.bare = f c) {b c : Column}
    (h : b.bare = c.bare) : f b = f c := by
  rw [← hf b, h, hf c]

/-- A column is no custom one, and nothing is aggregated by it. -/
structure IsUntouched (c : Column) : Prop where
  kind : c.kind ≠ .slot
  aggregatable : c.aggregatable = none
  extension : c.extension = none

theorem bare_eq_of_settled {b c : Column} (h : b.settled = c.settled) : b.bare = c.bare := by
  rw [bare, h, ← bare]

end Column

theorem PooledColumn.bare_linkedColumn (e : PooledColumn) :
    e.linkedColumn.bare = e.column.bare := rfl

/-! ### The marks of hidden columns -/

/-- Two loops agree whose steps agree as long as something holds that each step keeps. -/
theorem foldl_eq_of_invariant {α β : Type} {f g : β → α → β} {I : β → Prop}
    (hstep : ∀ b a, I b → g b a = f b a ∧ I (f b a)) (items : List α) {b : β} (hb : I b) :
    items.foldl g b = items.foldl f b ∧ I (items.foldl f b) := by
  induction items generalizing b with
  | nil => exact ⟨rfl, hb⟩
  | cons a items ih =>
    obtain ⟨heq, hnext⟩ := hstep b a hb
    rw [List.foldl_cons, List.foldl_cons, heq]
    exact ih hnext

namespace ColumnPool

/-- Answers only requests for hidden columns that mark texts as the pool does. -/
def marked (p : ColumnPool) (build : HiddenColumn → Option Column) (hidden : HiddenColumn) :
    Option Column :=
  if hidden.isTextOnly = p.isTextOnly hidden.path then build hidden else none

theorem marked_eq_some {p : ColumnPool} {build : HiddenColumn → Option Column}
    {hidden : HiddenColumn} {column : Column} (h : p.marked build hidden = some column) :
    hidden.isTextOnly = p.isTextOnly hidden.path ∧ build hidden = some column := by
  rw [marked] at h
  split at h
  · rename_i hmark
    exact ⟨hmark, h⟩
  · cases h

theorem Extended.textOnly_eq {build : HiddenColumn → Option Column} {p q : ColumnPool}
    (h : Extended build p q) : q.textOnly = p.textOnly := by
  obtain ⟨added, -, rfl⟩ := h
  rfl

end ColumnPool

namespace Linking

variable {build : HiddenColumn → Option Column} {p : ColumnPool}

theorem resolve_marked (owner : String) (path : PropertyPath) {l : Linking}
    (hl : l.pool.textOnly = p.textOnly) :
    resolve (p.marked build) owner path l = resolve build owner path l := by
  have hasked : ∀ name, p.marked build (l.pool.hiddenColumn path name) =
      build (l.pool.hiddenColumn path name) := by
    intro name
    refine if_pos ?_
    show l.pool.textOnly.contains path = p.textOnly.contains path
    rw [hl]
  simp only [resolve, hasked]

theorem addLinks_marked (build : HiddenColumn → Option Column) (owner : String)
    (others : List String) (paths : List PropertyPath) {state : List String × Linking}
    (h : state.2.pool.textOnly = p.textOnly) :
    addLinks (p.marked build) owner others paths state = addLinks build owner others paths state ∧
      (addLinks build owner others paths state).2.pool.textOnly = p.textOnly := by
  refine foldl_eq_of_invariant
    (I := fun state : List String × Linking => state.2.pool.textOnly = p.textOnly) ?_ paths h
  intro state path hstate
  refine ⟨?_, (addLink_extended others state path).textOnly_eq.trans hstate⟩
  rw [addLink, addLink, addFound, addFound, resolve_marked owner path hstate]

theorem linkEntry_marked {l : Linking} (hl : l.pool.textOnly = p.textOnly) (c : PooledColumn) :
    linkEntry (p.marked build) l c = linkEntry build l c ∧
      (linkEntry build l c).pool.textOnly = p.textOnly := by
  obtain ⟨hshown, hkept⟩ : shownLinks (p.marked build) l c = shownLinks build l c ∧
      (shownLinks build l c).2.pool.textOnly = p.textOnly :=
    addLinks_marked build c.name [] c.pending hl
  obtain ⟨hloaded, hlast⟩ : loadedLinks (p.marked build) l c = loadedLinks build l c ∧
      (loadedLinks build l c).2.pool.textOnly = p.textOnly := by
    rw [loadedLinks, ColumnEntry.loaded, show c.shown (resolve (p.marked build) c.name) l = _
      from hshown]
    exact addLinks_marked build c.name (shownLinks build l c).1 c.pendingAdditional hkept
  refine ⟨?_, hlast⟩
  have hlinked : linkedEntry (p.marked build) l c = linkedEntry build l c := by
    rw [linkedEntry, ColumnEntry.link_eq, show c.shown (resolve (p.marked build) c.name) l = _
      from hshown, show c.loaded (resolve (p.marked build) c.name) l = _ from hloaded]
    rfl
  rw [linkEntry_eq, linkEntry_eq, hlinked, hloaded]

end Linking

/-- **Linking asks for hidden columns with the marks of the pool**, so it does not matter what is
answered under other marks. -/
theorem ColumnPool.link_marked (build : HiddenColumn → Option Column) (p : ColumnPool) :
    p.link (p.marked build) = p.link build :=
  (foldl_eq_of_invariant (I := fun l : Linking => l.pool.textOnly = p.textOnly)
    (fun _ c hl => Linking.linkEntry_marked hl c) p.entries (b := ⟨p, []⟩) rfl).1

/-! ### Origins -/

namespace Scope

/-- Where a column of a table comes from. -/
inductive Origin (s : Scope) (c : Column) : Prop
  /-- It was collected. -/
  | collected {e : PooledColumn} (he : e ∈ s.collected.entries) (hbare : e.column.bare = c.bare)
  /-- It is hidden and serves other columns. -/
  | hidden {hidden : HiddenColumn} {b : Column} (hbuild : s.hiddenColumn? hidden = some b)
      (hmark : hidden.isTextOnly = s.collected.isTextOnly hidden.path)
      (hmem : .related b ∈ s.pool.value.entries) (hbare : b.bare = c.bare)
  /-- The manifest adds it. -/
  | custom {entry : ManifestColumn} {key : String} {names : List String}
      (hbare : (entry.toColumn key names).bare = c.bare)

variable {s : Scope} {t : Table}

/-- An entry of the linked pool was collected, or it is a hidden column that was asked for with the
marks of what is collected. -/
theorem pool_cases {d : PooledColumn} (hd : d ∈ s.pool.value.entries) :
    (∃ e ∈ s.collected.entries, d.core = e.core) ∨
      ∃ hidden b, s.hiddenColumn? hidden = some b ∧
        hidden.isTextOnly = s.collected.isTextOnly hidden.path ∧ d = .related b := by
  rw [value_pool, ← ColumnPool.link_marked] at hd
  rcases s.collected_isDistinct.link_cases hd with ⟨e, he, hlinked⟩ | ⟨b, hanswers, rfl⟩
  · exact .inl ⟨e, he, hlinked.core_eq⟩
  · obtain ⟨hidden, hanswer, -, -⟩ := hanswers
    obtain ⟨hmark, hbuild⟩ := ColumnPool.marked_eq_some hanswer
    exact .inr ⟨hidden, b, hbuild, hmark, rfl⟩

/-- A column as it is built is no custom one, and nothing is aggregated by it. -/
theorem isUntouched {b : Column} (hb : b ∈ s.builtColumns) : b.IsUntouched := by
  obtain ⟨d, hd, rfl⟩ := exists_of_mem_builtColumns hb
  rw [← value_pool] at hd
  have hcolumn : d.column.IsUntouched := by
    rcases pool_cases hd with ⟨e, he, hcore⟩ | ⟨hidden, b, hbuild, -, rfl⟩
    · have hsame : d.column = e.column := congrArg (·.1) hcore
      rw [hsame]
      cases collects_of_mem he with
      | record hfield hcolumn =>
        obtain ⟨key, -, hrenders⟩ := recordColumn_eq_some hcolumn
        cases hrenders <;> exact ⟨nofun, rfl, rfl⟩
      | property hp hprimitive ht isTextOnly => cases isTextOnly <;> exact ⟨nofun, rfl, rfl⟩
      | text hp htext ht => exact ⟨nofun, rfl, rfl⟩
    · obtain ⟨t, -, rfl⟩ := Option.map_eq_some_iff.1 hbuild
      show (if _ then _ else _ : Column).IsUntouched
      split <;> exact ⟨nofun, rfl, rfl⟩
  exact ⟨hcolumn.kind, hcolumn.aggregatable, hcolumn.extension⟩

/-- Every entry is linked, and its column stays. -/
theorem exists_pooled {e : PooledColumn} (he : e ∈ s.collected.entries) :
    ∃ d ∈ (s.collected.link s.hiddenColumn?).pool.entries, d.column = e.column ∧
      LinkedFrom s.hiddenColumn? s.collected (s.collected.link s.hiddenColumn?).pool e d := by
  obtain ⟨d, hd, hlinked⟩ := s.collected_isDistinct.exists_linked he
  exact ⟨d, hd, congrArg (·.1) hlinked.core_eq, hlinked⟩

namespace Yields

/-- **Every column has an origin.** -/
theorem origin (h : s.Yields t) {c : Column} (hc : c ∈ t.columns) : s.Origin c := by
  rcases h.of_mem hc with ⟨b, hb, heq⟩ | ⟨b, hb, heq⟩
  · obtain ⟨d, hd, rfl⟩ := exists_of_mem_builtColumns hb
    rw [← value_pool] at hd
    have hbare : d.column.bare = c.bare :=
      d.bare_linkedColumn.symm.trans (Column.bare_eq_of_settled heq)
    rcases pool_cases hd with ⟨e, he, hcore⟩ | ⟨hidden, b, hbuild, hmark, rfl⟩
    · have hcolumn : d.column = e.column := congrArg (·.1) hcore
      rw [hcolumn] at hbare
      exact .collected he hbare
    · exact .hidden hbuild hmark hd hbare
  · obtain ⟨entry, names, -, hentry⟩ := hb.exists_entry
    rw [hentry] at heq
    exact .custom (Column.bare_eq_of_settled heq)

/-- Every entry of the linked pool becomes a column. -/
theorem exists_of_pool (h : s.Yields t) {d : PooledColumn} (hd : d ∈ s.pool.value.entries) :
    ∃ c ∈ t.columns, c.bare = d.column.bare := by
  have hbuilt : d.linkedColumn ∈ s.builtColumns := List.mem_map_of_mem hd
  obtain ⟨c, hc, heq⟩ := h.exists_mem hbuilt
  exact ⟨c, hc, (Column.bare_eq_of_settled heq).trans d.bare_linkedColumn⟩

/-- What is collected becomes a column. -/
theorem exists_of_collected (h : s.Yields t) {e : PooledColumn} (he : e ∈ s.collected.entries) :
    ∃ c ∈ t.columns, c.bare = e.column.bare := by
  obtain ⟨d, hd, hcolumn, -⟩ := exists_pooled he
  rw [← hcolumn]
  exact h.exists_of_pool (s.value_pool ▸ hd)

end Yields

/-! ### Columns of records -/

theorem recordPath_injective (s : Scope) {i j : Nat} (h : s.recordPath i = s.recordPath j) :
    i = j := by
  have hlist := congrArg String.toList h
  simp only [recordPath, String.toList_append] at hlist
  have hdigits := congrArg (fun digits => Nat.ofDigitChars 10 digits 0)
    (List.append_cancel_left hlist)
  simpa [Nat.toString_eq_ofList_toDigits] using hdigits

/-- A hidden column belongs to no record. -/
theorem annotationPath_hiddenColumn? {hidden : HiddenColumn} {column : Column}
    (h : s.hiddenColumn? hidden = some column) : column.annotationPath = none := by
  obtain ⟨t, -, rfl⟩ := Option.map_eq_some_iff.1 h
  dsimp only
  split <;> rfl

/-- What is collected under the path of a record is the entry of the record. -/
theorem eq_recordEntry {index : Nat} {field : DataField} (hfield : s.lineItem[index]? = some field)
    {e : PooledColumn} (he : e ∈ s.collected.entries)
    (hpath : e.column.annotationPath = some (s.recordPath index)) :
    ∃ column, (s.recordColumn field).value = some column ∧
      e = s.recordEntry index field column := by
  cases collects_of_mem he with
  | @record index' field' column hfield' hcolumn =>
    have hindex : index' = index := s.recordPath_injective (Option.some.inj hpath)
    rw [hindex, hfield] at hfield'
    obtain rfl := Option.some.inj hfield'
    exact ⟨column, hcolumn, by rw [hindex]⟩
  | property hp hprimitive hfound isTextOnly => cases isTextOnly <;> cases hpath
  | text hp htext hfound => cases hpath

/-- **The entry behind the column of a record.** -/
theorem Yields.exists_recordEntry (h : s.Yields t) {c : Column} (hc : c ∈ t.columns) {index : Nat}
    {field : DataField} (hfield : s.lineItem[index]? = some field)
    (hpath : c.annotationPath = some (s.recordPath index)) :
    ∃ column, (s.recordColumn field).value = some column ∧
      s.recordEntry index field column ∈ s.collected.entries ∧
      (s.recordEntry index field column).column.bare = c.bare := by
  have hpathOf : ∀ {b : Column}, b.bare = c.bare →
      b.annotationPath = some (s.recordPath index) := by
    intro b hbare
    rw [Column.eq_of_bare (·.annotationPath) (fun _ => rfl) hbare, hpath]
  cases h.origin hc with
  | collected he hbare =>
    obtain ⟨column, hcolumn, rfl⟩ := eq_recordEntry hfield he (hpathOf hbare)
    exact ⟨column, hcolumn, he, hbare⟩
  | hidden hbuild hmark hmem hbare =>
    have hnone := hpathOf hbare
    rw [annotationPath_hiddenColumn? hbuild] at hnone
    cases hnone
  | custom hbare => cases hpathOf hbare

end Scope

end TableCompiler
