import Mathlib.Data.List.Forall2
import TableCompiler.Proofs.Column.Growth

/-!
# Linking the dependencies of a pool

One step of linking looks for the column of a property and may add a hidden one; a run goes through
the dependencies of every entry.  What a step keeps is therefore kept by every run.

* `Linking.resolve_cases` — all that a step can do;
* `Linking.addLinks` — the links for several properties of one column, with what they keep: the
  pool grows, stays free of repetitions and has every linked name;
* `Linking.linkEntry_eq` — linking one entry replaces it by `Linking.linkedEntry`;
* `ColumnPool.link_spec` — linking a whole pool links each of its entries and adds hidden columns.
-/

namespace TableCompiler

namespace Linking

variable {build : HiddenColumn → Option Column} {owner : String}

/-! ### One property -/

/-- **A step of linking.**  The needed column is there, or it is added, or it is refused: because
the property does not exist, or because its name or key is taken. -/
theorem resolve_cases (build : HiddenColumn → Option Column) (owner : String)
    (path : PropertyPath) (l : Linking) :
    (l.pool.linkName owner path ∈ l.pool.names ∧
      resolve build owner path l = (some (l.pool.linkName owner path), l)) ∨
    (l.pool.linkName owner path ∉ l.pool.names ∧ ∃ asked,
      (∃ column, build (l.pool.hiddenColumn path (l.pool.linkName owner path)) = some column ∧
        column.name ∉ l.pool.names ∧ column.key ∉ l.pool.keys ∧
        resolve build owner path l =
          (some column.name, ⟨l.pool.push column .related {}, asked⟩)) ∨
      (resolve build owner path l = (none, ⟨l.pool, asked⟩) ∧
        ∀ column, build (l.pool.hiddenColumn path (l.pool.linkName owner path)) = some column →
          column.name ∈ l.pool.names ∨ column.key ∈ l.pool.keys)) := by
  simp only [resolve]
  split
  · rename_i h
    exact .inl ⟨ColumnPool.containsName_iff.1 h, rfl⟩
  · rename_i h
    refine .inr ⟨fun hmem => h (ColumnPool.containsName_iff.2 hmem),
      l.asked ++ [l.pool.hiddenColumn path (l.pool.linkName owner path)], ?_⟩
    split
    · rename_i hnone
      refine .inr ⟨rfl, fun column hsome => ?_⟩
      rw [hnone] at hsome
      cases hsome
    · rename_i column hsome
      split
      · rename_i hrefused
        refine .inr ⟨rfl, fun other hother => ?_⟩
        obtain rfl := Option.some.inj (hsome.symm.trans hother)
        exact ColumnPool.insert?_eq_none_iff.1 hrefused
      · rename_i pool hpool
        obtain ⟨hname, hkey, rfl⟩ := ColumnPool.insert?_eq_some_iff.1 hpool
        exact .inl ⟨column, hsome, hname, hkey, rfl⟩

/-- Whatever hidden column is asked for goes by one of the names and keys of its property. -/
theorem answers_of_hiddenColumn {p : ColumnPool} {path : PropertyPath} {column : Column}
    (h : build (p.hiddenColumn path (p.linkName owner path)) = some column) :
    Answers build p.names column := by
  refine ⟨_, h, ?_, ?_⟩
  · show p.linkName owner path = path ∨ p.linkName owner path = propertyAlias path ∧ path ∈ p.names
    rw [ColumnPool.linkName]
    split
    · rename_i host hhost
      split
      · exact .inl rfl
      · obtain ⟨hmem, hname⟩ := ColumnPool.entry?_eq_some hhost
        exact .inr ⟨rfl, hname ▸ List.mem_map_of_mem hmem⟩
    · exact .inl rfl
  · show (if _ then _ else _) = _ ∨ (if _ then _ else _) = _
    split
    · exact .inr rfl
    · exact .inl rfl

theorem resolve_extended (path : PropertyPath) (l : Linking) :
    ColumnPool.Extended build l.pool (resolve build owner path l).2.pool := by
  rcases resolve_cases build owner path l with
    ⟨-, h⟩ | ⟨-, asked, ⟨column, hbuild, -, -, h⟩ | ⟨h, -⟩⟩
  · rw [h]
    exact .refl _
  · rw [h]
    exact .push (answers_of_hiddenColumn hbuild)
  · rw [h]
    exact .refl _

theorem resolve_isDistinct {l : Linking} (hl : l.pool.IsDistinct) (path : PropertyPath) :
    (resolve build owner path l).2.pool.IsDistinct := by
  rcases resolve_cases build owner path l with
    ⟨-, h⟩ | ⟨-, asked, ⟨column, -, hname, hkey, h⟩ | ⟨h, -⟩⟩
  · rw [h]
    exact hl
  · rw [h]
    exact hl.push hname hkey .related {}
  · rw [h]
    exact hl

theorem resolve_mem_names {l : Linking} {path : PropertyPath} {name : String}
    (h : (resolve build owner path l).1 = some name) :
    name ∈ (resolve build owner path l).2.pool.names := by
  rcases resolve_cases build owner path l with
    ⟨hmem, heq⟩ | ⟨-, asked, ⟨column, -, -, -, heq⟩ | ⟨heq, -⟩⟩
  · rw [heq] at h ⊢
    exact Option.some.inj h ▸ hmem
  · rw [heq] at h ⊢
    rw [← Option.some.inj h, ColumnPool.names_push]
    exact List.mem_append_right _ (List.mem_singleton_self _)
  · rw [heq] at h
    cases h

/-! ### The properties of one column -/

/-- The links of a column with those for further properties added, unless they are among `others`
already. -/
def addLinks (build : HiddenColumn → Option Column) (owner : String) (others : List String)
    (paths : List PropertyPath) (state : List String × Linking) : List String × Linking :=
  paths.foldl (addLink build owner others) state

theorem addLink_pool (others : List String) (state : List String × Linking)
    (path : PropertyPath) :
    (addLink build owner others state path).2 = (resolve build owner path state.2).2 :=
  addFound_snd _ others state path

theorem addLink_extended (others : List String) (state : List String × Linking)
    (path : PropertyPath) :
    ColumnPool.Extended build state.2.pool (addLink build owner others state path).2.pool := by
  rw [addLink_pool]
  exact resolve_extended path state.2

/-- A step adds at most the name that was found. -/
theorem addLink_links (others : List String) (state : List String × Linking)
    (path : PropertyPath) :
    (addLink build owner others state path).1 = state.1 ∨
      ∃ name, (resolve build owner path state.2).1 = some name ∧ name ∉ state.1 ∧
        name ∉ others ∧ (addLink build owner others state path).1 = state.1 ++ [name] :=
  addFound_fst _ others state path

theorem addLinks_cons (others : List String) (path : PropertyPath) (paths : List PropertyPath)
    (state : List String × Linking) :
    addLinks build owner others (path :: paths) state =
      addLinks build owner others paths (addLink build owner others state path) := rfl

theorem addLinks_extended (others : List String) (paths : List PropertyPath)
    (state : List String × Linking) :
    ColumnPool.Extended build state.2.pool
      (addLinks build owner others paths state).2.pool := by
  induction paths generalizing state with
  | nil => exact .refl _
  | cons path paths ih =>
    rw [addLinks_cons]
    exact (addLink_extended others state path).trans (ih _)

theorem addLinks_isDistinct (others : List String) (paths : List PropertyPath)
    {state : List String × Linking} (h : state.2.pool.IsDistinct) :
    (addLinks build owner others paths state).2.pool.IsDistinct := by
  induction paths generalizing state with
  | nil => exact h
  | cons path paths ih =>
    rw [addLinks_cons]
    refine ih ?_
    rw [addLink_pool]
    exact resolve_isDistinct h path

/-- Every link is the name of a column of the pool. -/
theorem addLinks_subset (others : List String) (paths : List PropertyPath)
    {state : List String × Linking} (h : state.1 ⊆ state.2.pool.names) :
    (addLinks build owner others paths state).1 ⊆
      (addLinks build owner others paths state).2.pool.names := by
  induction paths generalizing state with
  | nil => exact h
  | cons path paths ih =>
    rw [addLinks_cons]
    refine ih ?_
    rw [addLink_pool]
    have hkept : state.1 ⊆ (resolve build owner path state.2).2.pool.names :=
      List.Subset.trans h (resolve_extended path state.2).grown.names_prefix.subset
    rcases addLink_links others state path with heq | ⟨name, hname, -, -, heq⟩
    · rw [heq]
      exact hkept
    · rw [heq]
      exact List.append_subset.2 ⟨hkept, by simpa using resolve_mem_names hname⟩

/-! ### One column -/

/-- The state after the shown properties of an entry are linked. -/
def shownLinks (build : HiddenColumn → Option Column) (l : Linking) (c : PooledColumn) :
    List String × Linking :=
  c.shown (resolve build c.name) l

/-- The state after all properties of an entry are linked. -/
def loadedLinks (build : HiddenColumn → Option Column) (l : Linking) (c : PooledColumn) :
    List String × Linking :=
  c.loaded (resolve build c.name) l

/-- An entry with all its properties linked. -/
def linkedEntry (build : HiddenColumn → Option Column) (l : Linking) (c : PooledColumn) :
    PooledColumn :=
  (c.link (resolve build c.name) l).1

theorem linkEntry_eq (l : Linking) (c : PooledColumn) :
    linkEntry build l c = (loadedLinks build l c).2.replace (linkedEntry build l c) := rfl

theorem core_linkedEntry (build : HiddenColumn → Option Column) (l : Linking) (c : PooledColumn) :
    (linkedEntry build l c).core = c.core := rfl

theorem loadedLinks_extended_shown (build : HiddenColumn → Option Column) (l : Linking)
    (c : PooledColumn) :
    ColumnPool.Extended build (shownLinks build l c).2.pool (loadedLinks build l c).2.pool :=
  addLinks_extended (shownLinks build l c).1 c.pendingAdditional _

theorem loadedLinks_extended (build : HiddenColumn → Option Column) (l : Linking)
    (c : PooledColumn) :
    ColumnPool.Extended build l.pool (loadedLinks build l c).2.pool :=
  (addLinks_extended [] c.pending (c.links, l)).trans (loadedLinks_extended_shown build l c)

theorem loadedLinks_isDistinct (build : HiddenColumn → Option Column) {l : Linking}
    (hl : l.pool.IsDistinct) (c : PooledColumn) :
    (loadedLinks build l c).2.pool.IsDistinct :=
  have hshown : (shownLinks build l c).2.pool.IsDistinct := addLinks_isDistinct [] c.pending hl
  addLinks_isDistinct _ _ hshown

/-- Replacing an entry by one of its core changes no core. -/
theorem cores_replace {l : Linking} (hl : l.pool.IsDistinct) {c d : PooledColumn}
    (hc : c ∈ l.pool.entries) (hcore : d.core = c.core) :
    (l.replace d).pool.entries.map (·.core) = l.pool.entries.map (·.core) := by
  have hname : d.name = c.name := congrArg (fun core => core.1.name) hcore
  rw [replace, List.map_map]
  refine List.map_congr_left fun e he => ?_
  show ColumnEntry.core (if e.name = d.name then d else e) = e.core
  split
  · rename_i heq
    rw [hl.eq_of_name he hc (heq.trans hname), hcore]
  · rfl

/-- Replacing the entry that stands at a place leaves the others where they are. -/
theorem entries_replace {l : Linking} (hl : l.pool.IsDistinct) {front back : List PooledColumn}
    {c d : PooledColumn} (hentries : l.pool.entries = front ++ c :: back)
    (hcore : d.core = c.core) : (l.replace d).pool.entries = front ++ d :: back := by
  have hname : d.name = c.name := congrArg (fun core => core.1.name) hcore
  have hnodup : (front.map (·.name) ++ c.name :: back.map (·.name)).Nodup := by
    have hnames := hl.names
    rwa [ColumnPool.names, hentries, List.map_append, List.map_cons] at hnames
  have hkeep : ∀ es : List PooledColumn, c.name ∉ es.map (·.name) →
      es.map (fun e => if e.name = d.name then d else e) = es := by
    intro es hes
    refine (List.map_congr_left fun e he => ?_).trans (List.map_id es)
    rw [if_neg fun heq => hes (List.mem_map.2 ⟨e, he, heq.trans hname⟩), id]
  obtain ⟨hfront, hback⟩ : c.name ∉ front.map (·.name) ∧ c.name ∉ back.map (·.name) := by
    rw [List.nodup_middle, List.nodup_cons, List.mem_append, not_or] at hnodup
    exact hnodup.1
  show l.pool.entries.map (fun e => if e.name = d.name then d else e) = _
  rw [hentries, List.map_append, List.map_cons, hkeep front hfront, hkeep back hback,
    if_pos hname.symm]

/-- What a run has made of an entry: its links were found in a pool between the first and the last
one. -/
def LinkedFrom (build : HiddenColumn → Option Column) (p q : ColumnPool) (c d : PooledColumn) :
    Prop :=
  ∃ l : Linking, l.pool.IsDistinct ∧ ColumnPool.Grown build p l.pool ∧
    ColumnPool.Grown build (loadedLinks build l c).2.pool q ∧ d = linkedEntry build l c

end Linking

namespace ColumnPool

open Linking

/-- Linking one entry leaves the entries around it where they are. -/
theorem linkEntry_entries (build : HiddenColumn → Option Column) {l : Linking}
    (hl : l.pool.IsDistinct) {c : PooledColumn} {front back : List PooledColumn}
    (hentries : l.pool.entries = front ++ c :: back) :
    (linkEntry build l c).pool.IsDistinct ∧ Grown build l.pool (linkEntry build l c).pool ∧
    Grown build (loadedLinks build l c).2.pool (linkEntry build l c).pool ∧
    ∃ added : List Column,
      (∀ column ∈ added, Answers build (linkEntry build l c).pool.names column) ∧
      (linkEntry build l c).pool = { l.pool with
        entries := front ++ linkedEntry build l c :: (back ++ added.map .related) } := by
  obtain ⟨added, hadded, hpool⟩ := loadedLinks_extended build l c
  have hloaded := loadedLinks_isDistinct build hl c
  have hplace : (loadedLinks build l c).2.pool.entries =
      front ++ c :: (back ++ added.map .related) := by
    rw [hpool, hentries, List.append_assoc, List.cons_append]
  have hc : c ∈ (loadedLinks build l c).2.pool.entries := by
    rw [hplace]
    exact List.mem_append_right _ List.mem_cons_self
  have hcores := cores_replace hloaded hc (core_linkedEntry build l c)
  have hgrown : Grown build (loadedLinks build l c).2.pool (linkEntry build l c).pool :=
    .of_cores hcores
  refine ⟨hloaded.of_cores hcores, (loadedLinks_extended build l c).grown.trans hgrown, hgrown,
    added, fun column hcolumn => (hadded column hcolumn).mono hgrown.names_prefix.subset, ?_⟩
  have hreplaced := entries_replace hloaded hplace (core_linkedEntry build l c)
  rw [linkEntry_eq, ← hreplaced, replace, hpool]

/-- **Linking from a place on.**  The entries that are still to be linked stand behind those that
are linked, and hidden columns stand behind them all. -/
theorem foldl_linkEntry (build : HiddenColumn → Option Column) (todo : List PooledColumn)
    {front hidden : List PooledColumn} {l : Linking} (hl : l.pool.IsDistinct)
    (hentries : l.pool.entries = front ++ (todo ++ hidden)) :
    (todo.foldl (linkEntry build) l).pool.IsDistinct ∧
    Grown build l.pool (todo.foldl (linkEntry build) l).pool ∧
    ∃ (linked : List PooledColumn) (added : List Column),
      (∀ column ∈ added, Answers build (todo.foldl (linkEntry build) l).pool.names column) ∧
      (todo.foldl (linkEntry build) l).pool = { l.pool with
        entries := front ++ (linked ++ (hidden ++ added.map .related)) } ∧
      todo.Forall₂ (LinkedFrom build l.pool (todo.foldl (linkEntry build) l).pool) linked := by
  induction todo generalizing front hidden l with
  | nil =>
    rw [List.nil_append] at hentries
    exact ⟨hl, .refl _, [], [], by simp, by simp [← hentries], .nil⟩
  | cons c todo ih =>
    obtain ⟨hstep, hgrown, hloaded, added, hadded, hpool⟩ :=
      linkEntry_entries build hl hentries
    have hnext : (linkEntry build l c).pool.entries =
        (front ++ [linkedEntry build l c]) ++ (todo ++ (hidden ++ added.map .related)) := by
      simp [hpool]
    obtain ⟨hrun, hrest, linked, more, hmore, hfinal, hlinked⟩ := ih hstep hnext
    refine ⟨hrun, hgrown.trans hrest, linkedEntry build l c :: linked, added ++ more, ?_, ?_,
      .cons ⟨l, hl, .refl _, hloaded.trans hrest, rfl⟩ ?_⟩
    · intro column hcolumn
      exact (List.mem_append.1 hcolumn).elim
        (fun h => (hadded column h).mono hrest.names_prefix.subset) (hmore column)
    · rw [List.foldl_cons, hfinal, hpool]
      simp
    · refine hlinked.imp ?_
      rintro d e ⟨m, hm, hto, hfrom, rfl⟩
      exact ⟨m, hm, hgrown.trans hto, hfrom, rfl⟩

/-- **Linking a pool.**  Every entry is linked at its place, hidden columns follow, and neither
names nor keys are repeated. -/
theorem link_spec (build : HiddenColumn → Option Column) {p : ColumnPool} (hp : p.IsDistinct) :
    (p.link build).pool.IsDistinct ∧ Grown build p (p.link build).pool ∧
    ∃ (linked : List PooledColumn) (added : List Column),
      (∀ column ∈ added, Answers build (p.link build).pool.names column) ∧
      (p.link build).pool = { p with entries := linked ++ added.map .related } ∧
      p.entries.Forall₂ (LinkedFrom build p (p.link build).pool) linked := by
  obtain ⟨hdistinct, hgrown, linked, added, hadded, hpool, hlinked⟩ :=
    foldl_linkEntry build p.entries (l := ⟨p, []⟩) hp
      (show p.entries = [] ++ (p.entries ++ []) by simp)
  exact ⟨hdistinct, hgrown, linked, added, hadded, by simpa [link] using hpool, hlinked⟩

end ColumnPool

end TableCompiler
