import TableCompiler.Proofs.Column.Key
import TableCompiler.Proofs.Column.References

/-!
# When a dependency is lost

A dependency whose wanted column is not there needs a hidden column, for which there is a first key
and another one to fall back on.  The dependency is lost exactly if other columns hold both keys.
All others are linked, in the order in which they were collected.

* `Columns.IsCrowded`, `Columns.Shows` — both keys are held by others; a name shows a property;
* `ColumnPool.IsReady` — what the pool before linking offers;
* `ColumnPool.IsReady.settled_of_wanted` — which column goes by a wanted name in the end;
* `Linking.resolve_eq_none` — a refused column is crowded out;
* `Linking.addLinks_keeps`, `Linking.addLinks_eq_append` — what is not crowded out is linked;
* `ColumnPool.IsReady.shown_iff`, `ColumnPool.IsReady.loaded_iff` — no dependency else is lost;
* `ColumnPool.IsReady.not_isCrowded` — none at all if no path starts with the name `Property`.
-/

namespace TableCompiler

namespace Columns

/-- Both keys that a hidden column of a property could have under a name are held by columns of
other names. -/
def IsCrowded (columns : Columns) (path : PropertyPath) (name : String) : Prop :=
  ∀ key ∈ [propertyKey path, propertyKey name], ∃ c ∈ columns, c.key = key ∧ c.name ≠ name

/-- There is a column of a name, and it shows the property at a path. -/
def Shows (columns : Columns) (path : PropertyPath) (name : String) : Prop :=
  ∃ c ∈ columns, c.name = name ∧ c.relativePath = some path

end Columns

/-- The two names of a property tell it from other ones, unless a path starts like a second
name. -/
theorem path_eq_of_names {a b : PropertyPath} {name : String}
    (ha : ¬ propertyMark.toList <+: a.toList) (hb : ¬ propertyMark.toList <+: b.toList)
    (hname : name = a ∨ name = propertyAlias a) (hname' : name = b ∨ name = propertyAlias b) :
    a = b := by
  have halias : ∀ path, propertyMark.toList <+: (propertyAlias path).toList := by
    intro path
    rw [toList_propertyAlias]
    exact List.prefix_append _ _
  rcases hname with rfl | rfl
  · rcases hname' with heq | heq
    · exact heq
    · exact (ha (heq ▸ halias b)).elim
  · rcases hname' with heq | heq
    · exact (hb (heq ▸ halias a)).elim
    · exact propertyAlias_injective heq

namespace ColumnPool

/-! ### Pools that are ready to be linked -/

theorem isCrowded_iff {p : ColumnPool} {path : PropertyPath} {name : String} :
    Columns.IsCrowded p.columns path name ↔ ∀ key ∈ [propertyKey path, propertyKey name],
      ∃ e ∈ p.entries, e.column.key = key ∧ e.name ≠ name := by
  refine forall_congr' fun key => forall_congr' fun _ => ?_
  rw [columns]
  constructor
  · rintro ⟨c, hc, hkey, hname⟩
    obtain ⟨e, he, rfl⟩ := List.mem_map.1 hc
    exact ⟨e, he, hkey, hname⟩
  · rintro ⟨e, he, hkey, hname⟩
    exact ⟨e.linkedColumn, List.mem_map_of_mem he, hkey, hname⟩

/-- What is crowded out stays so while a pool grows. -/
theorem Grown.isCrowded {build : HiddenColumn → Option Column} {p q : ColumnPool}
    (h : Grown build p q) {path : PropertyPath} {name : String}
    (hp : Columns.IsCrowded p.columns path name) : Columns.IsCrowded q.columns path name := by
  rw [isCrowded_iff] at hp ⊢
  intro key hkey
  obtain ⟨e, he, hekey, hename⟩ := hp key hkey
  obtain ⟨d, hd, hcore⟩ := h.exists_of_mem he
  have hcolumn : d.column = e.column := congrArg (·.1) hcore
  refine ⟨d, hd, by rw [hcolumn, hekey], ?_⟩
  rw [ColumnEntry.name, hcolumn]
  exact hename

/-- What the linking of a pool rests on: `P` holds for the paths of properties, hidden columns are
there for these and no others, and columns that can serve others go by the path of a property. -/
structure IsReady (p : ColumnPool) (build : HiddenColumn → Option Column)
    (P : PropertyPath → Prop) : Prop where
  fresh : p.IsFresh
  faithful : IsFaithful build
  answers : ∀ hidden, (build hidden).isSome ↔ P hidden.path
  unmarked : ∀ path, P path → ¬ propertyMark.toList <+: path.toList
  avoids : p.AvoidsAliases
  served : ∀ e ∈ p.entries, e.origin ≠ .lineItem →
    P e.name ∧ e.column.key = propertyKey e.name ∧ e.column.relativePath = some e.name
  pending : ∀ e ∈ p.entries, e.pending.Nodup ∧ ∀ path ∈ e.pending, P path
  pendingAdditional : ∀ e ∈ p.entries, ∀ path ∈ e.pendingAdditional, P path

namespace IsReady

variable {p : ColumnPool} {build : HiddenColumn → Option Column} {P : PropertyPath → Prop}

/-- The property of a hidden column that is built is one that can be shown. -/
theorem of_build (h : p.IsReady build P) {hidden : HiddenColumn} {column : Column}
    (hbuild : build hidden = some column) : P hidden.path :=
  (h.answers hidden).1 (Option.isSome_iff_exists.2 ⟨column, hbuild⟩)

theorem wanted_cases (p : ColumnPool) (owner : String) (path : PropertyPath) :
    p.linkName owner path = path ∨ p.linkName owner path = propertyAlias path := by
  rcases p.linkName_cases owner path with ⟨-, heq⟩ | ⟨host, -, -, -, heq⟩ | ⟨host, -, -, -, heq⟩
  · exact .inl heq
  · exact .inl heq
  · exact .inr heq

/-- Different properties want different columns. -/
theorem wanted_injective (h : p.IsReady build P) {owner : String} {a b : PropertyPath} (ha : P a)
    (hb : P b) (heq : p.linkName owner a = p.linkName owner b) : a = b :=
  path_eq_of_names (h.unmarked a ha) (h.unmarked b hb) (wanted_cases p owner a)
    (heq ▸ wanted_cases p owner b)

/-- **The wanted column.**  In the end the column of a wanted name shows the property and has one
of the two keys. -/
theorem settled_of_wanted (h : p.IsReady build P) {owner : String} {path : PropertyPath}
    (hpath : P path) {e : PooledColumn} (he : e ∈ (p.link build).pool.entries)
    (hname : e.name = p.linkName owner path) :
    e.column.relativePath = some path ∧
      (e.column.key = propertyKey path ∨ e.column.key = propertyKey e.name) := by
  rcases h.fresh.distinct.link_cases he with ⟨c, hc, hlinked⟩ | ⟨column, hanswers, rfl⟩
  · have hcolumn : e.column = c.column := congrArg (·.1) hlinked.core_eq
    have hcname : c.name ∈ p.names := List.mem_map_of_mem hc
    rw [hlinked.name_eq] at hname
    rcases p.linkName_cases owner path with
      ⟨hnot, heq⟩ | ⟨host, hhost, hhostName, hserve, heq⟩ | ⟨host, -, -, -, heq⟩
    · exact (hnot (heq ▸ hname ▸ hcname)).elim
    · have hsame : c = host := h.fresh.distinct.eq_of_name hc hhost (by rw [hname, heq, hhostName])
      have horigin : c.origin ≠ .lineItem := by
        rw [PooledColumn.canServe, Bool.and_eq_true, Bool.and_eq_true, bne_iff_ne,
          bne_iff_ne] at hserve
        exact hsame ▸ hserve.2
      obtain ⟨-, hkey, hrelative⟩ := h.served c hc horigin
      rw [hcolumn, hkey, hrelative, hname, heq]
      exact ⟨rfl, .inl rfl⟩
    · exact (h.avoids path (heq ▸ hname ▸ hcname)).elim
  · obtain ⟨hidden, hbuild, hnames, hkeys⟩ := hanswers
    have hP : P hidden.path := h.of_build hbuild
    have hcname : (.related column : PooledColumn).name = hidden.name := h.faithful.name hbuild
    have hsame : hidden.path = path := by
      refine path_eq_of_names (h.unmarked _ hP) (h.unmarked _ hpath) ?_
        (hname ▸ wanted_cases p owner path)
      rw [hcname]
      exact hnames.imp_right And.left
    refine ⟨?_, ?_⟩
    · rw [← hsame]
      exact h.faithful.relativePath hbuild
    · rw [hcname, ← hsame]
      show column.key = _ ∨ column.key = _
      rw [h.faithful.key hbuild]
      exact hkeys

/-- A property whose wanted column is there is not crowded out. -/
theorem not_isCrowded_of_mem (h : p.IsReady build P) {owner : String} {path : PropertyPath}
    (hpath : P path) {e : PooledColumn} (he : e ∈ (p.link build).pool.entries)
    (hname : e.name = p.linkName owner path) {columns : Columns}
    (hdistinct : columns.AreDistinct)
    (hmem : ∃ c ∈ columns, c.key = e.column.key ∧ c.name = e.name) :
    ¬ columns.IsCrowded path (p.linkName owner path) := by
  obtain ⟨c, hc, hckey, hcname⟩ := hmem
  have hkey : c.key ∈ [propertyKey path, propertyKey (p.linkName owner path)] := by
    rw [hckey, List.mem_pair, ← hname]
    exact (h.settled_of_wanted hpath he hname).2
  intro hcrowded
  obtain ⟨d, hd, hdkey, hdname⟩ := hcrowded c.key hkey
  have hsame : d = c := hdistinct.eq_of_key hd hc hdkey
  exact hdname (by rw [hsame, hcname, hname])

end IsReady

end ColumnPool

/-! ### What is not crowded out is linked -/

namespace Linking

open ColumnPool

variable {build : HiddenColumn → Option Column} {owner : String}
variable {p q : ColumnPool} {P : PropertyPath → Prop}

/-- **A refused column is crowded out.** -/
theorem resolve_eq_none (hready : p.IsReady build P) {l : Linking} {path : PropertyPath}
    (hpath : P path) (h : (resolve build owner path l).1 = none) :
    Columns.IsCrowded l.pool.columns path (l.pool.linkName owner path) := by
  rcases resolve_cases build owner path l with
    ⟨-, heq⟩ | ⟨hnew, asked, ⟨column, -, -, -, heq⟩ | ⟨heq, hrefused⟩⟩
  · rw [heq] at h
    cases h
  · rw [heq] at h
    cases h
  · obtain ⟨column, hcolumn⟩ := Option.isSome_iff_exists.1
      ((hready.answers (l.pool.hiddenColumn path (l.pool.linkName owner path))).2 hpath)
    have hkey : (l.pool.hiddenColumn path (l.pool.linkName owner path)).key ∈ l.pool.keys := by
      rcases hrefused column hcolumn with hname | hkey
      · rw [hready.faithful.name hcolumn] at hname
        exact (hnew hname).elim
      · rwa [hready.faithful.key hcolumn] at hkey
    have hholder : ∀ key ∈ l.pool.keys, ∃ e ∈ l.pool.entries, e.column.key = key ∧
        e.name ≠ l.pool.linkName owner path := by
      intro key hmem
      obtain ⟨e, he, rfl⟩ := List.mem_map.1 hmem
      exact ⟨e, he, rfl, fun hname => hnew (hname ▸ List.mem_map_of_mem he)⟩
    -- the first key is taken, or else it would have been asked for
    have hfirst : propertyKey path ∈ l.pool.keys := by
      by_contra hfree
      refine hfree ?_
      rwa [hiddenColumn, if_neg (fun hmem => hfree (containsKey_iff.1 hmem))] at hkey
    rw [hiddenColumn, if_pos (containsKey_iff.2 hfirst)] at hkey
    rw [isCrowded_iff]
    intro key hmem
    rcases List.mem_pair.1 hmem with rfl | rfl
    · exact hholder _ hfirst
    · exact hholder _ hkey

/-- What is not crowded out in the end is found at any time. -/
theorem resolve_of_not_isCrowded (hready : p.IsReady build P) {l : Linking}
    {path : PropertyPath} (hpath : P path) (howner : owner ∈ p.names)
    (hp : Grown build p l.pool) (hq : Grown build l.pool q)
    (h : ¬ Columns.IsCrowded q.columns path (p.linkName owner path)) :
    (resolve build owner path l).1 = some (p.linkName owner path) := by
  rw [← linkName_eq_of_grown hp howner] at h ⊢
  cases hfound : (resolve build owner path l).1 with
  | none => exact (h (hq.isCrowded (resolve_eq_none hready hpath hfound))).elim
  | some name => rw [resolve_fst hready.faithful hfound]

theorem addLink_subset (others : List String) (state : List String × Linking)
    (path : PropertyPath) : state.1 ⊆ (addLink build owner others state path).1 := by
  rcases addLink_links others state path with heq | ⟨name, -, -, -, heq⟩
  · rw [heq]
    exact List.Subset.refl _
  · rw [heq]
    exact List.subset_append_left _ _

theorem addLinks_mono (others : List String) (paths : List PropertyPath)
    (state : List String × Linking) : state.1 ⊆ (addLinks build owner others paths state).1 := by
  induction paths generalizing state with
  | nil => exact List.Subset.refl _
  | cons path paths ih =>
    rw [addLinks_cons]
    exact List.Subset.trans (addLink_subset others state path) (ih _)

/-- What is found is a link, unless it is one of the others. -/
theorem addLink_of_resolve (others : List String) {state : List String × Linking}
    {path : PropertyPath} {name : String}
    (h : (resolve build owner path state.2).1 = some name) :
    (addLink build owner others state path).1 =
      if state.1.contains name || others.contains name then state.1 else state.1 ++ [name] := by
  rw [addLink, addFound]
  split
  · rename_i l hnone
    rw [hnone] at h
    cases h
  · rename_i found l hfound
    rw [hfound] at h
    obtain rfl := Option.some.inj h
    split
    · rfl
    · rfl

/-- Dependencies that are not crowded out in the end. -/
def AreKept (p q : ColumnPool) (owner : String) (paths : List PropertyPath) : Prop :=
  ∀ path ∈ paths, ¬ Columns.IsCrowded q.columns path (p.linkName owner path)

/-- A dependency that is not crowded out is linked. -/
theorem addLinks_keeps (hready : p.IsReady build P) (howner : owner ∈ p.names)
    {others : List String} {paths : List PropertyPath} (hP : ∀ path ∈ paths, P path)
    {state : List String × Linking} (hp : Grown build p state.2.pool)
    (hq : Grown build (addLinks build owner others paths state).2.pool q) {path : PropertyPath}
    (hpath : path ∈ paths) (h : ¬ Columns.IsCrowded q.columns path (p.linkName owner path)) :
    p.linkName owner path ∈ (addLinks build owner others paths state).1 ∨
      p.linkName owner path ∈ others := by
  induction paths generalizing state with
  | nil => cases hpath
  | cons first paths ih =>
    have hstep : Grown build state.2.pool (addLink build owner others state first).2.pool :=
      (addLink_extended others state first).grown
    rw [addLinks_cons] at hq ⊢
    rcases List.mem_cons.1 hpath with rfl | hrest
    · have hlater : Grown build state.2.pool q :=
        hstep.trans ((addLinks_extended others paths _).grown.trans hq)
      have hfound := resolve_of_not_isCrowded hready (hP path hpath) howner hp hlater h
      have hlink := addLink_of_resolve others hfound
      by_cases hold : (state.1.contains (p.linkName owner path) ||
          others.contains (p.linkName owner path)) = true
      · rw [Bool.or_eq_true, List.contains_iff_mem, List.contains_iff_mem] at hold
        exact hold.imp_left fun hmem =>
          addLinks_mono others paths _ (addLink_subset others state path hmem)
      · rw [if_neg hold] at hlink
        refine .inl (addLinks_mono others paths _ ?_)
        rw [hlink]
        exact List.mem_append_right _ (List.mem_singleton_self _)
    · exact ih (fun other hother => hP other (List.mem_cons_of_mem _ hother)) (hp.trans hstep) hq
        hrest

/-- **Nothing lost, nothing reordered.**  Where none of the dependencies is crowded out, the links
are the wanted columns in the order of the dependencies. -/
theorem addLinks_eq_append (hready : p.IsReady build P) (howner : owner ∈ p.names)
    {paths : List PropertyPath} (hP : ∀ path ∈ paths, P path)
    {state : List String × Linking} (hp : Grown build p state.2.pool)
    (hq : Grown build (addLinks build owner [] paths state).2.pool q)
    (hkept : AreKept p q owner paths)
    (hnodup : (state.1 ++ paths.map (p.linkName owner)).Nodup) :
    (addLinks build owner [] paths state).1 = state.1 ++ paths.map (p.linkName owner) := by
  induction paths generalizing state with
  | nil => rw [List.map_nil, List.append_nil]; rfl
  | cons path paths ih =>
    have hstep : Grown build state.2.pool (addLink build owner [] state path).2.pool :=
      (addLink_extended [] state path).grown
    rw [addLinks_cons] at hq ⊢
    have hlater : Grown build state.2.pool q :=
      hstep.trans ((addLinks_extended [] paths _).grown.trans hq)
    have hfound := resolve_of_not_isCrowded hready (hP path List.mem_cons_self) howner hp hlater
      (hkept path List.mem_cons_self)
    have hnew : p.linkName owner path ∉ state.1 := by
      intro hmem
      rw [List.nodup_append] at hnodup
      exact hnodup.2.2 _ hmem _ List.mem_cons_self rfl
    have hlink : (addLink build owner [] state path).1 = state.1 ++ [p.linkName owner path] := by
      rw [addLink_of_resolve [] hfound, if_neg]
      rw [Bool.or_eq_true, List.contains_iff_mem, List.contains_iff_mem]
      exact fun hold => hold.elim hnew List.not_mem_nil
    rw [ih (fun other hother => hP other (List.mem_cons_of_mem _ hother)) (hp.trans hstep) hq
        (fun other hother => hkept other (List.mem_cons_of_mem _ hother)), hlink, List.map_cons,
      List.append_assoc, List.singleton_append]
    rw [hlink, List.append_assoc, List.singleton_append, ← List.map_cons]
    exact hnodup

end Linking

/-! ### What is lost -/

namespace Columns

/-- Columns of distinct names and keys, among which are those of a pool. -/
structure Include (columns : Columns) (q : ColumnPool) : Prop extends columns.AreDistinct where
  exists_column : ∀ e ∈ q.entries, ∃ c ∈ columns,
    c.key = e.column.key ∧ c.name = e.name ∧ c.relativePath = e.column.relativePath

variable {columns : Columns} {q : ColumnPool} {path : PropertyPath} {name : String}

theorem Include.isCrowded (h : columns.Include q) (hq : Columns.IsCrowded q.columns path name) :
    columns.IsCrowded path name := by
  rw [ColumnPool.isCrowded_iff] at hq
  intro key hkey
  obtain ⟨e, he, hekey, hename⟩ := hq key hkey
  obtain ⟨c, hc, hckey, hcname, -⟩ := h.exists_column e he
  exact ⟨c, hc, hckey.trans hekey, hcname ▸ hename⟩

theorem Include.shows (h : columns.Include q) (hq : Columns.Shows q.columns path name) :
    columns.Shows path name := by
  obtain ⟨b, hb, hname, hpath⟩ := hq
  obtain ⟨e, he, rfl⟩ := List.mem_map.1 hb
  obtain ⟨c, hc, -, hcname, hcpath⟩ := h.exists_column e he
  exact ⟨c, hc, hcname.trans hname, hcpath.trans hpath⟩

/-- The column of a name shows one property only. -/
theorem Include.path_unique (h : columns.Include q) {other : PropertyPath}
    (ha : columns.Shows path name) (hb : columns.Shows other name) : path = other := by
  obtain ⟨c, hc, hcname, hcpath⟩ := ha
  obtain ⟨d, hd, hdname, hdpath⟩ := hb
  have hsame : c = d := h.toAreDistinct.eq_of_name hc hd (hcname.trans hdname.symm)
  rw [hsame, hdpath] at hcpath
  exact (Option.some.inj hcpath).symm

end Columns

theorem ColumnPool.IsDistinct.include_self {q : ColumnPool} (hq : q.IsDistinct) :
    Columns.Include q.columns q where
  toAreDistinct := hq.columns
  exists_column := fun e he => ⟨e.linkedColumn, List.mem_map_of_mem he, rfl, rfl, rfl⟩

namespace ColumnPool.IsReady

open Linking

variable {p : ColumnPool} {build : HiddenColumn → Option Column} {P : PropertyPath → Prop}
variable {columns : Columns} {c d : PooledColumn}

/-- A wanted column that is there shows the property. -/
theorem shows_of_wanted (h : p.IsReady build P) (hcolumns : columns.Include (p.link build).pool)
    {owner : String} {path : PropertyPath} (hpath : P path)
    (hmem : p.linkName owner path ∈ (p.link build).pool.names) :
    columns.Shows path (p.linkName owner path) := by
  obtain ⟨e, he, hname⟩ := List.mem_map.1 hmem
  obtain ⟨column, hcolumn, -, hcname, hcpath⟩ := hcolumns.exists_column e he
  refine ⟨column, hcolumn, hcname.trans hname, ?_⟩
  rw [hcpath]
  exact (h.settled_of_wanted hpath he hname).1

/-- Links of an entry are names of the linked pool. -/
theorem mem_names_of_link (h : p.IsReady build P) (hc : c ∈ p.entries)
    (hlinked : LinkedFrom build p (p.link build).pool c d) {name : String}
    (hname : name ∈ d.links ∨ name ∈ d.additionalLinks) : name ∈ (p.link build).pool.names := by
  obtain ⟨hlinks, hadditional⟩ :=
    hlinked.links_subset (h.fresh.links c hc) (h.fresh.additionalLinks c hc)
  rcases hname with hmem | hmem
  · exact hlinks hmem
  · exact hadditional hmem

/-- A property that a link leads to is not crowded out. -/
theorem not_isCrowded_of_link (h : p.IsReady build P)
    (hcolumns : columns.Include (p.link build).pool) (hc : c ∈ p.entries)
    (hlinked : LinkedFrom build p (p.link build).pool c d) {path : PropertyPath} {name : String}
    (hname : name ∈ d.links ∨ name ∈ d.additionalLinks) (hshows : columns.Shows path name) :
    ¬ columns.IsCrowded path (p.linkName c.name path) := by
  obtain ⟨other, hother, hwanted⟩ := hlinked.wanted h.faithful (List.mem_map_of_mem hc)
    (h.fresh.links c hc) (h.fresh.additionalLinks c hc) hname
  have hP : P other :=
    hother.elim (fun hmem => (h.pending c hc).2 other hmem) (h.pendingAdditional c hc other)
  have hmem : name ∈ (p.link build).pool.names := h.mem_names_of_link hc hlinked hname
  have hsame : path = other := by
    refine hcolumns.path_unique hshows ?_
    rw [hwanted] at hmem ⊢
    exact h.shows_of_wanted hcolumns hP hmem
  subst hsame
  obtain ⟨e, he, hename⟩ := List.mem_map.1 hmem
  obtain ⟨column, hcolumn, hckey, hcname, -⟩ := hcolumns.exists_column e he
  exact h.not_isCrowded_of_mem hP he (hename.trans hwanted) hcolumns.toAreDistinct
    ⟨column, hcolumn, hckey, hcname⟩

/-- **Shown dependencies.**  Every shown dependency is linked at its place, exactly if none of them
is crowded out. -/
theorem shown_iff (h : p.IsReady build P) (hcolumns : columns.Include (p.link build).pool)
    (hc : c ∈ p.entries) (hlinked : LinkedFrom build p (p.link build).pool c d) :
    c.pending.Forall₂ columns.Shows d.links ↔
      ∀ path ∈ c.pending, ¬ columns.IsCrowded path (p.linkName c.name path) := by
  obtain ⟨hnodup, hP⟩ := h.pending c hc
  have hlinks := h.fresh.links c hc
  have hname : c.name ∈ p.names := List.mem_map_of_mem hc
  constructor
  · intro hall path hpath
    obtain ⟨name, hmem, hshows⟩ := exists_of_forall₂ hall.flip hpath
    exact h.not_isCrowded_of_link hcolumns hc hlinked (.inl hmem) hshows
  · intro hkept
    have hwanted : d.links = c.pending.map (p.linkName c.name) := by
      obtain ⟨l, -, hto, hfrom, rfl⟩ := hlinked
      have hlater : Grown build (addLinks build c.name [] c.pending (c.links, l)).2.pool
          (p.link build).pool := (loadedLinks_extended_shown build l c).grown.trans hfrom
      have hstart : Grown build p (c.links, l).2.pool := hto
      have happend := addLinks_eq_append h hname hP hstart hlater
        (fun path hpath hcrowded => hkept path hpath (hcolumns.isCrowded hcrowded)) (by
          rw [hlinks, List.nil_append]
          exact hnodup.map_on fun a ha b hb heq =>
            h.wanted_injective (hP a ha) (hP b hb) heq)
      show (addLinks build c.name [] c.pending (c.links, l)).1 = _
      rw [happend]
      show c.links ++ _ = _
      rw [hlinks, List.nil_append]
    rw [hwanted, List.forall₂_map_right_iff, List.forall₂_same]
    intro path hpath
    have hmem : p.linkName c.name path ∈ d.links := by
      rw [hwanted]
      exact List.mem_map_of_mem hpath
    exact h.shows_of_wanted hcolumns (hP path hpath) (h.mem_names_of_link hc hlinked (.inl hmem))

/-- **Loaded dependencies.**  A loaded dependency is linked, exactly if it is not crowded out. -/
theorem loaded_iff (h : p.IsReady build P) (hcolumns : columns.Include (p.link build).pool)
    (hc : c ∈ p.entries) (hlinked : LinkedFrom build p (p.link build).pool c d)
    {path : PropertyPath} (hpath : path ∈ c.pendingAdditional) :
    (∃ name, (name ∈ d.links ∨ name ∈ d.additionalLinks) ∧ columns.Shows path name) ↔
      ¬ columns.IsCrowded path (p.linkName c.name path) := by
  have hname : c.name ∈ p.names := List.mem_map_of_mem hc
  have hP := h.pendingAdditional c hc
  constructor
  · rintro ⟨name, hmem, hshows⟩
    exact h.not_isCrowded_of_link hcolumns hc hlinked hmem hshows
  · intro hkept
    have hwanted : p.linkName c.name path ∈ d.links ∨
        p.linkName c.name path ∈ d.additionalLinks := by
      obtain ⟨l, -, hto, hfrom, rfl⟩ := hlinked
      have hstart : Grown build p (c.additionalLinks, (shownLinks build l c).2).2.pool :=
        hto.trans (addLinks_extended [] c.pending (c.links, l)).grown
      exact (addLinks_keeps h hname hP hstart hfrom hpath
        (fun hcrowded => hkept (hcolumns.isCrowded hcrowded))).symm
    exact ⟨p.linkName c.name path, hwanted, h.shows_of_wanted hcolumns (hP path hpath)
      (h.mem_names_of_link hc hlinked hwanted)⟩

/-! ### When nothing is lost -/

/-- The columns of a linked pool that are not those of records, by name and key. -/
theorem name_and_key (h : p.IsReady build P) {e : PooledColumn}
    (he : e ∈ (p.link build).pool.entries) :
    (∃ c ∈ p.entries, c.origin = .lineItem ∧ e.column = c.column) ∨
    ∃ path, P path ∧ ((e.name = path ∧ e.column.key = propertyKey path) ∨
      (e.name = propertyAlias path ∧ path ∈ (p.link build).pool.names ∧
        (e.column.key = propertyKey path ∨ e.column.key = propertyKey (propertyAlias path)))) := by
  rcases h.fresh.distinct.link_cases he with ⟨c, hc, hlinked⟩ | ⟨column, hanswers, rfl⟩
  · have hcolumn : e.column = c.column := congrArg (·.1) hlinked.core_eq
    by_cases horigin : c.origin = .lineItem
    · exact .inl ⟨c, hc, horigin, hcolumn⟩
    · obtain ⟨hP, hkey, -⟩ := h.served c hc horigin
      exact .inr ⟨c.name, hP, .inl ⟨hlinked.name_eq, by rw [hcolumn, hkey]⟩⟩
  · obtain ⟨hidden, hbuild, hnames, hkeys⟩ := hanswers
    have hP : P hidden.path := h.of_build hbuild
    have hname : (.related column : PooledColumn).name = hidden.name := h.faithful.name hbuild
    have hkey : (.related column : PooledColumn).column.key = hidden.key := h.faithful.key hbuild
    refine .inr ⟨hidden.path, hP, ?_⟩
    rw [hname, hkey]
    rcases hnames with heq | ⟨heq, hmem⟩
    · refine .inl ⟨heq, ?_⟩
      rw [heq] at hkeys
      exact hkeys.elim id id
    · refine .inr ⟨heq, hmem, ?_⟩
      rw [heq] at hkeys
      exact hkeys

/-- **Nothing is crowded out** where paths are made of clean names of which none is `Property`. -/
theorem not_isCrowded (h : p.IsReady build P)
    (hrecord : ∀ c ∈ p.entries, c.origin = .lineItem →
      ¬ propertyMark.toList <+: c.column.key.toList)
    (hplain : ∀ path, P path → IsPlainPath path ∧ "Property" ∉ Text.split '/' path)
    (owner : String) {path : PropertyPath} (hpath : P path) :
    ¬ Columns.IsCrowded (p.link build).pool.columns path (p.linkName owner path) := by
  have hdistinct : (p.link build).pool.IsDistinct := (link_spec build h.fresh.distinct).1
  have hmarked : ∀ name, propertyMark.toList <+: (propertyKey name).toList := by
    intro name
    rw [propertyKey, String.toList_append]
    exact List.prefix_append _ _
  have hnever : ∀ {a b}, P a → P b → propertyKey (propertyAlias a) ≠ propertyKey b :=
    fun ha hb => propertyKey_propertyAlias_ne (hplain _ ha).1 (hplain _ hb).1 (hplain _ hb).2
  intro hcrowded
  rw [isCrowded_iff] at hcrowded
  rcases wanted_cases p owner path with hwanted | hwanted
  · -- the key of the path is held by another column
    obtain ⟨e, he, hkey, hname⟩ := hcrowded (propertyKey path) (List.mem_pair.2 (.inl rfl))
    rw [hwanted] at hname
    rcases h.name_and_key he with
      ⟨c, hc, horigin, hcolumn⟩ | ⟨other, hP, ⟨hename, hekey⟩ | ⟨hename, hmem, hekey | hekey⟩⟩
    · refine hrecord c hc horigin ?_
      rw [← hcolumn, hkey]
      exact hmarked path
    · rw [hekey] at hkey
      have hsame := propertyKey_injective (hplain _ hP).1 (hplain _ hpath).1 hkey
      exact hname (hename.trans hsame)
    · rw [hekey] at hkey
      obtain rfl := propertyKey_injective (hplain _ hP).1 (hplain _ hpath).1 hkey
      -- the path is a name by now, and its column has the key as well
      obtain ⟨f, hf, hfname⟩ := List.mem_map.1 hmem
      have hfkey : f.column.key = propertyKey other := by
        have hsettled := (h.settled_of_wanted hP hf (hfname.trans hwanted.symm)).2
        rw [hfname] at hsettled
        exact hsettled.elim id id
      have hsame : e = f := hdistinct.eq_of_key he hf (hekey.trans hfkey.symm)
      exact hname (hsame ▸ hfname)
    · exact hnever hP hpath (hekey.symm.trans hkey)
  · -- the key of the second name is held by another column
    obtain ⟨e, he, hkey, hname⟩ :=
      hcrowded (propertyKey (p.linkName owner path)) (List.mem_pair.2 (.inr rfl))
    rw [hwanted] at hkey hname
    rcases h.name_and_key he with
      ⟨c, hc, horigin, hcolumn⟩ | ⟨other, hP, ⟨-, hekey⟩ | ⟨hename, -, hekey | hekey⟩⟩
    · refine hrecord c hc horigin ?_
      rw [← hcolumn, hkey]
      exact hmarked _
    · exact hnever hpath hP (hkey.symm.trans hekey)
    · exact hnever hpath hP (hkey.symm.trans hekey)
    · rw [hekey] at hkey
      have hsame := propertyKey_propertyAlias_injective (hplain _ hP).1 (hplain _ hpath).1 hkey
      exact hname (hename.trans (congrArg propertyAlias hsame))

end ColumnPool.IsReady

end TableCompiler
