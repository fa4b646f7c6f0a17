import TableCompiler.Proofs.Column.Linking
import TableCompiler.Proofs.Column.Runs

/-!
# Arenas as pools

Whoever takes the columns out of an arena sees names in place of places.  So seen an arena is a pool,
and what is done to the one is done to the other: both take in the same columns, ask for the same
hidden ones and link the same dependencies.

* `ColumnArena.pool`, `ArenaLinking.view` — an arena with the names that stand at its places;
* `ColumnArena.IsSound.insert_view` — insertions agree, and what is looked up;
* `ArenaLinking.resolve_view`, `ArenaLinking.link_view`, `ArenaLinking.linkAt_view` — linking one
  property, one entry;
* `ColumnArena.IsSound.link_view` — and all of them;
* `ColumnArena.columns_pool` — the columns that are taken out are the same.
-/

namespace TableCompiler

namespace ColumnArena

/-- The arena as a pool: a place becomes the name of the column that stands there. -/
def pool (a : ColumnArena) : ColumnPool where
  entries := a.entries.map (·.mapLinks a.nameAt)
  textOnly := a.textOnly
  units := a.units

theorem columns_pool (a : ColumnArena) : a.pool.columns = a.columns := by
  rw [ColumnPool.columns, pool, List.map_map]
  rfl

theorem names_pool (a : ColumnArena) : a.pool.names = a.names := by
  rw [ColumnPool.names, pool, List.map_map]
  rfl

theorem keys_pool (a : ColumnArena) : a.pool.keys = a.columnKeys := by
  rw [ColumnPool.keys, pool, List.map_map]
  rfl

variable {a b : ColumnArena} {i j : Nat} {c : ColumnEntry Nat}

/-! ### Names at places -/

theorem nameAt_of_getElem? (hc : a.entries[i]? = some c) : a.nameAt i = c.name := by
  rw [nameAt, hc]

theorem nameAt_eq (a : ColumnArena) (i : Nat) : a.nameAt i = a.names[i]?.getD "" := by
  rw [nameAt, names, List.getElem?_map]
  cases a.entries[i]? <;> rfl

/-- What is kept keeps its name. -/
theorem Keeps.nameAt (h : a.Keeps b) (hi : i < a.entries.length) : b.nameAt i = a.nameAt i := by
  have hc := List.getElem?_eq_getElem hi
  obtain ⟨d, hd, hcore, -⟩ := h i _ hc
  rw [nameAt_of_getElem? hc, nameAt_of_getElem? hd, ColumnEntry.name_eq_of_core hcore]

theorem Appends.keeps (h : a.Appends b) : a.Keeps b :=
  fun _ c hc => ⟨c, h.getElem? hc, rfl, fun _ => rfl⟩

theorem Keeps.map_nameAt (h : a.Keeps b) {links : List Nat}
    (hlinks : ∀ i ∈ links, i < a.entries.length) : links.map b.nameAt = links.map a.nameAt :=
  List.map_congr_left fun i hi => h.nameAt (hlinks i hi)

/-- Links have the same names in an arena that has grown. -/
theorem Keeps.mapLinks (h : a.Keeps b) (hc : c.LinksBelow a.entries.length) :
    c.mapLinks b.nameAt = c.mapLinks a.nameAt := by
  rw [ColumnEntry.mapLinks, ColumnEntry.mapLinks,
    h.map_nameAt fun i hi => hc.below i (List.mem_append_left _ hi),
    h.map_nameAt fun i hi => hc.below i (List.mem_append_right _ hi)]

/-- A place is known by its name. -/
theorem IsSound.nameAt_inj (h : a.IsSound) (hi : i < a.entries.length) (hj : j < a.entries.length)
    (heq : a.nameAt i = a.nameAt j) : i = j := by
  have hlength : a.names.length = a.entries.length := List.length_map _
  rw [nameAt_eq, nameAt_eq, List.getElem?_eq_getElem (hlength.symm ▸ hi),
    List.getElem?_eq_getElem (hlength.symm ▸ hj)] at heq
  exact (h.names.getElem_inj_iff).1 heq

theorem IsSound.contains_map_nameAt (h : a.IsSound) {links : List Nat}
    (hlinks : ∀ i ∈ links, i < a.entries.length) (hi : i < a.entries.length) :
    (links.map a.nameAt).contains (a.nameAt i) = links.contains i := by
  rw [Bool.eq_iff_iff, List.contains_iff_mem, List.contains_iff_mem, List.mem_map]
  constructor
  · rintro ⟨j, hj, heq⟩
    exact h.nameAt_inj (hlinks j hj) hi heq ▸ hj
  · exact fun hmem => ⟨i, hmem, rfl⟩

/-! ### Looking up and inserting -/

theorem IsSound.isDistinct_pool (h : a.IsSound) : a.pool.IsDistinct :=
  ⟨a.names_pool ▸ h.names, a.keys_pool ▸ h.columnKeys⟩

theorem IsSound.containsName_pool (h : a.IsSound) (name : String) :
    a.pool.containsName name = a.containsName name := by
  rw [Bool.eq_iff_iff, ColumnPool.containsName_iff, h.containsName_iff, names_pool]

theorem IsSound.containsKey_pool (h : a.IsSound) (key : String) :
    a.pool.containsKey key = a.keys.contains key := by
  rw [Bool.eq_iff_iff, ColumnPool.containsKey_iff, h.keys, keys_pool]

/-- The entry that a pool finds under a name is the one at the place that the table has. -/
theorem IsSound.entry?_pool (h : a.IsSound) (hc : a.entries[i]? = some c) :
    a.pool.entry? c.name = some (c.mapLinks a.nameAt) := by
  have hmem : c.mapLinks a.nameAt ∈ a.pool.entries :=
    List.mem_map_of_mem (List.mem_of_getElem? hc)
  cases hentry : a.pool.entry? c.name with
  | none => exact absurd (List.mem_map_of_mem hmem) (ColumnPool.entry?_eq_none.1 hentry)
  | some d =>
    obtain ⟨hd, hname⟩ := ColumnPool.entry?_eq_some hentry
    rw [h.isDistinct_pool.eq_of_name hd hmem hname]

/-- **Insertions agree**: both take the column in, or both refuse it. -/
theorem IsSound.insert_view (h : a.IsSound) (column : Column) (origin : ColumnOrigin)
    (r : RelatedProperties) :
    (a.insert column origin r = (some a.entries.length, a.push column origin r) ∧
      (a.push column origin r).pool = a.pool.push column origin r ∧
      a.pool.insert? column origin r = some (a.pool.push column origin r)) ∨
    (a.insert column origin r = (none, a) ∧ a.pool.insert? column origin r = none) := by
  rcases h.insert_cases column origin r with ⟨hname, hkey, heq⟩ | ⟨htaken, heq⟩
  · refine .inl ⟨heq, ?_, ?_⟩
    · have hkeeps : a.Keeps (a.push column origin r) := by
        have hkeeps := h.keeps_insert column origin r
        rwa [heq] at hkeeps
      have hold : a.entries.map (·.mapLinks (a.push column origin r).nameAt) =
          a.entries.map (·.mapLinks a.nameAt) :=
        List.map_congr_left fun c hc => hkeeps.mapLinks (h.linked c hc)
      rw [pool, ColumnPool.push, pool]
      congr 1
      rw [← hold, ColumnArena.push, List.map_append]
      rfl
    · rw [ColumnPool.insert?_eq_some_iff, names_pool, keys_pool]
      exact ⟨hname, hkey, rfl⟩
  · refine .inr ⟨heq, ?_⟩
    rw [ColumnPool.insert?_eq_none_iff, names_pool, keys_pool]
    exact htaken

theorem IsSound.pool_insert (h : a.IsSound) (column : Column) (origin : ColumnOrigin)
    (r : RelatedProperties) :
    (a.insert column origin r).2.pool = a.pool.insert column origin r := by
  rw [ColumnPool.insert]
  rcases h.insert_view column origin r with ⟨heq, hpush, hpool⟩ | ⟨heq, hpool⟩
  · rw [heq, hpool]
    exact hpush
  · rw [heq, hpool]
    rfl

/-! ### The column that a dependency needs -/

/-- **Needs agree.**  A column at another place has another name. -/
theorem IsSound.linkName_pool (h : a.IsSound) (hc : a.entries[i]? = some c)
    (path : PropertyPath) : a.pool.linkName c.name path = a.linkName i path := by
  rw [ColumnPool.linkName, linkName]
  cases hplace : a.byName.get? path with
  | none =>
    have hnone : a.pool.entry? path = none := by
      rw [ColumnPool.entry?_eq_none, names_pool]
      exact h.get?_eq_none_iff.1 hplace
    rw [hnone]
  | some host =>
    obtain ⟨d, hd, rfl⟩ := h.exists_of_get? hplace
    have hother : (d.name != c.name) = (host != i) := by
      rw [Bool.eq_iff_iff, bne_iff_ne, bne_iff_ne, not_iff_not, ← nameAt_of_getElem? hd,
        ← nameAt_of_getElem? hc]
      exact ⟨h.nameAt_inj (List.getElem?_eq_some_iff.1 hd).1 (List.getElem?_eq_some_iff.1 hc).1,
        congrArg _⟩
    have hserves : PooledColumn.canServe (d.mapLinks a.nameAt) c.name = a.canHost i host := by
      show ((d.name != c.name) && !d.isComposite && d.origin != .lineItem) = _
      rw [canHost, hd, hother, Bool.and_assoc]
      rfl
    rw [h.entry?_pool hd]
    dsimp only
    rw [hserves]

theorem IsSound.hiddenColumn_pool (h : a.IsSound) (path : PropertyPath) (name : String) :
    a.pool.hiddenColumn path name = a.hiddenColumn path name := by
  rw [ColumnPool.hiddenColumn, hiddenColumn, h.containsKey_pool]
  rfl

end ColumnArena

/-! ### Linking -/

namespace ArenaLinking

open ColumnArena (Appends)

/-- A linking of an arena as that of a pool. -/
def view (l : ArenaLinking) : Linking := ⟨l.arena.pool, l.asked⟩

/-- Links that were found so far, as names. -/
def viewLinks (state : List Nat × ArenaLinking) : List String × Linking :=
  (state.1.map state.2.arena.nameAt, state.2.view)

variable {l : ArenaLinking} {c : ColumnEntry Nat} {i : Nat}

/-- **Linking one property.**  The column that is found, and the one that is asked for, is the
same. -/
theorem resolve_view (build : HiddenColumn → Option Column) (hl : l.arena.IsSound)
    (hc : l.arena.entries[i]? = some c) (path : PropertyPath) :
    Linking.resolve build c.name path l.view =
      ((resolve (fun _ => build) i path l).1.map
          (resolve (fun _ => build) i path l).2.arena.nameAt,
        (resolve (fun _ => build) i path l).2.view) := by
  have hname : l.view.pool.linkName c.name path = l.arena.linkName i path :=
    hl.linkName_pool hc path
  have htaken : l.view.pool.containsName (l.arena.linkName i path) =
      l.arena.containsName (l.arena.linkName i path) := hl.containsName_pool _
  have hhidden : l.view.pool.hiddenColumn path (l.arena.linkName i path) =
      l.arena.hiddenColumn path (l.arena.linkName i path) := hl.hiddenColumn_pool path _
  simp only [Linking.resolve, hname, htaken, hhidden]
  rcases resolve_cases (fun _ => build) i path l with
    ⟨place, hplace, heq⟩ | ⟨hplace, hidden, rfl, ⟨hbuild, heq⟩ | ⟨column, hbuild, heq⟩⟩
  · obtain ⟨d, hd, hdname⟩ := hl.exists_of_get? hplace
    rw [heq, ColumnArena.containsName, Dictionary.contains, hplace, Option.isSome_some, if_pos rfl,
      Option.map_some, ColumnArena.nameAt_of_getElem? hd, hdname]
  · rw [heq, ColumnArena.containsName, Dictionary.contains, hplace, Option.isSome_none,
      if_neg Bool.false_ne_true, hbuild]
    rfl
  · rw [heq, ColumnArena.containsName, Dictionary.contains, hplace, Option.isSome_none,
      if_neg Bool.false_ne_true, hbuild]
    dsimp only
    rcases hl.insert_view column .related {} with ⟨hinsert, hpush, hpool⟩ | ⟨hinsert, hpool⟩
    · have hnew : (l.arena.push column .related {}).entries[l.arena.entries.length]? =
          some (.related column) := List.getElem?_concat_length
      rw [hinsert, view, hpool]
      dsimp only
      rw [Option.map_some, ColumnArena.nameAt_of_getElem? hnew, view, hpush]
      rfl
    · rw [hinsert, view, hpool]
      rfl

/-- A step of linking adds the same column. -/
theorem addFound_view (build : HiddenColumn → Option Column) {a : ColumnArena} {others : List Nat}
    {state : List Nat × ArenaLinking} (h : Finds a state) (hc : a.entries[i]? = some c)
    (hothers : ∀ j ∈ others, j < a.entries.length) (path : PropertyPath) :
    addFound (Linking.resolve build c.name) (others.map a.nameAt) (viewLinks state) path =
      viewLinks (addFound (resolve (fun _ => build) i) others state path) := by
  obtain ⟨happends, hsound, hplace⟩ := resolve_sound (fun _ => build) i path h.sound
  have hbelow := fun j hj => Nat.lt_of_lt_of_le (h.below j hj) happends.length_le
  have hamong := fun j hj =>
    Nat.lt_of_lt_of_le (hothers j hj) (h.appends.trans happends).length_le
  -- links that were found before go by the names of the arena after the step
  rw [addFound, addFound, viewLinks, resolve_view build h.sound (h.appends.getElem? hc) path,
    ← happends.keeps.map_nameAt h.below,
    ← (h.appends.trans happends).keeps.map_nameAt hothers]
  generalize resolve (fun _ => build) i path state.2 = found at *
  obtain ⟨place?, m⟩ := found
  cases place? with
  | none => rfl
  | some place =>
    have hi := hplace place rfl
    dsimp only [Option.map_some]
    rw [hsound.contains_map_nameAt hbelow hi, hsound.contains_map_nameAt hamong hi]
    split
    · rfl
    · rw [viewLinks, List.map_append]
      rfl

theorem foldl_addFound_view (build : HiddenColumn → Option Column) {a : ColumnArena}
    {others : List Nat} (hc : a.entries[i]? = some c)
    (hothers : ∀ j ∈ others, j < a.entries.length) (paths : List PropertyPath)
    {state : List Nat × ArenaLinking} (h : Finds a state) :
    paths.foldl (addFound (Linking.resolve build c.name) (others.map a.nameAt))
        (viewLinks state) =
      viewLinks (paths.foldl (addFound (resolve (fun _ => build) i) others) state) := by
  induction paths generalizing state with
  | nil => rfl
  | cons path paths ih =>
    rw [List.foldl_cons, List.foldl_cons, addFound_view build h hc hothers path]
    exact ih (h.step _ i others path)

/-- **Linking one entry.**  It gets the same links, and the same hidden columns are added. -/
theorem link_view (build : HiddenColumn → Option Column) (hl : l.arena.IsSound)
    (hc : l.arena.entries[i]? = some c) :
    (c.mapLinks l.arena.nameAt).link (Linking.resolve build c.name) l.view =
      ((c.link (resolve (fun _ => build) i) l).1.mapLinks
          (c.link (resolve (fun _ => build) i) l).2.arena.nameAt,
        (c.link (resolve (fun _ => build) i) l).2.view) := by
  have hmem := List.mem_of_getElem? hc
  have hshown := finds_shown (fun _ => build) i hl hmem
  have hloaded := finds_loaded (fun _ => build) i hl hmem
  have hshownView : (c.mapLinks l.arena.nameAt).shown (Linking.resolve build c.name) l.view =
      viewLinks (c.shown (resolve (fun _ => build) i) l) :=
    foldl_addFound_view build hc (fun _ h => (List.not_mem_nil h).elim) c.pending
      (finds_links hl hmem)
  have hloadedView : (c.mapLinks l.arena.nameAt).loaded (Linking.resolve build c.name) l.view =
      viewLinks (c.loaded (resolve (fun _ => build) i) l) := by
    rw [ColumnEntry.loaded, hshownView]
    refine Eq.trans ?_ (foldl_addFound_view build (hshown.appends.getElem? hc) hshown.below
      c.pendingAdditional (finds_additionalLinks (fun _ => build) i hl hmem))
    rw [viewLinks, viewLinks, hshown.appends.keeps.map_nameAt fun j hj =>
      (hl.linked c hmem).below j (List.mem_append_right _ hj)]
    rfl
  rw [ColumnEntry.link_eq, hshownView, hloadedView, ColumnEntry.link_eq]
  refine Prod.ext ?_ rfl
  rw [viewLinks, viewLinks, ← hloaded.appends.keeps.map_nameAt hshown.below]
  rfl

/-- An entry that takes the place of one with its core takes that of its name. -/
theorem set_view {d : ColumnEntry Nat} (hl : l.arena.IsSound)
    (hc : l.arena.entries[i]? = some c) (hcore : d.core = c.core) :
    (l.set i d).view = l.view.replace (d.mapLinks l.arena.nameAt) := by
  have hnames : (l.set i d).arena.names = l.arena.names := by
    rw [ColumnArena.names_eq_cores, set, ColumnArena.cores_set hc hcore,
      ← ColumnArena.names_eq_cores]
  have hnameAt : (l.set i d).arena.nameAt = l.arena.nameAt := by
    funext j
    rw [ColumnArena.nameAt_eq, ColumnArena.nameAt_eq, hnames]
  obtain ⟨hi, hget⟩ := List.getElem?_eq_some_iff.1 hc
  have hentries : l.view.pool.entries =
      (l.arena.entries.take i).map (·.mapLinks l.arena.nameAt) ++
        c.mapLinks l.arena.nameAt ::
          (l.arena.entries.drop (i + 1)).map (·.mapLinks l.arena.nameAt) := by
    rw [← List.map_cons, ← List.map_append, ← hget, ← List.drop_eq_getElem_cons hi,
      List.take_append_drop]
    rfl
  have hreplaced : (l.view.replace (d.mapLinks l.arena.nameAt)).pool.entries =
      (l.arena.entries.set i d).map (·.mapLinks l.arena.nameAt) := by
    rw [Linking.entries_replace hl.isDistinct_pool hentries hcore,
      List.set_eq_take_append_cons_drop, if_pos hi, List.map_append, List.map_cons]
  have hpool : (l.set i d).arena.pool = { l.arena.pool with
      entries := (l.view.replace (d.mapLinks l.arena.nameAt)).pool.entries } := by
    rw [ColumnArena.pool, hnameAt, hreplaced]
    rfl
  rw [view, hpool]
  rfl

theorem linkAt_view (build : HiddenColumn → Option Column) (hl : l.arena.IsSound)
    (hc : l.arena.entries[i]? = some c) :
    (l.linkAt (fun _ => build) i).view =
      Linking.linkEntry build l.view (c.mapLinks l.arena.nameAt) := by
  obtain ⟨happends, hsound, -⟩ := link_spec (fun _ => build) i hl (List.mem_of_getElem? hc)
  rw [linkAt_eq _ hc, set_view hsound (happends.getElem? hc) (ColumnEntry.core_link ..)]
  show _ = (((c.mapLinks l.arena.nameAt).link (Linking.resolve build c.name) l.view).2.replace
    ((c.mapLinks l.arena.nameAt).link (Linking.resolve build c.name) l.view).1)
  rw [link_view build hl hc]

/-- **Linking from a place on**, over entries behind which hidden columns stand. -/
theorem foldl_linkAt_view (build : HiddenColumn → Option Column) (todo : List (ColumnEntry Nat))
    {front hidden : List (ColumnEntry Nat)} (hl : l.arena.IsSound)
    (hentries : l.arena.entries = front ++ (todo ++ hidden)) :
    ((List.range' front.length todo.length).foldl (linkAt fun _ => build) l).view =
      (todo.map (·.mapLinks l.arena.nameAt)).foldl (Linking.linkEntry build) l.view := by
  induction todo generalizing front hidden l with
  | nil => rfl
  | cons c todo ih =>
    rw [List.cons_append] at hentries
    obtain ⟨hc, hstep, added, hnext⟩ := linkAt_front (fun _ => build) hl hentries
    rw [List.append_assoc todo] at hnext
    have hnames : todo.map (·.mapLinks (l.linkAt (fun _ => build) front.length).arena.nameAt) =
        todo.map (·.mapLinks l.arena.nameAt) := by
      refine List.map_congr_left fun d hd => hstep.keeps.mapLinks (hl.linked d ?_)
      rw [hentries]
      exact List.mem_append_right _ (List.mem_append_left _ (List.mem_cons_of_mem _ hd))
    have hrun := ih hstep.sound hnext
    rw [List.length_append, List.length_singleton, hnames, linkAt_view build hl hc] at hrun
    exact hrun

end ArenaLinking

namespace ColumnArena

/-- **Linkings agree**: they leave the same columns with the same links, and ask for the same hidden
ones. -/
theorem IsSound.link_view {a : ColumnArena} (ha : a.IsSound)
    (build : HiddenColumn → Option Column) :
    (a.link fun _ => build).view = a.pool.link build := by
  have hentries : a.entries = [] ++ (a.entries ++ []) := by
    rw [List.append_nil, List.nil_append]
  rw [link, List.range_eq_range']
  exact ArenaLinking.foldl_linkAt_view build a.entries (l := ⟨a, []⟩) ha hentries

/-- A linked arena is that of a linked pool. -/
theorem IsSound.pool_link {a : ColumnArena} (ha : a.IsSound)
    (build : HiddenColumn → Option Column) :
    (a.link fun _ => build).arena.pool = (a.pool.link build).pool :=
  congrArg Linking.pool (ha.link_view build)

end ColumnArena

end TableCompiler
