import TableCompiler.Proofs.Column.Linking

/-!
# References between the columns of a pool

The links of a linked pool are names of its columns and are not repeated.  As long as no column
goes by the second name of a property before the linking, a link leads to a column that was
inserted without properties that it shows, so links are one level deep.

* `ColumnPool.IsFresh` — a pool in which nothing is linked yet;
* `IsFaithful` — hidden columns are the ones that were asked for;
* `ColumnPool.linkName_ne_owner`, `ColumnPool.exists_host_of_linkName_mem` — which column is wanted;
* `ColumnPool.IsFresh.link_closed`, `ColumnPool.IsFresh.link_nodup` — links of a linked pool;
* `ColumnPool.IsFresh.link_flat` — where they lead.
-/

namespace TableCompiler

/-- A hidden column goes by the name and the key that were asked for, and shows the property. -/
structure IsFaithful (build : HiddenColumn → Option Column) : Prop where
  name : ∀ {hidden column}, build hidden = some column → column.name = hidden.name
  key : ∀ {hidden column}, build hidden = some column → column.key = hidden.key
  relativePath : ∀ {hidden column}, build hidden = some column →
    column.relativePath = some hidden.path

namespace ColumnPool

/-- A pool in which nothing is linked yet. -/
structure IsFresh (p : ColumnPool) : Prop where
  distinct : p.IsDistinct
  links : ∀ e ∈ p.entries, e.links = []
  additionalLinks : ∀ e ∈ p.entries, e.additionalLinks = []
  isComposite : ∀ e ∈ p.entries, e.isComposite = !e.pending.isEmpty

/-- No column goes by the second name of a property. -/
def AvoidsAliases (p : ColumnPool) : Prop := ∀ path, propertyAlias path ∉ p.names

/-! ### The wanted column -/

section Wanted

variable {p : ColumnPool}

/-- The three ways to find the wanted column. -/
theorem linkName_cases (p : ColumnPool) (owner : String) (path : PropertyPath) :
    (path ∉ p.names ∧ p.linkName owner path = path) ∨
    (∃ host ∈ p.entries, host.name = path ∧ host.canServe owner = true ∧
      p.linkName owner path = path) ∨
    (∃ host ∈ p.entries, host.name = path ∧ host.canServe owner = false ∧
      p.linkName owner path = propertyAlias path) := by
  rw [linkName]
  cases hentry : p.entry? path with
  | none => exact .inl ⟨entry?_eq_none.1 hentry, rfl⟩
  | some host =>
    obtain ⟨hhost, hname⟩ := entry?_eq_some hentry
    cases hserve : host.canServe owner with
    | true => exact .inr (.inl ⟨host, hhost, hname, hserve, if_pos hserve⟩)
    | false =>
      refine .inr (.inr ⟨host, hhost, hname, hserve, if_neg ?_⟩)
      rw [hserve]
      exact Bool.false_ne_true

/-- No column wants itself. -/
theorem linkName_ne_owner (hp : p.AvoidsAliases) {owner : String} (howner : owner ∈ p.names)
    (path : PropertyPath) : p.linkName owner path ≠ owner := by
  rcases p.linkName_cases owner path with
    ⟨hnot, heq⟩ | ⟨host, -, hname, hserve, heq⟩ | ⟨host, -, -, -, heq⟩
  · rw [heq]
    rintro rfl
    exact hnot howner
  · rw [heq, ← hname]
    rw [PooledColumn.canServe, Bool.and_eq_true, Bool.and_eq_true, bne_iff_ne] at hserve
    exact hserve.1.1
  · rw [heq]
    rintro heq
    exact hp path (heq ▸ howner)

/-- A wanted column that is there was inserted without properties that it shows. -/
theorem exists_host_of_linkName_mem (hp : p.AvoidsAliases) {owner : String} {path : PropertyPath}
    (h : p.linkName owner path ∈ p.names) :
    ∃ host ∈ p.entries, host.name = p.linkName owner path ∧ host.isComposite = false := by
  rcases p.linkName_cases owner path with
    ⟨hnot, heq⟩ | ⟨host, hhost, hname, hserve, heq⟩ | ⟨host, -, -, -, heq⟩
  · rw [heq] at h
    exact (hnot h).elim
  · rw [PooledColumn.canServe, Bool.and_eq_true, Bool.and_eq_true, Bool.not_eq_true'] at hserve
    exact ⟨host, hhost, by rw [hname, heq], hserve.1.2⟩
  · rw [heq] at h
    exact (hp path h).elim

end Wanted

end ColumnPool

/-! ### The links of one column -/

namespace Linking

variable {build : HiddenColumn → Option Column} {owner : String}

/-- What is found under faithful answers is the wanted column. -/
theorem resolve_fst (hbuild : IsFaithful build) {l : Linking} {path : PropertyPath}
    {name : String} (h : (resolve build owner path l).1 = some name) :
    name = l.pool.linkName owner path := by
  rcases resolve_cases build owner path l with
    ⟨-, heq⟩ | ⟨-, asked, ⟨column, hcolumn, -, -, heq⟩ | ⟨heq, -⟩⟩
  · rw [heq] at h
    exact (Option.some.inj h).symm
  · rw [heq] at h
    rw [← Option.some.inj h, hbuild.name hcolumn]
    rfl
  · rw [heq] at h
    cases h

/-- Every added link is the wanted column of a property. -/
theorem addLinks_wanted (hbuild : IsFaithful build) {p : ColumnPool} (howner : owner ∈ p.names)
    (others : List String) (paths : List PropertyPath) {state : List String × Linking}
    (hgrown : ColumnPool.Grown build p state.2.pool) {name : String}
    (h : name ∈ (addLinks build owner others paths state).1) :
    name ∈ state.1 ∨ ∃ path ∈ paths, name = p.linkName owner path := by
  induction paths generalizing state with
  | nil => exact .inl h
  | cons path paths ih =>
    rw [addLinks_cons] at h
    have hstep : ColumnPool.Grown build p (addLink build owner others state path).2.pool :=
      hgrown.trans (addLink_extended others state path).grown
    rcases ih hstep h with hold | ⟨other, hother, heq⟩
    · rcases addLink_links others state path with hsame | ⟨found, hfound, -, -, hadded⟩
      · exact .inl (hsame ▸ hold)
      · rw [hadded, List.mem_append, List.mem_singleton] at hold
        rcases hold with hold | rfl
        · exact .inl hold
        · refine .inr ⟨path, List.mem_cons_self, ?_⟩
          rw [resolve_fst hbuild hfound, ColumnPool.linkName_eq_of_grown hgrown howner]
    · exact .inr ⟨other, List.mem_cons_of_mem _ hother, heq⟩

namespace LinkedFrom

variable {p q : ColumnPool} {c d : PooledColumn}

theorem core_eq (h : LinkedFrom build p q c d) : d.core = c.core := by
  obtain ⟨l, -, -, -, rfl⟩ := h
  rfl

theorem name_eq (h : LinkedFrom build p q c d) : d.name = c.name :=
  congrArg (fun core => core.1.name) h.core_eq

/-- Links are names of columns. -/
theorem links_subset (h : LinkedFrom build p q c d) (hlinks : c.links = [])
    (hadditional : c.additionalLinks = []) :
    d.links ⊆ q.names ∧ d.additionalLinks ⊆ q.names := by
  obtain ⟨l, -, -, hq, rfl⟩ := h
  have hshown : (shownLinks build l c).1 ⊆ (shownLinks build l c).2.pool.names := by
    refine addLinks_subset [] c.pending ?_
    rw [hlinks]
    exact List.nil_subset _
  have hloaded : (loadedLinks build l c).1 ⊆ (loadedLinks build l c).2.pool.names := by
    refine addLinks_subset _ c.pendingAdditional ?_
    rw [hadditional]
    exact List.nil_subset _
  have hlater : (shownLinks build l c).2.pool.names ⊆ (loadedLinks build l c).2.pool.names :=
    (loadedLinks_extended_shown build l c).grown.names_prefix.subset
  have hend := hq.names_prefix.subset
  exact ⟨List.Subset.trans (List.Subset.trans hshown hlater) hend, List.Subset.trans hloaded hend⟩

/-- No link is repeated, neither in one list nor across both. -/
theorem links_nodup (h : LinkedFrom build p q c d) (hlinks : c.links = [])
    (hadditional : c.additionalLinks = []) : (d.links ++ d.additionalLinks).Nodup := by
  obtain ⟨l, -, -, -, rfl⟩ := h
  exact ColumnEntry.IsFresh.nodup_link l ⟨hlinks, hadditional⟩

/-- Every link is the wanted column of a dependency. -/
theorem wanted (h : LinkedFrom build p q c d) (hbuild : IsFaithful build)
    (hname : c.name ∈ p.names) (hlinks : c.links = []) (hadditional : c.additionalLinks = [])
    {name : String} (hmem : name ∈ d.links ∨ name ∈ d.additionalLinks) :
    ∃ path, (path ∈ c.pending ∨ path ∈ c.pendingAdditional) ∧ name = p.linkName c.name path := by
  obtain ⟨l, -, hgrown, -, rfl⟩ := h
  rcases hmem with hmem | hmem
  · have hstart : ColumnPool.Grown build p (c.links, l).2.pool := hgrown
    rcases addLinks_wanted hbuild hname [] c.pending hstart hmem with hold | ⟨path, hpath, heq⟩
    · rw [hlinks] at hold
      cases hold
    · exact ⟨path, .inl hpath, heq⟩
  · have hshown : ColumnPool.Grown build p
        (c.additionalLinks, (shownLinks build l c).2).2.pool :=
      hgrown.trans (addLinks_extended [] c.pending (c.links, l)).grown
    rcases addLinks_wanted hbuild hname _ c.pendingAdditional hshown hmem with
      hold | ⟨path, hpath, heq⟩
    · rw [hadditional] at hold
      cases hold
    · exact ⟨path, .inr hpath, heq⟩

/-- A column without shown properties gets no links for them. -/
theorem links_eq_nil (h : LinkedFrom build p q c d) (hlinks : c.links = [])
    (hpending : c.pending = []) : d.links = [] := by
  obtain ⟨l, -, -, -, rfl⟩ := h
  show (addLinks build c.name [] c.pending (c.links, l)).1 = []
  rw [hpending, hlinks]
  rfl

end LinkedFrom

end Linking

/-! ### The links of a pool -/

namespace ColumnPool

open Linking

variable {build : HiddenColumn → Option Column} {p : ColumnPool}

theorem exists_of_forall₂ {α β : Type} {R : α → β → Prop} {xs : List α} {ys : List β}
    (h : xs.Forall₂ R ys) {y : β} (hy : y ∈ ys) : ∃ x ∈ xs, R x y := by
  induction h with
  | nil => cases hy
  | cons hxy _ ih =>
    rcases List.mem_cons.1 hy with rfl | hy
    · exact ⟨_, List.mem_cons_self, hxy⟩
    · obtain ⟨x, hx, hR⟩ := ih hy
      exact ⟨x, List.mem_cons_of_mem _ hx, hR⟩

/-- An entry of a linked pool was linked, or is a hidden column without dependencies. -/
theorem IsDistinct.link_cases (hp : p.IsDistinct) {d : PooledColumn}
    (hd : d ∈ (p.link build).pool.entries) :
    (∃ c ∈ p.entries, LinkedFrom build p (p.link build).pool c d) ∨
      ∃ column, Answers build (p.link build).pool.names column ∧ d = .related column := by
  obtain ⟨-, -, linked, added, hadded, hpool, hlinked⟩ := link_spec build hp
  have hmem := hd
  rw [hpool, List.mem_append, List.mem_map] at hmem
  rcases hmem with hmem | ⟨column, hcolumn, rfl⟩
  · exact .inl (exists_of_forall₂ hlinked hmem)
  · exact .inr ⟨column, hadded column hcolumn, rfl⟩

/-- Every entry is linked. -/
theorem IsDistinct.exists_linked (hp : p.IsDistinct) {c : PooledColumn} (hc : c ∈ p.entries) :
    ∃ d ∈ (p.link build).pool.entries, LinkedFrom build p (p.link build).pool c d := by
  obtain ⟨-, -, linked, added, -, hpool, hlinked⟩ := link_spec build hp
  obtain ⟨d, hd, hfrom⟩ := exists_of_forall₂ hlinked.flip hc
  refine ⟨d, ?_, hfrom⟩
  rw [hpool]
  exact List.mem_append_left _ hd

namespace IsFresh

/-- **Links lead to columns of the pool.** -/
theorem link_closed (hp : p.IsFresh) {d : PooledColumn} (hd : d ∈ (p.link build).pool.entries) :
    d.links ⊆ (p.link build).pool.names ∧ d.additionalLinks ⊆ (p.link build).pool.names := by
  rcases hp.distinct.link_cases hd with ⟨c, hc, hlinked⟩ | ⟨column, -, rfl⟩
  · exact hlinked.links_subset (hp.links c hc) (hp.additionalLinks c hc)
  · exact ⟨List.nil_subset _, List.nil_subset _⟩

/-- **No link is repeated.** -/
theorem link_nodup (hp : p.IsFresh) {d : PooledColumn} (hd : d ∈ (p.link build).pool.entries) :
    (d.links ++ d.additionalLinks).Nodup := by
  rcases hp.distinct.link_cases hd with ⟨c, hc, hlinked⟩ | ⟨column, -, rfl⟩
  · exact hlinked.links_nodup (hp.links c hc) (hp.additionalLinks c hc)
  · exact List.nodup_nil

/-- **Links are one level deep.**  They lead to other columns, and to such as show no properties. -/
theorem link_flat (hp : p.IsFresh) (hbuild : IsFaithful build) (halias : p.AvoidsAliases)
    {d e : PooledColumn} (hd : d ∈ (p.link build).pool.entries)
    (he : e ∈ (p.link build).pool.entries) (h : e.name ∈ d.links ∨ e.name ∈ d.additionalLinks) :
    e.name ≠ d.name ∧ e.links = [] := by
  rcases hp.distinct.link_cases hd with ⟨c, hc, hlinked⟩ | ⟨column, -, rfl⟩
  · have hname : c.name ∈ p.names := List.mem_map_of_mem hc
    obtain ⟨path, -, hwanted⟩ :=
      hlinked.wanted hbuild hname (hp.links c hc) (hp.additionalLinks c hc) h
    refine ⟨?_, ?_⟩
    · rw [hwanted, hlinked.name_eq]
      exact linkName_ne_owner halias hname path
    · rcases hp.distinct.link_cases he with ⟨c', hc', hlinked'⟩ | ⟨column, -, rfl⟩
      · -- the wanted column was there before the linking, so it can serve others
        have hmem : p.linkName c.name path ∈ p.names := by
          rw [← hwanted, hlinked'.name_eq]
          exact List.mem_map_of_mem hc'
        obtain ⟨host, hhost, hhostName, hplain⟩ := exists_host_of_linkName_mem halias hmem
        have heq : host = c' := by
          refine hp.distinct.eq_of_name hhost hc' ?_
          rw [hhostName, ← hwanted, hlinked'.name_eq]
        refine hlinked'.links_eq_nil (hp.links c' hc') ?_
        rw [← heq]
        rw [hp.isComposite host hhost, Bool.not_eq_false', List.isEmpty_iff] at hplain
        exact hplain
      · rfl
  · rcases h with h | h
    · cases h
    · cases h

end IsFresh

end ColumnPool

end TableCompiler
