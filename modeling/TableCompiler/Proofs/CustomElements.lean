import TableCompiler.Compile
import TableCompiler.Proofs.Column.Merged
import TableCompiler.Proofs.Placement.Anchor
import TableCompiler.Proofs.Toolbar

/-!
# Custom columns and actions

An entry of the manifest that belongs to no built element becomes a custom one, if it says enough to
be one.  However the custom elements are anchored, the built ones keep their order and everything
finds its place or is reported.

* `Columns.accepts`, `Toolbar.accepts` — the entries that become custom elements;
* `Columns.merge_isArrangement`, `Toolbar.merge_isArrangement` — the merged lists;
* `ControlConfiguration.elements_placed` — columns and actions of one visualization.
-/

namespace TableCompiler

/-! ### Lists of accepted items -/

/-- What a list yields item by item is related to the items that yield something. -/
theorem forall₂_filterMap {α β : Type} {f : α → Option β} {p : α → Bool} {R : α → β → Prop}
    (hsome : ∀ a b, f a = some b → p a = true ∧ R a b) (hnone : ∀ a, f a = none → p a = false)
    (items : List α) : (items.filter p).Forall₂ R (items.filterMap f) := by
  induction items with
  | nil => exact .nil
  | cons a items ih =>
    cases h : f a with
    | none =>
      rw [List.filterMap_cons_none h, List.filter_cons_of_neg (by rw [hnone a h]; decide)]
      exact ih
    | some b =>
      obtain ⟨hp, hR⟩ := hsome a b h
      rw [List.filterMap_cons_some h, List.filter_cons_of_pos hp]
      exact .cons hR ih

/-- Reports of other problems before the placement do not matter. -/
theorem IsArrangement.bind {α β : Type} {key : α → String} {built : List α}
    {custom : List (Custom α)} {x : Reported β} {f : β → Reported (List α)}
    (hx : ∀ problem ∈ x.problems, problem.code ≠ "UNKNOWN_ANCHOR")
    (h : IsArrangement key built custom (f x.value)) :
    IsArrangement key built custom (x >>= f) := by
  have hnone : x.problems.filter (fun problem => problem.code == "UNKNOWN_ANCHOR") = [] := by
    rw [List.filter_eq_nil_iff]
    intro problem hproblem hcode
    exact hx problem hproblem (beq_iff_eq.1 hcode)
  refine ⟨h.perm, h.fixed, h.beside, ?_⟩
  obtain ⟨front, lost, hvalue, hsub, hlost, hproblems⟩ := h.lost
  refine ⟨front, lost, hvalue, hsub, hlost, ?_⟩
  rw [Reported.problems_bind, List.filter_append, hnone, List.nil_append]
  exact hproblems

/-! ### Columns -/

namespace ManifestColumn

/-- The custom column of an entry, under its key and at its position. -/
def Becomes (entry : String × ManifestColumn) (c : Custom Column) : Prop :=
  c.2 = entry.2.position ∧ ∃ names, c.1 = entry.2.toColumn entry.1 names

end ManifestColumn

namespace Columns

/-- Whether an entry becomes a custom column: it needs a template, and a key that is neither key nor
name of a column. -/
def accepts (columns : Columns) (entry : String × ManifestColumn) : Bool :=
  entry.2.template.isSome && !columns.any fun c => c.key == entry.1 || c.name == entry.1

/-- Overrides change nothing that is settled. -/
theorem settled_override (columns : Columns) (entries : Dictionary ManifestColumn) :
    (columns.override entries).map (·.settled) = columns.map (·.settled) := by
  rw [override, List.map_map]
  refine List.map_congr_left fun column _ => ?_
  dsimp only [Function.comp_apply]
  split
  · exact ManifestColumn.settled_override _ column
  · rfl

theorem keys_override (columns : Columns) (entries : Dictionary ManifestColumn) :
    (columns.override entries).map (·.key) = columns.map (·.key) := by
  have hkeys := congrArg (List.map (·.key)) (columns.settled_override entries)
  rw [List.map_map, List.map_map] at hkeys
  exact hkeys

theorem accepts_eq_true_iff {columns : Columns} {entry : String × ManifestColumn} :
    columns.accepts entry = true ↔ entry.2.template.isSome = true ∧
      ¬ columns.any (·.key == entry.1) = true ∧ ¬ columns.any (·.name == entry.1) = true := by
  have hany : (columns.any fun c => c.key == entry.1 || c.name == entry.1) =
      (columns.any (·.key == entry.1) || columns.any (·.name == entry.1)) := by
    induction columns with
    | nil => rfl
    | cons c columns ih =>
      rw [List.any_cons, List.any_cons, List.any_cons, ih]
      simp only [Bool.or_assoc, Bool.or_left_comm]
  rw [accepts, hany, Bool.and_eq_true, Bool.not_eq_true', Bool.or_eq_false_iff,
    Bool.not_eq_true, Bool.not_eq_true]

/-- An entry has a custom column exactly if it is accepted. -/
theorem customColumn?_cases (columns : Columns) (entry : String × ManifestColumn) :
    (columns.accepts entry = true ∧ ∃ c, ManifestColumn.Becomes entry c ∧
        (columns.customColumn? entry.1 entry.2).value = some c) ∨
      columns.accepts entry = false ∧
        (columns.customColumn? entry.1 entry.2).value = none := by
  rw [← Bool.not_eq_true, accepts_eq_true_iff, customColumn?]
  split
  · rename_i hkey
    exact .inr ⟨fun h => h.2.1 hkey, rfl⟩
  · rename_i hkey
    split
    · rename_i htemplate
      refine .inr ⟨fun h => ?_, rfl⟩
      rw [Option.isNone_iff_eq_none] at htemplate
      rw [htemplate] at h
      cases h.1
    · rename_i htemplate
      split
      · rename_i hname
        exact .inr ⟨fun h => h.2.2 hname, rfl⟩
      · rename_i hname
        have hsome : entry.2.template.isSome = true := by
          rwa [Option.isNone_iff_eq_none, ← Ne, ← Option.isSome_iff_ne_none] at htemplate
        exact .inl ⟨⟨hsome, hkey, hname⟩, _, ⟨rfl, _, rfl⟩, rfl⟩

theorem forall₂_custom (columns : Columns) (entries : Dictionary ManifestColumn) :
    (entries.entries.filter columns.accepts).Forall₂ ManifestColumn.Becomes
      (columns.custom entries).value := by
  rw [custom, Reported.value_filterMapM]
  refine forall₂_filterMap ?_ ?_ entries.entries
  · intro entry c hc
    rcases columns.customColumn?_cases entry with ⟨haccepts, c', hbecomes, heq⟩ | ⟨-, heq⟩
    · obtain rfl := Option.some.inj (hc.symm.trans heq)
      exact ⟨haccepts, hbecomes⟩
    · cases hc.symm.trans heq
  · intro entry hnone
    rcases columns.customColumn?_cases entry with ⟨-, c', -, heq⟩ | ⟨hrefuses, -⟩
    · cases hnone.symm.trans heq
    · exact hrefuses

/-- A custom column is what an entry stands for. -/
theorem exists_of_mem_custom {columns : Columns} {entries : Dictionary ManifestColumn} {c : Column}
    (h : c ∈ (columns.custom entries).value.map (·.1)) :
    ∃ (entry : ManifestColumn) (key : String) (names : List String),
      c = entry.toColumn key names := by
  obtain ⟨custom, hcustom, rfl⟩ := List.mem_map.1 h
  rw [Columns.custom, Reported.value_filterMapM, List.mem_filterMap] at hcustom
  obtain ⟨entry, -, hentry⟩ := hcustom
  obtain ⟨manifest, names, -, heq⟩ := (customColumn?_eq_some hentry).2.exists_entry
  exact ⟨manifest, _, names, heq⟩

/-- While custom columns are made, no anchor is looked for. -/
theorem code_ne_of_custom {columns : Columns} {entries : Dictionary ManifestColumn}
    {problem : Problem} (h : problem ∈ (columns.custom entries).problems) :
    problem.code ≠ "UNKNOWN_ANCHOR" := by
  obtain ⟨⟨key, entry⟩, -, h⟩ := Reported.mem_problems_filterMapM h
  dsimp only at h
  rw [customColumn?] at h
  split at h
  · cases h
  · split at h
    · obtain rfl := List.mem_singleton.1 h
      simp [Problem.code]
    · split at h
      · obtain rfl := List.mem_singleton.1 h
        simp [Problem.code]
      · rw [Reported.problems_bind, Reported.problems_pure, List.append_nil] at h
        obtain ⟨path, -, names, h⟩ := Reported.mem_problems_foldlM h
        rw [addPlain] at h
        split at h
        · cases h
        · obtain rfl := List.mem_singleton.1 h
          simp [Problem.code]

/-- **Merged columns.** -/
theorem merge_isArrangement (columns : Columns) (entries : Dictionary ManifestColumn) :
    IsArrangement (·.key) (columns.override entries) (columns.custom entries).value
      (columns.merge entries) :=
  IsArrangement.bind (fun _ h => code_ne_of_custom h) (placeAll_isArrangement Column.key _ _)

/-- No custom column has the key of a built one. -/
theorem not_mem_keys_of_custom {columns : Columns} {entries : Dictionary ManifestColumn}
    {c : Custom Column} (h : c ∈ (columns.custom entries).value) :
    c.1.key ∉ columns.map (·.key) := by
  rw [custom, Reported.value_filterMapM, List.mem_filterMap] at h
  obtain ⟨entry, -, hentry⟩ := h
  intro hkey
  obtain ⟨column, hcolumn, hsame⟩ := List.mem_map.1 hkey
  exact (customColumn?_eq_some hentry).2.key_ne column hcolumn hsame

/-- Keys that are distinct stay so. -/
theorem nodup_merge {columns : Columns} (h : (columns.map (·.key)).Nodup)
    (entries : Dictionary ManifestColumn) :
    ((columns.merge entries).value.map (·.key)).Nodup := by
  refine ((columns.merge_isArrangement entries).perm.map Column.key).nodup_iff.2 ?_
  rw [List.map_append, keys_override, List.map_map, List.nodup_append]
  refine ⟨h, columns.nodup_custom entries, ?_⟩
  rintro key hkey other hother rfl
  obtain ⟨c, hc, rfl⟩ := List.mem_map.1 hother
  exact not_mem_keys_of_custom hc hkey

end Columns

/-- The merged columns are built ones, with the entries of their keys, and custom ones. -/
theorem Scope.mem_mergeColumns {s : Scope} {columns : List Column} {c : Column}
    (h : c ∈ (s.mergeColumns columns).value) :
    (∃ b ∈ columns, c = b ∨ ∃ entry : ManifestColumn, c = entry.override b) ∨
      ∃ (entry : ManifestColumn) (key : String) (names : List String),
        c = entry.toColumn key names := by
  rw [mergeColumns] at h
  split at h
  · rename_i control hcontrol
    have hmerged := (Columns.merge_isArrangement columns control.columns).perm.mem_iff.1 h
    rcases List.mem_append.1 hmerged with hbuilt | hcustom
    · obtain ⟨b, hb, rfl⟩ := List.mem_map.1 hbuilt
      refine .inl ⟨b, hb, ?_⟩
      split
      · rename_i entry hentry
        exact .inr ⟨entry, rfl⟩
      · exact .inl rfl
    · exact .inr (Columns.exists_of_mem_custom hcustom)
  · exact .inl ⟨c, h, .inl rfl⟩

/-! ### Actions -/

namespace Action

/-- An action without the members that the manifest sets. -/
def settled (a : Action) : Action :=
  { a with
    visible := ""
    enabled := none
    isNavigable := none
    requiresSelection := none
    enableOnSelect := none
    enableAutoScroll := none
    defaultValuesExtensionFunction := none
    command := none }

end Action

namespace Toolbar

/-- Whether an entry becomes a custom action: it needs a key that belongs neither to an action nor
to a hidden record. -/
def accepts (t : Toolbar) (entry : String × ManifestAction) : Bool :=
  !(t.hidden.contains entry.1 || t.containsKey entry.1)

/-- Overrides change nothing that is settled. -/
theorem settled_override (t : Toolbar) (entries : Dictionary ManifestAction) :
    (t.override entries).map (·.settled) = t.actions.map (·.settled) := by
  rw [override, List.map_map]
  refine List.map_congr_left fun action _ => ?_
  dsimp only [Function.comp_apply]
  split
  · rfl
  · split <;> rfl

theorem custom_eq_map (t : Toolbar) (entries : Dictionary ManifestAction) :
    t.custom entries = (entries.entries.filter t.accepts).map fun entry =>
      (entry.2.toAction entry.1, entry.2.position) := by
  rw [custom]
  induction entries.entries with
  | nil => rfl
  | cons first rest ih =>
    obtain ⟨key, entry⟩ := first
    by_cases hrefused : (t.hidden.contains key || t.containsKey key) = true
    · have hfilter : ¬ t.accepts (key, entry) = true := by
        rw [accepts, hrefused]
        decide
      rw [List.filterMap_cons, List.filter_cons_of_neg hfilter]
      dsimp only
      rw [if_pos hrefused]
      exact ih
    · have hfilter : t.accepts (key, entry) = true := by
        rw [accepts, Bool.eq_false_iff.2 hrefused]
        rfl
      rw [List.filterMap_cons, List.filter_cons_of_pos hfilter, List.map_cons]
      dsimp only
      rw [if_neg hrefused]
      exact congrArg _ ih

/-- **Merged actions.** -/
theorem merge_isArrangement (t : Toolbar) (entries : Dictionary ManifestAction) :
    IsArrangement (·.key) (t.override entries) (t.custom entries) (t.merge entries) :=
  placeAll_isArrangement Action.key _ _

/-- Keys that are distinct stay so. -/
theorem nodup_merge {t : Toolbar} (h : t.keys.Nodup) (entries : Dictionary ManifestAction) :
    ((t.merge entries).value.map (·.key)).Nodup := by
  refine ((t.merge_isArrangement entries).perm.map Action.key).nodup_iff.2 ?_
  rw [List.map_append, keys_override, List.map_map, List.nodup_append]
  refine ⟨h, t.nodup_custom entries, ?_⟩
  rintro key hkey other hother rfl
  obtain ⟨c, hc, rfl⟩ := List.mem_map.1 hother
  exact not_mem_keys_of_custom hc hkey

end Toolbar

/-! ### One visualization -/

namespace ControlConfiguration

/-- **Custom elements find their places.**  Where the built columns, or the actions of records, have
distinct keys, merging keeps what is settled of them, makes one custom element of every entry that
is accepted, in the order of the keys, and arranges both as they should be. -/
theorem elements_placed (control : ControlConfiguration) :
    (∀ columns : Columns, (columns.map (·.key)).Nodup →
      (columns.override control.columns).map (·.settled) = columns.map (·.settled) ∧
      ((columns.merge control.columns).value.map (·.key)).Nodup ∧
      ∃ custom : List (Custom Column),
        (control.columns.entries.filter columns.accepts).Forall₂ ManifestColumn.Becomes custom ∧
        IsArrangement (·.key) (columns.override control.columns) custom
          (columns.merge control.columns)) ∧
    ∀ t : Toolbar, t.keys.Nodup →
      (t.override control.actions).map (·.settled) = t.actions.map (·.settled) ∧
      ((t.merge control.actions).value.map (·.key)).Nodup ∧
      IsArrangement (·.key) (t.override control.actions)
        ((control.actions.entries.filter t.accepts).map fun entry =>
          (entry.2.toAction entry.1, entry.2.position))
        (t.merge control.actions) := by
  constructor
  · intro columns hcolumns
    refine ⟨columns.settled_override _, Columns.nodup_merge hcolumns _, _,
      columns.forall₂_custom control.columns, columns.merge_isArrangement control.columns⟩
  · intro t ht
    refine ⟨t.settled_override _, Toolbar.nodup_merge ht _, ?_⟩
    rw [← Toolbar.custom_eq_map]
    exact t.merge_isArrangement control.actions

/-- Custom elements that are anchored at one another, in a chain or in a circle, and one that is
anchored at nothing. -/
def winding : ControlConfiguration where
  columns := .ofList [
    ("Circle", { template := some "C", position := some ⟨some "Round", .after⟩ }),
    ("Free", { template := some "F" }),
    ("Late", { template := some "L", position := some ⟨some "Next", .after⟩ }),
    ("Next", { template := some "N", position := some ⟨some "B", .before⟩ }),
    ("Round", { template := some "R", position := some ⟨some "Circle", .before⟩ })]
  actions := .ofList [
    ("Free", {}),
    ("Late", { position := some ⟨some "Next", .after⟩ }),
    ("Lost", { position := some ⟨some "Nowhere", .before⟩ }),
    ("Next", { position := some ⟨some "Free", .before⟩ })]

/-- Columns and actions of two letters are arranged with them. -/
theorem elements_placed_winding :
    ∃ (columns : Columns) (t : Toolbar), columns.map (·.key) = ["A", "B"] ∧
      t.keys = ["A", "B"] ∧ (columns.map (·.key)).Nodup ∧ t.keys.Nodup ∧
      (∃ custom, (winding.columns.entries.filter columns.accepts).Forall₂
          ManifestColumn.Becomes custom ∧
        IsArrangement (·.key) (columns.override winding.columns) custom
          (columns.merge winding.columns)) ∧
      IsArrangement (·.key) (t.override winding.actions)
        ((winding.actions.entries.filter t.accepts).map fun entry =>
          (entry.2.toAction entry.1, entry.2.position))
        (t.merge winding.actions) := by
  have hplaced := winding.elements_placed
  refine ⟨[{ key := "A", name := "A", kind := .property },
      { key := "B", name := "B", kind := .property }],
    { actions := [{ key := "A", kind := .forAction, visible := "true" },
      { key := "B", kind := .forAction, visible := "true" }] },
    rfl, rfl, by decide, by decide, ?_, ?_⟩
  · exact (hplaced.1 _ (by decide)).2.2
  · exact (hplaced.2 _ (by decide)).2.2

example :
    (Columns.merge [{ key := "A", name := "A", kind := .property },
      { key := "B", name := "B", kind := .property }] winding.columns).value.map (·.key) =
      ["A", "Next", "Late", "B", "Free", "Circle", "Round"] := by
  decide +kernel

end ControlConfiguration

end TableCompiler
