import TableCompiler.Proofs.ActionOverrides

/-!
# Built elements in the merged lists

Without its custom elements, a merged list is the list that was built.  An entry of the manifest
changes the element of its key in the members that it gives, and nothing else changes.

* `ManifestColumn.Overrides` — a column with what an entry gives;
* `ControlConfiguration.KeepsColumn`, `ControlConfiguration.KeepsAction` — what merging leaves of a
  built element;
* `withoutCustom`, `IsArrangement.withoutCustom_eq` — a list without the elements that are put in;
* `KeepsBuilt` — merged lists that keep their built elements;
* `ControlConfiguration.built_elements_kept` — merged columns and actions.
-/

namespace TableCompiler

/-! ### Overrides -/

/-- A column with what an entry of the manifest gives: all else is kept. -/
structure ManifestColumn.Overrides (entry : ManifestColumn) (before after : Column) : Prop where
  kept : after = { before with
    width := after.width
    importance := after.importance
    horizontalAlign := after.horizontalAlign
    availability := after.availability
    formatOptions := after.formatOptions
    header := after.header }
  width : IsSet (entry.width.map some) before.width after.width
  importance : IsSet (entry.importance.map some) before.importance after.importance
  horizontalAlign :
    IsSet (entry.horizontalAlign.map some) before.horizontalAlign after.horizontalAlign
  availability : IsSet entry.availability before.availability after.availability
  formatOptions : IsSet (entry.formatOptions.map some) before.formatOptions after.formatOptions
  header : IsSet (entry.header.map some) before.header after.header

theorem ManifestColumn.overrides_override (entry : ManifestColumn) (column : Column) :
    entry.Overrides column (entry.override column) where
  kept := rfl
  width := isSet_or _ _
  importance := isSet_or _ _
  horizontalAlign := isSet_or _ _
  availability := isSet_getD _ _
  formatOptions := isSet_or _ _
  header := isSet_or _ _

namespace ControlConfiguration

/-- What merging leaves of a built column: all of it but what the entry of its key gives. -/
def KeepsColumn (control : ControlConfiguration) (before after : Column) : Prop :=
  match control.columns.get? before.key with
  | some entry => entry.Overrides before after
  | none => after = before

/-- What merging leaves of an action: all of it but what the entry of its key gives, and all of it
if a hidden record has its key. -/
def KeepsAction (control : ControlConfiguration) (hidden : List String) (before after : Action) :
    Prop :=
  if before.key ∈ hidden then after = before
  else match control.actions.get? before.key with
    | some entry => entry.Overrides before after
    | none => after = before

theorem forall₂_override (control : ControlConfiguration) (columns : Columns) :
    columns.Forall₂ control.KeepsColumn (columns.override control.columns) := by
  rw [Columns.override, List.forall₂_map_right_iff, List.forall₂_same]
  intro column _
  rw [KeepsColumn]
  cases control.columns.get? column.key with
  | none => rfl
  | some entry => exact entry.overrides_override column

theorem forall₂_override_actions (control : ControlConfiguration) (t : Toolbar) :
    t.actions.Forall₂ (control.KeepsAction t.hidden) (t.override control.actions) := by
  rw [Toolbar.override, List.forall₂_map_right_iff, List.forall₂_same]
  intro action _
  rw [KeepsAction]
  by_cases hhidden : action.key ∈ t.hidden
  · rw [if_pos hhidden, if_pos (List.contains_iff_mem.2 hhidden)]
  · rw [if_neg hhidden, if_neg (mt List.contains_iff_mem.1 hhidden)]
    cases control.actions.get? action.key with
    | none => rfl
    | some entry => exact entry.overrides_override action

end ControlConfiguration

/-! ### Lists without their custom elements -/

section WithoutCustom

variable {α : Type} {key : α → String} {built : List α} {custom : List (Custom α)}
  {result : Reported (List α)}

/-- The elements of a list that have the key of no custom element. -/
def withoutCustom (key : α → String) (custom : List (Custom α)) (items : List α) : List α :=
  items.filter fun x => !(custom.map fun c => key c.1).contains (key x)

/-- **Without its custom elements** an arrangement is the list that was built, if they have keys of
their own. -/
theorem IsArrangement.withoutCustom_eq (h : IsArrangement key built custom result)
    (hnew : ∀ c ∈ custom, key c.1 ∉ built.map key) :
    withoutCustom key custom result.value = built := by
  have hbuilt : withoutCustom key custom built = built := by
    rw [withoutCustom, List.filter_eq_self]
    intro b hb
    rw [Bool.not_eq_true', ← Bool.not_eq_true, List.contains_iff_mem, List.mem_map]
    rintro ⟨c, hc, hsame⟩
    exact hnew c hc (hsame ▸ List.mem_map_of_mem hb)
  have hcustom : withoutCustom key custom (custom.map (·.1)) = [] := by
    rw [withoutCustom, List.filter_eq_nil_iff]
    intro x hx
    obtain ⟨c, hc, rfl⟩ := List.mem_map.1 hx
    rw [Bool.not_eq_true', Bool.not_eq_false, List.contains_iff_mem]
    exact List.mem_map_of_mem (f := fun c : Custom α => key c.1) hc
  -- the built elements are there in order, and no others are left
  have hsub : built.Sublist (withoutCustom key custom result.value) := by
    have hfixed := (List.sublist_append_left built (unanchored custom)).trans h.fixed
    have hfiltered : (withoutCustom key custom built).Sublist
        (withoutCustom key custom result.value) := hfixed.filter _
    rwa [hbuilt] at hfiltered
  have hperm : (withoutCustom key custom result.value).Perm built := by
    have hfiltered : (withoutCustom key custom result.value).Perm
        (withoutCustom key custom (built ++ custom.map (·.1))) := h.perm.filter _
    have hsplit : withoutCustom key custom (built ++ custom.map (·.1)) =
        withoutCustom key custom built ++ withoutCustom key custom (custom.map (·.1)) :=
      List.filter_append _ _
    rwa [hsplit, hbuilt, hcustom, List.append_nil] at hfiltered
  exact (hsub.eq_of_length hperm.length_eq.symm).symm

/-- A merged list has distinct keys and consists of its custom elements and of what is left without
them: the built elements in their order, each related to what it was. -/
structure KeepsBuilt (key : α → String) (R : α → α → Prop) (built : List α)
    (custom : List (Custom α)) (merged : List α) : Prop where
  nodup : (merged.map key).Nodup
  perm : merged.Perm (withoutCustom key custom merged ++ custom.map (·.1))
  kept : built.Forall₂ R (withoutCustom key custom merged)

/-- An arrangement of elements that are related to the built ones keeps them. -/
theorem IsArrangement.keepsBuilt {R : α → α → Prop} {before : List α}
    (h : IsArrangement key built custom result) (hnew : ∀ c ∈ custom, key c.1 ∉ built.map key)
    (hnodup : (result.value.map key).Nodup) (hrelated : before.Forall₂ R built) :
    KeepsBuilt key R before custom result.value := by
  have hleft := h.withoutCustom_eq hnew
  refine ⟨hnodup, ?_, ?_⟩
  · rw [hleft]
    exact h.perm
  · rw [hleft]
    exact hrelated

end WithoutCustom

/-! ### One visualization -/

namespace ControlConfiguration

/-- **Overrides touch nothing but their members.**  Where the built columns, or the actions of
records, have distinct keys, merging keeps each of them but for what the entry of its key gives, and
their order. -/
theorem built_elements_kept (control : ControlConfiguration) :
    (∀ columns : Columns, (columns.map (·.key)).Nodup →
      KeepsBuilt (·.key) control.KeepsColumn columns (columns.custom control.columns).value
        (columns.merge control.columns).value) ∧
    ∀ t : Toolbar, t.keys.Nodup →
      KeepsBuilt (·.key) (control.KeepsAction t.hidden) t.actions (t.custom control.actions)
        (t.merge control.actions).value := by
  constructor
  · intro columns hcolumns
    have harranged := columns.merge_isArrangement control.columns
    refine harranged.keepsBuilt ?_ (Columns.nodup_merge hcolumns _)
      (control.forall₂_override columns)
    intro c hc
    rw [columns.keys_override]
    exact Columns.not_mem_keys_of_custom hc
  · intro t ht
    have harranged := t.merge_isArrangement control.actions
    refine harranged.keepsBuilt ?_ (Toolbar.nodup_merge ht _) (control.forall₂_override_actions t)
    intro c hc
    rw [t.keys_override]
    exact Toolbar.not_mem_keys_of_custom hc

/-- Entries for a built column and for the actions of a shown and of a hidden record, and entries
for custom elements beside them. -/
def revised : ControlConfiguration where
  columns := .ofList [
    ("A", { width := some "9rem", position := some ⟨some "B", .after⟩, template := some "A" }),
    ("New", { header := some "New", template := some "N", position := some ⟨some "A", .after⟩ })]
  actions := .ofList [
    ("A", { command := some "Approve", requiresSelection := some true }),
    ("Gone", { command := some "Gone" }),
    ("New", { position := some ⟨some "A", .before⟩ })]

/-- What is built keeps its places beside the custom elements, and the first column and action get
what their entries give. -/
theorem built_elements_kept_revised :
    ∃ (columns : Columns) (t : Toolbar), columns.map (·.key) = ["A", "B"] ∧ t.keys = ["A", "B"] ∧
      (columns.map (·.key)).Nodup ∧ t.keys.Nodup ∧
      columns.Forall₂ revised.KeepsColumn
        (withoutCustom (·.key) (columns.custom revised.columns).value
          (columns.merge revised.columns).value) ∧
      t.actions.Forall₂ (revised.KeepsAction t.hidden)
        (withoutCustom (·.key) (t.custom revised.actions) (t.merge revised.actions).value) := by
  have hkept := revised.built_elements_kept
  refine ⟨[{ key := "A", name := "A", kind := .property },
      { key := "B", name := "B", kind := .property }],
    { actions := [{ key := "A", kind := .forAction, visible := "true" },
        { key := "B", kind := .forAction, visible := "true" }]
      hidden := ["Gone"] },
    rfl, rfl, by decide, by decide, ?_, ?_⟩
  · exact (hkept.1 _ (by decide)).kept
  · exact (hkept.2 _ (by decide)).kept

example :
    (Columns.merge [{ key := "A", name := "A", kind := .property },
      { key := "B", name := "B", kind := .property }] revised.columns).value.map
        (fun c => (c.key, c.width, c.template)) =
      [("A", some "9rem", none), ("New", none, some "N"), ("B", none, none)] := by
  decide +kernel

end ControlConfiguration

end TableCompiler
