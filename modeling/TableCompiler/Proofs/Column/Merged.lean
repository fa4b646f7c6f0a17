import Mathlib.Data.List.Perm.Basic
import TableCompiler.Analytics
import TableCompiler.Override
import TableCompiler.Proofs.Dependencies
import TableCompiler.Proofs.Dictionary
import TableCompiler.Proofs.Placement

/-!
# The columns of a finished table

The manifest overrides a few members of the built columns and adds custom ones; aggregation sets
two members more.  The other members of a built column are settled when it is linked.

* `Column.settled`, `Column.eq_of_settled` — a column without the members that are set later;
* `Columns.IsCustom`, `Columns.customColumn?_eq_some` — what a custom column is;
* `Scope.settled_aggregate` — aggregation changes nothing that is settled;
* `Scope.mergeColumns_spec` — the merged columns are the built ones and the custom ones.
-/

namespace TableCompiler

namespace Column

/-- A column without the members that the manifest and aggregation set. -/
def settled (c : Column) : Column :=
  { c with
    width := none
    importance := none
    horizontalAlign := none
    availability := .shown
    formatOptions := none
    header := none
    aggregatable := none
    extension := none }

/-- Columns that are settled alike agree in every member that is settled. -/
theorem eq_of_settled {α : Type} (f : Column → α) (hf : ∀ c, f c.settled = f c) {b c : Column}
    (h : b.settled = c.settled) : f b = f c := by
  rw [← hf b, h, hf c]

theorem name_eq_of_settled {b c : Column} (h : b.settled = c.settled) : b.name = c.name :=
  eq_of_settled (·.name) (fun _ => rfl) h

theorem propertyInfos_eq_of_settled {b c : Column} (h : b.settled = c.settled) :
    b.propertyInfos = c.propertyInfos :=
  eq_of_settled (·.propertyInfos) (fun _ => rfl) h

theorem additionalPropertyInfos_eq_of_settled {b c : Column} (h : b.settled = c.settled) :
    b.additionalPropertyInfos = c.additionalPropertyInfos :=
  eq_of_settled (·.additionalPropertyInfos) (fun _ => rfl) h

end Column

theorem ManifestColumn.settled_override (entry : ManifestColumn) (c : Column) :
    (entry.override c).settled = c.settled := rfl

/-! ### Aggregation -/

namespace Aggregation

theorem settled_updateFirst (p : Column → Bool) {f : Column → Column}
    (hf : ∀ c, (f c).settled = c.settled) (columns : List Column) :
    (updateFirst p f columns).map (·.settled) = columns.map (·.settled) := by
  induction columns with
  | nil => rfl
  | cons c rest ih =>
    rw [updateFirst]
    split
    · rw [List.map_cons, List.map_cons, hf]
    · rw [List.map_cons, List.map_cons, ih]

theorem settled_wire (a : Aggregation) (property name : String)
    (definition : CustomAggregateDefinition) :
    (a.wire property name definition).columns.map (·.settled) = a.columns.map (·.settled) := by
  rw [wire]
  refine settled_updateFirst _ ?_ _
  intro c
  rfl

theorem settled_mark (a : Aggregation) (property : PropertyPath) :
    (a.mark property).columns.map (·.settled) = a.columns.map (·.settled) := by
  rw [mark]
  split
  · refine settled_updateFirst _ ?_ _
    intro c
    rfl
  · rfl

end Aggregation

namespace Scope

theorem settled_wireAggregate (units : Dictionary Unit) (a : Aggregation)
    (entry : String × CustomAggregate) :
    (wireAggregate units a entry).value.columns.map (·.settled) =
      a.columns.map (·.settled) := by
  obtain ⟨property, aggregate⟩ := entry
  simp only [wireAggregate]
  split
  · rfl
  · split
    · exact Aggregation.settled_wire a property _ _
    · rfl

/-- Aggregation keeps the columns in their places and changes nothing that is settled. -/
theorem settled_aggregate (s : Scope) (units : Dictionary Unit) (columns : List Column) :
    (s.aggregate units columns).value.columns.map (·.settled) = columns.map (·.settled) := by
  simp only [aggregate]
  split
  · rfl
  · simp only [Reported.value_bind, Reported.value_foldlM, Reported.value_pure]
    refine List.foldlRecOn (motive := fun a : Aggregation =>
      a.columns.map (·.settled) = columns.map (·.settled)) _ _ ?_ fun a ha property _ => ?_
    · refine List.foldlRecOn (motive := fun a : Aggregation =>
        a.columns.map (·.settled) = columns.map (·.settled)) _ _ rfl fun a ha entry _ => ?_
      exact (settled_wireAggregate units a entry).trans ha
    · exact (Aggregation.settled_mark a property).trans ha

end Scope

/-! ### Custom columns -/

namespace Columns

/-- Names without repetition, each of a column that shows no other columns. -/
def ArePlain (columns : Columns) (names : List String) : Prop :=
  names.Nodup ∧ ∀ name ∈ names, ∃ b ∈ columns, b.name = name ∧ b.propertyInfos = []

/-- A custom column beside built ones. -/
structure IsCustom (columns : Columns) (c : Column) : Prop where
  key_ne : ∀ b ∈ columns, b.key ≠ c.key
  name_ne : ∀ b ∈ columns, b.name ≠ c.name
  exists_entry : ∃ (entry : ManifestColumn) (names : List String),
    columns.ArePlain names ∧ c = entry.toColumn c.key names

theorem plainName?_eq_some {columns : Columns} {path : PropertyPath} {name : String}
    (h : columns.plainName? path = some name) :
    ∃ b ∈ columns, b.name = name ∧ b.propertyInfos = [] := by
  have hplain : columns.hasPlain name = true := by
    rw [plainName?] at h
    split at h
    · rename_i hpath
      rwa [← Option.some.inj h]
    · split at h
      · rename_i halias
        rwa [← Option.some.inj h]
      · cases h
  rw [hasPlain, List.any_eq_true] at hplain
  obtain ⟨b, hb, hb'⟩ := hplain
  rw [Bool.and_eq_true, beq_iff_eq, Column.isComposite, Bool.not_not, List.isEmpty_iff] at hb'
  exact ⟨b, hb, hb'⟩

theorem ArePlain.addPlain {columns : Columns} {names : List String} (h : columns.ArePlain names)
    (key : String) (path : PropertyPath) :
    columns.ArePlain (columns.addPlain key names path).value := by
  simp only [Columns.addPlain]
  split
  · rename_i name hname
    refine ⟨nodup_addUnique h.1 name, fun other hother => ?_⟩
    rcases mem_addUnique.1 hother with hother | rfl
    · exact h.2 other hother
    · exact plainName?_eq_some hname
  · exact h

theorem arePlain_foldlM (columns : Columns) (key : String) (paths : List PropertyPath) :
    columns.ArePlain (paths.foldlM (columns.addPlain key) []).value := by
  rw [Reported.value_foldlM]
  refine List.foldlRecOn _ _ ⟨List.nodup_nil, by simp⟩ fun names hnames path _ => ?_
  exact hnames.addPlain key path

/-- An entry becomes a custom column only under a key that is neither key nor name of a built
column. -/
theorem customColumn?_eq_some {columns : Columns} {key : String} {entry : ManifestColumn}
    {c : Custom Column} (h : (columns.customColumn? key entry).value = some c) :
    c.1.key = key ∧ columns.IsCustom c.1 := by
  simp only [customColumn?] at h
  split at h
  · cases h
  · rename_i hkey
    split at h
    · cases h
    · split at h
      · cases h
      · rename_i hname
        obtain rfl := Option.some.inj h
        refine ⟨rfl, ?_, ?_, entry, _, columns.arePlain_foldlM key entry.properties, rfl⟩
        · rintro b hb rfl
          exact hkey (List.any_eq_true.2 ⟨b, hb, beq_self_eq_true _⟩)
        · intro b hb heq
          exact hname (List.any_eq_true.2 ⟨b, hb, beq_iff_eq.2 heq⟩)

/-- The custom columns have distinct keys. -/
theorem nodup_custom (columns : Columns) (entries : Dictionary ManifestColumn) :
    ((columns.custom entries).value.map (·.1.key)).Nodup := by
  rw [custom, Reported.value_filterMapM]
  refine entries.nodup_filterMap _ (fun c : Custom Column => c.1.key) ?_
  intro entry c hc
  exact (customColumn?_eq_some hc).1

end Columns

namespace Scope

/-- **Merging.**  The columns of the table are the built ones, with nothing changed that is settled,
and custom ones of distinct keys. -/
theorem mergeColumns_spec (s : Scope) (columns : List Column) :
    ∃ custom : List Column, (custom.map (·.key)).Nodup ∧
      (∀ c ∈ custom, Columns.IsCustom columns c) ∧
      ((s.mergeColumns columns).value.map (·.settled)).Perm
        ((columns ++ custom).map (·.settled)) := by
  rw [mergeColumns]
  split
  · rename_i control hcontrol
    refine ⟨(Columns.custom columns control.columns).value.map (·.1), ?_, ?_, ?_⟩
    · rw [List.map_map]
      exact Columns.nodup_custom columns control.columns
    · intro c hc
      obtain ⟨custom, hcustom, rfl⟩ := List.mem_map.1 hc
      rw [Columns.custom, Reported.value_filterMapM, List.mem_filterMap] at hcustom
      obtain ⟨entry, -, hentry⟩ := hcustom
      exact (Columns.customColumn?_eq_some hentry).2
    · rw [Columns.merge, Reported.value_bind]
      refine ((placeAll_perm _ _ _).map _).trans ?_
      rw [List.map_append, List.map_append]
      refine .append_right _ (.of_eq ?_)
      rw [Columns.override, List.map_map]
      refine List.map_congr_left fun c _ => ?_
      dsimp only [Function.comp_apply]
      split
      · exact ManifestColumn.settled_override _ c
      · rfl
  · exact ⟨[], List.nodup_nil, by simp, by simp⟩

end Scope

end TableCompiler
