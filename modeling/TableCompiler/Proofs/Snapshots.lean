import TableCompiler.Proofs.Codec.Manifest
import TableCompiler.Proofs.Codec.Service

/-!
# Snapshots read back

A compilation works on a snapshot of a service and on a manifest, which are kept as JSON.  Writing
and reading them loses nothing, and a list of records is refused for nothing but a record that is
itself at fault.

* `Service.HasNoTargetNumbers` — no target value is a number;
* `DataField.list_read_eq_none_iff` — the lists of records that are refused;
* `snapshots_kept` — what is written reads back, and how records are read.
-/

namespace TableCompiler

open Codec

/-! ### Lists of records -/

theorem mapM_eq_none_iff {α β : Type} {f : α → Option β} {items : List α} :
    items.mapM f = none ↔ ∃ a ∈ items, f a = none := by
  induction items with
  | nil => exact ⟨nofun, nofun⟩
  | cons a items ih =>
    rw [List.mapM_cons, List.exists_mem_cons_iff, ← ih]
    cases f a with
    | none => exact iff_of_true rfl (.inl rfl)
    | some b => cases items.mapM f <;> simp

/-- A list of records is refused exactly if one of the records is. -/
theorem DataField.list_read_eq_none_iff {items : List Json}
    (h : (Json.arr items).isReadable = true) :
    codec.list.read (.arr items) = none ↔ ∃ j ∈ items, IsRefused j := by
  rw [Json.isReadable, Json.itemsReadable_eq, List.all_eq_true] at h
  refine mapM_eq_none_iff.trans (exists_congr fun j => and_congr_right fun hj => ?_)
  exact codec_read_eq_none_iff (h j hj)

/-! ### Snapshots -/

/-- No data point of a service has a number as its target value. -/
def Service.HasNoTargetNumbers (s : Service) : Prop :=
  ∀ t ∈ s.entityTypes, ∀ entry ∈ t.annotations.dataPoints.entries,
    entry.2.targetValue.bind (·.literal?) = none

theorem Service.read_write {s : Service} (h : s.HasNoTargetNumbers) :
    Service.codec.read (Service.codec.write s) = some s := by
  refine (Service.codec_keeps fun t ht entry hentry => DataPoint.codec_keeps ?_).read_write
  intro x hx
  have hnone := h t ht entry hentry
  rw [hx] at hnone
  cases hnone

/-- **Snapshots.**  A service whose data points have no number as target value reads back, and so
does every manifest.  A record reads the same with its type named by alias; a value that names no
known type is a record of unknown type; and a list of records is refused only for a record of a
known type that lacks a member or has an ill-typed one. -/
theorem snapshots_kept :
    (∀ s : Service, s.HasNoTargetNumbers →
      Service.codec.read (Service.codec.write s) = some s) ∧
    (∀ manifest : Manifest, Manifest.codec.read (Manifest.codec.write manifest) = some manifest) ∧
    (∀ j, DataField.codec.read (DataField.withAlias j) = DataField.codec.read j) ∧
    (∀ j : Json, j.isReadable = true →
      (∀ typeName, j.member? "$Type" = some (.str typeName) → ¬ DataField.IsKnown typeName) →
      DataField.codec.read j = some .unknown) ∧
    (∀ items, (Json.arr items).isReadable = true →
      (DataField.codec.list.read (.arr items) = none ↔ ∃ j ∈ items, DataField.IsRefused j)) :=
  ⟨fun _ => Service.read_write, fun manifest => manifest.codec_keeps.read_write,
    DataField.codec_read_withAlias, fun _ => DataField.codec_read_of_not_isKnown,
    fun _ => DataField.list_read_eq_none_iff⟩

/-! ### A rated product -/

/-- Products with a rating, whose target is given by a path. -/
def Service.ratings : Service where
  entityTypes := [{
    name := "shop.Product"
    annotations := { dataPoints := .ofList [("Rating",
      { title := none, value := "Rating", targetValue := some (.path "Best"),
        criticality := some (.literal "3"), visualization := none })] } }]

/-- The ratings read back; so do records without a type, as unknown ones, while a record that should
show a value must name one. -/
theorem snapshots_kept_ratings :
    Service.ratings.HasNoTargetNumbers ∧
    Service.codec.read (Service.codec.write .ratings) = some .ratings ∧
    DataField.codec.read (.obj [("Value", .int 1)]) = some .unknown ∧
    DataField.codec.list.read (.arr [.obj [("$Type", .str "UI.DataField")]]) = none := by
  obtain ⟨hservice, -, -, hunknown, hlist⟩ := snapshots_kept
  have hratings : Service.ratings.HasNoTargetNumbers := by
    unfold Service.HasNoTargetNumbers
    decide
  refine ⟨hratings, hservice _ hratings, hunknown _ rfl nofun, (hlist _ rfl).2 ?_⟩
  have hname : DataField.shortName? "UI.DataField" = some "DataField" :=
    DataField.shortName?_aliasName "DataField"
  have hrules : DataField.rules? "UI.DataField" = some (DataField.valueRules []) := by
    rw [DataField.rules?, hname]
    rfl
  exact ⟨_, List.mem_cons_self, "UI.DataField", _, rfl, hrules, _, List.mem_cons_self, rfl⟩

end TableCompiler
