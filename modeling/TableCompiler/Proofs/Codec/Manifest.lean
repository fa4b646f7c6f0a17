import TableCompiler.Manifest.Codec
import TableCompiler.Proofs.Codec.Vocabulary

/-!
# Manifest settings read back

Every record of a manifest is kept, whatever it says, and so is the manifest: its writer and its
reader agree on every name, on what may be missing and on the defaults.

* `ManifestColumn.codec_keeps`, `ManifestAction.codec_keeps`, `TableSettings.codec_keeps`,
  `ControlConfiguration.codec_keeps`;
* `NavigationSettings.codec_keeps`, `OutboundDetail.codec_keeps`;
* `Manifest.codec_keeps` — the manifest.
-/

namespace TableCompiler

open Codec

/-! ### Columns and actions -/

@[simp] theorem FormatOptions.codec_keeps (o : FormatOptions) : FormatOptions.codec.Keeps o := by
  refine .record rfl rfl rfl (by decide) (by simp) fun m hm => ?_
  simp only [List.forall_mem_cons, putSet_fst] at hm
  simp [hm]

@[simp] theorem Position.codec_keeps (p : Position) : Position.codec.Keeps p := by
  refine .record rfl rfl rfl (by decide) (by simp) fun m hm => ?_
  simp only [List.forall_mem_cons, put_fst, putNullable_fst] at hm
  simp [hm]

@[simp] theorem ManifestColumn.codec_keeps (c : ManifestColumn) : ManifestColumn.codec.Keeps c := by
  refine .record rfl rfl rfl (by decide) (by simp) fun m hm => ?_
  simp only [List.forall_mem_cons, put_fst, putNullable_fst] at hm
  simp [hm]

@[simp] theorem BindingValue.codec_keeps (v : BindingValue) : BindingValue.codec.Keeps v := by
  cases v with
  | flag b => exact ⟨rfl, Json.isPlain_bool b, Json.noConfusion⟩
  | binding text => exact ⟨rfl, Json.isPlain_str text, Json.noConfusion⟩

@[simp] theorem ManifestAction.codec_keeps (a : ManifestAction) : ManifestAction.codec.Keeps a := by
  refine .record rfl rfl rfl (by decide) (by simp) fun m hm => ?_
  simp only [List.forall_mem_cons, putNullable_fst] at hm
  simp [hm]

/-! ### Tables -/

@[simp] theorem PersonalizationOptions.codec_keeps (o : PersonalizationOptions) :
    PersonalizationOptions.codec.Keeps o := by
  refine .record rfl rfl rfl (by decide) (by simp) fun m hm => ?_
  simp only [List.forall_mem_cons, putNullable_fst] at hm
  simp [hm]

/-- Personalization that is a Boolean is told from the record of its features. -/
@[simp] theorem PersonalizationSetting.codec_keeps (s : PersonalizationSetting) :
    PersonalizationSetting.codec.Keeps s := by
  refine readable_keeps ?_
  cases s with
  | enabled b => exact ⟨rfl, Json.isPlain_bool b, Json.noConfusion⟩
  | options o =>
    have ho := o.codec_keeps
    refine ⟨?_, ho.isPlain, ho.ne_null⟩
    have hrecord : ofJson? (PersonalizationOptions.codec.write o) =
        (PersonalizationOptions.codec.read (PersonalizationOptions.codec.write o)).map .options :=
      rfl
    dsimp only [toJson]
    rw [hrecord, ho.read_write, Option.map_some]

@[simp] theorem CreationSettings.codec_keeps (s : CreationSettings) :
    CreationSettings.codec.Keeps s := by
  refine .record rfl rfl rfl (by decide) (by simp) fun m hm => ?_
  simp only [List.forall_mem_cons, putNullable_fst] at hm
  simp [hm]

@[simp] theorem TableSettings.codec_keeps (s : TableSettings) : TableSettings.codec.Keeps s := by
  refine .record rfl rfl rfl (by decide) (by simp) fun m hm => ?_
  simp only [List.forall_mem_cons, putNullable_fst] at hm
  simp [hm]

@[simp] theorem ControlConfiguration.codec_keeps (c : ControlConfiguration) :
    ControlConfiguration.codec.Keeps c := by
  refine .record rfl rfl rfl (by decide) (by simp) fun m hm => ?_
  simp only [List.forall_mem_cons, put_fst] at hm
  simp [hm]

/-! ### Navigation -/

@[simp] theorem NavigationTarget.codec_keeps (t : NavigationTarget) :
    NavigationTarget.codec.Keeps t := by
  refine .record rfl rfl rfl (by decide) (by simp) fun m hm => ?_
  simp only [List.forall_mem_cons, putNullable_fst] at hm
  simp [hm]

@[simp] theorem NavigationSettings.codec_keeps (s : NavigationSettings) :
    NavigationSettings.codec.Keeps s := by
  refine .record rfl rfl rfl (by decide) (by simp) fun m hm => ?_
  simp only [List.forall_mem_cons, putNullable_fst] at hm
  simp [hm]

@[simp] theorem OutboundDetail.codec_keeps (o : OutboundDetail) : OutboundDetail.codec.Keeps o := by
  refine .record rfl rfl rfl (by decide) (by simp) fun m hm => ?_
  simp only [List.forall_mem_cons, put_fst] at hm
  simp [hm]

/-! ### The manifest -/

/-- **Manifests read back**, whatever their settings. -/
theorem Manifest.codec_keeps (manifest : Manifest) : Manifest.codec.Keeps manifest := by
  refine .record rfl rfl rfl (by decide) (by simp) fun m hm => ?_
  simp only [List.forall_mem_cons, put_fst] at hm
  simp [hm]

end TableCompiler
