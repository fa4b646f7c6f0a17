import TableCompiler.Proofs.Codec
import TableCompiler.Vocabulary

/-!
# Names, paths and dynamic values read back

No vocabulary has a name twice, so each member is found by its own.  A path is told from a literal
because it is the only one of the two that is a record.

* `Importance.codec_keeps` and the lemmas after it — one for each vocabulary;
* `memberCodec_keeps` — a text as the only member of a record;
* `Dynamic.codec_keeps`, `Dynamic.flag_keeps`, `Dynamic.text_keeps` — a path or a literal.
-/

namespace TableCompiler

open Codec

/-! ### Vocabularies -/

@[simp] theorem Importance.codec_keeps (i : Importance) : Importance.codec.Keeps i :=
  enumeration_keeps (by cases i <;> rfl)

@[simp] theorem Importance.taggedCodec_keeps (i : Importance) :
    (taggedEnumeration Importance.all Importance.name).Keeps i :=
  taggedEnumeration_keeps (by cases i <;> rfl)

@[simp] theorem TextArrangement.codec_keeps (a : TextArrangement) :
    TextArrangement.codec.Keeps a :=
  enumeration_keeps (by cases a <;> rfl)

@[simp] theorem TableType.codec_keeps (t : TableType) : TableType.codec.Keeps t :=
  enumeration_keeps (by cases t <;> rfl)

@[simp] theorem SelectionSetting.codec_keeps (s : SelectionSetting) :
    SelectionSetting.codec.Keeps s :=
  enumeration_keeps (by cases s <;> rfl)

@[simp] theorem CreationMode.codec_keeps (m : CreationMode) : CreationMode.codec.Keeps m :=
  enumeration_keeps (by cases m <;> rfl)

@[simp] theorem CreationMode.taggedCodec_keeps (m : CreationMode) :
    CreationMode.taggedCodec.Keeps m :=
  taggedEnumeration_keeps (by cases m <;> rfl)

@[simp] theorem PageTemplate.codec_keeps (t : PageTemplate) : PageTemplate.codec.Keeps t :=
  enumeration_keeps (by cases t <;> rfl)

@[simp] theorem VariantManagement.codec_keeps (v : VariantManagement) :
    VariantManagement.codec.Keeps v :=
  enumeration_keeps (by cases v <;> rfl)

@[simp] theorem HorizontalAlign.codec_keeps (a : HorizontalAlign) :
    HorizontalAlign.codec.Keeps a :=
  enumeration_keeps (by cases a <;> rfl)

@[simp] theorem Placement.codec_keeps (p : Placement) : Placement.codec.Keeps p :=
  enumeration_keeps (by cases p <;> rfl)

@[simp] theorem RowCountMode.codec_keeps (m : RowCountMode) : RowCountMode.codec.Keeps m :=
  enumeration_keeps (by cases m <;> rfl)

@[simp] theorem EnableOnSelect.codec_keeps (e : EnableOnSelect) : EnableOnSelect.codec.Keeps e :=
  enumeration_keeps (by cases e <;> rfl)

@[simp] theorem Availability.codec_keeps (a : Availability) : Availability.codec.Keeps a :=
  enumeration_keeps (by cases a <;> rfl)

@[simp] theorem ColumnKind.codec_keeps (k : ColumnKind) : ColumnKind.codec.Keeps k :=
  enumeration_keeps (by cases k <;> rfl)

@[simp] theorem ExportType.codec_keeps (t : ExportType) : ExportType.codec.Keeps t :=
  enumeration_keeps (by cases t <;> rfl)

@[simp] theorem ActionKind.codec_keeps (k : ActionKind) : ActionKind.codec.Keeps k :=
  enumeration_keeps (by cases k <;> rfl)

@[simp] theorem RowAction.codec_keeps (a : RowAction) : RowAction.codec.Keeps a :=
  enumeration_keeps (by cases a <;> rfl)

@[simp] theorem SelectionValue.codec_keeps (v : SelectionValue) : SelectionValue.codec.Keeps v :=
  enumeration_keeps (by cases v <;> rfl)

/-! ### Paths -/

theorem memberCodec_keeps (name text : String) : (memberCodec name).Keeps text := by
  refine .record rfl rfl rfl (List.nodup_singleton name) (by simp) fun m hm => ?_
  simp only [List.forall_mem_cons, put_fst] at hm
  simp [hm]

@[simp] theorem pathCodec_keeps (p : PropertyPath) : pathCodec.Keeps p := memberCodec_keeps _ p

@[simp] theorem annotationPathCodec_keeps (p : String) : annotationPathCodec.Keeps p :=
  memberCodec_keeps _ p

/-! ### Dynamic values -/

namespace Dynamic

/-- A literal is kept if it is not taken for a path. -/
theorem codec_keeps {α : Type} {c : Codec α} {d : Dynamic α}
    (h : ∀ a, d = .literal a → c.Keeps a ∧ pathCodec.read (c.write a) = none) :
    (codec c).Keeps d := by
  refine readable_keeps ?_
  cases d with
  | path p =>
    have hp := pathCodec_keeps p
    refine ⟨?_, hp.isPlain, hp.ne_null⟩
    rw [lenientCodec]
    dsimp only
    rw [hp.read_write]
  | literal a =>
    obtain ⟨ha, hpath⟩ := h a rfl
    refine ⟨?_, ha.isPlain, ha.ne_null⟩
    rw [lenientCodec]
    dsimp only
    rw [hpath, ha.read_write, Option.map_some]

@[simp] theorem flag_keeps (d : Dynamic Bool) : flag.Keeps d :=
  codec_keeps fun b _ => ⟨Codec.flag_keeps b, rfl⟩

@[simp] theorem text_keeps (d : Dynamic String) : text.Keeps d :=
  codec_keeps fun s _ => ⟨Codec.text_keeps s, rfl⟩

end Dynamic

end TableCompiler
