import TableCompiler.Proofs.Codec.DataField
import TableCompiler.Service.Codec

/-!
# Service metadata read back

Every part of a service is kept whatever it says, but for data points whose target value is a
number without a value.

* `optionalMember_keeps`, `listMember_keeps` — records with one member;
* `Property.codec_keeps`, `EntityTypeAnnotations.codec_keeps`, `EntityType.codec_keeps`;
* `EntitySet.codec_keeps`, `Operation.codec_keeps`;
* `Service.codec_keeps` — the service.
-/

namespace TableCompiler

open Codec

variable {α : Type} {c : Codec α}

/-! ### Records with one member -/

theorem optionalMember_keeps {name : String} {a : Option α} (h : ∀ b, a = some b → c.Keeps b) :
    (optionalMember name c).Keeps a := by
  refine .record rfl rfl rfl (List.nodup_singleton name) ?_ fun m hm => ?_
  · simp [putNullable_hasPlainValue h]
  · simp only [List.forall_mem_cons, putNullable_fst] at hm
    simp [hm, elim_putNullable h]

theorem listMember_keeps {name : String} {items : List α} (h : ∀ a ∈ items, c.Keeps a) :
    (listMember name c).Keeps items := by
  refine .record rfl rfl rfl (List.nodup_singleton name) ?_ fun m hm => ?_
  · simp [put_hasPlainValue (list_keeps h)]
  · simp only [List.forall_mem_cons, put_fst] at hm
    simp [hm, elim_put (list_keeps h)]

/-! ### Types -/

@[simp] theorem PropertyAnnotations.codec_keeps (a : PropertyAnnotations) :
    PropertyAnnotations.codec.Keeps a := by
  refine .record rfl rfl rfl (by decide) (by simp) fun m hm => ?_
  simp only [List.forall_mem_cons, put_fst, putNullable_fst] at hm
  simp [hm]

@[simp] theorem Property.codec_keeps (p : Property) : Property.codec.Keeps p := by
  refine .record rfl rfl rfl (by decide) (by simp) fun m hm => ?_
  simp only [List.forall_mem_cons, put_fst, putNullable_fst] at hm
  simp [hm]

@[simp] theorem NavigationProperty.codec_keeps (p : NavigationProperty) :
    NavigationProperty.codec.Keeps p := by
  refine .record rfl rfl rfl (by decide) (by simp) fun m hm => ?_
  simp only [List.forall_mem_cons, put_fst] at hm
  simp [hm]

@[simp] theorem ComplexType.codec_keeps (t : ComplexType) : ComplexType.codec.Keeps t := by
  refine .record rfl rfl rfl (by decide) (by simp) fun m hm => ?_
  simp only [List.forall_mem_cons, put_fst] at hm
  simp [hm]

@[simp] theorem HeaderInfo.codec_keeps (h : HeaderInfo) : HeaderInfo.codec.Keeps h := by
  refine .record rfl rfl rfl (by decide) (by simp) fun m hm => ?_
  simp only [List.forall_mem_cons, putNullable_fst] at hm
  simp [hm]

@[simp] theorem ApplySupported.codec_keeps (a : ApplySupported) : ApplySupported.codec.Keeps a := by
  refine .record rfl rfl rfl (by decide) (by simp) fun m hm => ?_
  simp only [List.forall_mem_cons, put_fst] at hm
  simp [hm]

@[simp] theorem CustomAggregate.codec_keeps (a : CustomAggregate) :
    CustomAggregate.codec.Keeps a := by
  refine .record rfl rfl rfl (by decide) (by simp) fun m hm => ?_
  simp only [List.forall_mem_cons, put_fst, putNullable_fst] at hm
  simp [hm]

@[simp] theorem RecursiveHierarchy.codec_keeps (h : RecursiveHierarchy) :
    RecursiveHierarchy.codec.Keeps h := by
  refine .record rfl rfl rfl (by decide) (by simp) fun m hm => ?_
  simp only [List.forall_mem_cons, put_fst] at hm
  simp [hm]

theorem EntityTypeAnnotations.codec_keeps {a : EntityTypeAnnotations}
    (h : ∀ entry ∈ a.dataPoints.entries, DataPoint.codec.Keeps entry.2) :
    EntityTypeAnnotations.codec.Keeps a := by
  have hitems : DataField.codec.list.dictionary.Keeps a.lineItems :=
    dictionary_keeps fun _ _ => list_keeps fun field _ => field.codec_keeps
  refine .record rfl rfl rfl (by decide) ?_ fun m hm => ?_
  · simp [hitems, put_hasPlainValue (dictionary_keeps h)]
  · simp only [List.forall_mem_cons, put_fst, putNullable_fst] at hm
    simp [hm, hitems, elim_put (dictionary_keeps h)]

theorem EntityType.codec_keeps {t : EntityType}
    (h : EntityTypeAnnotations.codec.Keeps t.annotations) : EntityType.codec.Keeps t := by
  refine .record rfl rfl rfl (by decide) ?_ fun m hm => ?_
  · simp [put_hasPlainValue h]
  · simp only [List.forall_mem_cons, put_fst] at hm
    simp [hm, elim_put h]

/-! ### Entity sets -/

@[simp] theorem deleteCodec_keeps (a : Option (Dynamic Bool)) : deleteCodec.Keeps a :=
  optionalMember_keeps fun d _ => d.flag_keeps

@[simp] theorem updateCodec_keeps (a : Option (Dynamic Bool)) : updateCodec.Keeps a :=
  optionalMember_keeps fun d _ => d.flag_keeps

@[simp] theorem insertCodec_keeps (a : Option (Dynamic Bool)) : insertCodec.Keeps a :=
  optionalMember_keeps fun d _ => d.flag_keeps

@[simp] theorem NavigationRestriction.codec_keeps (r : NavigationRestriction) :
    NavigationRestriction.codec.Keeps r := by
  refine .record rfl rfl rfl (by decide) (by simp) fun m hm => ?_
  simp only [List.forall_mem_cons, put_fst, putNullable_fst] at hm
  simp [hm]

@[simp] theorem SortRestrictions.codec_keeps (r : SortRestrictions) :
    SortRestrictions.codec.Keeps r := by
  refine .record rfl rfl rfl (by decide) (by simp) fun m hm => ?_
  simp only [List.forall_mem_cons, put_fst, putNullable_fst] at hm
  simp [hm]

@[simp] theorem DraftRoot.codec_keeps (d : DraftRoot) : DraftRoot.codec.Keeps d := by
  refine .record rfl rfl rfl (by decide) (by simp) fun m hm => ?_
  simp only [List.forall_mem_cons, putNullable_fst] at hm
  simp [hm]

namespace EntitySetAnnotations

@[simp] theorem searchCodec_keeps (a : Option Bool) : searchCodec.Keeps a :=
  optionalMember_keeps fun b _ => flag_keeps b

@[simp] theorem navigationCodec_keeps (items : List NavigationRestriction) :
    navigationCodec.Keeps items :=
  listMember_keeps fun r _ => r.codec_keeps

@[simp] theorem stickyCodec_keeps (a : Option String) : stickyCodec.Keeps a :=
  optionalMember_keeps fun s _ => text_keeps s

end EntitySetAnnotations

@[simp] theorem EntitySetAnnotations.codec_keeps (a : EntitySetAnnotations) :
    EntitySetAnnotations.codec.Keeps a := by
  refine .record rfl rfl rfl (by decide) (by simp) fun m hm => ?_
  simp only [List.forall_mem_cons, putNullable_fst] at hm
  simp [hm]

@[simp] theorem EntitySet.codec_keeps (s : EntitySet) : EntitySet.codec.Keeps s := by
  refine .record rfl rfl rfl (by decide) (by simp) fun m hm => ?_
  simp only [List.forall_mem_cons, put_fst] at hm
  simp [hm]

/-! ### Operations and the service -/

@[simp] theorem Operation.annotationsCodec_keeps (a : Option (Dynamic Bool)) :
    annotationsCodec.Keeps a :=
  optionalMember_keeps fun d _ => d.flag_keeps

@[simp] theorem Operation.codec_keeps (o : Operation) : Operation.codec.Keeps o := by
  refine .record rfl rfl rfl (by decide) (by simp) fun m hm => ?_
  simp only [List.forall_mem_cons, put_fst, putNullable_fst] at hm
  simp [hm]

/-- **Services read back** if the target values of their data points do. -/
theorem Service.codec_keeps {s : Service}
    (h : ∀ t ∈ s.entityTypes, ∀ entry ∈ t.annotations.dataPoints.entries,
      DataPoint.codec.Keeps entry.2) : Service.codec.Keeps s := by
  have htypes : EntityType.codec.list.Keeps s.entityTypes :=
    list_keeps fun t ht => EntityType.codec_keeps (EntityTypeAnnotations.codec_keeps (h t ht))
  refine .record rfl rfl rfl (by decide) ?_ fun m hm => ?_
  · simp [put_hasPlainValue htypes]
  · simp only [List.forall_mem_cons, put_fst] at hm
    simp [hm, elim_put htypes]

end TableCompiler
