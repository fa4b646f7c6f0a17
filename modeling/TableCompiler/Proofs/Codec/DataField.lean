import TableCompiler.Proofs.Codec.RecordType

/-!
# Data fields read back

A record is written with its type in full and read by the rules of that type.

* `DataField.codec_keeps` — records of any type;
* `FieldGroup.codec_keeps`, `SortOrder.codec_keeps`, `PresentationVariant.codec_keeps`;
* `DataPoint.codec_keeps` — data points, if their target value is no literal or a finite one.
-/

namespace TableCompiler

open Codec

/-! ### Written records -/

@[simp] theorem FieldAnnotations.codec_keeps (a : FieldAnnotations) :
    FieldAnnotations.codec.Keeps a := by
  refine .record rfl rfl rfl (by decide) (by simp) fun m hm => ?_
  simp only [List.forall_mem_cons, putSet_fst] at hm
  simp [hm]

namespace DataField

theorem toJson_isPlain {typeName : String} {members : List (String × Option Json)}
    (hnodup : ("$Type" :: members.map (·.1)).Nodup)
    (hplain : ∀ member ∈ members, HasPlainValue member) :
    (Json.record (typeMember typeName :: members)).IsPlain := by
  refine Json.isPlain_record hnodup ?_
  rw [List.forall_mem_cons]
  exact ⟨put_hasPlainValue (text_keeps typeName), hplain⟩

/-- A written record is read as one of its type. -/
theorem ofJson?_record {typeName : String} {members : List (String × Option Json)}
    (hnodup : ("$Type" :: members.map (·.1)).Nodup)
    (hplain : ∀ member ∈ members, HasPlainValue member) :
    ofJson? (.record (typeMember typeName :: members)) =
      ofMembers typeName (.record (typeMember typeName :: members)) := by
  have hnames : ((typeMember typeName :: members).map (·.1)).Nodup := hnodup
  have hmember : (Json.record (typeMember typeName :: members)).member? "$Type" =
      some (.str typeName) := Json.member?_record hnames List.mem_cons_self
  rw [ofJson?, (toJson_isPlain hnodup hplain).settle, hmember]

/-- A record is kept if its members have names of their own and read back one by one. -/
theorem codec_keeps_of {field : DataField} (name : String) (names : List String)
    {members : List (String × Option Json)} {read : Members → Option DataField}
    (hwrite : field.toJson = .record (typeMember (fullName name) :: members))
    (hread : ∀ j, ofMembers (fullName name) j = (j.members? names).bind read)
    (hnames : members.map (·.1) = names) (hnodup : ("$Type" :: names).Nodup)
    (hplain : ∀ member ∈ members, HasPlainValue member)
    (hmembers : ∀ m : Members, (∀ member ∈ members, m member.1 = member.2) →
      read m = some field) : codec.Keeps field := by
  subst hnames
  have hjson := (ofJson?_record hnodup hplain).trans (hread _)
  have hall : ∀ member ∈ typeMember (fullName name) :: members, HasPlainValue member :=
    List.forall_mem_cons.2 ⟨put_hasPlainValue (text_keeps _), hplain⟩
  exact readable_keeps (.tagged hwrite hjson rfl hnodup hall hmembers)

/-- Records that show a value. -/
theorem codec_keeps_value (f : ValueField) : codec.Keeps (.value f) := by
  obtain ⟨kind, value, label, annotations⟩ := f
  cases kind with
  | plain =>
    apply codec_keeps_of "DataField" ["Value", "Label", "annotations"] rfl
    · intro j
      rw [ofMembers, shortName?_fullName]
      rfl
    · rfl
    · decide
    · simp [toMembers]
    · intro m hm
      simp only [toMembers, List.forall_mem_cons, put_fst, putNullable_fst] at hm
      simp [readAnnotations, hm]
  | withUrl url =>
    apply codec_keeps_of "DataFieldWithUrl" ["Value", "Label", "Url", "annotations"] rfl
    · intro j
      rw [ofMembers, shortName?_fullName]
      rfl
    · rfl
    · decide
    · simp [toMembers]
    · intro m hm
      simp only [toMembers, List.forall_mem_cons, put_fst, putNullable_fst] at hm
      simp [readAnnotations, hm]
  | withNavigationPath target =>
    apply codec_keeps_of "DataFieldWithNavigationPath"
      ["Value", "Label", "Target", "annotations"] rfl
    · intro j
      rw [ofMembers, shortName?_fullName]
      rfl
    · rfl
    · decide
    · simp [toMembers]
    · intro m hm
      simp only [toMembers, List.forall_mem_cons, put_fst, putNullable_fst] at hm
      simp [readAnnotations, hm]
  | withAction a =>
    apply codec_keeps_of "DataFieldWithAction" ["Value", "Label", "Action", "annotations"] rfl
    · intro j
      rw [ofMembers, shortName?_fullName]
      rfl
    · rfl
    · decide
    · simp [toMembers]
    · intro m hm
      simp only [toMembers, List.forall_mem_cons, put_fst, putNullable_fst] at hm
      simp [readAnnotations, hm]
  | withIntent object a =>
    apply codec_keeps_of "DataFieldWithIntentBasedNavigation"
      ["Value", "Label", "SemanticObject", "Action", "annotations"] rfl
    · intro j
      rw [ofMembers, shortName?_fullName]
      rfl
    · rfl
    · decide
    · simp [toMembers]
    · intro m hm
      simp only [toMembers, List.forall_mem_cons, put_fst, putNullable_fst] at hm
      simp [readAnnotations, hm]

/-- **Data fields read back**, whatever their type. -/
@[simp] theorem codec_keeps (field : DataField) : codec.Keeps field := by
  cases field with
  | value f => exact codec_keeps_value f
  | reference f =>
    apply codec_keeps_of "DataFieldForAnnotation" ["Label", "Target", "annotations"] rfl
    · intro j
      rw [ofMembers, shortName?_fullName]
      rfl
    · rfl
    · decide
    · simp [toMembers]
    · intro m hm
      simp only [toMembers, List.forall_mem_cons, put_fst, putNullable_fst] at hm
      simp [readAnnotations, hm]
  | action f =>
    apply codec_keeps_of "DataFieldForAction"
      ["Label", "Action", "Inline", "Determining", "InvocationGrouping", "annotations"] rfl
    · intro j
      rw [ofMembers, shortName?_fullName]
      rfl
    · rfl
    · decide
    · simp [toMembers]
    · intro m hm
      simp only [toMembers, List.forall_mem_cons, put_fst, putNullable_fst] at hm
      simp [readAnnotations, hm]
  | intent f =>
    apply codec_keeps_of "DataFieldForIntentBasedNavigation"
      ["Label", "SemanticObject", "Action", "RequiresContext", "NavigationAvailable", "Inline",
        "Determining", "annotations"] rfl
    · intro j
      rw [ofMembers, shortName?_fullName]
      rfl
    · rfl
    · decide
    · simp [toMembers]
    · intro m hm
      simp only [toMembers, List.forall_mem_cons, put_fst, putNullable_fst] at hm
      simp [readAnnotations, hm]
  | unknown =>
    have hnodup : ("$Type" :: ([] : List (String × Option Json)).map (·.1)).Nodup := by decide
    have hplain : ∀ member ∈ ([] : List (String × Option Json)), HasPlainValue member := by simp
    have hshort : shortName? "Unknown" = none := by decide
    have hread : ofJson? (.record [typeMember "Unknown"]) = some .unknown := by
      rw [ofJson?_record hnodup hplain, ofMembers, hshort]
    exact readable_keeps ⟨hread, toJson_isPlain hnodup hplain, Json.noConfusion⟩

end DataField

/-! ### Annotations made of records and paths -/

@[simp] theorem FieldGroup.codec_keeps (g : FieldGroup) : FieldGroup.codec.Keeps g := by
  refine .record rfl rfl rfl (by decide) (by simp) fun m hm => ?_
  simp only [List.forall_mem_cons, put_fst, putNullable_fst] at hm
  simp [hm]

/-- Numbers are kept unless they are none. -/
theorem Number.codec_keeps {x : Number} (h : x.isFinite = true) : Number.codec.Keeps x := by
  refine ⟨?_, ⟨h, rfl⟩, Json.noConfusion⟩
  rw [codec]
  exact if_pos h

theorem DataPoint.codec_keeps {p : DataPoint}
    (h : ∀ x, p.targetValue = some (.literal x) → x.isFinite = true) : DataPoint.codec.Keeps p := by
  have htarget : ∀ d, p.targetValue = some d → (Dynamic.codec Number.codec).Keeps d := by
    rintro d hd
    refine Dynamic.codec_keeps fun x hx => ⟨Number.codec_keeps (h x ?_), rfl⟩
    rw [hd, hx]
  refine .record rfl rfl rfl (by decide) ?_ fun m hm => ?_
  · simp [putNullable_hasPlainValue htarget]
  · simp only [List.forall_mem_cons, put_fst, putNullable_fst] at hm
    simp [hm, elim_putNullable htarget]

@[simp] theorem SortOrder.codec_keeps (o : SortOrder) : SortOrder.codec.Keeps o := by
  refine .record rfl rfl rfl (by decide) (by simp) fun m hm => ?_
  simp only [List.forall_mem_cons, put_fst] at hm
  simp [hm]

@[simp] theorem PresentationVariant.codec_keeps (v : PresentationVariant) :
    PresentationVariant.codec.Keeps v := by
  refine .record rfl rfl rfl (by decide) (by simp) fun m hm => ?_
  simp only [List.forall_mem_cons, put_fst, putNullable_fst] at hm
  simp [hm]

end TableCompiler
