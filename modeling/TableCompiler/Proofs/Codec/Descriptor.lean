import TableCompiler.Descriptor.Codec
import TableCompiler.Proofs.Codec.Manifest

/-!
# Table descriptors read back

A descriptor is kept whatever it says, with one exception.  A selection mode is written as a bare
string, whether it is fixed or a binding, so a binding whose text is the name of a fixed mode reads
as that mode.

* `Column.codec_keeps`, `Action.codec_keeps`, `CreateBehavior.codec_keeps`;
* `SelectionMode.IsTold`, `SelectionMode.codec_keeps_iff` — modes that are told apart;
* `TableConfiguration.codec_keeps`, `TableControl.codec_keeps`;
* `Table.codec_keeps` — the descriptor.
-/

namespace TableCompiler

open Codec

variable {α : Type} {c : Codec α}

/-! ### Columns -/

@[simp] theorem ExportSettings.codec_keeps (s : ExportSettings) : ExportSettings.codec.Keeps s := by
  refine .record rfl rfl rfl (by decide) (by simp) fun m hm => ?_
  simp only [List.forall_mem_cons, put_fst, putSet_fst] at hm
  simp [hm]

@[simp] theorem TypeConstraints.codec_keeps (c : TypeConstraints) :
    TypeConstraints.codec.Keeps c := by
  refine .record rfl rfl rfl (by decide) (by simp) fun m hm => ?_
  simp only [List.forall_mem_cons, putSet_fst] at hm
  simp [hm]

@[simp] theorem TypeConfig.codec_keeps (c : TypeConfig) : TypeConfig.codec.Keeps c := by
  refine .record rfl rfl rfl (by decide) (by simp) fun m hm => ?_
  simp only [List.forall_mem_cons, put_fst] at hm
  simp [hm]

@[simp] theorem CustomAggregateDefinition.codec_keeps (d : CustomAggregateDefinition) :
    CustomAggregateDefinition.codec.Keeps d := by
  refine .record rfl rfl rfl (by decide) (by simp) fun m hm => ?_
  simp only [List.forall_mem_cons, putSet_fst, putList_fst] at hm
  simp [hm]

@[simp] theorem ColumnExtension.codec_keeps (e : ColumnExtension) :
    ColumnExtension.codec.Keeps e := by
  refine .record rfl rfl rfl (by decide) (by simp) fun m hm => ?_
  simp only [List.forall_mem_cons, putSet_fst] at hm
  simp [hm]

@[simp] theorem Column.codec_keeps (c : Column) : Column.codec.Keeps c := by
  refine .record rfl rfl rfl (by decide) (by simp) fun m hm => ?_
  simp only [List.forall_mem_cons, put_fst, putSet_fst, putList_fst] at hm
  simp [hm]

@[simp] theorem AggregateDefinition.codec_keeps (d : AggregateDefinition) :
    AggregateDefinition.codec.Keeps d := by
  refine .record rfl rfl rfl (by decide) (by simp) fun m hm => ?_
  simp only [List.forall_mem_cons, put_fst] at hm
  simp [hm]

/-! ### Actions -/

@[simp] theorem Action.codec_keeps (a : Action) : Action.codec.Keeps a := by
  refine .record rfl rfl rfl (by decide) (by simp) fun m hm => ?_
  simp only [List.forall_mem_cons, put_fst, putSet_fst] at hm
  simp [hm]

/-! ### Behaviour -/

namespace SelectionMode

/-- A binding does not spell a fixed mode. -/
def IsTold : SelectionMode → Prop
  | .fixed _ => True
  | .binding text => ∀ value : SelectionValue, value.name ≠ text

/-- **Selection modes** are kept exactly if a binding does not spell a fixed one. -/
theorem codec_keeps_iff {mode : SelectionMode} : codec.Keeps mode ↔ mode.IsTold := by
  cases mode with
  | fixed value =>
    have hvalue := value.codec_keeps
    refine iff_of_true ⟨?_, hvalue.isPlain, hvalue.ne_null⟩ trivial
    rw [codec]
    dsimp only
    rw [hvalue.read_write]
  | binding text =>
    have hread : SelectionValue.codec.read (.str text) =
        SelectionValue.all.find? fun value => value.name = text := rfl
    have hall : ∀ value, value ∈ SelectionValue.all := by
      intro value
      cases value <;> decide
    constructor
    · intro h value hname
      have htaken : SelectionValue.codec.read (.str text) ≠ none := by
        rw [hread, ne_eq, List.find?_eq_none]
        exact fun hnone => hnone value (hall value) (decide_eq_true hname)
      obtain ⟨other, hother⟩ := Option.ne_none_iff_exists'.1 htaken
      have hkept := h.read_write
      rw [codec] at hkept
      dsimp only at hkept
      rw [hother] at hkept
      cases hkept
    · intro h
      have hnone : SelectionValue.codec.read (.str text) = none := by
        rw [hread, List.find?_eq_none]
        exact fun value _ hname => h value (of_decide_eq_true hname)
      refine ⟨?_, Json.isPlain_str text, Json.noConfusion⟩
      rw [codec]
      dsimp only
      rw [hnone]
      rfl

-- a binding that spells a fixed mode reads as that mode
example : codec.read (codec.write (.binding "Multi")) = some (.fixed .multi) := rfl

end SelectionMode

namespace CreateBehavior

theorem kind?_record {kind : String} {members : List (String × Option Json)}
    (hnames : ((Codec.text.put "kind" kind :: members).map (·.1)).Nodup) :
    kind? (.record (Codec.text.put "kind" kind :: members)) =
      some (kind, .record (Codec.text.put "kind" kind :: members)) := by
  obtain ⟨m, hm, hgiven⟩ := Json.exists_members?_record hnames ["kind"]
  have hkind : m "kind" = (Codec.text.put "kind" kind).2 :=
    hgiven _ List.mem_cons_self List.mem_cons_self
  rw [Json.record] at hm ⊢
  rw [kind?, hm]
  simp [hkind]

/-- A behaviour is kept if it is told by its kind and its other members read back. -/
theorem codec_keeps_of {b : CreateBehavior} {kind : String}
    {members : List (String × Option Json)} {names : List String}
    {read : Members → Option CreateBehavior}
    (hwrite : b.toJson = .record (Codec.text.put "kind" kind :: members))
    (hread : ∀ j, kind? j = some (kind, j) → ofJson? j = (j.members? names).bind read)
    (hnames : members.map (·.1) = names) (hnodup : ("kind" :: names).Nodup)
    (hplain : ∀ member ∈ members, HasPlainValue member)
    (hmembers : ∀ m : Members, (∀ member ∈ members, m member.1 = member.2) → read m = some b) :
    codec.Keeps b := by
  subst hnames
  have hjson := hread _ (kind?_record hnodup)
  have hall : ∀ member ∈ Codec.text.put "kind" kind :: members, HasPlainValue member :=
    List.forall_mem_cons.2 ⟨put_hasPlainValue (text_keeps kind), hplain⟩
  exact readable_keeps (.tagged hwrite hjson rfl hnodup hall hmembers)

@[simp] theorem codec_keeps (b : CreateBehavior) : codec.Keeps b := by
  cases b with
  | inApp creation =>
    apply codec_keeps_of rfl
    · intro j hj
      have hread : ofJson? j = (InAppCreation.ofJson? j).map .inApp := by
        rw [ofJson?, hj]
        rfl
      exact hread.trans Option.map_bind
    · rfl
    · decide
    · simp [InAppCreation.toMembers]
    · intro m hm
      simp only [InAppCreation.toMembers, List.forall_mem_cons, put_fst, putSet_fst] at hm
      -- the mode of a tagged record is read by a codec of its own, but written alike
      have hmode : (CreationMode.codec.put "mode" creation.mode).2.bind
          CreationMode.taggedCodec.read = some creation.mode :=
        (CreationMode.taggedCodec_keeps creation.mode).read_write
      simp [hm, hmode]
  | external creation =>
    apply codec_keeps_of rfl
    · intro j hj
      have hread : ofJson? j = (ExternalCreation.ofJson? j).map .external := by
        rw [ofJson?, hj]
        rfl
      exact hread.trans Option.map_bind
    · rfl
    · decide
    · simp [ExternalCreation.toMembers]
    · intro m hm
      simp only [ExternalCreation.toMembers, List.forall_mem_cons, put_fst, putSet_fst] at hm
      simp [hm]

end CreateBehavior

@[simp] theorem RowConfiguration.codec_keeps (r : RowConfiguration) :
    RowConfiguration.codec.Keeps r := by
  refine .record rfl rfl rfl (by decide) (by simp) fun m hm => ?_
  simp only [List.forall_mem_cons, putSet_fst] at hm
  simp [hm]

@[simp] theorem ShowConfiguration.codec_keeps (s : ShowConfiguration) :
    ShowConfiguration.codec.Keeps s := by
  refine .record rfl rfl rfl (by decide) (by simp) fun m hm => ?_
  simp only [List.forall_mem_cons, put_fst] at hm
  simp [hm]

/-! ### Conditions -/

theorem requiredMember_keeps {name : String} {a : α} (h : c.Keeps a) :
    (requiredMember name c).Keeps a := by
  refine .record rfl rfl rfl (List.nodup_singleton name) ?_ fun m hm => ?_
  · simp [h]
  · simp only [List.forall_mem_cons, put_fst] at hm
    simp [hm, h]

@[simp] theorem emptyRecord_keeps (u : Unit) : emptyRecord.Keeps u :=
  ⟨rfl, ⟨rfl, rfl⟩, Json.noConfusion⟩

@[simp] theorem Sorter.codec_keeps (s : Sorter) : Sorter.codec.Keeps s := by
  refine .record rfl rfl rfl (by decide) (by simp) fun m hm => ?_
  simp only [List.forall_mem_cons, put_fst] at hm
  simp [hm]

@[simp] theorem sortersCodec_keeps (sorters : List Sorter) : sortersCodec.Keeps sorters :=
  requiredMember_keeps (list_keeps fun s _ => s.codec_keeps)

@[simp] theorem groupLevelsCodec_keeps (levels : List String) : groupLevelsCodec.Keeps levels :=
  requiredMember_keeps (list_keeps fun level _ => requiredMember_keeps (text_keeps level))

/-! ### The descriptor -/

theorem TableConfiguration.codec_keeps {t : TableConfiguration} (h : t.selectionMode.IsTold) :
    TableConfiguration.codec.Keeps t := by
  have hmode := SelectionMode.codec_keeps_iff.2 h
  refine .record rfl rfl rfl (by decide) ?_ fun m hm => ?_
  · simp [hmode]
  · simp only [List.forall_mem_cons, put_fst, putSet_fst] at hm
    simp [hm, hmode]

@[simp] theorem TableControl.codec_keeps (t : TableControl) : TableControl.codec.Keeps t := by
  refine .record rfl rfl rfl (by decide) (by simp) fun m hm => ?_
  simp only [List.forall_mem_cons, put_fst, putSet_fst] at hm
  simp [hm]

/-- **Descriptors read back** if their selection mode is told apart. -/
theorem Table.codec_keeps {t : Table} (h : t.configuration.selectionMode.IsTold) :
    Table.codec.Keeps t := by
  have hconfiguration := TableConfiguration.codec_keeps h
  refine .record rfl rfl rfl (by decide) ?_ fun m hm => ?_
  · simp [hconfiguration]
  · simp only [List.forall_mem_cons, put_fst, putSet_fst] at hm
    simp [hm, hconfiguration]

end TableCompiler
