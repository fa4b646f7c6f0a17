import TableCompiler.DataField.Codec
import TableCompiler.Proofs.Codec.Vocabulary
import TableCompiler.Proofs.Text

/-!
# How data fields are read

The type of a record decides which members are read and how.  What a type asks of its members is
stated as a list of rules, one for each member, so that the only cause for which a record is refused
can be named: a member that the type must have is missing, or a member is ill-typed.

* `DataField.IsKnown` — the names of known types, in full and by alias;
* `MemberRule`, `DataField.rules?` — what a type asks of its members;
* `Members.GoesBy` — a reader of members that succeeds as rules say, built up member by member;
* `DataField.ofMembers_cases` — a record is of a known type and read by its rules, or of unknown
  type;
* `DataField.codec_read_eq_none_iff`, `DataField.codec_read_of_not_isKnown` — which records are
  refused and which are of unknown type;
* `DataField.codec_read_withAlias` — the vocabulary in full or by alias makes no difference.
-/

namespace TableCompiler

open Codec

/-! ### Names of types -/

namespace DataField

/-- The types of records that are known, without their vocabulary. -/
def knownTypes : List String := [
  "DataField", "DataFieldWithUrl", "DataFieldWithNavigationPath", "DataFieldWithAction",
  "DataFieldWithIntentBasedNavigation", "DataFieldForAnnotation", "DataFieldForAction",
  "DataFieldForIntentBasedNavigation"]

/-- The name of a type by the alias of its vocabulary. -/
def aliasName (name : String) : String := "UI." ++ name

theorem shortName?_fullName (name : String) : shortName? (fullName name) = some name := by
  have hfull : Text.stripStart? "com.sap.vocabularies.UI.v1." (fullName name) = some name :=
    Text.stripStart?_eq_some_iff.2 rfl
  rw [shortName?, hfull]

theorem shortName?_aliasName (name : String) : shortName? (aliasName name) = some name := by
  have hfull : Text.stripStart? "com.sap.vocabularies.UI.v1." (aliasName name) = none := by
    rw [Option.eq_none_iff_forall_ne_some]
    intro rest h
    -- the two names differ in their first character
    have hlist := congrArg String.toList (Text.stripStart?_eq_some_iff.1 h)
    rw [aliasName, String.toList_append, String.toList_append] at hlist
    exact absurd (List.cons.inj hlist).1 (by decide)
  rw [shortName?, hfull]
  exact Text.stripStart?_eq_some_iff.2 rfl

/-- The vocabulary is given in full or by alias. -/
theorem shortName?_eq_some_iff {typeName name : String} :
    shortName? typeName = some name ↔ typeName = fullName name ∨ typeName = aliasName name := by
  constructor
  · intro h
    rw [shortName?] at h
    split at h
    · rename_i short hshort
      obtain rfl := Option.some.inj h
      exact .inl (Text.stripStart?_eq_some_iff.1 hshort)
    · exact .inr (Text.stripStart?_eq_some_iff.1 h)
  · rintro (rfl | rfl)
    · exact shortName?_fullName name
    · exact shortName?_aliasName name

/-- Whether a text names a known type, in full or by alias. -/
def IsKnown (typeName : String) : Prop :=
  ∃ name ∈ knownTypes, typeName = fullName name ∨ typeName = aliasName name

end DataField

/-! ### Rules for members -/

/-- What the reader of a record asks of one of its members. -/
structure MemberRule where
  name : String
  /-- Whether the member must be there. -/
  needed : Bool
  /-- Whether a value has the type of the member. -/
  accepts : Json → Bool

namespace MemberRule

variable {α : Type}

/-- A member that must be there. -/
def required (name : String) (c : Codec α) : MemberRule :=
  ⟨name, true, fun value => (c.read value).isSome⟩

/-- A member that may be missing or `null`. -/
def optional (name : String) (c : Codec α) : MemberRule :=
  ⟨name, false, fun value => (c.nullable.read value).isSome⟩

/-- A member with a default. -/
def defaulted (name : String) (c : Codec α) : MemberRule :=
  ⟨name, false, fun value => (c.read value).isSome⟩

/-- Whether a member is there if it must be, and of its type if it is there. -/
def allows (rule : MemberRule) : Option Json → Bool
  | none => !rule.needed
  | some value => rule.accepts value

end MemberRule

/-- A reader of members goes by rules: it succeeds just when the members are as these say. -/
def Members.GoesBy {α : Type} (read : Members → Option α) (rules : List MemberRule) : Prop :=
  ∀ m, (read m).isSome = rules.all fun rule => rule.allows (m rule.name)

namespace Members.GoesBy

variable {α β : Type} {rule : MemberRule} {first rules : List MemberRule}
  {read : Members → Option β} {rest : Members → β → Option α}

theorem required (name : String) (c : Codec α) :
    GoesBy (fun m => m.required name c) [.required name c] := by
  intro m
  show (m.required name c).isSome = ((MemberRule.required name c).allows (m name) && true)
  rw [Bool.and_true, Members.required]
  cases m name <;> rfl

theorem optional (name : String) (c : Codec α) :
    GoesBy (fun m => m.optional name c) [.optional name c] := by
  intro m
  show (m.optional name c).isSome = ((MemberRule.optional name c).allows (m name) && true)
  rw [Bool.and_true, Members.optional, orElse]
  cases m name <;> rfl

theorem defaulted (name : String) (c : Codec α) (default : α) :
    GoesBy (fun m => m.orElse name c default) [.defaulted name c] := by
  intro m
  show (m.orElse name c default).isSome = ((MemberRule.defaulted name c).allows (m name) && true)
  rw [Bool.and_true, orElse]
  cases m name <;> rfl

/-- Nothing is left to be read. -/
theorem done (f : Members → α) : GoesBy (fun m => some (f m)) [] := fun _ => rfl

/-- **Reading one after the other.**  What is read first decides neither whether the rest succeeds
nor by which rules it goes. -/
theorem bind (h : GoesBy read first) (hrest : ∀ b, GoesBy (fun m => rest m b) rules) :
    GoesBy (fun m => (read m).bind (rest m)) (first ++ rules) := by
  intro m
  show ((read m).bind (rest m)).isSome = _
  rw [List.all_append, ← h m]
  cases hread : read m with
  | none => rfl
  | some b => exact hrest b m

theorem member (h : GoesBy read [rule]) (hrest : ∀ b, GoesBy (fun m => rest m b) rules) :
    GoesBy (fun m => (read m).bind (rest m)) (rule :: rules) :=
  h.bind hrest

theorem map (h : GoesBy read rules) (f : β → α) : GoesBy (fun m => (read m).map f) rules :=
  fun m => Option.isSome_map.trans (h m)

/-- The order of rules does not matter. -/
theorem perm (h : GoesBy read first) (hperm : first.Perm rules) : GoesBy read rules :=
  fun m => (h m).trans hperm.all_eq

end Members.GoesBy

namespace DataField

/-- The rules for a record that shows a value. -/
def valueRules (more : List MemberRule) : List MemberRule :=
  [.required "Value" pathCodec, .optional "Label" .text] ++ more ++
    [.defaulted "annotations" FieldAnnotations.codec]

/-- The rules for the records of a type, if the type is known. -/
def rules? (typeName : String) : Option (List MemberRule) :=
  match shortName? typeName with
  | some "DataField" => some (valueRules [])
  | some "DataFieldWithUrl" => some (valueRules [.optional "Url" Dynamic.text])
  | some "DataFieldWithNavigationPath" => some (valueRules [.required "Target" pathCodec])
  | some "DataFieldWithAction" => some (valueRules [.required "Action" .text])
  | some "DataFieldWithIntentBasedNavigation" =>
    some (valueRules [.required "SemanticObject" .text, .optional "Action" .text])
  | some "DataFieldForAnnotation" => some [.optional "Label" .text,
      .required "Target" annotationPathCodec, .defaulted "annotations" FieldAnnotations.codec]
  | some "DataFieldForAction" => some [.optional "Label" .text, .required "Action" .text,
      .defaulted "Inline" .flag, .defaulted "Determining" .flag,
      .optional "InvocationGrouping" .text, .defaulted "annotations" FieldAnnotations.codec]
  | some "DataFieldForIntentBasedNavigation" => some [.optional "Label" .text,
      .required "SemanticObject" .text, .optional "Action" .text,
      .optional "RequiresContext" Dynamic.flag, .optional "NavigationAvailable" Dynamic.flag,
      .defaulted "Inline" .flag, .defaulted "Determining" .flag,
      .defaulted "annotations" FieldAnnotations.codec]
  | _ => none

theorem isKnown_iff {typeName : String} : IsKnown typeName ↔ rules? typeName ≠ none := by
  simp only [IsKnown, ← shortName?_eq_some_iff]
  rw [rules?]
  generalize shortName? typeName = short
  constructor
  · rintro ⟨name, hname, rfl⟩
    revert name
    decide
  · intro h
    split at h
    all_goals first | exact absurd rfl h | exact ⟨_, by decide, rfl⟩

/-- How the records of a type are read: from the members that the rules name, if these are as the
rules say. -/
structure IsReadBy (read : Json → Option DataField) (rules : List MemberRule) : Prop where
  exists_members : ∃ ofMembers : Members → Option DataField,
    (∀ j, read j = (j.members? (rules.map (·.name))).bind ofMembers) ∧
    Members.GoesBy ofMembers rules
  type_not_mem : "$Type" ∉ rules.map (·.name)

theorem goesBy_readAnnotations :
    Members.GoesBy readAnnotations [.defaulted "annotations" FieldAnnotations.codec] :=
  .defaulted _ _ _

theorem readValue_isReadBy {kind : Members → Option ValueField.Kind} (more : List MemberRule)
    (hkind : Members.GoesBy kind more) (htype : "$Type" ∉ more.map (·.name)) :
    IsReadBy (readValue (more.map (·.name)) kind) (valueRules more) := by
  have hnames : (valueRules more).map (·.name) =
      ["Value", "Label"] ++ more.map (·.name) ++ ["annotations"] := by
    rw [valueRules, List.map_append, List.map_append]
    rfl
  -- the members of the type are read first, but stand before the annotations
  have horder : List.Perm (more ++ ([.required "Value" pathCodec, .optional "Label" .text] ++
      [.defaulted "annotations" FieldAnnotations.codec])) (valueRules more) := by
    rw [valueRules, List.append_assoc]
    exact List.perm_append_comm_assoc more _ _
  constructor
  · rw [hnames]
    refine ⟨_, fun j => rfl, ?_⟩
    exact Members.GoesBy.perm (hkind.bind fun _ => .member (.required _ _) fun _ =>
      .member (.optional _ _) fun _ => .member goesBy_readAnnotations fun _ => .done _) horder
  · rw [hnames]
    simp [htype]

theorem readReference_isReadBy : IsReadBy readReference
    [.optional "Label" .text, .required "Target" annotationPathCodec,
      .defaulted "annotations" FieldAnnotations.codec] :=
  ⟨⟨_, fun _ => rfl, .member (.optional _ _) fun _ => .member (.required _ _) fun _ =>
    .member goesBy_readAnnotations fun _ => .done _⟩, by decide⟩

theorem readAction_isReadBy : IsReadBy readAction
    [.optional "Label" .text, .required "Action" .text, .defaulted "Inline" .flag,
      .defaulted "Determining" .flag, .optional "InvocationGrouping" .text,
      .defaulted "annotations" FieldAnnotations.codec] :=
  ⟨⟨_, fun _ => rfl, .member (.optional _ _) fun _ => .member (.required _ _) fun _ =>
    .member (.defaulted _ _ _) fun _ => .member (.defaulted _ _ _) fun _ =>
    .member (.optional _ _) fun _ => .member goesBy_readAnnotations fun _ => .done _⟩, by decide⟩

theorem readIntent_isReadBy : IsReadBy readIntent
    [.optional "Label" .text, .required "SemanticObject" .text, .optional "Action" .text,
      .optional "RequiresContext" Dynamic.flag, .optional "NavigationAvailable" Dynamic.flag,
      .defaulted "Inline" .flag, .defaulted "Determining" .flag,
      .defaulted "annotations" FieldAnnotations.codec] :=
  ⟨⟨_, fun _ => rfl, .member (.optional _ _) fun _ => .member (.required _ _) fun _ =>
    .member (.optional _ _) fun _ => .member (.optional _ _) fun _ =>
    .member (.optional _ _) fun _ => .member (.defaulted _ _ _) fun _ =>
    .member (.defaulted _ _ _) fun _ => .member goesBy_readAnnotations fun _ => .done _⟩, by decide⟩

/-- **Types of records.**  A record of a known type is read by the rules of the type, and any other
is of unknown type. -/
theorem ofMembers_cases (typeName : String) :
    (rules? typeName = none ∧ ∀ j, ofMembers typeName j = some .unknown) ∨
      ∃ rules, rules? typeName = some rules ∧ IsReadBy (ofMembers typeName) rules := by
  unfold ofMembers rules?
  generalize shortName? typeName = short
  split
  · exact .inr ⟨_, rfl, readValue_isReadBy [] (.done _) (by decide)⟩
  · exact .inr ⟨_, rfl, readValue_isReadBy [.optional "Url" _] (.map (.optional _ _) _) (by decide)⟩
  · exact .inr ⟨_, rfl, readValue_isReadBy [.required "Target" _] (.map (.required _ _) _) (by decide)⟩
  · exact .inr ⟨_, rfl, readValue_isReadBy [.required "Action" _] (.map (.required _ _) _) (by decide)⟩
  · exact .inr ⟨_, rfl, readValue_isReadBy [.required "SemanticObject" _, .optional "Action" _]
      (.member (.required _ _) fun _ => .member (.optional _ _) fun _ => .done _) (by decide)⟩
  · exact .inr ⟨_, rfl, readReference_isReadBy⟩
  · exact .inr ⟨_, rfl, readAction_isReadBy⟩
  · exact .inr ⟨_, rfl, readIntent_isReadBy⟩
  · refine .inl ⟨rfl, fun j => ?_⟩
    grind

/-! ### Records that are refused -/

/-- A record names a known type, and one of its members is missing or ill-typed. -/
def IsRefused (j : Json) : Prop :=
  ∃ typeName rules, j.member? "$Type" = some (.str typeName) ∧ rules? typeName = some rules ∧
    ∃ rule ∈ rules, rule.allows (j.settle.member? rule.name) = false

theorem IsReadBy.eq_none_iff {read : Json → Option DataField} {rules : List MemberRule}
    (h : IsReadBy read rules) (members : List (String × Json)) :
    read (Json.obj members).settle = none ↔
      ∃ rule ∈ rules, rule.allows ((Json.obj members).settle.member? rule.name) = false := by
  obtain ⟨ofMembers, hread, hsome⟩ := h.exists_members
  obtain ⟨m, hm, hgiven⟩ := Json.exists_members? (Json.nodup_settleMembers members)
    (rules.map (·.name))
  rw [hread, Json.settle, hm, Option.bind_some, ← Option.not_isSome_iff_eq_none, hsome,
    Bool.not_eq_true, List.all_eq_false]
  refine exists_congr fun rule => and_congr_right fun hrule => ?_
  rw [hgiven rule.name (List.mem_map_of_mem hrule), Bool.not_eq_true]

theorem ofMembers_settle_eq_none_iff (typeName : String) (members : List (String × Json)) :
    ofMembers typeName (Json.obj members).settle = none ↔ ∃ rules, rules? typeName = some rules ∧
      ∃ rule ∈ rules, rule.allows ((Json.obj members).settle.member? rule.name) = false := by
  rcases ofMembers_cases typeName with ⟨hrules, hread⟩ | ⟨rules, hrules, hread⟩
  · rw [hread, hrules]
    exact ⟨nofun, nofun⟩
  · rw [hread.eq_none_iff, hrules]
    exact ⟨fun h => ⟨rules, rfl, h⟩, fun ⟨_, hsame, h⟩ => Option.some.inj hsame ▸ h⟩

theorem codec_read {j : Json} (h : j.isReadable = true) : codec.read j = ofJson? j :=
  if_pos h

/-- A value that names no known type is a record of unknown type, whatever else there is. -/
theorem codec_read_of_not_isKnown {j : Json} (h : j.isReadable = true)
    (hunknown : ∀ typeName, j.member? "$Type" = some (.str typeName) → ¬ IsKnown typeName) :
    codec.read j = some .unknown := by
  rw [codec_read h, ofJson?]
  split
  · rename_i typeName hsettled
    rw [Json.member?_settle, Option.map_eq_some_iff] at hsettled
    obtain ⟨value, hmember, hvalue⟩ := hsettled
    obtain rfl := Json.settle_eq_str_iff.1 hvalue
    rcases ofMembers_cases typeName with ⟨-, hread⟩ | ⟨rules, hrules, -⟩
    · exact hread _
    · refine absurd (isKnown_iff.2 ?_) (hunknown typeName hmember)
      rw [hrules]
      exact Option.some_ne_none rules
  · rfl

/-- **Refused records.**  Nothing but a member of a record of a known type makes a value
unacceptable: if the type is not known, or not named, it does not matter what else is there. -/
theorem codec_read_eq_none_iff {j : Json} (h : j.isReadable = true) :
    codec.read j = none ↔ IsRefused j := by
  by_cases hnamed : ∃ typeName, j.member? "$Type" = some (.str typeName)
  · obtain ⟨typeName, hname⟩ := hnamed
    obtain ⟨members, rfl⟩ := Json.exists_obj_of_member? hname
    have hread : codec.read (.obj members) = ofMembers typeName (Json.obj members).settle := by
      rw [codec_read h, ofJson?, Json.member?_settle, hname]
      rfl
    rw [hread, ofMembers_settle_eq_none_iff]
    constructor
    · rintro ⟨rules, hrules, hrule⟩
      exact ⟨typeName, rules, hname, hrules, hrule⟩
    · rintro ⟨other, rules, hother, hrules, hrule⟩
      obtain rfl := Json.str.inj (Option.some.inj (hname.symm.trans hother))
      exact ⟨rules, hrules, hrule⟩
  · have hread : codec.read j = some .unknown :=
      codec_read_of_not_isKnown h fun typeName hname => absurd ⟨typeName, hname⟩ hnamed
    rw [hread]
    refine iff_of_false (Option.some_ne_none _) ?_
    rintro ⟨typeName, rules, hname, -⟩
    exact hnamed ⟨typeName, hname⟩

/-! ### Names by alias -/

/-- The name of a type with its vocabulary by alias instead of in full. -/
def aliased : Json → Json
  | .str typeName =>
    match Text.stripStart? "com.sap.vocabularies.UI.v1." typeName with
    | some name => .str (aliasName name)
    | none => .str typeName
  | j => j

/-- A record with the name of its type by alias instead of in full. -/
def withAlias (j : Json) : Json := j.mapMember "$Type" aliased

theorem exists_aliased_str (typeName : String) :
    ∃ other, aliased (.str typeName) = .str other ∧ ofMembers other = ofMembers typeName := by
  rw [aliased]
  split
  · rename_i name hname
    obtain rfl := Text.stripStart?_eq_some_iff.1 hname
    refine ⟨aliasName name, rfl, funext fun j => ?_⟩
    have hfull : shortName? ("com.sap.vocabularies.UI.v1." ++ name) = some name :=
      shortName?_fullName name
    rw [ofMembers, ofMembers, shortName?_aliasName, hfull]
  · exact ⟨typeName, rfl, rfl⟩

theorem ofMembers_withAlias (typeName : String) (j : Json) :
    ofMembers typeName (withAlias j) = ofMembers typeName j := by
  rcases ofMembers_cases typeName with ⟨-, hread⟩ | ⟨rules, -, hread⟩
  · rw [hread, hread]
  · obtain ⟨read, hmembers, -⟩ := hread.exists_members
    rw [hmembers, hmembers, withAlias, Json.members?_mapMember hread.type_not_mem]

theorem ofJson?_withAlias (j : Json) : ofJson? (withAlias j) = ofJson? j := by
  have hsettle : (withAlias j).settle = withAlias j.settle := by
    refine Json.settle_mapMember (fun named => ?_) j
    cases named with
    | str typeName =>
      obtain ⟨other, hother, -⟩ := exists_aliased_str typeName
      rw [hother]
      exact hother.symm
    | _ => rfl
  rw [ofJson?, ofJson?, hsettle]
  have hmember : (withAlias j.settle).member? "$Type" =
      (j.settle.member? "$Type").map aliased := Json.member?_mapMember j.settle
  rw [hmember]
  cases j.settle.member? "$Type" with
  | none => rfl
  | some value =>
    cases value with
    | str typeName =>
      obtain ⟨other, hother, hsame⟩ := exists_aliased_str typeName
      rw [Option.map_some, hother]
      dsimp only
      rw [hsame, ofMembers_withAlias]
    | _ => rfl

/-- **Aliases.**  A record reads the same whether its type is named in full or by alias. -/
theorem codec_read_withAlias (j : Json) : codec.read (withAlias j) = codec.read j := by
  have hreadable : (withAlias j).isReadable = j.isReadable := by
    refine Json.isReadable_mapMember (fun named => ?_) j
    cases named with
    | str typeName =>
      obtain ⟨other, hother, -⟩ := exists_aliased_str typeName
      rw [hother]
      rfl
    | _ => rfl
  rw [codec, readable]
  dsimp only
  rw [hreadable, ofJson?_withAlias]

end DataField

end TableCompiler
