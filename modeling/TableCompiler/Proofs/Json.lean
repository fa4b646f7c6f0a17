import Mathlib.Data.List.Nodup
import TableCompiler.Json.Codec

/-!
# Values without repeated names

In an object whose names are distinct there is only one member of a name, whichever way it is looked
up.  Settling a value makes all names in it distinct and keeps the member that counts.

* `Json.member?_settle`, `Json.nodup_settleMembers` — what settling keeps;
* `Json.mapMember` — an object with the values under a name replaced;
* `Json.IsPlain` — readable throughout and settled, for arrays and objects from their parts;
* `Json.lookup_eq_some_iff_mem`, `Json.exists_members?` — members of an object, as a record has
  them;
* `Json.member?_record`, `Json.isPlain_record` — members of a written record.
-/

namespace TableCompiler

namespace Json

/-! ### Settling -/

theorem settleItems_eq (items : List Json) : settleItems items = items.map settle := by
  induction items with
  | nil => rfl
  | cons item items ih => rw [settleItems, List.map_cons, ih]

/-- Nothing is dropped where no name is repeated. -/
theorem settleMembers_eq {members : List (String × Json)} (h : (members.map (·.1)).Nodup) :
    settleMembers members = members.map fun member => (member.1, member.2.settle) := by
  induction members with
  | nil => rfl
  | cons member members ih =>
    obtain ⟨hfirst, hrest⟩ := List.nodup_cons.1 h
    have hnot : ¬ members.any (fun other => other.1 = member.1) = true := by
      intro hany
      obtain ⟨other, hother, heq⟩ := List.any_eq_true.1 hany
      exact hfirst (List.mem_map.2 ⟨other, hother, of_decide_eq_true heq⟩)
    rw [settleMembers, if_neg hnot, ih hrest, List.map_cons]

theorem sublist_settleMembers (members : List (String × Json)) :
    ((settleMembers members).map (·.1)).Sublist (members.map (·.1)) := by
  induction members with
  | nil => exact .slnil
  | cons member rest ih =>
    obtain ⟨name, value⟩ := member
    rw [settleMembers]
    split
    · exact ih.cons name
    · exact ih.cons_cons name

/-- A settled object repeats no name. -/
theorem nodup_settleMembers (members : List (String × Json)) :
    ((settleMembers members).map (·.1)).Nodup := by
  induction members with
  | nil => exact List.nodup_nil
  | cons member rest ih =>
    obtain ⟨name, value⟩ := member
    rw [settleMembers]
    split
    · exact ih
    · rename_i hnew
      refine List.nodup_cons.2 ⟨fun hmem => hnew ?_, ih⟩
      obtain ⟨other, hother, heq⟩ := List.mem_map.1 ((sublist_settleMembers rest).mem hmem)
      exact List.any_eq_true.2 ⟨other, hother, decide_eq_true heq⟩

/-- The member of a name that counts is kept, and settled. -/
theorem member?_settle (name : String) (j : Json) :
    j.settle.member? name = (j.member? name).map settle := by
  have hmembers : ∀ members : List (String × Json),
      (settleMembers members).reverse.lookup name = (members.reverse.lookup name).map settle := by
    intro members
    induction members with
    | nil => rfl
    | cons member rest ih =>
      obtain ⟨other, value⟩ := member
      rw [settleMembers, List.reverse_cons, List.lookup_append, Option.map_or, ← ih]
      split
      · rename_i hagain
        obtain ⟨later, hlater, heq⟩ := List.any_eq_true.1 hagain
        by_cases hname : name = other
        · -- the member is dropped for a later one of its name
          have hsome : (rest.reverse.lookup name).isSome = true := by
            rw [List.lookup_isSome_iff]
            exact ⟨later, List.mem_reverse.2 hlater,
              beq_iff_eq.2 (hname.trans (of_decide_eq_true heq).symm)⟩
          rw [ih, Option.or_of_isSome]
          rwa [Option.isSome_map]
        · rw [List.lookup_cons, beq_eq_false_iff_ne.2 hname]
          exact Option.or_none.symm
      · rw [List.reverse_cons, List.lookup_append, List.lookup_cons, List.lookup_cons]
        cases name == other <;> rfl
  cases j with
  | obj members => exact hmembers members
  | _ => rfl

theorem settle_eq_str_iff {j : Json} {s : String} : j.settle = .str s ↔ j = .str s := by
  cases j <;> simp [settle]

/-! ### Readable parts -/

theorem itemsReadable_eq (items : List Json) : itemsReadable items = items.all isReadable := by
  induction items with
  | nil => rfl
  | cons item items ih => rw [itemsReadable, List.all_cons, ih]

theorem membersReadable_eq (members : List (String × Json)) :
    membersReadable members = members.all fun member => member.2.isReadable := by
  induction members with
  | nil => rfl
  | cons member members ih => rw [membersReadable, List.all_cons, ih]

/-! ### Replacing a member -/

/-- A member whose value is replaced if it has a given name. -/
def mapValue (name : String) (f : Json → Json) (member : String × Json) : String × Json :=
  (member.1, if member.1 = name then f member.2 else member.2)

/-- An object with the values under a name replaced. -/
def mapMember (name : String) (f : Json → Json) : Json → Json
  | .obj members => .obj (members.map (mapValue name f))
  | j => j

section

variable {name : String} {f : Json → Json}

theorem settle_mapMember (hf : ∀ value, (f value).settle = f value.settle) (j : Json) :
    (j.mapMember name f).settle = j.settle.mapMember name f := by
  cases j with
  | obj members =>
    refine congrArg obj ?_
    induction members with
    | nil => rfl
    | cons member rest ih =>
      obtain ⟨other, value⟩ := member
      have hagain : (rest.map (mapValue name f)).any (fun later => later.1 = other) =
          rest.any fun later => later.1 = other := List.any_map
      rw [List.map_cons, mapValue, settleMembers, settleMembers, hagain]
      split
      · exact ih
      · rw [List.map_cons, ih, mapValue]
        dsimp only
        split <;> simp only [hf]
  | _ => rfl

theorem member?_mapMember (j : Json) :
    (j.mapMember name f).member? name = (j.member? name).map f := by
  cases j with
  | obj members =>
    rw [mapMember, member?, member?, ← List.map_reverse]
    induction members.reverse with
    | nil => rfl
    | cons member rest ih =>
      obtain ⟨other, value⟩ := member
      rw [List.map_cons, mapValue, List.lookup_cons, List.lookup_cons]
      dsimp only
      by_cases hname : name = other
      · rw [if_pos hname.symm, beq_iff_eq.2 hname]
        rfl
      · rw [beq_eq_false_iff_ne.2 hname]
        exact ih
  | _ => rfl

/-- A record that does not have the name does not notice. -/
theorem members?_mapMember {names : List String} (h : name ∉ names) (j : Json) :
    (j.mapMember name f).members? names = j.members? names := by
  cases j with
  | obj members =>
    have hknown : (members.map (mapValue name f)).filter (fun member => names.contains member.1) =
        members.filter fun member => names.contains member.1 := by
      rw [List.filter_map]
      conv => rhs; rw [← List.map_id (members.filter _)]
      refine List.map_congr_left fun member hmember => ?_
      have hin : member.1 ∈ names := List.contains_iff_mem.1 (List.mem_filter.1 hmember).2
      have hne : member.1 ≠ name := fun heq => h (heq ▸ hin)
      rw [mapValue, if_neg hne]
      rfl
    simp only [mapMember, members?, hknown]
  | _ => rfl

theorem isReadable_mapMember (hf : ∀ value, (f value).isReadable = value.isReadable) (j : Json) :
    (j.mapMember name f).isReadable = j.isReadable := by
  cases j with
  | obj members =>
    rw [mapMember, isReadable, isReadable, membersReadable_eq, membersReadable_eq, List.all_map]
    congr 1
    funext member
    dsimp only [Function.comp_apply, mapValue]
    split
    · exact hf member.2
    · rfl
  | _ => rfl

end

/-! ### Plain values -/

/-- Every part of a value has a value of its own, and no object in it repeats a name. -/
structure IsPlain (j : Json) : Prop where
  isReadable : j.isReadable = true
  settle : j.settle = j

@[simp] theorem isPlain_null : Json.null.IsPlain := ⟨rfl, rfl⟩

@[simp] theorem isPlain_bool (b : Bool) : (Json.bool b).IsPlain := ⟨rfl, rfl⟩

@[simp] theorem isPlain_int (n : Int) : (Json.int n).IsPlain := ⟨rfl, rfl⟩

@[simp] theorem isPlain_str (s : String) : (Json.str s).IsPlain := ⟨rfl, rfl⟩

theorem isPlain_arr {items : List Json} (h : ∀ item ∈ items, item.IsPlain) :
    (Json.arr items).IsPlain where
  isReadable := by
    rw [Json.isReadable, itemsReadable_eq, List.all_eq_true]
    exact fun item hitem => (h item hitem).isReadable
  settle := by
    rw [Json.settle, settleItems_eq]
    have hsame : items.map Json.settle = items.map id :=
      List.map_congr_left fun item hitem => (h item hitem).settle
    rw [hsame, List.map_id]

theorem isPlain_obj {members : List (String × Json)} (hnames : (members.map (·.1)).Nodup)
    (h : ∀ member ∈ members, member.2.IsPlain) : (Json.obj members).IsPlain where
  isReadable := by
    rw [Json.isReadable, membersReadable_eq, List.all_eq_true]
    exact fun member hmember => (h member hmember).isReadable
  settle := by
    rw [Json.settle, settleMembers_eq hnames]
    have hsame : (members.map fun member => (member.1, member.2.settle)) = members.map id :=
      List.map_congr_left fun member hmember => Prod.ext rfl (h member hmember).settle
    rw [hsame, List.map_id]

/-! ### Distinct names -/

theorem lookup_eq_some_iff_mem {members : List (String × Json)}
    (hnames : (members.map (·.1)).Nodup) {name : String} {value : Json} :
    members.lookup name = some value ↔ (name, value) ∈ members := by
  constructor
  · intro h
    obtain ⟨front, back, rfl, -⟩ := List.lookup_eq_some_iff.1 h
    exact List.mem_append_right _ List.mem_cons_self
  · intro h
    obtain ⟨front, back, rfl⟩ := List.append_of_mem h
    refine List.lookup_eq_some_iff.2 ⟨front, back, rfl, fun other hother => ?_⟩
    rw [List.map_append, List.map_cons, List.nodup_append] at hnames
    have hne : other.1 ≠ name :=
      hnames.2.2 other.1 (List.mem_map_of_mem hother) name List.mem_cons_self
    exact bne_iff_ne.2 hne.symm

/-- In an object without repeated names the only member of a name is the last one. -/
theorem member?_eq_some_iff_mem {members : List (String × Json)}
    (hnames : (members.map (·.1)).Nodup) {name : String} {value : Json} :
    (obj members).member? name = some value ↔ (name, value) ∈ members := by
  have hreverse : (members.reverse.map (·.1)).Nodup := by
    rw [List.map_reverse]
    exact List.nodup_reverse.2 hnames
  rw [member?, lookup_eq_some_iff_mem hreverse, List.mem_reverse]

/-- Only objects have members. -/
theorem exists_obj_of_member? {j : Json} {name : String} {value : Json}
    (h : j.member? name = some value) : ∃ members, j = .obj members := by
  cases j with
  | obj members => exact ⟨members, rfl⟩
  | _ => cases h

/-- An object without repeated names is a record: it has the members that are asked for. -/
theorem exists_members? {members : List (String × Json)} (hnames : (members.map (·.1)).Nodup)
    (names : List String) :
    ∃ m, (obj members).members? names = some m ∧
      ∀ name ∈ names, m name = (obj members).member? name := by
  have hknown := ((members.filter_sublist (p := fun member => names.contains member.1)).map
    (·.1)).nodup hnames
  refine ⟨_, if_pos hknown, fun name hname => ?_⟩
  ext value
  rw [lookup_eq_some_iff_mem hknown, member?_eq_some_iff_mem hnames, List.mem_filter]
  exact and_iff_left (List.contains_iff_mem.2 hname)

/-! ### Written records -/

/-- What is present of a record comes under the names of the record, in order. -/
theorem present_sublist (members : List (String × Option Json)) :
    ((members.filterMap fun member => member.2.map fun value => (member.1, value)).map
      (·.1)).Sublist (members.map (·.1)) := by
  induction members with
  | nil => exact .slnil
  | cons member members ih =>
    obtain ⟨name, value⟩ := member
    cases value with
    | none => exact ih.cons name
    | some value => exact ih.cons_cons name

variable {members : List (String × Option Json)}

/-- A written record has the members that were put into it. -/
theorem member?_record (hnames : (members.map (·.1)).Nodup) {member : String × Option Json}
    (h : member ∈ members) : (record members).member? member.1 = member.2 := by
  ext value
  rw [record, member?_eq_some_iff_mem ((present_sublist members).nodup hnames), List.mem_filterMap]
  constructor
  · rintro ⟨other, hother, heq⟩
    obtain ⟨value, hvalue, hsame⟩ := Option.map_eq_some_iff.1 heq
    obtain ⟨hname, rfl⟩ := Prod.mk.inj hsame
    obtain rfl := List.inj_on_of_nodup_map hnames hother h hname
    exact hvalue
  · intro hvalue
    exact ⟨member, h, by rw [hvalue]; rfl⟩

/-- And these are the members that are read from it. -/
theorem exists_members?_record (hnames : (members.map (·.1)).Nodup) (names : List String) :
    ∃ m, (record members).members? names = some m ∧
      ∀ member ∈ members, member.1 ∈ names → m member.1 = member.2 := by
  obtain ⟨m, hm, hsame⟩ := exists_members? ((present_sublist members).nodup hnames) names
  refine ⟨m, hm, fun member hmember hname => ?_⟩
  rw [hsame member.1 hname]
  exact member?_record hnames hmember

/-- A record is plain if the values that are present are. -/
theorem isPlain_record (hnames : (members.map (·.1)).Nodup)
    (h : ∀ member ∈ members, ∀ value, member.2 = some value → value.IsPlain) :
    (record members).IsPlain := by
  refine isPlain_obj ((present_sublist members).nodup hnames) ?_
  rintro ⟨name, value⟩ hmember
  obtain ⟨member, hin, hvalue⟩ := List.mem_filterMap.1 hmember
  obtain ⟨value, hsome, heq⟩ := Option.map_eq_some_iff.1 hvalue
  obtain ⟨rfl, rfl⟩ := Prod.mk.inj heq
  exact h member hin value hsome

end Json

end TableCompiler
