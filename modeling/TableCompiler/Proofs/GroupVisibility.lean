import TableCompiler.Proofs.Column.Origin
import TableCompiler.Proofs.Expression.Folding

/-!
# When the members of a group are shown

The column of a group is hidden together with its members.  A member that refers to an annotation,
and the property that a member shows, are hidden by paths behind the navigation to the group.  The
path that hides a record with a value is read on the row itself, as it is for records of the line
item; the two readings agree for a group of the rows themselves.

* `Valuation.Shows`, `Valuation.holds_shown` — an annotation that hides, under a valuation;
* `DataField.hiddenBehind` — where the annotation of a member is read;
* `DataField.holds_visibility` — a record with a value;
* `Scope.MemberShows`, `Scope.exists_memberVisibility?_iff` — a member that shows;
* `Scope.holds_or_memberVisibility?` — some member of a group shows;
* `Context.groups_shown` — the columns of groups in a table.
-/

namespace TableCompiler

open Expression

/-! ### Annotations that hide -/

namespace Valuation

variable (v : Valuation)

/-- An annotation that hides does not come to true; its path lies behind a navigation. -/
def Shows (hidden : Option (Dynamic Bool)) (navigation : String) : Prop :=
  match hidden with
  | none => True
  | some (.literal b) => b = false
  | some (.path p) => v.path none (navigation ++ p) ≠ .bool true

theorem holds_shown (hidden : Option (Dynamic Bool)) (navigation : String) :
    v.holds (shown hidden navigation) = true ↔ v.Shows hidden navigation := by
  match hidden with
  | none =>
    have htrue : shown none navigation = .ofBool true := rfl
    rw [htrue, holds_ofBool]
    exact iff_of_true rfl trivial
  | some (.literal b) =>
    have hconstant : shown (some (.literal b)) navigation = .ofBool (!b) := by
      cases b <;> rfl
    rw [hconstant, holds_ofBool, Bool.not_eq_true']
    rfl
  | some (.path p) =>
    have hcomparison : shown (some (.path p)) navigation =
        .comparison .notEqual (.ofPath (navigation ++ p)) (.ofBool true) := rfl
    rw [hcomparison, holds_comparison, compares, decide_eq_true_iff]
    rfl

/-- Unless it is a path, it does not matter behind which navigation it stands. -/
theorem shows_iff_of_fixed {hidden : Option (Dynamic Bool)} (h : ∀ p, hidden ≠ some (.path p))
    (a b : String) : v.Shows hidden a ↔ v.Shows hidden b := by
  match hidden with
  | none => exact .rfl
  | some (.literal _) => exact .rfl
  | some (.path p) => exact absurd rfl (h p)

end Valuation

/-! ### Members of a group -/

namespace DataField

/-- Where the annotation that hides a member of a group behind a navigation is read: that of a
record with a value on the row itself. -/
def hiddenBehind (navigation : String) : DataField → String
  | .value _ => ""
  | _ => navigation

/-- A record with a value that is hidden by a path. -/
def HidesByPath (member : DataField) : Prop :=
  ∃ field p, member = .value field ∧ member.hidden? = some (.path p)

/-- A record with a value is visible exactly if neither it nor the property is hidden. -/
theorem holds_visibility {v : Valuation} {field : DataField}
    {property : Option (Property × String)} :
    v.holds (field.visibility property false) = true ↔
      v.Shows field.hidden? "" ∧
        ∀ target, property = some target → v.Shows target.1.annotations.hidden target.2 := by
  rw [visibility, v.holds_and]
  cases property with
  | none => simp [v.holds_shown]
  | some target => simp [v.holds_shown]

end DataField

namespace Scope

/-- A member of a group behind a navigation shows, if its own annotation is read behind a navigation
of its own: it is neither an action nor of an unknown type, and neither it nor the property of its
value is hidden. -/
structure MemberShows (s : Scope) (v : Valuation) (navigation own : String) (member : DataField) :
    Prop where
  isField : member.isAction = false ∧ member ≠ .unknown
  record : v.Shows member.hidden? own
  property : ∀ value t, member.valuePath? = some value →
    s.property? (navigation ++ value) = some t →
    v.Shows t.property.annotations.hidden t.navigationPrefix

variable {s : Scope} {v : Valuation} {navigation : String}

/-- **One member.**  It has a visibility that holds exactly if it shows. -/
theorem exists_memberVisibility?_iff {member : DataField} :
    (∃ e, s.memberVisibility? navigation member = some e ∧ v.holds e = true) ↔
      s.MemberShows v navigation (member.hiddenBehind navigation) member := by
  cases member with
  | value field =>
    rw [memberVisibility?]
    simp only [Option.some.injEq, exists_eq_left', DataField.holds_visibility]
    constructor
    · rintro ⟨hrecord, hproperty⟩
      refine ⟨⟨rfl, nofun⟩, hrecord, fun value t hvalue ht => ?_⟩
      obtain rfl := Option.some.inj hvalue
      exact hproperty _ (Option.map_eq_some_iff.2 ⟨t, ht, rfl⟩)
    · rintro ⟨-, hrecord, hproperty⟩
      refine ⟨hrecord, fun target htarget => ?_⟩
      obtain ⟨t, ht, rfl⟩ := Option.map_eq_some_iff.1 htarget
      exact hproperty field.value t rfl ht
  | reference field =>
    rw [memberVisibility?]
    simp only [Option.some.injEq, exists_eq_left', v.holds_shown]
    refine ⟨fun hrecord => ⟨⟨rfl, nofun⟩, hrecord, fun value t hvalue => ?_⟩, fun h => h.record⟩
    cases hvalue
  | action field =>
    refine iff_of_false ?_ fun h => ?_
    · rintro ⟨e, he, -⟩
      cases he
    · cases h.isField.1
  | intent field =>
    refine iff_of_false ?_ fun h => ?_
    · rintro ⟨e, he, -⟩
      cases he
    · cases h.isField.1
  | unknown =>
    refine iff_of_false ?_ fun h => h.isField.2 rfl
    rintro ⟨e, he, -⟩
    cases he

/-- **All members.**  A group is shown exactly if one of its members is. -/
theorem holds_or_memberVisibility? (members : List DataField) :
    v.holds (.or (members.filterMap (s.memberVisibility? navigation))) = true ↔
      ∃ member ∈ members,
        s.MemberShows v navigation (member.hiddenBehind navigation) member := by
  rw [v.holds_or, List.any_eq_true]
  simp only [List.mem_filterMap, ← exists_memberVisibility?_iff]
  exact ⟨fun ⟨e, ⟨member, hmember, he⟩, hholds⟩ => ⟨member, hmember, e, he, hholds⟩,
    fun ⟨member, hmember, e, he, hholds⟩ => ⟨e, ⟨member, hmember, he⟩, hholds⟩⟩

/-- It does not matter where the annotation of a member is read, if there is no navigation or no
path that hides a record with a value. -/
theorem memberShows_hiddenBehind_iff {member : DataField}
    (h : navigation = "" ∨ ¬ member.HidesByPath) :
    s.MemberShows v navigation (member.hiddenBehind navigation) member ↔
      s.MemberShows v navigation navigation member := by
  cases member with
  | value field =>
    have hown : v.Shows (DataField.value field).hidden? "" ↔
        v.Shows (DataField.value field).hidden? navigation := by
      rcases h with rfl | hfixed
      · exact .rfl
      · exact v.shows_iff_of_fixed (fun p hp => hfixed ⟨field, p, rfl, hp⟩) _ _
    exact ⟨fun h => ⟨h.isField, hown.1 h.record, h.property⟩,
      fun h => ⟨h.isField, hown.2 h.record, h.property⟩⟩
  | _ => exact .rfl

/-- The column of a record that refers to a group is hidden together with the members. -/
theorem Yields.groupColumn_spec {t : Table} (h : s.Yields t) {column : Column}
    (hcolumn : column ∈ t.columns) {index : Nat} {record : ReferenceField}
    (hrecord : s.lineItem[index]? = some (.reference record))
    (hpath : column.annotationPath = some (s.recordPath index)) {path : AnnotationPath}
    (htext : AnnotationPath.ofText record.target = .ok path) {resolved : ResolvedAnnotation}
    (hresolved : s.service.annotationAt? s.entityType path = some resolved) {group : FieldGroup}
    (hgroup : resolved.target = .fieldGroup group) :
    column.fieldGroupHiddenExpressions =
      some (Expression.or
        (group.data.filterMap (s.memberVisibility? resolved.navigationPrefix))).compile := by
  obtain ⟨built, hbuilt, -, hbare⟩ := h.exists_recordEntry hcolumn hrecord hpath
  have hsame : (s.recordEntry index (.reference record) built).column.fieldGroupHiddenExpressions =
      column.fieldGroupHiddenExpressions :=
    Column.eq_of_bare (·.fieldGroupHiddenExpressions) (fun _ => rfl) hbare
  obtain ⟨key, -, hrenders⟩ := recordColumn_eq_some hbuilt
  rw [← hsame]
  cases hrenders with
  | value hfield => cases hfield
  | @group record' path' resolved' group' hfield htext' hresolved' hgroup' =>
    obtain rfl := DataField.reference.inj hfield
    obtain rfl := Except.ok.inj (htext.symm.trans htext')
    obtain rfl := Option.some.inj (hresolved.symm.trans hresolved')
    obtain rfl := AnnotationTarget.fieldGroup.inj (hgroup.symm.trans hgroup')
    rfl
  | @point record' path' resolved' point t' hfield htext' hresolved' hpoint =>
    obtain rfl := DataField.reference.inj hfield
    obtain rfl := Except.ok.inj (htext.symm.trans htext')
    obtain rfl := Option.some.inj (hresolved.symm.trans hresolved')
    cases hgroup.symm.trans hpoint

end Scope

/-! ### Columns of groups -/

namespace Context

/-- **Columns of groups.**  The column of a record that refers to a group carries an expression that
holds exactly if some member shows, the own annotation of each read where that member has it read.
All of them may as well be read behind the navigation to the group, if there is none or if no record
with a value is hidden by a path. -/
theorem groups_shown (c : Context) (r : TableRequest) (scope : Reported Scope) (t : Table)
    (hscope : c.resolve r = .ok scope) (h : (c.compile r).value = .ok t) :
    ∀ column ∈ t.columns, ∀ index record path resolved group,
      scope.value.lineItem[index]? = some (.reference record) →
      column.annotationPath = some (scope.value.recordPath index) →
      AnnotationPath.ofText record.target = .ok path →
      scope.value.service.annotationAt? scope.value.entityType path = some resolved →
      resolved.target = .fieldGroup group →
      ∃ members : Expression, column.fieldGroupHiddenExpressions = some members.compile ∧
        ∀ v : Valuation,
          (v.holds members = true ↔ ∃ member ∈ group.data,
            scope.value.MemberShows v resolved.navigationPrefix
              (member.hiddenBehind resolved.navigationPrefix) member) ∧
          (resolved.navigationPrefix = "" ∨ (∀ member ∈ group.data, ¬ member.HidesByPath) →
            (v.holds members = true ↔ ∃ member ∈ group.data,
              scope.value.MemberShows v resolved.navigationPrefix resolved.navigationPrefix
                member)) := by
  obtain ⟨settled, hsettled, hyields⟩ := exists_yields h
  obtain rfl := Except.ok.inj (hscope.symm.trans hsettled)
  intro column hcolumn index record path resolved group hrecord hpath htext hresolved hgroup
  refine ⟨_, hyields.groupColumn_spec hcolumn hrecord hpath htext hresolved hgroup, fun v => ?_⟩
  refine ⟨Scope.holds_or_memberVisibility? group.data, fun hplain => ?_⟩
  refine (Scope.holds_or_memberVisibility? group.data).trans ?_
  refine exists_congr fun member => and_congr_right fun hmember => ?_
  exact Scope.memberShows_hiddenBehind_iff (hplain.imp_right fun hfixed => hfixed member hmember)

/-- Deliveries that show the contact of a supplier: a name that is hidden by its property, and a
number that is hidden by its record. -/
def deliveries : Context where
  service := {
    entitySets := [{ name := "Deliveries", entityType := "shop.Delivery" }]
    entityTypes := [
      { name := "shop.Delivery"
        properties := [{ name := "ID", typeName := "Edm.String" }]
        navigationProperties := [{ name := "toSupplier", targetType := "shop.Supplier" }]
        annotations := {
          lineItems := .ofList [("", [
            DataField.reference ⟨none, "toSupplier/@UI.FieldGroup#Contact", {}⟩])] } },
      { name := "shop.Supplier"
        properties := [
          { name := "Name", typeName := "Edm.String",
            annotations := { hidden := some (.path "IsAnonymous") } },
          { name := "Phone", typeName := "Edm.String" }]
        annotations := {
          fieldGroups := .ofList [("Contact", {
            label := none
            data := [
              .value ⟨.plain, "Name", none, {}⟩,
              .value ⟨.plain, "Phone", none, { hidden := some (.path "IsUnlisted") }⟩,
              .action ⟨none, "shop.call", false, false, none, {}⟩] })] } }] }
  manifest := {}

/-- The group of a delivery is shown while one of the members is. -/
theorem groups_shown_deliveries :
    ∃ scope t column path resolved group,
      deliveries.resolve { entitySet := "Deliveries" } = .ok scope ∧
      (deliveries.compile { entitySet := "Deliveries" }).value = .ok t ∧ column ∈ t.columns ∧
      column.annotationPath = some (scope.value.recordPath 0) ∧
      AnnotationPath.ofText "toSupplier/@UI.FieldGroup#Contact" = .ok path ∧
      scope.value.service.annotationAt? scope.value.entityType path = some resolved ∧
      resolved.target = .fieldGroup group ∧ resolved.navigationPrefix = "toSupplier/" ∧
      ∃ members : Expression, column.fieldGroupHiddenExpressions = some members.compile ∧
        ∀ v : Valuation, v.holds members = true ↔ ∃ member ∈ group.data,
          scope.value.MemberShows v "toSupplier/" (member.hiddenBehind "toSupplier/") member := by
  have hrun : (match deliveries.resolve { entitySet := "Deliveries" },
      (deliveries.compile { entitySet := "Deliveries" }).value,
      AnnotationPath.ofText "toSupplier/@UI.FieldGroup#Contact" with
    | .ok scope, .ok t, .ok target =>
      decide (scope.value.lineItem[0]? =
        some (.reference ⟨none, "toSupplier/@UI.FieldGroup#Contact", {}⟩)) &&
      t.columns.any (·.annotationPath == some (scope.value.recordPath 0)) &&
      (scope.value.service.annotationAt? scope.value.entityType target).any fun resolved =>
        decide (resolved.navigationPrefix = "toSupplier/") &&
        match resolved.target with
        | .fieldGroup _ => true
        | _ => false
    | _, _, _ => false) = true := by
    decide +kernel
  split at hrun
  · rename_i scope t path hscope ht htext
    rw [Bool.and_eq_true, Bool.and_eq_true, decide_eq_true_iff, List.any_eq_true,
      Option.any_eq_true] at hrun
    obtain ⟨⟨hrecord, column, hcolumn, hpath⟩, resolved, hresolved, htarget⟩ := hrun
    rw [beq_iff_eq] at hpath
    rw [Bool.and_eq_true, decide_eq_true_iff] at htarget
    obtain ⟨hnavigation, htarget⟩ := htarget
    split at htarget
    · rename_i group hgroup
      obtain ⟨members, hmembers, hshown⟩ := deliveries.groups_shown _ scope t hscope ht column
        hcolumn 0 _ path resolved group hrecord hpath htext hresolved hgroup
      rw [hnavigation] at hshown
      exact ⟨scope, t, column, path, resolved, group, hscope, ht, hcolumn, hpath, htext, hresolved,
        hgroup, hnavigation, members, hmembers, fun v => (hshown v).1⟩
    · cases htarget
  · cases hrun

-- the path that hides the number is read on the delivery, not on the supplier
example :
    (match (deliveries.compile { entitySet := "Deliveries" }).value with
    | .ok t => t.columns.filterMap Column.fieldGroupHiddenExpressions
    | .error _ => []) = [
      "\x7b= (%\x7btoSupplier/IsAnonymous\x7d !== true) || (%\x7bIsUnlisted\x7d !== true)\x7d"] := by
  decide +kernel

end Context

end TableCompiler
