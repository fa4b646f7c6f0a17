import TableCompiler.Proofs.CustomElements

/-!
# Entries of the manifest for actions of records

An entry of the manifest whose key is that of an action of a record overrides the action, unless a
record of the same key that stands before it is hidden: the keys of hidden records are looked up
first.  A hidden record that stands behind it changes nothing.

* `DataField.hidesAction`, `HidesAction` — records that are hidden whatever the data;
* `Scope.ActionStep`, `Scope.addAction_step` — what one record does to the toolbar;
* `Scope.Gathers`, `Scope.gathers_toolbar` — where actions come from and what hides their keys;
* `ManifestAction.Overrides` — an action with what an entry gives;
* `Scope.actions_overridden` — an action of a record in the merged list.
-/

namespace TableCompiler

/-! ### Hidden records -/

/-- Whether a record is hidden, whatever the data, instead of becoming an action.  One that asks for
the copy action becomes it all the same. -/
def DataField.hidesAction : DataField → Bool
  | .action field => !field.isCopy && field.annotations.isHidden
  | .intent field => field.annotations.isHidden
  | _ => false

/-- Whether the action of a key is hidden by one of some records. -/
def HidesAction (records : List DataField) (key : String) : Prop :=
  ∃ record ∈ records, record.key? = some key ∧ record.hidesAction = true

theorem hidesAction_append_singleton {records : List DataField} {record : DataField}
    {key : String} : HidesAction (records ++ [record]) key ↔
      HidesAction records key ∨ record.key? = some key ∧ record.hidesAction = true := by
  simp only [HidesAction, List.mem_append, List.mem_singleton, or_and_right, exists_or,
    exists_eq_left]

/-! ### One record -/

namespace Scope

/-- What the record at a place does to the toolbar. -/
inductive ActionStep (s : Scope) (t : Toolbar) (record : DataField) (index : Nat) :
    Toolbar → Prop
  /-- It adds nothing; if it is hidden, there is an action of its key. -/
  | passed (hhidden : ∀ key, record.key? = some key → record.hidesAction = true → key ∈ t.keys) :
    ActionStep s t record index t
  /-- It is hidden, and there is no action of its key. -/
  | hidden {key : String} (hkey : record.key? = some key) (hnew : key ∉ t.keys)
    (hhidden : record.hidesAction = true) : ActionStep s t record index (t.hide key)
  /-- It adds its action, and there was none of its key. -/
  | built {action : Action} (hkey : record.key? = some action.key) (hnew : action.key ∉ t.keys)
    (hshown : record.hidesAction = false)
    (hpath : action.annotationPath = some (s.recordPath index)) :
    ActionStep s t record index (t.push action)

theorem annotationPath_operationAction (s : Scope) (field : ActionField) (key path : String) :
    (s.operationAction field key path).value.annotationPath = some path := by
  rw [operationAction]
  dsimp only
  split <;> rfl

theorem addOperation_step {s : Scope} {t : Toolbar} {field : ActionField} {key : String}
    (index : Nat) (hkey : (DataField.action field).key? = some key) (hnew : key ∉ t.keys) :
    s.ActionStep t (.action field) index
      (s.addOperation t field key (s.recordPath index)).value := by
  rw [addOperation]
  split
  · rename_i hcopy
    have hshown : (DataField.action field).hidesAction = false := by
      rw [DataField.hidesAction, hcopy]
      rfl
    by_cases hcan : t.canCopy = true
    · rw [if_pos hcan]
      refine .passed fun other _ hhidden => ?_
      rw [hshown] at hhidden
      cases hhidden
    · rw [if_neg hcan]
      exact .built hkey hnew hshown rfl
  · rename_i hcopy
    have heq : (DataField.action field).hidesAction = field.annotations.isHidden := by
      rw [DataField.hidesAction, Bool.eq_false_iff.2 hcopy]
      rfl
    split
    · rename_i hhidden
      exact .hidden hkey hnew (heq.trans hhidden)
    · rename_i hvisible
      have hshown := heq.trans (Bool.eq_false_iff.2 hvisible)
      split
      · refine .passed fun other _ hhidden => ?_
        rw [hshown] at hhidden
        cases hhidden
      · have hname := s.key_operationAction field key (s.recordPath index)
        exact .built (hkey.trans (congrArg some hname.symm)) (by rwa [hname]) hshown
          (s.annotationPath_operationAction field key _)

theorem addIntent_step {s : Scope} {t : Toolbar} {field : IntentField} {key : String}
    (index : Nat) (hkey : (DataField.intent field).key? = some key) (hnew : key ∉ t.keys) :
    s.ActionStep t (.intent field) index (addIntent t field key (s.recordPath index)) := by
  rw [addIntent]
  split
  · rename_i hhidden
    exact .hidden hkey hnew hhidden
  · rename_i hvisible
    have hshown : (DataField.intent field).hidesAction = false := Bool.eq_false_iff.2 hvisible
    split
    · refine .passed fun other _ hhidden => ?_
      rw [hshown] at hhidden
      cases hhidden
    · exact .built hkey hnew hshown rfl

/-- **One record.**  It adds nothing, or it is hidden, or it adds its action. -/
theorem addAction_step (s : Scope) (t : Toolbar) (record : DataField) (index : Nat) :
    s.ActionStep t record index (s.addAction t (record, index)).value := by
  -- a record whose key has an action adds nothing; that of a hidden one is not looked up then
  have hpassed : ∀ {key}, record.key? = some key → t.containsKey key = true →
      s.ActionStep t record index t := by
    intro key hkey htaken
    refine .passed fun other hother _ => ?_
    obtain rfl := Option.some.inj (hkey.symm.trans hother)
    exact Toolbar.containsKey_iff_mem.1 htaken
  simp only [addAction]
  split
  · rename_i field key hkey
    split
    · rename_i htaken
      exact hpassed hkey htaken
    · rename_i hnew
      exact addOperation_step index hkey (fun h => hnew (Toolbar.containsKey_iff_mem.2 h))
  · rename_i field key hkey
    split
    · rename_i htaken
      exact hpassed hkey htaken
    · rename_i hnew
      exact addIntent_step index hkey (fun h => hnew (Toolbar.containsKey_iff_mem.2 h))
  · rename_i record _ _ haction hintent
    refine .passed fun key hkey hhidden => ?_
    cases record with
    | action field => exact absurd hkey (haction field key rfl)
    | intent field => exact absurd hkey (hintent field key rfl)
    | value field => cases hhidden
    | reference field => cases hhidden
    | unknown => cases hhidden

/-! ### All records -/

/-- An action comes from one of some records, and its key is hidden exactly if a record before that
one hides it. -/
def ComesFrom (s : Scope) (records : List DataField) (hidden : List String) (action : Action) :
    Prop :=
  ∃ front record back, records = front ++ record :: back ∧ record.key? = some action.key ∧
    record.hidesAction = false ∧ action.annotationPath = some (s.recordPath front.length) ∧
    (action.key ∈ hidden ↔ HidesAction front action.key)

/-- What a toolbar has of the records so far. -/
structure Gathers (s : Scope) (records : List DataField) (t : Toolbar) : Prop where
  actions : ∀ action ∈ t.actions, s.ComesFrom records t.hidden action
  hidden : ∀ key, key ∉ t.keys → (key ∈ t.hidden ↔ HidesAction records key)

theorem ComesFrom.append_singleton {s : Scope} {records : List DataField} {hidden more : List String}
    {action : Action} (h : s.ComesFrom records hidden action) (record : DataField)
    (hmore : action.key ∈ more ↔ action.key ∈ hidden) :
    s.ComesFrom (records ++ [record]) more action := by
  obtain ⟨front, own, back, rfl, hkey, hshown, hpath, hhidden⟩ := h
  refine ⟨front, own, back ++ [record], ?_, hkey, hshown, hpath, hmore.trans hhidden⟩
  rw [List.append_assoc, List.cons_append]

/-- What has been collected stays so with one more record. -/
theorem Gathers.step {s : Scope} {records : List DataField} {record : DataField}
    {t u : Toolbar} (h : s.Gathers records t)
    (hstep : s.ActionStep t record records.length u) : s.Gathers (records ++ [record]) u := by
  cases hstep with
  | passed hhidden =>
    refine ⟨fun action haction => (h.actions action haction).append_singleton record .rfl, ?_⟩
    intro key hkey
    rw [h.hidden key hkey, hidesAction_append_singleton]
    exact ⟨.inl, fun hcase => hcase.resolve_right fun hown => hkey (hhidden key hown.1 hown.2)⟩
  | @hidden own hown hnew hhidden =>
    have hmem : ∀ key, key ∈ (t.hide own).hidden ↔ key ∈ t.hidden ∨ key = own := by
      intro key
      rw [Toolbar.hide, List.mem_append, List.mem_singleton]
    refine ⟨?_, ?_⟩
    · intro action haction
      refine (h.actions action haction).append_singleton record ((hmem _).trans ?_)
      have hne : action.key ≠ own := fun heq => hnew (heq ▸ List.mem_map_of_mem haction)
      simp only [hne, or_false]
    · intro key hkey
      rw [hmem, h.hidden key hkey, hidesAction_append_singleton, hown, Option.some.injEq]
      simp only [hhidden, and_true, eq_comm]
  | @built action hown hnew hshown hpath =>
    have hown' : action.key ∈ t.hidden ↔ HidesAction records action.key := h.hidden _ hnew
    refine ⟨?_, ?_⟩
    · intro other hother
      rcases List.mem_append.1 hother with hold | hself
      · exact (h.actions other hold).append_singleton record .rfl
      · obtain rfl := List.mem_singleton.1 hself
        exact ⟨records, record, [], rfl, hown, hshown, hpath, hown'⟩
    · intro key hkey
      have hold : key ∉ t.keys := by
        intro hmem
        refine hkey ?_
        rw [Toolbar.keys, Toolbar.push, List.map_append]
        exact List.mem_append_left _ hmem
      have hsame : (t.push action).hidden = t.hidden := rfl
      rw [hsame, h.hidden key hold, hidesAction_append_singleton, hshown]
      simp only [Bool.false_eq_true, and_false, or_false]

/-- And with some more, one after the other. -/
theorem Gathers.run {s : Scope} {records : List DataField} {t : Toolbar}
    (h : s.Gathers records t) (more : List DataField) :
    s.Gathers (records ++ more)
      ((more.zipIdx records.length).foldl (fun t record => (s.addAction t record).value) t) := by
  induction more generalizing records t with
  | nil => simpa using h
  | cons record more ih =>
    have hnext := ih (h.step (s.addAction_step t record records.length))
    rw [List.append_assoc, List.length_append] at hnext
    exact hnext

/-- **The toolbar of a line item.**  Every action has its record, and its key is also one of a
hidden record exactly if such a record stands before. -/
theorem gathers_toolbar (s : Scope) : s.Gathers s.lineItem s.toolbar.value := by
  have hstart : s.Gathers [] {} := by
    refine ⟨fun action h => (List.not_mem_nil h).elim, fun key _ => ?_⟩
    simp [HidesAction]
  rw [toolbar, Reported.value_foldlM]
  exact hstart.run s.lineItem

end Scope

/-! ### Overrides -/

/-- A member is what is given for it, and as it was if nothing is given. -/
def IsSet {α : Type} (given : Option α) (before after : α) : Prop :=
  (∀ a, given = some a → after = a) ∧ (given = none → after = before)

theorem isSet_getD {α : Type} (given : Option α) (before : α) :
    IsSet given before (given.getD before) := by
  refine ⟨?_, ?_⟩
  · rintro a rfl
    rfl
  · rintro rfl
    rfl

theorem isSet_or {α : Type} (given before : Option α) :
    IsSet (given.map some) before (given.or before) := by
  cases given with
  | none => exact isSet_getD none before
  | some a => exact isSet_getD (some (some a)) before

/-- An action with what an entry of the manifest gives: all else is kept, and selection is required
if one of the two requires it. -/
structure ManifestAction.Overrides (entry : ManifestAction) (before after : Action) : Prop where
  settled : after.settled = before.settled
  visible : IsSet (entry.visible.map (·.text)) before.visible after.visible
  enabled : IsSet (entry.enabled.map fun text => some text.text) before.enabled after.enabled
  command : IsSet (entry.command.map some) before.command after.command
  isNavigable : IsSet (entry.isNavigable.map some) before.isNavigable after.isNavigable
  enableOnSelect :
    IsSet (entry.enableOnSelect.map some) before.enableOnSelect after.enableOnSelect
  enableAutoScroll :
    IsSet (entry.enableAutoScroll.map some) before.enableAutoScroll after.enableAutoScroll
  defaultValuesExtensionFunction :
    IsSet (entry.defaultValuesExtensionFunction.map some)
      before.defaultValuesExtensionFunction after.defaultValuesExtensionFunction
  requiresSelection : after.requiresSelection = some true ↔
    entry.requiresSelection = some true ∨ before.requiresSelection = some true
  notRequired : entry.requiresSelection ≠ some true →
    after.requiresSelection = before.requiresSelection

theorem ManifestAction.overrides_override (entry : ManifestAction) (action : Action) :
    entry.Overrides action (entry.override action) where
  settled := rfl
  visible := isSet_getD _ _
  enabled := by
    have h := isSet_or (entry.enabled.map (·.text)) action.enabled
    rw [Option.map_map] at h
    exact h
  command := isSet_or _ _
  isNavigable := isSet_or _ _
  enableOnSelect := isSet_or _ _
  enableAutoScroll := isSet_or _ _
  defaultValuesExtensionFunction := isSet_or _ _
  requiresSelection := by
    rw [override]
    by_cases hasks : entry.requiresSelection = some true
    · simp [hasks]
    · simp [hasks]
  notRequired := fun hasks => if_neg hasks

namespace Scope

/-- An action of the toolbar, overridden or not, stands in the merged list, and nothing else there has
its key. -/
theorem mem_mergeActions {s : Scope} {control : ControlConfiguration}
    (hcontrol : s.control = some control) {merged : Action}
    (h : merged ∈ s.toolbar.value.override control.actions) :
    merged ∈ (s.mergeActions s.toolbar.value).value ∧
      ∀ other ∈ (s.mergeActions s.toolbar.value).value, other.key = merged.key →
        other = merged := by
  have hmerged : merged ∈ (s.mergeActions s.toolbar.value).value := by
    rw [mergeActions, hcontrol]
    exact (s.toolbar.value.merge_isArrangement control.actions).perm.mem_iff.2
      (List.mem_append_left _ h)
  exact ⟨hmerged, fun other hother hname =>
    List.inj_on_of_nodup_map s.nodup_mergeActions hother hmerged hname⟩

/-- **Overridden actions.**  If an entry of the manifest has the key of the action of a record, one
action of the merged list has that key: the action as the entry overrides it or, if a hidden record
of the same key stands before the record, the action as it was. -/
theorem actions_overridden (s : Scope) (control : ControlConfiguration)
    (hcontrol : s.control = some control) (action : Action)
    (haction : action ∈ s.toolbar.value.actions) (entry : ManifestAction)
    (hentry : control.actions.get? action.key = some entry) :
    ∃ front record back merged, s.lineItem = front ++ record :: back ∧
      record.key? = some action.key ∧ record.hidesAction = false ∧
      action.annotationPath = some (s.recordPath front.length) ∧
      merged ∈ (s.mergeActions s.toolbar.value).value ∧
      (∀ other ∈ (s.mergeActions s.toolbar.value).value, other.key = action.key →
        other = merged) ∧
      (¬ HidesAction front action.key → entry.Overrides action merged) ∧
      (HidesAction front action.key → merged = action) := by
  obtain ⟨front, record, back, hitems, hkey, hshown, hpath, hhidden⟩ :=
    s.gathers_toolbar.actions action haction
  have hoverride : (if s.toolbar.value.hidden.contains action.key then action
      else entry.override action) ∈ s.toolbar.value.override control.actions := by
    refine List.mem_map.2 ⟨action, haction, ?_⟩
    rw [hentry]
  by_cases hbefore : HidesAction front action.key
  · have hin : s.toolbar.value.hidden.contains action.key = true :=
      List.contains_iff_mem.2 (hhidden.2 hbefore)
    rw [if_pos hin] at hoverride
    obtain ⟨hmem, hunique⟩ := mem_mergeActions hcontrol hoverride
    exact ⟨front, record, back, action, hitems, hkey, hshown, hpath, hmem, hunique,
      fun hnot => absurd hbefore hnot, fun _ => rfl⟩
  · have hout : ¬ s.toolbar.value.hidden.contains action.key = true := fun h =>
      hbefore (hhidden.1 (List.contains_iff_mem.1 h))
    rw [if_neg hout] at hoverride
    obtain ⟨hmem, hunique⟩ := mem_mergeActions hcontrol hoverride
    exact ⟨front, record, back, entry.override action, hitems, hkey, hshown, hpath, hmem, hunique,
      fun _ => entry.overrides_override action, fun h => absurd h hbefore⟩

end Scope

/-! ### A page of approvals -/

/-- A record for the action that approves a request, hidden or not. -/
def DataField.approval (hidden : Bool) : DataField :=
  .action ⟨none, "hr.approve", false, false, none, { hidden := some (.literal hidden) }⟩

/-- An entry of the manifest for that action. -/
def ManifestAction.whileOpen : ManifestAction where
  visible := some (.binding "{Open}")
  requiresSelection := some true
  command := some "Approve"

/-- Requests with some records in their line item, and the entry. -/
def Context.approvals (records : List DataField) : Context where
  service := {
    entitySets := [{ name := "Requests", entityType := "hr.Request" }]
    entityTypes := [
      { name := "hr.Request"
        properties := [{ name := "ID", typeName := "Edm.String" }]
        annotations := { lineItems := .ofList [("", records)] } }] }
  manifest := { controls := .ofList [("@UI.LineItem",
    { actions := .ofList [("DataFieldForAction::hr.approve", .whileOpen)] })] }

/-- The entry overrides the action of a record that a hidden one follows. -/
theorem Scope.actions_overridden_approvals :
    ∃ scope action merged,
      (Context.approvals [.approval false, .approval true]).resolve
        { entitySet := "Requests" } = .ok scope ∧
      action ∈ scope.value.toolbar.value.actions ∧ action.requiresSelection = some false ∧
      merged ∈ (scope.value.mergeActions scope.value.toolbar.value).value ∧
      ManifestAction.whileOpen.Overrides action merged ∧ merged.visible = "{Open}" ∧
      merged.command = some "Approve" ∧ merged.requiresSelection = some true := by
  have hrun : ((Context.approvals [.approval false, .approval true]).resolve
      { entitySet := "Requests" }).toOption.any (fun scope =>
        decide (scope.value.lineItem = [.approval false, .approval true]) &&
        scope.value.control.any fun control =>
          scope.value.toolbar.value.actions.any fun action =>
            decide (action.requiresSelection = some false) &&
            decide (control.actions.get? action.key = some .whileOpen)) = true := by
    decide +kernel
  cases hscope : (Context.approvals [.approval false, .approval true]).resolve
      { entitySet := "Requests" } with
  | error e =>
    rw [hscope] at hrun
    cases hrun
  | ok scope =>
    rw [hscope, Except.toOption, Option.any_some, Bool.and_eq_true, decide_eq_true_iff,
      Option.any_eq_true] at hrun
    obtain ⟨hitems, control, hcontrol, hactions⟩ := hrun
    obtain ⟨action, haction, hentry⟩ := List.any_eq_true.1 hactions
    rw [Bool.and_eq_true, decide_eq_true_iff, decide_eq_true_iff] at hentry
    obtain ⟨front, record, back, merged, hsplit, -, -, -, hmerged, -, hoverrides, -⟩ :=
      scope.value.actions_overridden control hcontrol action haction .whileOpen hentry.2
    have hbefore : ¬ HidesAction front action.key := by
      rintro ⟨other, hother, -, hhidden⟩
      rw [hitems] at hsplit
      -- only the second record is hidden, and no record follows it
      obtain _ | ⟨first, front⟩ := front
      · cases hother
      · obtain ⟨rfl, hsplit⟩ := List.cons.inj hsplit
        obtain _ | ⟨second, front⟩ := front
        · obtain rfl := List.mem_singleton.1 hother
          cases hhidden
        · have hlength := congrArg List.length hsplit
          simp at hlength
    have hmerge := hoverrides hbefore
    exact ⟨scope, action, merged, rfl, haction, hentry.1, hmerged, hmerge,
      hmerge.visible.1 _ rfl, hmerge.command.1 _ rfl, hmerge.requiresSelection.2 (.inl rfl)⟩

-- behind a hidden record of its key the action is not overridden
example :
    [[DataField.approval false, .approval true], [.approval true, .approval false]].map
      (fun records => match ((Context.approvals records).compile
          { entitySet := "Requests" }).value with
        | .ok t => t.actions.map fun action => (action.visible, action.command)
        | .error _ => []) = [[("{Open}", some "Approve")], [("true", none)]] := by
  decide +kernel

end TableCompiler
