import TableCompiler.Proofs.ActionOverrides
import TableCompiler.Proofs.Column.Origin

/-!
# Actions of hidden records

A record that is hidden whatever the data becomes no action, with one exception: the record that
asks for the copy action becomes it, as an action that is not visible.  The key of such a record
does not count as hidden, so an entry of the manifest that says when the action is visible brings it
back.  Only another hidden record of the same key, one that stands before, prevents that.

* `Scope.IsActionOf`, `Scope.exists_isActionOf` — the actions of the toolbar and their records;
* `Scope.visibleText?` — what the manifest says about the visibility of an action;
* `Context.hidden_records` — the actions of hidden records in a table.
-/

namespace TableCompiler

/-! ### Actions and their records -/

theorem FieldAnnotations.actionVisible_of_isHidden {a : FieldAnnotations}
    (h : a.isHidden = true) : a.actionVisible = "false" := by
  rw [isHidden] at h
  split at h
  · rename_i hidden heq
    cases hidden with
    | literal b =>
      obtain rfl : b = true := h
      rw [actionVisible, heq]
      decide
    | path p => cases h
  · cases h

namespace Scope

/-- An action is the one of the record at a place of the line item.  If the record is hidden, it is
the copy action, and it is not visible. -/
structure IsActionOf (s : Scope) (record : DataField) (index : Nat) (action : Action) : Prop where
  annotationPath : action.annotationPath = some (s.recordPath index)
  of_isHidden : record.isHidden = true → ∃ field : ActionField,
    record = .action field ∧ field.isCopy = true ∧ action.kind = .copy ∧ action.visible = "false"

/-- What the record at a place adds to the toolbar: nothing, or its action. -/
def AddsOwn (s : Scope) (record : DataField) (index : Nat) (t u : Toolbar) : Prop :=
  u.actions = t.actions ∨
    ∃ action, s.IsActionOf record index action ∧ u.actions = t.actions ++ [action]

theorem addOperation_addsOwn (s : Scope) (t : Toolbar) (field : ActionField) (key : String)
    (index : Nat) :
    s.AddsOwn (.action field) index t (s.addOperation t field key (s.recordPath index)).value := by
  rw [addOperation]
  split
  · rename_i hcopy
    by_cases hcan : t.canCopy = true
    · rw [if_pos hcan]
      exact .inl rfl
    · rw [if_neg hcan]
      refine .inr ⟨field.copyAction key (s.recordPath index), ⟨rfl, fun hhidden => ?_⟩, rfl⟩
      exact ⟨field, rfl, hcopy, rfl, field.annotations.actionVisible_of_isHidden hhidden⟩
  · split
    · exact .inl rfl
    · rename_i hvisible
      split
      · exact .inl rfl
      · exact .inr ⟨_, ⟨s.annotationPath_operationAction field key _,
          fun hhidden => absurd hhidden hvisible⟩, rfl⟩

theorem addIntent_addsOwn (s : Scope) (t : Toolbar) (field : IntentField) (key : String)
    (index : Nat) :
    s.AddsOwn (.intent field) index t (addIntent t field key (s.recordPath index)) := by
  rw [addIntent]
  split
  · exact .inl rfl
  · rename_i hvisible
    split
    · exact .inl rfl
    · exact .inr ⟨field.toAction key (s.recordPath index),
        ⟨rfl, fun hhidden => absurd hhidden hvisible⟩, rfl⟩

theorem addAction_addsOwn (s : Scope) (t : Toolbar) (record : DataField) (index : Nat) :
    s.AddsOwn record index t (s.addAction t (record, index)).value := by
  simp only [addAction]
  split
  · split
    · exact .inl rfl
    · exact s.addOperation_addsOwn t _ _ index
  · split
    · exact .inl rfl
    · exact s.addIntent_addsOwn t _ _ index
  · exact .inl rfl

/-- Every action of the toolbar is the one of a record. -/
theorem exists_isActionOf (s : Scope) :
    ∀ action ∈ s.toolbar.value.actions,
      ∃ index record, s.lineItem[index]? = some record ∧ s.IsActionOf record index action := by
  rw [toolbar, Reported.value_foldlM]
  refine List.foldlRecOn (motive := fun t : Toolbar => ∀ action ∈ t.actions,
    ∃ index record, s.lineItem[index]? = some record ∧ s.IsActionOf record index action) _ _ ?_ ?_
  · intro action h
    cases h
  · rintro t ht ⟨record, index⟩ hrecord action haction
    rcases s.addAction_addsOwn t record index with hsame | ⟨own, hown, hadded⟩
    · rw [hsame] at haction
      exact ht action haction
    · rw [hadded, List.mem_append, List.mem_singleton] at haction
      rcases haction with hold | rfl
      · exact ht action hold
      · exact ⟨index, record, List.mem_zipIdx_iff_getElem?.1 hrecord, hown⟩

/-! ### What the manifest says -/

/-- When the action of a key is visible, if an entry of the manifest says so. -/
def visibleText? (s : Scope) (key : String) : Option String := do
  let entry ← (← s.control).actions.get? key
  return (← entry.visible).text

/-- An action of the toolbar in the merged list: the manifest has changed no settled member, and if
it says when the action is visible, that is in effect unless the key of the action is hidden. -/
structure IsRevised (s : Scope) (action merged : Action) : Prop where
  settled : merged.settled = action.settled
  kept : action.key ∈ s.toolbar.value.hidden → merged.visible = action.visible
  set : action.key ∉ s.toolbar.value.hidden →
    merged.visible = (s.visibleText? action.key).getD action.visible

theorem exists_isRevised_of_override {s : Scope} {control : ControlConfiguration} {merged : Action}
    (hcontrol : s.control = some control)
    (h : merged ∈ s.toolbar.value.override control.actions) :
    ∃ action ∈ s.toolbar.value.actions, s.IsRevised action merged := by
  obtain ⟨action, haction, rfl⟩ := List.mem_map.1 h
  refine ⟨action, haction, ?_⟩
  by_cases hhidden : action.key ∈ s.toolbar.value.hidden
  · rw [if_pos (List.contains_iff_mem.2 hhidden)]
    exact ⟨rfl, fun _ => rfl, fun hnot => absurd hhidden hnot⟩
  · rw [if_neg fun hin => hhidden (List.contains_iff_mem.1 hin)]
    cases hentry : control.actions.get? action.key with
    | none =>
      refine ⟨rfl, fun hin => absurd hin hhidden, fun _ => ?_⟩
      simp [visibleText?, hcontrol, hentry]
    | some entry =>
      refine ⟨rfl, fun hin => absurd hin hhidden, fun _ => ?_⟩
      cases hvisible : entry.visible with
      | none => simp [visibleText?, hcontrol, hentry, ManifestAction.override, hvisible]
      | some text => simp [visibleText?, hcontrol, hentry, ManifestAction.override, hvisible]

/-- An action of the merged list that has a path is one of the toolbar. -/
theorem exists_isRevised {s : Scope} {merged : Action}
    (h : merged ∈ (s.mergeActions s.toolbar.value).value) (hpath : merged.annotationPath ≠ none) :
    ∃ action ∈ s.toolbar.value.actions, s.IsRevised action merged := by
  rw [mergeActions] at h
  split at h
  · rename_i control hcontrol
    have hmem := (s.toolbar.value.merge_isArrangement control.actions).perm.mem_iff.1 h
    rcases List.mem_append.1 hmem with hown | hcustom
    · exact exists_isRevised_of_override hcontrol hown
    · -- a custom action has no path
      obtain ⟨custom, hentry, rfl⟩ := List.mem_map.1 hcustom
      obtain ⟨⟨key, entry⟩, -, hcase⟩ := List.mem_filterMap.1 hentry
      dsimp only at hcase
      split at hcase
      · cases hcase
      · obtain rfl := Option.some.inj hcase
        exact absurd rfl hpath
  · rename_i hcontrol
    refine ⟨merged, h, rfl, fun _ => rfl, fun _ => ?_⟩
    rw [visibleText?, hcontrol]
    rfl

end Scope

/-- **Actions of hidden records.**  An action whose path is that of a hidden record is the copy
action, and its record asks for it.  It is not visible, unless the entry of the manifest for its key
says when it is; that has no effect if another hidden record of the key stands before. -/
theorem Context.hidden_records (c : Context) (r : TableRequest) (scope : Reported Scope) (t : Table)
    (hscope : c.resolve r = .ok scope) (h : (c.compile r).value = .ok t)
    (front back : List DataField) (record : DataField)
    (hitems : scope.value.lineItem = front ++ record :: back) (hhidden : record.isHidden = true)
    (action : Action) (haction : action ∈ t.actions)
    (hpath : action.annotationPath = some (scope.value.recordPath front.length)) :
    (∃ field : ActionField, record = .action field ∧ field.isCopy = true) ∧
      record.key? = some action.key ∧ action.kind = .copy ∧
      (HidesAction front action.key → action.visible = "false") ∧
      (¬ HidesAction front action.key →
        action.visible = (scope.value.visibleText? action.key).getD "false") := by
  obtain ⟨scope', hscope', hyields⟩ := exists_yields h
  obtain rfl : scope' = scope := Except.ok.inj (hscope'.symm.trans hscope)
  rw [hyields.actions] at haction
  have hsome : action.annotationPath ≠ none := by
    rw [hpath]
    exact Option.some_ne_none _
  obtain ⟨own, hown, hrevised⟩ := Scope.exists_isRevised haction hsome
  have hkey : action.key = own.key := (congrArg Action.key hrevised.settled :)
  have hkind : action.kind = own.kind := (congrArg Action.kind hrevised.settled :)
  have hown_path : own.annotationPath = some (scope'.value.recordPath front.length) :=
    (congrArg Action.annotationPath hrevised.settled :).symm.trans hpath
  -- both descriptions of where the action comes from speak of the record at this place
  obtain ⟨index, record', hat, hof⟩ := scope'.value.exists_isActionOf own hown
  obtain rfl : index = front.length :=
    scope'.value.recordPath_injective (Option.some.inj (hof.annotationPath.symm.trans hown_path))
  obtain ⟨front', record'', back', hitems', hrecord, -, hpath', hbefore⟩ :=
    scope'.value.gathers_toolbar.actions own hown
  have hlength : front'.length = front.length :=
    scope'.value.recordPath_injective (Option.some.inj (hpath'.symm.trans hown_path))
  obtain ⟨rfl, htail⟩ := List.append_inj (hitems'.symm.trans hitems) hlength
  obtain ⟨rfl, rfl⟩ := List.cons.inj htail
  rw [hitems, List.getElem?_append_right (Nat.le_refl _), Nat.sub_self] at hat
  obtain rfl := Option.some.inj hat
  obtain ⟨field, rfl, hcopy, hown_kind, hvisible⟩ := hof.of_isHidden hhidden
  rw [hkey, hkind]
  refine ⟨⟨field, rfl, hcopy⟩, hrecord, hown_kind, ?_, ?_⟩
  · intro hfront
    rw [hrevised.kept (hbefore.2 hfront), hvisible]
  · intro hfront
    rw [hrevised.set fun hin => hfront (hbefore.1 hin), hvisible]

/-! ### A copy action that shows again -/

/-- A hidden record for the action that approves a request, which asks for the copy action. -/
def DataField.hiddenCopy : DataField :=
  .action ⟨none, "hr.approve", false, false, none,
    { hidden := some (.literal true), isCopyAction := some true }⟩

/-- The entry of the manifest says when the copy action of the hidden record is visible. -/
theorem Context.hidden_records_approvals :
    ∃ scope t, ∃ action ∈ t.actions,
      (approvals [.hiddenCopy]).resolve { entitySet := "Requests" } = .ok scope ∧
      ((approvals [.hiddenCopy]).compile { entitySet := "Requests" }).value = .ok t ∧
      scope.value.lineItem = [.hiddenCopy] ∧
      action.annotationPath = some (scope.value.recordPath 0) ∧ action.kind = .copy ∧
      action.visible = "{Open}" := by
  have hrun : (match (approvals [.hiddenCopy]).resolve { entitySet := "Requests" },
      ((approvals [.hiddenCopy]).compile { entitySet := "Requests" }).value with
    | .ok scope, .ok t => decide (scope.value.lineItem = [.hiddenCopy]) &&
        t.actions.any fun action =>
          decide (action.annotationPath = some (scope.value.recordPath 0)) &&
          decide (scope.value.visibleText? action.key = some "{Open}")
    | _, _ => false) = true := by
    decide +kernel
  split at hrun
  · rename_i scope t hscope hcompile
    rw [Bool.and_eq_true, decide_eq_true_iff, List.any_eq_true] at hrun
    obtain ⟨hitems, action, haction, hentry⟩ := hrun
    rw [Bool.and_eq_true, decide_eq_true_iff, decide_eq_true_iff] at hentry
    obtain ⟨-, -, hkind, -, hset⟩ := hidden_records _ _ scope t hscope hcompile [] []
      .hiddenCopy hitems rfl action haction hentry.1
    have hbefore : ¬ HidesAction [] action.key := by
      rintro ⟨_, h, -⟩
      cases h
    have hvisible := hset hbefore
    rw [hentry.2, Option.getD_some] at hvisible
    exact ⟨scope, t, action, haction, hscope, hcompile, hitems, hentry.1, hkind, hvisible⟩
  · cases hrun

end TableCompiler
