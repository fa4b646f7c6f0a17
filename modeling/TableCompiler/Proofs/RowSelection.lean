import TableCompiler.Proofs.Selection
import TableCompiler.Proofs.Table

/-!
# Operations on rows and the selection of rows

An operation on rows is of use only where rows can be selected.  Deleting and the actions of the
toolbar keep to this.  Editing rows together does so but for one case: where the manifest wants no
selection and rows of an entity set can be deleted under a condition, the mode looks at that
condition alone as long as the page is not in edit mode.

* `Scope.selectionExpression` — what the selection mode of a table is made of;
* `Scope.acting_iff` — the actions that count;
* `Context.rows_selectable` — rows can be selected whenever they can be deleted or acted on;
* `Context.mass_edit_selectable` — when they can be selected to be edited together.
-/

namespace TableCompiler

open Expression

namespace Scope

variable (s : Scope) (actions : List Action)

/-- The selection mode of the table, given its actions, as an expression. -/
def selectionExpression : Expression := (s.selectionInputs actions s.operations).expression

theorem eval_selectionExpression (v : Valuation) :
    v.eval (s.selectionExpression actions) =
      .text ((s.selectionInputs actions s.operations).selected v).name :=
  SelectionInputs.eval_expression v _

/-- The actions that count are those on selected rows that are visible now. -/
theorem acting_iff (v : Valuation) :
    (s.selectionInputs actions s.operations).acting v = true ↔
      ∃ a ∈ actions, a.requiresSelection = some true ∧ v.holds (.ofBinding a.visible) = true := by
  rw [SelectionInputs.acting, List.any_eq_true]
  constructor
  · rintro ⟨e, he, hholds⟩
    obtain ⟨a, ha, rfl⟩ := List.mem_map.1 he
    rw [List.mem_filter, Bool.and_eq_true, beq_iff_eq] at ha
    exact ⟨a, ha.1, ha.2.1, hholds⟩
  · rintro ⟨a, ha, hrequires, hholds⟩
    refine ⟨.ofBinding a.visible, List.mem_map_of_mem (List.mem_filter.2 ⟨ha, ?_⟩), hholds⟩
    rw [hrequires, beq_self_eq_true, Bool.true_and, bne_iff_ne]
    -- the text `false` is read as the constant
    intro hfalse
    have hnever : v.holds (.ofBinding "false") = false := v.holds_ofBool false
    rw [hfalse, hnever] at hholds
    cases hholds

/-- A mode is single or multiple unless it is none. -/
theorem selects_iff (v : Valuation) :
    v.eval (s.selectionExpression actions) = .text "Single" ∨
        v.eval (s.selectionExpression actions) = .text "Multi" ↔
      (s.selectionInputs actions s.operations).selected v ≠ .none := by
  rw [eval_selectionExpression]
  cases (s.selectionInputs actions s.operations).selected v <;> decide

end Scope

/-- The row and page on which just the given paths are true. -/
def Valuation.truths (paths : List String) : Valuation where
  path _ p := .bool (paths.contains p)
  formatted _ _ := .bool false
  embedded _ := .bool false
  formatted_congr _ _ := rfl
  truthy x := decide (x = .bool true)
  truthy_bool b := by cases b <;> rfl
  unordered _ _ _ := false

namespace Context

/-- Orders that can be deleted unless they are locked; the manifest wants them edited together but
not selected. -/
def lockable : Context where
  service := {
    entitySets := [{ name := "Orders", entityType := "shop.Order" }]
    entityTypes := [
      { name := "shop.Order"
        properties := [
          { name := "ID", typeName := "Edm.String" },
          { name := "Locked", typeName := "Edm.Boolean" }]
        annotations := {
          lineItems := .ofList [("", [DataField.value ⟨.plain, "ID", none, {}⟩])]
          deleteHidden := some (.path "Locked") } }] }
  manifest := { controls := .ofList [("@UI.LineItem",
    { tableSettings := { selectionMode := some .none, enableMassEdit := some true } })] }

variable (c : Context) (r : TableRequest) (scope : Reported Scope) (t : Table)

/-- **Rows can be selected whenever an operation on them is offered.**  Whatever the paths and
bindings stand for: if rows can be deleted, or if the manifest does not rule selection out and an
action on selected rows is visible, then the expression behind the selection mode has the value of
a mode under which rows can be selected. -/
theorem rows_selectable (hscope : c.resolve r = .ok scope) (h : (c.compile r).value = .ok t) :
    t.configuration.visibility.delete = scope.value.operations.delete.compile ∧
    t.configuration.selectionMode =
      .ofExpression (scope.value.selectionExpression t.actions) ∧
    ∀ v : Valuation,
      (v.holds scope.value.operations.delete = true ∨
        scope.value.settings.selectionMode ≠ some .none ∧
          ∃ a ∈ t.actions, a.requiresSelection = some true ∧
            v.holds (.ofBinding a.visible) = true) →
      v.eval (scope.value.selectionExpression t.actions) = .text "Single" ∨
        v.eval (scope.value.selectionExpression t.actions) = .text "Multi" := by
  obtain ⟨creation, variant, conditions, hconfiguration⟩ := exists_configuration hscope h
  refine ⟨by rw [hconfiguration]; rfl, by rw [hconfiguration]; rfl, ?_⟩
  intro v hoffered
  rw [Scope.selects_iff]
  rcases hoffered with hdelete | ⟨hsetting, haction⟩
  · obtain ⟨hgranted, hpage⟩ := Scope.permits_delete hdelete
    refine SelectionInputs.selected_ne_none_of_delete ?_ hpage hdelete
    show (!(scope.value.service.deletable scope.value.dataPath).isDenied) = true
    rw [hgranted]
    rfl
  · exact SelectionInputs.selected_ne_none_of_action hsetting
      ((scope.value.acting_iff t.actions v).2 haction)

/-- An order that is not locked can be deleted and selected, although the manifest wants no
selection. -/
theorem rows_selectable_lockable :
    ∃ scope t, lockable.resolve { entitySet := "Orders" } = .ok scope ∧
      (lockable.compile { entitySet := "Orders" }).value = .ok t ∧
      (Valuation.truths []).holds scope.value.operations.delete = true ∧
      ((Valuation.truths []).eval (scope.value.selectionExpression t.actions) = .text "Single" ∨
        (Valuation.truths []).eval (scope.value.selectionExpression t.actions) =
          .text "Multi") := by
  have hrun : (match lockable.resolve { entitySet := "Orders" },
      (lockable.compile { entitySet := "Orders" }).value with
    | .ok scope, .ok _ => (Valuation.truths []).holds scope.value.operations.delete
    | _, _ => false) = true := by decide +kernel
  split at hrun
  · rename_i scope t hscope ht
    have hselectable := rows_selectable lockable { entitySet := "Orders" } scope t hscope ht
    exact ⟨scope, t, hscope, ht, hrun, hselectable.2.2 (.truths []) (.inl hrun)⟩
  · cases hrun

/-- **Rows that can be edited together can be selected** but in one case: the manifest wants no
selection, the rows are those of an entity set, deleting them is not ruled out but not possible now,
and the page is not in edit mode. -/
theorem mass_edit_selectable (hscope : c.resolve r = .ok scope)
    (h : (c.compile r).value = .ok t) (v : Valuation)
    (hmassEdit : v.holds scope.value.operations.massEdit = true) :
    t.configuration.visibility.massEdit = scope.value.operations.massEdit.compile ∧
    t.configuration.selectionMode =
      .ofExpression (scope.value.selectionExpression t.actions) ∧
    ((v.eval (scope.value.selectionExpression t.actions) = .text "Single" ∨
        v.eval (scope.value.selectionExpression t.actions) = .text "Multi") ↔
      ¬ (scope.value.settings.selectionMode = some .none ∧
        scope.value.operations.delete.isFalse = false ∧ scope.value.isEntitySet = true ∧
        v.holds scope.value.operations.delete = false ∧ v.holds .isEditable = false)) := by
  obtain ⟨creation, variant, conditions, hconfiguration⟩ := exists_configuration hscope h
  refine ⟨by rw [hconfiguration]; rfl, by rw [hconfiguration]; rfl, ?_⟩
  have hnone := SelectionInputs.selected_eq_none_iff
    (i := scope.value.selectionInputs t.actions scope.value.operations)
    (Scope.permits_massEdit hmassEdit) hmassEdit
  rw [Scope.selects_iff, Ne, hnone, SelectionInputs.canDelete, Bool.not_eq_true']
  rfl

/-- On a page in edit mode locked orders can be selected, to be edited together. -/
theorem mass_edit_selectable_lockable :
    ∃ scope t, lockable.resolve { entitySet := "Orders" } = .ok scope ∧
      (lockable.compile { entitySet := "Orders" }).value = .ok t ∧
      (Valuation.truths ["Locked", "/isEditable"]).holds scope.value.operations.massEdit = true ∧
      (Valuation.truths ["Locked", "/isEditable"]).holds .isEditable = true ∧
      ((Valuation.truths ["Locked", "/isEditable"]).eval
          (scope.value.selectionExpression t.actions) = .text "Single" ∨
        (Valuation.truths ["Locked", "/isEditable"]).eval
          (scope.value.selectionExpression t.actions) = .text "Multi") := by
  have hrun : (match lockable.resolve { entitySet := "Orders" },
      (lockable.compile { entitySet := "Orders" }).value with
    | .ok scope, .ok _ =>
      (Valuation.truths ["Locked", "/isEditable"]).holds scope.value.operations.massEdit
    | _, _ => false) = true := by decide +kernel
  have heditable : (Valuation.truths ["Locked", "/isEditable"]).holds .isEditable = true := by
    decide
  split at hrun
  · rename_i scope t hscope ht
    have hselectable := mass_edit_selectable lockable { entitySet := "Orders" } scope t hscope ht
      (.truths ["Locked", "/isEditable"]) hrun
    refine ⟨scope, t, hscope, ht, hrun, heditable, hselectable.2.2.2 ?_⟩
    rintro ⟨-, -, -, -, hnot⟩
    rw [heditable] at hnot
    cases hnot
  · cases hrun

-- out of edit mode locked orders cannot be selected, although editing them together is offered
example :
    (match lockable.resolve { entitySet := "Orders" },
      (lockable.compile { entitySet := "Orders" }).value with
    | .ok scope, .ok t => (t.configuration.visibility.massEdit,
        decide ((Valuation.truths ["Locked"]).eval (scope.value.selectionExpression t.actions) =
          .text "None"))
    | _, _ => ("", false)) = ("true", true) := by
  decide +kernel

end Context

end TableCompiler
