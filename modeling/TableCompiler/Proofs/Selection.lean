import TableCompiler.Proofs.Operations
import TableCompiler.Selection

/-!
# The meaning of the selection mode

Under a valuation the selection mode is decided rule by rule, and every rule asks whether something
that needs selected rows is to be had.

* `SelectionInputs.selected` — the mode under a valuation;
* `SelectionInputs.eval_expression` — the expression of the mode evaluates to it;
* `SelectionInputs.selected_ne_none_of_delete`, `SelectionInputs.selected_ne_none_of_action` — rows
  can be selected if they can be deleted, or if an action wants them;
* `SelectionInputs.selected_eq_none_iff` — when rows cannot be selected although they can be edited
  together.
-/

namespace TableCompiler

open Expression

namespace SelectionInputs

/-! ### The mode under a valuation -/

/-- Whether the page is in edit mode and rows can be deleted or edited together. -/
def editing (i : SelectionInputs) (v : Valuation) : Bool :=
  v.holds .isEditable && (v.holds i.deleteVisibility || v.holds i.massEditVisibility)

/-- Whether some action on selected rows is visible. -/
def acting (i : SelectionInputs) (v : Valuation) : Bool :=
  i.actionVisibilities.any v.holds

/-- Whether rows can be selected where the wish for none does not decide. -/
def allows (i : SelectionInputs) (v : Valuation) : Bool :=
  if i.hasVisibleAction then true
  else if i.actionVisibilities.isEmpty && (i.canDelete || i.canMassEdit) then
    (i.deletable || i.canMassEdit) && (i.isEntitySet || i.editing v)
  else if i.isEntitySet then i.canDelete || i.canMassEdit || i.acting v
  else (i.deletable || i.canMassEdit) && i.editing v || i.acting v

/-- The selection mode under a valuation. -/
def selected (i : SelectionInputs) (v : Valuation) : SelectionValue :=
  if i.setting = some .none ∧ i.canDelete then
    if i.editing v || i.isEntitySet && v.holds i.deleteVisibility then .multi else .none
  else if i.allows v then i.value else .none

variable (v : Valuation)

/-! ### Evaluation -/

theorem holds_editGate (i : SelectionInputs) : v.holds i.editGate = i.editing v := by
  rw [editGate, v.holds_and, editing]
  simp only [List.all_cons, List.all_nil, v.holds_or, List.any_cons, List.any_nil, Bool.and_true,
    Bool.or_false]

/-- A mode while a condition holds, else another one. -/
theorem eval_during (c mode otherwise : Expression) :
    v.eval (during c mode otherwise) = if v.holds c then v.eval mode else v.eval otherwise :=
  v.eval_ifElse c mode otherwise

/-- A choice between two modes is one of them. -/
theorem eval_during_value (c : Expression) (mode otherwise : SelectionValue) :
    v.eval (during c mode.expression otherwise.expression) =
      .text (if v.holds c then mode else otherwise).name := by
  rw [eval_during]
  split <;> rfl

/-- A choice between a mode and a choice between two modes. -/
theorem eval_during_during (c d : Expression) (mode inner otherwise : SelectionValue) :
    v.eval (during c mode.expression (during d inner.expression otherwise.expression)) =
      .text (if v.holds c then mode else if v.holds d then inner else otherwise).name := by
  rw [eval_during, eval_during_value]
  split <;> rfl

theorem eval_unwanted (i : SelectionInputs) :
    v.eval i.unwanted =
      .text (if i.editing v || i.isEntitySet && v.holds i.deleteVisibility then
        SelectionValue.multi else .none).name := by
  rw [unwanted]
  cases hset : i.isEntitySet with
  | true =>
    rw [if_pos rfl, eval_during_during, holds_editGate]
    cases i.editing v <;> rfl
  | false =>
    rw [if_neg Bool.false_ne_true, eval_during_value, holds_editGate]
    cases i.editing v <;> rfl

theorem eval_withoutActions (i : SelectionInputs) :
    v.eval i.withoutActions =
      .text (if (i.deletable || i.canMassEdit) && (i.isEntitySet || i.editing v) then i.value
        else .none).name := by
  rw [withoutActions]
  cases hany : i.deletable || i.canMassEdit with
  | false => rfl
  | true =>
    cases hset : i.isEntitySet with
    | true => rfl
    | false =>
      rw [if_pos rfl, if_neg Bool.false_ne_true, eval_during_value, holds_editGate]
      cases i.editing v <;> rfl

theorem eval_withActions (i : SelectionInputs) :
    v.eval i.withActions =
      .text (if (if i.isEntitySet then i.canDelete || i.canMassEdit || i.acting v
        else (i.deletable || i.canMassEdit) && i.editing v || i.acting v) then i.value
        else .none).name := by
  have hacting : v.holds (.or i.actionVisibilities) = i.acting v := v.holds_or _
  rw [withActions]
  cases hset : i.isEntitySet with
  | true =>
    rw [if_pos rfl, if_pos rfl]
    cases hany : i.canDelete || i.canMassEdit with
    | true => rfl
    | false => rw [if_neg Bool.false_ne_true, eval_during_value, hacting, Bool.false_or]
  | false =>
    rw [if_neg Bool.false_ne_true, if_neg Bool.false_ne_true]
    cases hany : i.deletable || i.canMassEdit with
    | true =>
      rw [if_pos rfl, eval_during_during, holds_editGate, hacting]
      cases i.editing v <;> rfl
    | false =>
      rw [if_neg Bool.false_ne_true, eval_during_value, hacting, Bool.false_and, Bool.false_or]

/-- **The meaning of the selection mode.**  Under every valuation the expression has the mode as
its value that the rules give. -/
theorem eval_expression (i : SelectionInputs) :
    v.eval i.expression = .text (i.selected v).name := by
  rw [expression, selected]
  split
  · exact eval_unwanted v i
  · rw [allows]
    split
    · rfl
    · split
      · exact eval_withoutActions v i
      · exact eval_withActions v i

/-! ### When rows can be selected -/

variable {i : SelectionInputs} {v}

/-- Unless none is wanted, some rows can be selected where that is allowed. -/
theorem value_ne_none (h : i.setting ≠ some .none) : i.value ≠ .none := by
  rw [value]
  split
  · exact fun hsame => by cases hsame
  · rename_i hnone
    exact absurd hnone h
  · exact fun hsame => by cases hsame

/-- **Deleting needs selected rows, and gets them.** -/
theorem selected_ne_none_of_delete (hdeletable : i.deletable = true)
    (hpage : (i.isEntitySet || v.holds .isEditable) = true)
    (hdelete : v.holds i.deleteVisibility = true) : i.selected v ≠ .none := by
  have hcan : i.canDelete = true := by rw [canDelete, Valuation.isFalse_of_holds v hdelete]; rfl
  have hediting : (i.isEntitySet || i.editing v) = true := by
    rw [editing, hdelete, Bool.true_or, Bool.and_true]
    exact hpage
  rw [selected]
  split
  · rw [hdelete, Bool.and_true, Bool.or_comm, hediting, if_pos rfl]
    exact fun hsame => by cases hsame
  · rename_i hwanted
    have hvalue : i.value ≠ .none := value_ne_none fun hnone => hwanted ⟨hnone, hcan⟩
    have hallows : i.allows v = true := by
      rw [allows, hcan, hdeletable]
      cases hset : i.isEntitySet <;> simp_all
    rw [hallows, if_pos rfl]
    exact hvalue

/-- **A visible action gets the rows that it needs**, unless none are wanted. -/
theorem selected_ne_none_of_action (hsetting : i.setting ≠ some .none)
    (haction : i.acting v = true) : i.selected v ≠ .none := by
  have hsome : i.actionVisibilities.isEmpty = false := by
    obtain ⟨e, he, -⟩ := List.any_eq_true.1 haction
    exact List.isEmpty_eq_false_iff.2 (List.ne_nil_of_mem he)
  have hallows : i.allows v = true := by
    rw [allows, hsome, haction]
    simp
  rw [selected, if_neg fun h => hsetting h.1, hallows, if_pos rfl]
  exact value_ne_none hsetting

/-- **When rows that can be edited together cannot be selected.**  The manifest wants no selection,
rows of an entity set might be deleted but cannot be now, and the page is not in edit mode. -/
theorem selected_eq_none_iff (hpage : (i.isEntitySet || v.holds .isEditable) = true)
    (hmassEdit : v.holds i.massEditVisibility = true) :
    i.selected v = .none ↔ i.setting = some .none ∧ i.canDelete = true ∧ i.isEntitySet = true ∧
      v.holds i.deleteVisibility = false ∧ v.holds .isEditable = false := by
  have hcan : i.canMassEdit = true := by
    rw [canMassEdit, Valuation.isFalse_of_holds v hmassEdit]
    rfl
  have hediting : i.editing v = v.holds .isEditable := by
    rw [editing, hmassEdit, Bool.or_true, Bool.and_true]
  rw [selected]
  split
  · rename_i hunwanted
    rw [hediting]
    cases hset : i.isEntitySet <;> cases hedit : v.holds .isEditable <;>
      cases hdelete : v.holds i.deleteVisibility <;> simp_all
  · rename_i hwanted
    have hallows : i.allows v = true := by
      rw [allows, hediting, hcan]
      cases hset : i.isEntitySet <;> simp_all
    have hvalue : i.value ≠ .none := by
      rw [value, hcan]
      split <;> exact fun hsame => by cases hsame
    rw [hallows, if_pos rfl]
    exact iff_of_false hvalue fun h => hwanted ⟨h.1, h.2.1⟩

end SelectionInputs

end TableCompiler
