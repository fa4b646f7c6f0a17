import TableCompiler.Proofs.RowSelection
import TableCompiler.Proofs.WrittenTable

/-!
# What the selection mode can be

Whatever the visibilities are and however the rules fold them, the mode comes to one of three
values, and which of them it can be is the choice of the manifest: a single row only where that is
asked for, several rows only where it is not.

* `SelectionInputs.selected_eq_single_iff`, `SelectionInputs.selected_eq_multi_iff` — where rows can
  be selected, the manifest tells how many;
* `SelectionInputs.selected_ne_none_of_visible` — an action that is always visible gets its rows;
* `SelectionMode.ofExpression_cases` — a mode is fixed, or its binding begins like one;
* `SelectionInputs.mode_decided` — all of this for the mode of a table.
-/

namespace TableCompiler

namespace SelectionInputs

variable {i : SelectionInputs} {v : Valuation}

/-! ### The choice of the manifest -/

/-- Nothing but the manifest makes a mode one for a single row. -/
theorem value_eq_single_iff : i.value = .single ↔ i.setting = some .single := by
  rw [value]
  split
  · rename_i hsingle
    exact iff_of_true rfl hsingle
  · rename_i hnone
    rw [hnone]
    refine iff_of_false ?_ (by decide)
    split <;> decide
  · rename_i hsingle hnone
    exact iff_of_false (by decide) hsingle

/-- Where rows can be selected, the mode is the one asked for, or several rows can be deleted
although no selection is wanted. -/
theorem selected_eq_value (hsome : i.selected v ≠ .none) :
    i.selected v = .multi ∧ i.setting = some .none ∨ i.selected v = i.value := by
  rw [selected] at hsome ⊢
  split at hsome
  · rename_i hunwanted
    rw [if_pos hunwanted]
    split at hsome
    · rename_i hdeletes
      exact .inl ⟨if_pos hdeletes, hunwanted.1⟩
    · exact absurd rfl hsome
  · rename_i hwanted
    rw [if_neg hwanted]
    split at hsome
    · rename_i hallows
      exact .inr (if_pos hallows)
    · exact absurd rfl hsome

/-- **A single row** can be selected just where the manifest asks for that and some can be. -/
theorem selected_eq_single_iff :
    i.selected v = .single ↔ i.selected v ≠ .none ∧ i.setting = some .single := by
  constructor
  · intro hsingle
    have hsome : i.selected v ≠ .none := by
      rw [hsingle]
      decide
    rcases selected_eq_value hsome with ⟨hmulti, -⟩ | hvalue
    · rw [hsingle] at hmulti
      cases hmulti
    · exact ⟨hsome, value_eq_single_iff.1 (hvalue.symm.trans hsingle)⟩
  · rintro ⟨hsome, hsetting⟩
    rcases selected_eq_value hsome with ⟨-, hnone⟩ | hvalue
    · rw [hsetting] at hnone
      cases hnone
    · rw [hvalue]
      exact value_eq_single_iff.2 hsetting

/-- **Several rows** can be selected just where the manifest asks for no single one and some can
be. -/
theorem selected_eq_multi_iff :
    i.selected v = .multi ↔ i.selected v ≠ .none ∧ i.setting ≠ some .single := by
  have hsingle := selected_eq_single_iff (i := i) (v := v)
  cases hselected : i.selected v with
  | none => simp
  | single =>
    rw [hselected] at hsingle
    simp [(hsingle.1 rfl).2]
  | multi =>
    rw [hselected] at hsingle
    refine iff_of_true rfl ⟨by decide, fun hsetting => ?_⟩
    cases hsingle.2 ⟨by decide, hsetting⟩

/-- An action that is visible unconditionally gets the rows that it needs, unless none are
wanted. -/
theorem selected_ne_none_of_visible (hsetting : i.setting ≠ some .none)
    (hvisible : i.hasVisibleAction = true) : i.selected v ≠ .none := by
  rw [selected, if_neg fun h => hsetting h.1, allows, hvisible, if_pos rfl, if_pos rfl]
  exact value_ne_none hsetting

/-- The expression of the mode has the name of a mode as its value, that of the mode selected. -/
theorem eval_expression_eq_iff (value : SelectionValue) :
    v.eval i.expression = .text value.name ↔ i.selected v = value := by
  rw [eval_expression]
  cases i.selected v <;> cases value <;> decide

end SelectionInputs

/-! ### Fixed modes and bindings -/

namespace SelectionMode

/-- **A fixed mode or a binding.**  A mode is made of its expression in one of two ways, and a
binding is none of the names of fixed modes. -/
theorem ofExpression_cases {e : Expression} (h : SelectionInputs.IsMode e) :
    (∃ value : SelectionValue, ofExpression e = .fixed value ∧ e = value.expression) ∨
      ∃ text, ofExpression e = .binding text ∧ text = e.compile ∧
        (∃ rest, text = "\x7b= " ++ rest) ∧ ∀ value : SelectionValue, text ≠ value.name := by
  cases h with
  | fixed value =>
    refine .inl ⟨value, ?_, rfl⟩
    cases value <;> rfl
  | choice condition onTrue onFalse =>
    let body := Expression.body (.choice condition onTrue onFalse)
    refine .inr ⟨braced ("= " ++ body), rfl, rfl, ⟨body ++ "\x7d", ?_⟩,
      fun value heq => name_ne_braced value _ heq.symm⟩
    rw [braced, ← String.append_assoc, String.append_assoc]
    rfl

end SelectionMode

/-! ### The mode of a table -/

namespace SelectionInputs

/-- **The mode is decided**, under every valuation, and within the choice of the manifest.  It is
never none where an action on selected rows is visible, unless the manifest wants none.  A fixed mode
is the one that the expression comes to, and a binding cannot be taken for a fixed mode. -/
theorem mode_decided (i : SelectionInputs) (v : Valuation) :
    (v.eval i.expression = .text "None" ∨ v.eval i.expression = .text "Single" ∨
      v.eval i.expression = .text "Multi") ∧
    (v.eval i.expression = .text "Single" ↔
      v.eval i.expression ≠ .text "None" ∧ i.setting = some .single) ∧
    (v.eval i.expression = .text "Multi" ↔
      v.eval i.expression ≠ .text "None" ∧ i.setting ≠ some .single) ∧
    (i.setting ≠ some .none →
      (i.hasVisibleAction = true ∨ ∃ e ∈ i.actionVisibilities, v.holds e = true) →
      v.eval i.expression ≠ .text "None") ∧
    ((∃ value : SelectionValue, i.mode = .fixed value ∧
        v.eval i.expression = .text value.name) ∨
      ∃ text, i.mode = .binding text ∧ text = i.expression.compile ∧
        (∃ rest, text = "\x7b= " ++ rest) ∧ ∀ value : SelectionValue, text ≠ value.name) := by
  have hnone := eval_expression_eq_iff (i := i) (v := v) .none
  have hsingle := eval_expression_eq_iff (i := i) (v := v) .single
  have hmulti := eval_expression_eq_iff (i := i) (v := v) .multi
  simp only [SelectionValue.name] at hnone hsingle hmulti
  refine ⟨?_, ?_, ?_, ?_, ?_⟩
  · rw [hnone, hsingle, hmulti]
    cases i.selected v <;> decide
  · rw [hsingle, Ne, hnone]
    exact selected_eq_single_iff
  · rw [hmulti, Ne, hnone]
    exact selected_eq_multi_iff
  · intro hsetting hoffered
    rw [Ne, hnone]
    rcases hoffered with hvisible | haction
    · exact selected_ne_none_of_visible hsetting hvisible
    · exact selected_ne_none_of_action hsetting (List.any_eq_true.2 haction)
  · refine (SelectionMode.ofExpression_cases i.isMode_expression).imp_left ?_
    rintro ⟨value, hmode, hexpression⟩
    refine ⟨value, hmode, ?_⟩
    rw [hexpression]
    rfl

/-- A single row behind a navigation, selected for an action that is visible under a condition. -/
def approvable : SelectionInputs where
  setting := some .single
  isEntitySet := false
  deletable := false
  deleteVisibility := .ofBool false
  massEditVisibility := .ofBool false
  hasVisibleAction := false
  actionVisibilities := [.ofPath "CanApprove"]

/-- A row that can be approved can be selected, and no other row together with it. -/
theorem mode_decided_approvable :
    approvable.setting ≠ some .none ∧
    (∃ e ∈ approvable.actionVisibilities, (Valuation.truths ["CanApprove"]).holds e = true) ∧
    (Valuation.truths ["CanApprove"]).eval approvable.expression = .text "Single" := by
  have hsetting : approvable.setting ≠ some .none := by decide
  have hvisible : ∃ e ∈ approvable.actionVisibilities,
      (Valuation.truths ["CanApprove"]).holds e = true :=
    ⟨.ofPath "CanApprove", List.mem_singleton_self _, by decide⟩
  obtain ⟨-, hsingle, -, hsome, -⟩ := approvable.mode_decided (.truths ["CanApprove"])
  exact ⟨hsetting, hvisible, hsingle.2 ⟨hsome hsetting (.inr hvisible), rfl⟩⟩

example : approvable.mode =
    .binding "\x7b= %\x7bCanApprove\x7d ? \x27Single\x27 : \x27None\x27\x7d" := by
  decide +kernel

end SelectionInputs

end TableCompiler
