import TableCompiler.Operations
import TableCompiler.Proofs.Expression.Folding

/-!
# When operations are visible

An operation is visible just when it is neither hidden nor denied and the page is in edit mode,
which does not matter for the rows of an entity set itself.

* `Valuation.holds_operationVisibility` — the three conditions;
* `Scope.permits_of_holds` — a visible operation is not denied, and the page can be edited.
-/

namespace TableCompiler

open Expression

namespace Valuation

variable (v : Valuation) (s : Scope)

theorem holds_editGate : v.holds s.editGate = (s.isEntitySet || v.holds .isEditable) := by
  rw [Scope.editGate]
  split
  · rename_i h
    rw [h, v.holds_ofBool, Bool.true_or]
  · rename_i h
    rw [Bool.not_eq_true] at h
    rw [h, Bool.false_or]

/-- An operation is visible just when it is shown, granted and possible on the page. -/
theorem holds_operationVisibility (hidden : Option (Dynamic Bool)) (c : Capability) :
    v.holds (s.operationVisibility hidden c) =
      (v.holds (shown hidden "") && (v.holds (s.granted c) &&
        (s.isEntitySet || v.holds .isEditable))) := by
  rw [Scope.operationVisibility, v.holds_and, ← holds_editGate]
  simp only [List.all_cons, List.all_nil, Bool.and_true]

/-- What counts as true is not the constant false. -/
theorem isFalse_of_holds {e : Expression} (h : v.holds e = true) : e.isFalse = false := by
  rw [Bool.eq_false_iff]
  intro hfalse
  rw [isFalse_iff.1 hfalse, v.holds_ofBool] at h
  cases h

end Valuation

namespace Scope

variable {s : Scope} {v : Valuation}

/-- **What a visible operation permits.**  Its capability is no fixed no, and the rows are those of
an entity set itself or the page is in edit mode. -/
theorem permits_of_holds {hidden : Option (Dynamic Bool)} {c : Capability}
    (h : v.holds (s.operationVisibility hidden c) = true) :
    c.isDenied = false ∧ (s.isEntitySet || v.holds .isEditable) = true := by
  rw [v.holds_operationVisibility, Bool.and_eq_true, Bool.and_eq_true] at h
  refine ⟨?_, h.2.2⟩
  cases c with
  | byPath p => rfl
  | fixed granted =>
    have hgranted : v.holds (.ofBool granted) = true := h.2.1
    rw [v.holds_ofBool] at hgranted
    rw [Capability.isDenied, hgranted]
    rfl

/-- Rows that can be deleted at all. -/
theorem permits_delete (h : v.holds s.operations.delete = true) :
    (s.service.deletable s.dataPath).isDenied = false ∧
      (s.isEntitySet || v.holds .isEditable) = true :=
  permits_of_holds h

/-- Rows that can be edited together at all. -/
theorem permits_massEdit (h : v.holds s.operations.massEdit = true) :
    (s.isEntitySet || v.holds .isEditable) = true := by
  rw [operations] at h
  dsimp only at h
  split at h
  · exact (permits_of_holds h).2
  · rw [v.holds_ofBool] at h
    cases h

end Scope

end TableCompiler
