import TableCompiler.Proofs.Failure
import TableCompiler.Proofs.Placement.Anchor
import TableCompiler.Proofs.Reported

/-!
# Where problems of creation come from

A compilation reports problems on its way, and few of them are about how rows are created.  Those
come from the one stage at which creation is decided: what the other stages report is about
something else.

* `Problem.isOfCreation`, `Problem.IsElsewhere` — what is reported about creation, and the rest;
* `Scope.only_arena`, `Scope.only_toolbar`, `Scope.only_conditions`, `Context.only_resolve` — the
  stages that report nothing about it;
* `Context.mem_problems_compile` — the problems of creation of a whole compilation.
-/

namespace TableCompiler

/-! ### Problems of creation -/

namespace Problem

/-- Whether a problem is about how rows are created. -/
def isOfCreation : Problem → Bool
  | .undeclaredOutbound _ | .missingOutbound | .missingRoute _ => true
  | _ => false

/-- A problem that is not about how rows are created. -/
def IsElsewhere (p : Problem) : Prop :=
  p.isOfCreation = false

theorem not_isElsewhere {p : Problem} (h : p.isOfCreation = true) : ¬ p.IsElsewhere := by
  rw [IsElsewhere, h]
  exact nofun

end Problem

open Problem (IsElsewhere)

namespace Scope

variable (s : Scope)

/-! ### Steps that are not about creation -/

theorem only_valueColumn (field : DataField) (path : PropertyPath) (key : String) :
    (s.valueColumn field path key).Only IsElsewhere := by
  unfold valueColumn
  split
  · exact .bind (.report rfl) (.pure none)
  · split
    · exact .pure _
    · exact .bind (.report rfl) (.pure none)

theorem only_dataPointColumn (field : DataField) (target key : String) (point : DataPoint)
    (navigation : String) :
    (s.dataPointColumn field target key point navigation).Only IsElsewhere := by
  unfold dataPointColumn
  dsimp only
  split
  · exact .pure _
  · exact .bind (.report rfl) (.pure none)

theorem only_referenceColumn (field : DataField) (target key : String) :
    (s.referenceColumn field target key).Only IsElsewhere := by
  unfold referenceColumn
  split
  · exact .bind (.report rfl) (.pure none)
  · split
    · exact .bind (.report rfl) (.pure none)
    · split
      · exact .pure _
      · exact s.only_dataPointColumn ..
      · exact .pure none

/-- The columns of a line item. -/
theorem only_arena : s.arena.Only IsElsewhere := by
  have hrecord : ∀ field, (s.recordColumn field).Only IsElsewhere := by
    intro field
    unfold recordColumn
    split
    · exact s.only_valueColumn ..
    · exact s.only_referenceColumn ..
    · exact .pure none
  refine .bind (.foldlM fun _ record => .bind (hrecord record.1) ?_) (.pure _)
  split <;> exact .pure _

/-- Custom elements of a list. -/
theorem only_placeAll {α : Type} (key : α → String) (items : List α) (custom : List (Custom α)) :
    (placeAll key items custom).Only IsElsewhere := by
  unfold placeAll
  refine ⟨fun p hp => ?_⟩
  rw [problems_appendLost] at hp
  obtain ⟨lost, -, rfl⟩ := List.mem_map.1 hp
  rfl

/-- The columns with those of the manifest. -/
theorem only_mergeColumns (columns : List Column) : (s.mergeColumns columns).Only IsElsewhere := by
  have hplain : ∀ key names path, (Columns.addPlain columns key names path).Only IsElsewhere := by
    intro key names path
    unfold Columns.addPlain
    split
    · exact .pure _
    · exact .bind (.report rfl) (.pure names)
  have hcustom : ∀ key entry, (Columns.customColumn? columns key entry).Only IsElsewhere := by
    intro key entry
    unfold Columns.customColumn?
    split
    · exact .pure none
    · split
      · exact .bind (.report rfl) (.pure none)
      · split
        · exact .bind (.report rfl) (.pure none)
        · exact .bind (.foldlM fun names path => hplain key names path) (.pure _)
  unfold mergeColumns
  split
  · exact .bind (.filterMapM fun entry => hcustom entry.1 entry.2) (only_placeAll ..)
  · exact .pure columns

/-- Aggregation. -/
theorem only_aggregate (units : Dictionary Unit) (columns : List Column) :
    (s.aggregate units columns).Only IsElsewhere := by
  have hwire : ∀ a entry, (wireAggregate units a entry).Only IsElsewhere := by
    intro a entry
    unfold wireAggregate
    dsimp only
    split
    · exact .pure a
    · split
      · exact .pure _
      · exact .bind (.report rfl) (.pure a)
  unfold aggregate
  split
  · exact .pure _
  · exact .bind (.foldlM hwire) (.pure _)

/-- The actions of a line item. -/
theorem only_toolbar : s.toolbar.Only IsElsewhere := by
  have hoperation : ∀ field key path, (s.operationAction field key path).Only IsElsewhere := by
    intro field key path
    unfold operationAction
    dsimp only
    split
    · exact .bind (.report rfl) (.pure _)
    · exact .pure _
  refine .foldlM fun t record => ?_
  unfold addAction addOperation
  dsimp only
  split
  · split
    · exact .pure t
    · split
      · exact .pure _
      · split
        · exact .pure _
        · split
          · exact .pure t
          · exact .bind (hoperation ..) (.pure _)
  · split
    · exact .pure t
    · exact .pure _
  · exact .pure t

theorem only_mergeActions (t : Toolbar) : (s.mergeActions t).Only IsElsewhere := by
  unfold mergeActions
  split
  · exact only_placeAll ..
  · exact .pure _

theorem only_variant? (requested : Option AnnotationPath) :
    (s.variant? requested).Only IsElsewhere := by
  unfold variant?
  split
  · exact .pure _
  · split
    · exact .pure _
    · exact .bind (.report rfl) (.pure none)

theorem only_conditionColumn? (columns : List Column) (role : ConditionRole)
    (path : PropertyPath) : (s.conditionColumn? columns role path).Only IsElsewhere := by
  unfold conditionColumn?
  split
  · exact .bind (.report rfl) (.pure none)
  · split
    · exact .pure _
    · exact .bind (.report rfl) (.pure none)

theorem only_firstColumn? (columns : List Column) (role : ConditionRole)
    (paths : List PropertyPath) : (s.firstColumn? columns role paths).Only IsElsewhere := by
  induction paths with
  | nil => exact .pure none
  | cons path paths ih =>
    refine .bind (s.only_conditionColumn? columns role path) ?_
    split
    · exact .pure _
    · exact ih

/-- The conditions of a presentation variant. -/
theorem only_conditions (columns : List Column) (variant : Option PresentationVariant) :
    (s.conditions columns variant).Only IsElsewhere := by
  unfold conditions
  split
  · exact .pure _
  · rename_i v
    refine .bind (.bind (.filterMapM fun order => ?_) (.pure _)) (.bind ?_ (.bind ?_ (.pure _)))
    · exact .bind (s.only_conditionColumn? ..) (.pure _)
    · unfold groupLevels?
      split
      · exact .bind (.filterMapM fun path => s.only_conditionColumn? ..) (.pure _)
      · exact .bind (s.only_firstColumn? ..) (.pure _)
      · exact .pure none
    · unfold totals?
      split
      · exact .pure none
      · exact .bind (.filterMapM fun path => s.only_conditionColumn? ..) (.pure _)

/-! ### All stages -/

/-- The problems of creation are those that are reported when it is decided. -/
theorem mem_problems_table {s : Scope} {requested : Option AnnotationPath} {p : Problem}
    (hp : p.isOfCreation = true) :
    p ∈ (s.table requested).problems ↔ p ∈ s.creation.problems := by
  have hnot := Problem.not_isElsewhere hp
  rw [table]
  rw [s.only_arena.mem_bind_iff hnot]
  rw [(s.only_mergeColumns _).mem_bind_iff hnot]
  rw [(s.only_aggregate _ _).mem_bind_iff hnot]
  rw [s.only_toolbar.mem_bind_iff hnot]
  rw [(s.only_mergeActions _).mem_bind_iff hnot]
  refine Reported.Only.mem_bind_iff_left ?_ hnot
  split
  · exact .pure _
  · exact .bind (s.only_variant? _) (.bind (s.only_conditions _ _) (.pure _))

end Scope

namespace Context

variable {c : Context} {r : TableRequest} {scope : Reported Scope}

theorem only_resolve (h : c.resolve r = .ok scope) : scope.Only IsElsewhere := by
  have htype : ∀ t settings, (c.tableType t settings).Only IsElsewhere := by
    intro t settings
    unfold tableType
    split
    · split
      · exact .pure _
      · exact .bind (.report rfl) (.pure _)
    · split
      · exact .pure _
      · exact .bind (.report rfl) (.pure _)
    · exact .pure _
  rw [resolve] at h
  split at h
  · split at h
    · dsimp only at h
      split at h
      · split at h
        · obtain rfl := Except.ok.inj h
          exact .bind (htype ..) (.pure _)
        · cases h
      · cases h
    · cases h
  · cases h

/-- **Problems of creation** are reported for a request exactly if they are when creation is
decided. -/
theorem mem_problems_compile (hscope : c.resolve r = .ok scope) {p : Problem}
    (hp : p.isOfCreation = true) :
    p ∈ (c.compile r).problems ↔ p ∈ scope.value.creation.problems := by
  rw [compile, hscope]
  dsimp only
  rw [(only_resolve hscope).mem_bind_iff (Problem.not_isElsewhere hp)]
  exact Scope.mem_problems_table hp

end Context

end TableCompiler
