import TableCompiler.Proofs.Codec.Descriptor
import TableCompiler.Proofs.Table

/-!
# Compiled tables read back

The one thing in a descriptor that may be misread is a selection mode: a binding that spells a fixed
mode.  A compiled table has none, because its mode is one of the fixed ones or a choice, and the
binding of a choice begins with a brace.

* `SelectionInputs.IsMode` — fixed modes and choices, as expressions;
* `SelectionInputs.isMode_expression`, `SelectionMode.ofExpression_isTold` — the mode of a table;
* `Context.written_table_kept` — the descriptor that is written for a table reads back.
-/

namespace TableCompiler

/-! ### Modes as expressions -/

namespace SelectionInputs

/-- A fixed mode, or a choice between modes. -/
inductive IsMode : Expression → Prop
  | fixed (value : SelectionValue) : IsMode value.expression
  | choice (condition onTrue onFalse : Expression) : IsMode (.choice condition onTrue onFalse)

/-- A mode while a condition holds, else another one, is a mode. -/
theorem IsMode.during (condition : Expression) {mode otherwise : Expression} (hmode : IsMode mode)
    (hother : IsMode otherwise) : IsMode (during condition mode otherwise) := by
  unfold SelectionInputs.during Expression.ifElse
  split
  · split
    · exact hmode
    · exact hother
  · split
    · exact hmode
    · split
      · exact .choice _ _ _
      · exact .choice _ _ _

variable (i : SelectionInputs)

theorem isMode_unwanted : IsMode i.unwanted := by
  refine .during _ (.fixed .multi) ?_
  split
  · exact .during _ (.fixed .multi) (.fixed .none)
  · exact .fixed .none

theorem isMode_withoutActions : IsMode i.withoutActions := by
  unfold withoutActions
  dsimp only
  split
  · split
    · exact .fixed _
    · exact .during _ (.fixed _) (.fixed .none)
  · exact .fixed .none

theorem isMode_withActions : IsMode i.withActions := by
  have hbyAction : IsMode (SelectionInputs.during (.or i.actionVisibilities) i.value.expression
      SelectionValue.none.expression) := .during _ (.fixed _) (.fixed .none)
  unfold withActions
  dsimp only
  split
  · split
    · exact .fixed _
    · exact hbyAction
  · split
    · exact .during _ (.fixed _) hbyAction
    · exact hbyAction

/-- Whichever rule decides, it yields a mode. -/
theorem isMode_expression : IsMode i.expression := by
  unfold expression
  split
  · exact i.isMode_unwanted
  · split
    · exact .fixed _
    · split
      · exact i.isMode_withoutActions
      · exact i.isMode_withActions

end SelectionInputs

/-! ### Bindings of modes -/

namespace SelectionMode

/-- The name of a fixed mode does not begin like the binding of a choice. -/
theorem name_ne_braced (value : SelectionValue) (body : String) : value.name ≠ braced body := by
  intro h
  have hlist := congrArg String.toList h
  rw [braced, String.toList_append, String.toList_append] at hlist
  cases value <;> exact absurd (List.cons.inj hlist).1 (by decide)

theorem ofExpression_isTold {e : Expression} (h : SelectionInputs.IsMode e) :
    (ofExpression e).IsTold := by
  cases h with
  | fixed value => cases value <;> trivial
  | choice condition onTrue onFalse => exact fun value => name_ne_braced value _

end SelectionMode

/-! ### Tables -/

/-- **Written tables.**  The descriptor of a table that is compiled reads back. -/
theorem Context.written_table_kept (c : Context) (r : TableRequest) (t : Table)
    (h : (c.compile r).value = .ok t) : Table.codec.read (Table.codec.write t) = some t := by
  obtain ⟨scope, hscope, -⟩ := exists_yields h
  obtain ⟨creation, variant, conditions, hconfiguration⟩ := exists_configuration hscope h
  have hmode : t.configuration.selectionMode.IsTold := by
    rw [hconfiguration]
    exact SelectionMode.ofExpression_isTold (SelectionInputs.isMode_expression _)
  exact (Table.codec_keeps hmode).read_write

/-- The page of orders has a table that reads back. -/
theorem Context.written_table_kept_orders :
    ∃ t, (orders.compile { entitySet := "Orders" }).value = .ok t ∧
      Table.codec.read (Table.codec.write t) = some t := by
  obtain ⟨t, ht⟩ := orders_compiles
  exact ⟨t, ht, written_table_kept orders _ t ht⟩

end TableCompiler
