import Mathlib.Data.List.Perm.Basic
import TableCompiler.Placement
import TableCompiler.Proofs.Reported

/-!
# Placing custom elements loses and repeats nothing

Wherever the custom elements end up, the list that results is a rearrangement of the old elements
and the custom ones.

* `Placed.insertAt_perm`, `Placed.pass_perm`, `Placed.settle_perm` — one element, one pass and all
  passes;
* `placeAll_perm` — the whole placement.
-/

namespace TableCompiler

variable {α : Type} (key : α → String)

namespace Placed

theorem insertAt_perm {p : Placed α} {items : List α} (h : p.isAnchored key items = true) :
    (p.insertAt key items).Perm (p.element :: items) := by
  induction items with
  | nil => simp [isAnchored] at h
  | cons x rest ih =>
    rw [insertAt]
    split
    · split
      · exact .refl _
      · exact .swap _ _ _
    · rename_i hne
      have hrest : p.isAnchored key rest = true := by
        rw [isAnchored, List.any_cons, Bool.or_eq_true, beq_iff_eq] at h
        exact h.resolve_left hne
      exact ((ih hrest).cons x).trans (.swap _ _ _)

theorem pass_perm (waiting : List (Placed α)) (items : List α) :
    ((pass key waiting items).1 ++ (pass key waiting items).2.map (·.element)).Perm
      (items ++ waiting.map (·.element)) := by
  induction waiting generalizing items with
  | nil => exact .refl _
  | cons p waiting ih =>
    rw [pass]
    split
    · rename_i h
      refine (ih _).trans (((insertAt_perm key h).append_right _).trans ?_)
      rw [List.map_cons]
      exact List.perm_middle.symm
    · rw [List.map_cons, List.map_cons]
      exact List.perm_middle.trans (((ih items).cons _).trans List.perm_middle.symm)

theorem settle_perm (waiting : List (Placed α)) (items : List α) :
    ((settle key waiting items).1 ++ (settle key waiting items).2.map (·.element)).Perm
      (items ++ waiting.map (·.element)) := by
  fun_induction settle key waiting items with
  | case1 waiting items next h ih => exact ih.trans (pass_perm key waiting items)
  | case2 waiting items next h => exact pass_perm key waiting items

end Placed

theorem Custom.element_of_placed? {c : Custom α} {p : Placed α} (h : c.placed? = some p) :
    p.element = c.1 := by
  rw [placed?, Option.bind_eq_some_iff] at h
  obtain ⟨position, -, h⟩ := h
  obtain ⟨anchor, -, rfl⟩ := Option.map_eq_some_iff.1 h
  rfl

/-- Elements with and without an anchor are all custom elements. -/
theorem free_append_placed_perm (custom : List (Custom α)) :
    ((custom.filterMap fun c => if c.placed?.isSome then none else some c.1) ++
      (custom.filterMap Custom.placed?).map (·.element)).Perm (custom.map (·.1)) := by
  induction custom with
  | nil => exact .refl _
  | cons c custom ih =>
    rw [List.filterMap_cons, List.filterMap_cons]
    cases h : c.placed? with
    | none => exact ih.cons c.1
    | some p =>
      have helement : p.element = c.1 := Custom.element_of_placed? h
      simp only [Option.isSome_some, if_true, List.map_cons, helement]
      exact List.perm_middle.trans (ih.cons c.1)

/-- **Nothing is lost and nothing repeated.**  The list with the custom elements consists of the
old elements and the custom ones. -/
theorem placeAll_perm (items : List α) (custom : List (Custom α)) :
    (placeAll key items custom).value.Perm (items ++ custom.map (·.1)) := by
  rw [placeAll]
  refine (Placed.settle_perm key _ _).trans ?_
  rw [List.append_assoc]
  exact (free_append_placed_perm custom).append_left items

end TableCompiler
