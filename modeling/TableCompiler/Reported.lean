import TableCompiler.Problem

/-!
# Results with reports

A step of a compilation has a result and reports the problems that it met on the way.  The two
are kept apart: no step can see what was reported before it, so a result never depends on the
diagnostics.

* `Reported` — a result and the problems, in the order in which they were met;
* `Reported.report` — the step that only reports;
* the equations of `value` and `problems` for `pure`, `bind` and `map`.
-/

namespace TableCompiler

variable {α β : Type}

/-- A result together with the problems that were met on the way to it. -/
structure Reported (α : Type) where
  value : α
  problems : List Problem := []

namespace Reported

/-- The step that reports a problem. -/
def report (p : Problem) : Reported Unit := ⟨(), [p]⟩

instance : Monad Reported where
  pure a := ⟨a, []⟩
  bind x f := ⟨(f x.value).value, x.problems ++ (f x.value).problems⟩

/-! ### The two sides of a step -/

@[simp] theorem value_pure (a : α) : (pure a : Reported α).value = a := rfl

@[simp] theorem problems_pure (a : α) : (pure a : Reported α).problems = [] := rfl

@[simp] theorem value_bind (x : Reported α) (f : α → Reported β) :
    (x >>= f).value = (f x.value).value := rfl

@[simp] theorem problems_bind (x : Reported α) (f : α → Reported β) :
    (x >>= f).problems = x.problems ++ (f x.value).problems := rfl

@[simp] theorem value_map (f : α → β) (x : Reported α) : (f <$> x).value = f x.value := rfl

@[simp] theorem problems_map (f : α → β) (x : Reported α) :
    (f <$> x).problems = x.problems := by
  simp [Functor.map]

@[simp] theorem problems_report (p : Problem) : (report p).problems = [p] := rfl

instance : LawfulMonad Reported := LawfulMonad.mk' Reported
  (by intro _ x; cases x; simp [Functor.map])
  (by intros; rfl)
  (by intros; simp [bind, List.append_assoc])

end Reported

end TableCompiler
