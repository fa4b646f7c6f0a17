import TableCompiler.Reported

/-!
# Results of loops with reports

What a loop reports does not change its result: the value of a fold or filter of steps is the fold
or filter of their values.

* `Reported.value_foldlM`, `Reported.value_filterMapM`;
* `Reported.mem_problems_foldlM`, `Reported.mem_problems_filterMapM` — what a loop reports, one of
  its steps reports;
* `Reported.Only` — a computation that reports problems of one kind only, through its steps.
-/

namespace TableCompiler

namespace Reported

variable {α β : Type}

@[simp] theorem value_foldlM (f : β → α → Reported β) (items : List α) (b : β) :
    (items.foldlM f b).value = items.foldl (fun b a => (f b a).value) b := by
  induction items generalizing b with
  | nil => rfl
  | cons a items ih =>
    rw [List.foldlM_cons, value_bind, ih, List.foldl_cons]

@[simp] theorem value_filterMapM (f : α → Reported (Option β)) (items : List α) :
    (items.filterMapM f).value = items.filterMap fun a => (f a).value := by
  induction items with
  | nil => rfl
  | cons a items ih =>
    rw [List.filterMapM_cons, value_bind, List.filterMap_cons]
    cases (f a).value with
    | none => exact ih
    | some b =>
      rw [← ih]
      rfl

/-- What a fold reports, one of its steps reports. -/
theorem mem_problems_foldlM {f : β → α → Reported β} {items : List α} {b : β} {p : Problem}
    (h : p ∈ (items.foldlM f b).problems) : ∃ a ∈ items, ∃ b, p ∈ (f b a).problems := by
  induction items generalizing b with
  | nil => cases h
  | cons a items ih =>
    rw [List.foldlM_cons, problems_bind, List.mem_append] at h
    rcases h with hfirst | hrest
    · exact ⟨a, List.mem_cons_self, b, hfirst⟩
    · obtain ⟨other, hother, hproblem⟩ := ih hrest
      exact ⟨other, List.mem_cons_of_mem _ hother, hproblem⟩

/-- What a filter reports, one of its steps reports. -/
theorem mem_problems_filterMapM {f : α → Reported (Option β)} {items : List α} {p : Problem}
    (h : p ∈ (items.filterMapM f).problems) : ∃ a ∈ items, p ∈ (f a).problems := by
  induction items with
  | nil => cases h
  | cons a items ih =>
    rw [List.filterMapM_cons, problems_bind, List.mem_append] at h
    have hrest : p ∈ (f a).problems ∨ p ∈ (items.filterMapM f).problems := by
      refine h.imp_right fun h => ?_
      cases hvalue : (f a).value with
      | none =>
        rw [hvalue] at h
        exact h
      | some b =>
        rw [hvalue] at h
        simpa using h
    rcases hrest with hfirst | hrest
    · exact ⟨a, List.mem_cons_self, hfirst⟩
    · obtain ⟨other, hother, hproblem⟩ := ih hrest
      exact ⟨other, List.mem_cons_of_mem _ hother, hproblem⟩

/-! ### Problems of a kind -/

/-- All problems that are reported are of a kind. -/
structure Only (P : Problem → Prop) (x : Reported α) : Prop where
  of_mem : ∀ p ∈ x.problems, P p

namespace Only

variable {P : Problem → Prop}

theorem pure (a : α) : Only P (Pure.pure a : Reported α) :=
  ⟨fun _ hp => (List.not_mem_nil hp).elim⟩

theorem report {p : Problem} (h : P p) : Only P (Reported.report p) :=
  ⟨fun _ hother => List.mem_singleton.1 hother ▸ h⟩

theorem bind {x : Reported α} {f : α → Reported β} (hx : Only P x) (hf : Only P (f x.value)) :
    Only P (x >>= f) :=
  ⟨fun p hp => (List.mem_append.1 hp).elim (hx.of_mem p) (hf.of_mem p)⟩

/-- Problems of another kind are those of what follows. -/
theorem mem_bind_iff {x : Reported α} {f : α → Reported β} (hx : Only P x) {p : Problem}
    (hp : ¬ P p) : p ∈ (x >>= f).problems ↔ p ∈ (f x.value).problems := by
  rw [problems_bind, List.mem_append]
  exact or_iff_right fun h => hp (hx.of_mem p h)

/-- Problems of another kind are those of what comes first. -/
theorem mem_bind_iff_left {x : Reported α} {f : α → Reported β} (hf : Only P (f x.value))
    {p : Problem} (hp : ¬ P p) : p ∈ (x >>= f).problems ↔ p ∈ x.problems := by
  rw [problems_bind, List.mem_append]
  exact or_iff_left fun h => hp (hf.of_mem p h)

theorem foldlM {f : β → α → Reported β} {items : List α} {b : β} (h : ∀ b a, Only P (f b a)) :
    Only P (items.foldlM f b) :=
  ⟨fun p hp =>
    have ⟨a, _, b, hstep⟩ := mem_problems_foldlM hp
    (h b a).of_mem p hstep⟩

theorem filterMapM {f : α → Reported (Option β)} {items : List α} (h : ∀ a, Only P (f a)) :
    Only P (items.filterMapM f) :=
  ⟨fun p hp =>
    have ⟨a, _, hstep⟩ := mem_problems_filterMapM hp
    (h a).of_mem p hstep⟩

end Only

end Reported

end TableCompiler
