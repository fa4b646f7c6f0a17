import Mathlib.Data.List.Nodup
import TableCompiler.Column.Entry

/-!
# Linking an entry

However the columns of its properties are found, an entry gets each of them once.

* `ColumnEntry.core` — what linking never changes of an entry;
* `ColumnEntry.IsLinked`, `ColumnEntry.IsFresh` — nothing is left to be linked, or nothing is linked
  yet;
* `addFound_snd`, `addFound_fst` — a step goes on where the search for its column ends, and adds the
  column at most;
* `nodup_foldl_addFound` — no column is added twice;
* `ColumnEntry.shown`, `ColumnEntry.loaded`, `ColumnEntry.link_eq` — the two runs over the properties
  of an entry.
-/

namespace TableCompiler

namespace ColumnEntry

variable {ι κ : Type}

/-- What linking never changes of an entry. -/
def core (e : ColumnEntry ι) : Column × ColumnOrigin × Bool := (e.column, e.origin, e.isComposite)

/-- The entry of a hidden column, which depends on nothing. -/
def related (column : Column) : ColumnEntry ι := .ofColumn column .related {}

/-- Nothing is left to be linked. -/
structure IsLinked (c : ColumnEntry ι) : Prop where
  pending : c.pending = []
  pendingAdditional : c.pendingAdditional = []

/-- No link was made yet. -/
structure IsFresh (c : ColumnEntry ι) : Prop where
  links : c.links = []
  additionalLinks : c.additionalLinks = []

theorem name_eq_of_core {c : ColumnEntry ι} {d : ColumnEntry κ} (h : c.core = d.core) :
    c.name = d.name :=
  congrArg (fun core => core.1.name) h

theorem isLinked_related (column : Column) : (related column : ColumnEntry ι).IsLinked :=
  ⟨rfl, rfl⟩

theorem isFresh_ofColumn (column : Column) (origin : ColumnOrigin) (r : RelatedProperties) :
    (ofColumn column origin r : ColumnEntry ι).IsFresh :=
  ⟨rfl, rfl⟩

end ColumnEntry

/-! ### One property -/

section Links

variable {ι τ : Type} [BEq ι] {find : PropertyPath → τ → Option ι × τ}

theorem addFound_snd (find : PropertyPath → τ → Option ι × τ) (others : List ι)
    (state : List ι × τ) (path : PropertyPath) :
    (addFound find others state path).2 = (find path state.2).2 := by
  rw [addFound]
  split
  · rename_i t h
    rw [h]
  · rename_i link t h
    rw [h]
    split <;> rfl

/-- A step adds at most what was found. -/
theorem addFound_fst [LawfulBEq ι] (find : PropertyPath → τ → Option ι × τ) (others : List ι)
    (state : List ι × τ) (path : PropertyPath) :
    (addFound find others state path).1 = state.1 ∨
      ∃ link, (find path state.2).1 = some link ∧ link ∉ state.1 ∧ link ∉ others ∧
        (addFound find others state path).1 = state.1 ++ [link] := by
  rw [addFound]
  split
  · exact .inl rfl
  · rename_i link t h
    split
    · exact .inl rfl
    · rename_i hnot
      rw [Bool.or_eq_true, List.contains_iff_mem, List.contains_iff_mem, not_or] at hnot
      exact .inr ⟨link, by rw [h], hnot.1, hnot.2, rfl⟩

/-- No column is added twice, and none that is among the others. -/
theorem nodup_foldl_addFound [LawfulBEq ι] {others : List ι} (paths : List PropertyPath)
    {state : List ι × τ} (h : (others ++ state.1).Nodup) :
    (others ++ (paths.foldl (addFound find others) state).1).Nodup := by
  refine List.foldlRecOn (motive := fun state : List ι × τ => (others ++ state.1).Nodup) _ _ h
    fun state hstate path _ => ?_
  rcases addFound_fst find others state path with heq | ⟨link, -, hnew, hother, heq⟩
  · rw [heq]
    exact hstate
  · rw [heq, ← List.append_assoc, ← List.concat_eq_append]
    refine hstate.concat ?_
    rw [List.mem_append, not_or]
    exact ⟨hother, hnew⟩

/-! ### All properties of an entry -/

namespace ColumnEntry

variable (find) (c : ColumnEntry ι) (t : τ)

/-- The links for the shown properties of an entry. -/
def shown : List ι × τ := c.pending.foldl (addFound find []) (c.links, t)

/-- The links for the loaded properties, which come after the shown ones. -/
def loaded : List ι × τ :=
  c.pendingAdditional.foldl (addFound find (c.shown find t).1)
    (c.additionalLinks, (c.shown find t).2)

theorem link_eq : c.link find t =
    ({ c with
        pending := []
        pendingAdditional := []
        links := (c.shown find t).1
        additionalLinks := (c.loaded find t).1 }, (c.loaded find t).2) := rfl

theorem core_link : (c.link find t).1.core = c.core := rfl

theorem isLinked_link : (c.link find t).1.IsLinked := ⟨rfl, rfl⟩

variable {find c}

/-- Of a linked entry nothing is left to do. -/
theorem IsLinked.link (h : c.IsLinked) : c.link find t = (c, t) := by
  obtain ⟨column, origin, isComposite, pending, pendingAdditional, links, additionalLinks⟩ := c
  obtain ⟨rfl, rfl⟩ := h
  rfl

/-- A fresh entry gets no link twice. -/
theorem IsFresh.nodup_link [LawfulBEq ι] (h : c.IsFresh) :
    ((c.link find t).1.links ++ (c.link find t).1.additionalLinks).Nodup := by
  have hshown : ([] ++ (c.shown find t).1).Nodup := by
    refine nodup_foldl_addFound c.pending ?_
    rw [h.links]
    exact List.nodup_nil
  refine nodup_foldl_addFound c.pendingAdditional ?_
  rw [h.additionalLinks, List.append_nil]
  exact hshown

end ColumnEntry

end Links

end TableCompiler
