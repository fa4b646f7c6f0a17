import TableCompiler.Proofs.Column.Crowding
import TableCompiler.Proofs.Conditions

/-!
# Aggregates that are wired

A custom aggregate stands under the name of the column that it is wired to.  Where no path starts
like a second name, different aggregates are wired to different columns, so none replaces another
one.

* `Aggregation.Wires` — a custom aggregate is wired to the column of a name;
* `Aggregation.Wires.path_unique` — no other one is wired to it;
* `Aggregation.Holds` — the aggregates of some entries;
* `Scope.get?_aggregates` — the aggregates of a table.
-/

namespace TableCompiler

namespace Aggregation

/-! ### Columns that are found -/

theorem columnName?_cases {columns : List Column} {path : PropertyPath} {name : String}
    (h : columnName? columns path = some name) : name = path ∨ name = propertyAlias path :=
  Scope.conditionName?_cases (Scope.conditionName?_of_columnName? h)

/-- What is set later does not matter for finding a column. -/
theorem columnName?_of_settled {b c : List Column} (h : b.map (·.settled) = c.map (·.settled))
    (path : PropertyPath) : columnName? b path = columnName? c path := by
  have hany : ∀ f : Column → Bool, (∀ column, f column.settled = f column) →
      b.any f = c.any f := by
    intro f hf
    have hmap : ∀ columns : List Column, columns.any f = (columns.map (·.settled)).any f := by
      intro columns
      rw [List.any_map]
      exact congrArg columns.any (funext fun column => (hf column).symm)
    rw [hmap b, h, ← hmap c]
  rw [columnName?, columnName?,
    hany (fun column => column.name == path && !column.isComposite) (fun _ => rfl),
    hany (·.name == propertyAlias path) (fun _ => rfl)]

/-- The custom aggregate of a path is wired to the column of a name: the path is no unit, and the
column shows the property of the path alone. -/
structure Wires (units : Dictionary Unit) (columns : List Column) (path : PropertyPath)
    (name : String) : Prop where
  notUnit : units.contains path = false
  found : columnName? columns path = some name

variable {units : Dictionary Unit} {columns : List Column}

/-- Different paths are not wired to one column, unless one starts like a second name. -/
theorem Wires.path_unique {a b : PropertyPath} {name : String}
    (ha : ¬ propertyMark.toList <+: a.toList) (hb : ¬ propertyMark.toList <+: b.toList)
    (hwires : Wires units columns a name) (hwires' : Wires units columns b name) : a = b :=
  path_eq_of_names ha hb (columnName?_cases hwires.found) (columnName?_cases hwires'.found)

/-! ### One aggregate after the other -/

/-- The aggregates so far are those of some entries, each under the name of its column. -/
def Holds (units : Dictionary Unit) (columns : List Column)
    (entries : List (String × CustomAggregate)) (aggregates : Dictionary AggregateDefinition) :
    Prop :=
  ∀ name definition, aggregates.get? name = some definition ↔
    ∃ entry ∈ entries, Wires units columns entry.1 name ∧
      definition = ⟨entry.2.definition, entry.1⟩

/-- An entry that is not wired changes nothing. -/
theorem Holds.skip {entries : List (String × CustomAggregate)}
    {aggregates : Dictionary AggregateDefinition} {entry : String × CustomAggregate}
    (h : Holds units columns entries aggregates)
    (hnone : ∀ name, ¬ Wires units columns entry.1 name) :
    Holds units columns (entries ++ [entry]) aggregates := by
  intro name definition
  rw [h name definition]
  constructor
  · rintro ⟨other, hother, hwires⟩
    exact ⟨other, List.mem_append_left _ hother, hwires⟩
  · rintro ⟨other, hother, hwires, heq⟩
    rcases List.mem_append.1 hother with hold | hself
    · exact ⟨other, hold, hwires, heq⟩
    · obtain rfl := List.mem_singleton.1 hself
      exact (hnone name hwires).elim

/-- An entry that is wired to a column of its own joins the others. -/
theorem Holds.insert {entries : List (String × CustomAggregate)}
    {aggregates : Dictionary AggregateDefinition} {entry : String × CustomAggregate} {key : String}
    (h : Holds units columns entries aggregates) (hwires : Wires units columns entry.1 key)
    (hfree : ∀ other ∈ entries, ¬ Wires units columns other.1 key) :
    Holds units columns (entries ++ [entry])
      (aggregates.insert key ⟨entry.2.definition, entry.1⟩) := by
  intro name definition
  rw [Dictionary.get?_insert]
  by_cases hname : name = key
  · subst hname
    rw [if_pos rfl]
    constructor
    · intro heq
      have hself : entry ∈ entries ++ [entry] := List.mem_append_right _ List.mem_cons_self
      exact ⟨entry, hself, hwires, (Option.some.inj heq).symm⟩
    · rintro ⟨other, hother, hwires', rfl⟩
      rcases List.mem_append.1 hother with hold | hself
      · exact (hfree other hold hwires').elim
      · obtain rfl := List.mem_singleton.1 hself
        rfl
  · rw [if_neg hname, h name definition]
    constructor
    · rintro ⟨other, hother, hwires'⟩
      exact ⟨other, List.mem_append_left _ hother, hwires'⟩
    · rintro ⟨other, hother, hwires', heq⟩
      rcases List.mem_append.1 hother with hold | hself
      · exact ⟨other, hold, hwires', heq⟩
      · obtain rfl := List.mem_singleton.1 hself
        have hsame := hwires.found.symm.trans hwires'.found
        exact (hname (Option.some.inj hsame).symm).elim

end Aggregation

namespace Scope

open Aggregation (Wires Holds)

variable {units : Dictionary Unit} {columns : List Column}

/-- One more custom aggregate. -/
theorem holds_wireAggregate {entries : List (String × CustomAggregate)} {a : Aggregation}
    {entry : String × CustomAggregate} (h : Holds units columns entries a.aggregates)
    (hcolumns : a.columns.map (·.settled) = columns.map (·.settled))
    (hfree : ∀ other ∈ entries, ∀ name, Wires units columns entry.1 name →
      ¬ Wires units columns other.1 name) :
    Holds units columns (entries ++ [entry]) (wireAggregate units a entry).value.aggregates := by
  obtain ⟨path, aggregate⟩ := entry
  simp only [wireAggregate]
  split
  · rename_i hunit
    refine h.skip fun name hwires => ?_
    rw [hwires.notUnit] at hunit
    cases hunit
  · rename_i hunit
    rw [Aggregation.columnName?_of_settled hcolumns]
    split
    · rename_i key hkey
      have hwires : Wires units columns path key := ⟨Bool.eq_false_iff.2 hunit, hkey⟩
      exact h.insert hwires fun other hother => hfree other hother key hwires
    · rename_i hnone
      refine h.skip fun name hwires => ?_
      cases hnone.symm.trans hwires.found

/-- All custom aggregates, one after the other. -/
theorem holds_foldl {done more : List (String × CustomAggregate)} {a : Aggregation}
    (h : Holds units columns done a.aggregates)
    (hcolumns : a.columns.map (·.settled) = columns.map (·.settled))
    (hdistinct : ((done ++ more).map (·.1)).Nodup)
    (hmarks : ∀ entry ∈ done ++ more, ¬ propertyMark.toList <+: entry.1.toList) :
    Holds units columns (done ++ more)
      (more.foldl (fun a entry => (wireAggregate units a entry).value) a).aggregates := by
  induction more generalizing done a with
  | nil =>
    rw [List.append_nil]
    exact h
  | cons entry more ih =>
    have hentry : entry ∈ done ++ entry :: more := List.mem_append_right _ List.mem_cons_self
    have hfree : ∀ other ∈ done, ∀ name, Wires units columns entry.1 name →
        ¬ Wires units columns other.1 name := by
      intro other hother name hwires hwires'
      have hmem : other ∈ done ++ entry :: more := List.mem_append_left _ hother
      have hsame := hwires.path_unique (hmarks _ hentry) (hmarks _ hmem) hwires'
      rw [List.map_append, List.map_cons, List.nodup_middle, List.nodup_cons, List.mem_append,
        not_or] at hdistinct
      exact hdistinct.1.1 (hsame ▸ List.mem_map_of_mem hother)
    have hnext := ih (holds_wireAggregate h hcolumns hfree)
      ((settled_wireAggregate units a entry).trans hcolumns)
    rw [List.append_assoc, List.singleton_append] at hnext
    exact hnext hdistinct hmarks

/-- **Aggregates of a table.**  Where no custom aggregate is named like a second name, the
aggregates of an analytical table are all that are wired, each under the name of its column. -/
theorem get?_aggregates {s : Scope} {aggregates : Dictionary AggregateDefinition}
    (h : (s.aggregate units columns).value.aggregates = some aggregates)
    (hmarks : ∀ name ∈ s.entityType.annotations.customAggregates.keys,
      ¬ propertyMark.toList <+: name.toList) :
    Holds units columns s.entityType.annotations.customAggregates.entries aggregates := by
  simp only [aggregate] at h
  split at h
  · cases h
  · simp only [Reported.value_bind, Reported.value_foldlM, Reported.value_pure] at h
    obtain rfl := Option.some.inj h
    have hstart : Holds units columns [] (Dictionary.empty : Dictionary AggregateDefinition) := by
      intro name definition
      constructor
      · intro hget
        cases hget
      · rintro ⟨entry, hentry, -⟩
        cases hentry
    have hentries : ∀ entry ∈ [] ++ s.entityType.annotations.customAggregates.entries,
        ¬ propertyMark.toList <+: entry.1.toList :=
      fun entry hentry => hmarks entry.1 (List.mem_map_of_mem hentry)
    have hrun := holds_foldl (a := ⟨columns, .empty⟩) hstart rfl
      s.entityType.annotations.customAggregates.nodup_keys hentries
    exact hrun

end Scope

end TableCompiler
