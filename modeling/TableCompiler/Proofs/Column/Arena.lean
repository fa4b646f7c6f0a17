import TableCompiler.Column.Arena
import TableCompiler.Proofs.Column.Entry
import TableCompiler.Proofs.Dictionary

/-!
# The tables of an arena

The table of names and the set of keys are kept beside the entries, and links are places among these.
All of them stay in step: an insertion adds to every table or to none, and linking an entry puts
another one of the same name and key in its place.

* `ColumnEntry.LinksBelow` — the links of an entry are places, each once;
* `ColumnArena.IsSound` — the tables are those of the entries;
* `ColumnArena.insert_cases`, `ColumnArena.IsSound.insert` — what an insertion does;
* `ColumnArena.IsSound.of_cores` — entries may change but for their cores;
* `ColumnArena.Appends` — an arena with hidden columns at its end;
* `ArenaLinking.resolve_cases`, `ArenaLinking.resolve_sound` — the search for the column of a
  property.
-/

namespace TableCompiler

/-- The links of an entry are places below a bound, none of them twice, and they were made all at
once. -/
structure ColumnEntry.LinksBelow (c : ColumnEntry Nat) (bound : Nat) : Prop where
  below : ∀ i ∈ c.links ++ c.additionalLinks, i < bound
  nodup : (c.links ++ c.additionalLinks).Nodup
  atOnce : c.IsLinked ∨ c.IsFresh

namespace ColumnEntry

variable {c : ColumnEntry Nat} {bound more : Nat}

theorem LinksBelow.mono (h : c.LinksBelow bound) (hle : bound ≤ more) : c.LinksBelow more :=
  ⟨fun i hi => Nat.lt_of_lt_of_le (h.below i hi) hle, h.nodup, h.atOnce⟩

theorem IsFresh.linksBelow (h : c.IsFresh) (bound : Nat) : c.LinksBelow bound := by
  have hnil : c.links ++ c.additionalLinks = [] := by rw [h.links, h.additionalLinks]; rfl
  refine ⟨?_, ?_, .inr h⟩
  · rw [hnil]
    exact fun i hi => (List.not_mem_nil hi).elim
  · rw [hnil]
    exact List.nodup_nil

end ColumnEntry

namespace ColumnArena

/-- The names of the columns, by their places. -/
def names (a : ColumnArena) : List String := a.entries.map (·.name)

/-- The keys of the columns, by their places. -/
def columnKeys (a : ColumnArena) : List String := a.entries.map (·.column.key)

/-- Names and keys are distinct, the tables have just these, and every link is the place of a
column. -/
structure IsSound (a : ColumnArena) : Prop where
  names : a.names.Nodup
  columnKeys : a.columnKeys.Nodup
  /-- The table of names has the place of every column under its name, and nothing else. -/
  byName : ∀ name i, a.byName.get? name = some i ↔ a.names[i]? = some name
  keys : ∀ key, a.keys.contains key = true ↔ key ∈ a.columnKeys
  linked : ∀ c ∈ a.entries, c.LinksBelow a.entries.length

variable {a b : ColumnArena} {column : Column}

theorem isSound_empty : IsSound {} where
  names := List.nodup_nil
  columnKeys := List.nodup_nil
  byName _ _ := iff_of_false nofun nofun
  keys _ := iff_of_false nofun nofun
  linked _ h := (List.not_mem_nil h).elim

/-! ### Looking up -/

theorem IsSound.containsName_iff (h : a.IsSound) {name : String} :
    a.containsName name = true ↔ name ∈ a.names := by
  rw [containsName, Dictionary.contains, Option.isSome_iff_exists, List.mem_iff_getElem?]
  exact exists_congr fun i => h.byName name i

theorem IsSound.get?_eq_none_iff (h : a.IsSound) {name : String} :
    a.byName.get? name = none ↔ name ∉ a.names := by
  rw [← h.containsName_iff, containsName, Dictionary.contains, Bool.not_eq_true,
    Option.isSome_eq_false_iff, Option.isNone_iff_eq_none]

/-- A place that is found under a name is that of its column. -/
theorem IsSound.exists_of_get? (h : a.IsSound) {name : String} {i : Nat}
    (hi : a.byName.get? name = some i) : ∃ c, a.entries[i]? = some c ∧ c.name = name := by
  have hname := (h.byName name i).1 hi
  rw [ColumnArena.names, List.getElem?_map] at hname
  exact Option.map_eq_some_iff.1 hname

/-! ### Insertion -/

/-- The arena with one more entry. -/
def push (a : ColumnArena) (column : Column) (origin : ColumnOrigin) (r : RelatedProperties) :
    ColumnArena where
  entries := a.entries ++ [.ofColumn column origin r]
  byName := a.byName.insert column.name a.entries.length
  keys := a.keys.insert column.key ()
  textOnly := a.textOnly.extend r.textOnly
  units := a.units.extend r.units

theorem names_push (a : ColumnArena) (column : Column) (origin : ColumnOrigin)
    (r : RelatedProperties) : (a.push column origin r).names = a.names ++ [column.name] := by
  rw [names, push, List.map_append]
  rfl

theorem columnKeys_push (a : ColumnArena) (column : Column) (origin : ColumnOrigin)
    (r : RelatedProperties) :
    (a.push column origin r).columnKeys = a.columnKeys ++ [column.key] := by
  rw [columnKeys, push, List.map_append]
  rfl

/-- An insertion either adds its column at the end, and answers that place, or changes nothing. -/
theorem IsSound.insert_cases (h : a.IsSound) (column : Column) (origin : ColumnOrigin)
    (r : RelatedProperties) :
    (column.name ∉ a.names ∧ column.key ∉ a.columnKeys ∧
      a.insert column origin r = (some a.entries.length, a.push column origin r)) ∨
    ((column.name ∈ a.names ∨ column.key ∈ a.columnKeys) ∧
      a.insert column origin r = (none, a)) := by
  rw [insert]
  split
  · rename_i htaken
    rw [Bool.or_eq_true, h.containsName_iff, h.keys] at htaken
    exact .inr ⟨htaken, rfl⟩
  · rename_i hfree
    rw [Bool.or_eq_true, h.containsName_iff, h.keys, not_or] at hfree
    exact .inl ⟨hfree.1, hfree.2, rfl⟩

/-- **An insertion is refused** exactly if the name or the key is taken. -/
theorem IsSound.insert_eq_none_iff (h : a.IsSound) {origin : ColumnOrigin}
    {r : RelatedProperties} :
    (a.insert column origin r).1 = none ↔ column.name ∈ a.names ∨ column.key ∈ a.columnKeys := by
  rcases h.insert_cases column origin r with ⟨hname, hkey, heq⟩ | ⟨htaken, heq⟩
  · rw [heq]
    exact iff_of_false nofun fun htaken => htaken.elim hname hkey
  · rw [heq]
    exact iff_of_true rfl htaken

/-- What is refused leaves every table as it is. -/
theorem insert_of_none {origin : ColumnOrigin} {r : RelatedProperties}
    (h : (a.insert column origin r).1 = none) : (a.insert column origin r).2 = a := by
  rw [insert] at h ⊢
  split at h
  · rename_i htaken
    rw [if_pos htaken]
  · cases h

theorem IsSound.push (h : a.IsSound) (hname : column.name ∉ a.names)
    (hkey : column.key ∉ a.columnKeys) (origin : ColumnOrigin) (r : RelatedProperties) :
    (a.push column origin r).IsSound where
  names := by
    rw [names_push, ← List.concat_eq_append]
    exact h.names.concat hname
  columnKeys := by
    rw [columnKeys_push, ← List.concat_eq_append]
    exact h.columnKeys.concat hkey
  byName name i := by
    have hlength : a.names.length = a.entries.length := List.length_map _
    rw [names_push, ColumnArena.push, Dictionary.get?_insert]
    by_cases hnew : name = column.name
    · -- only the new place has the new name
      subst hnew
      rw [if_pos rfl, Option.some.injEq, ← hlength]
      constructor
      · rintro rfl
        rw [List.getElem?_append_right (Nat.le_refl _), Nat.sub_self]
        rfl
      · intro hi
        rcases Nat.lt_trichotomy i a.names.length with hlt | heq | hgt
        · rw [List.getElem?_append_left hlt] at hi
          exact (hname (List.mem_of_getElem? hi)).elim
        · exact heq.symm
        · rw [List.getElem?_eq_none (by rw [List.length_append]; exact hgt)] at hi
          cases hi
    · rw [if_neg hnew, h.byName]
      by_cases hlt : i < a.names.length
      · rw [List.getElem?_append_left hlt]
      · refine iff_of_false (fun hi => hlt (List.getElem?_eq_some_iff.1 hi).1) fun hi => ?_
        rw [List.getElem?_append_right (Nat.le_of_not_lt hlt)] at hi
        exact hnew (List.mem_singleton.1 (List.mem_of_getElem? hi))
  keys key := by
    rw [columnKeys_push, ColumnArena.push, Dictionary.contains_insert, h.keys, List.mem_append,
      List.mem_singleton, or_comm]
  linked c hc := by
    have hlength : a.entries.length ≤ (a.push column origin r).entries.length := by
      rw [ColumnArena.push, List.length_append]
      exact Nat.le_add_right _ _
    rcases List.mem_append.1 hc with hold | hnew
    · exact (h.linked c hold).mono hlength
    · rw [List.mem_singleton.1 hnew]
      exact (ColumnEntry.isFresh_ofColumn column origin r).linksBelow _

theorem IsSound.insert (h : a.IsSound) (column : Column) (origin : ColumnOrigin)
    (r : RelatedProperties) : (a.insert column origin r).2.IsSound := by
  rcases h.insert_cases column origin r with ⟨hname, hkey, heq⟩ | ⟨-, heq⟩
  · rw [heq]
    exact h.push hname hkey origin r
  · rw [heq]
    exact h

/-! ### Entries that change -/

theorem names_eq_cores (a : ColumnArena) :
    a.names = (a.entries.map (·.core)).map fun core => core.1.name := by
  rw [names, List.map_map]
  rfl

theorem columnKeys_eq_cores (a : ColumnArena) :
    a.columnKeys = (a.entries.map (·.core)).map fun core => core.1.key := by
  rw [columnKeys, List.map_map]
  rfl

/-- The tables are those of the cores. -/
theorem IsSound.of_cores (h : a.IsSound)
    (hcores : b.entries.map (·.core) = a.entries.map (·.core)) (hbyName : b.byName = a.byName)
    (hkeys : b.keys = a.keys) (hlinked : ∀ c ∈ b.entries, c.LinksBelow b.entries.length) :
    b.IsSound := by
  have hnames : b.names = a.names := by rw [names_eq_cores, hcores, ← names_eq_cores]
  have hcolumnKeys : b.columnKeys = a.columnKeys := by
    rw [columnKeys_eq_cores, hcores, ← columnKeys_eq_cores]
  refine ⟨hnames ▸ h.names, hcolumnKeys ▸ h.columnKeys, fun name i => ?_, fun key => ?_, hlinked⟩
  · rw [hbyName, hnames]
    exact h.byName name i
  · rw [hkeys, hcolumnKeys]
    exact h.keys key

theorem set_of_getElem? {α : Type} {xs : List α} {i : Nat} {x : α} (h : xs[i]? = some x) :
    xs.set i x = xs := by
  obtain ⟨hi, rfl⟩ := List.getElem?_eq_some_iff.1 h
  exact List.set_getElem_self hi

/-- An entry that takes the place of one with its core changes no core. -/
theorem cores_set {entries : List (ColumnEntry Nat)} {i : Nat} {c d : ColumnEntry Nat}
    (hc : entries[i]? = some c) (hcore : d.core = c.core) :
    (entries.set i d).map (·.core) = entries.map (·.core) := by
  rw [List.map_set, hcore]
  exact set_of_getElem? (by rw [List.getElem?_map, hc]; rfl)

/-! ### Hidden columns at the end -/

/-- `b` has the entries of `a` and behind them columns that depend on nothing. -/
structure Appends (a b : ColumnArena) : Prop where
  entries : ∃ added : List Column, b.entries = a.entries ++ added.map .related
  textOnly : b.textOnly = a.textOnly
  units : b.units = a.units

theorem Appends.refl (a : ColumnArena) : a.Appends a :=
  ⟨⟨[], by rw [List.map_nil, List.append_nil]⟩, rfl, rfl⟩

theorem Appends.trans {c : ColumnArena} (hab : a.Appends b) (hbc : b.Appends c) :
    a.Appends c := by
  obtain ⟨xs, hxs⟩ := hab.entries
  obtain ⟨ys, hys⟩ := hbc.entries
  refine ⟨⟨xs ++ ys, ?_⟩, hbc.textOnly.trans hab.textOnly, hbc.units.trans hab.units⟩
  rw [hys, hxs, List.append_assoc, List.map_append]

theorem Appends.getElem? (h : a.Appends b) {i : Nat} {c : ColumnEntry Nat}
    (hc : a.entries[i]? = some c) : b.entries[i]? = some c := by
  obtain ⟨added, hadded⟩ := h.entries
  rw [hadded, List.getElem?_append_left (List.getElem?_eq_some_iff.1 hc).1, hc]

theorem Appends.length_le (h : a.Appends b) : a.entries.length ≤ b.entries.length := by
  obtain ⟨added, hadded⟩ := h.entries
  rw [hadded, List.length_append]
  exact Nat.le_add_right _ _

theorem appends_push (a : ColumnArena) (column : Column) :
    a.Appends (a.push column .related {}) :=
  ⟨⟨[column], rfl⟩, rfl, rfl⟩

theorem IsSound.appends_insert (h : a.IsSound) (column : Column) :
    a.Appends (a.insert column .related {}).2 := by
  rcases h.insert_cases column .related {} with ⟨-, -, heq⟩ | ⟨-, heq⟩
  · rw [heq]
    exact a.appends_push column
  · rw [heq]
    exact .refl a

end ColumnArena

namespace ArenaLinking

variable {l : ArenaLinking}

/-- **A search** ends at a column that is there, or asks for one, which may not be answered or not
be accepted. -/
theorem resolve_cases (build : ColumnBuilder) (owner : Nat) (path : PropertyPath)
    (l : ArenaLinking) :
    (∃ place, l.arena.byName.get? (l.arena.linkName owner path) = some place ∧
      resolve build owner path l = (some place, l)) ∨
    l.arena.byName.get? (l.arena.linkName owner path) = none ∧
      ∃ hidden, hidden = l.arena.hiddenColumn path (l.arena.linkName owner path) ∧
      (build l.asked hidden = none ∧
          resolve build owner path l = (none, ⟨l.arena, l.asked ++ [hidden]⟩) ∨
        ∃ column, build l.asked hidden = some column ∧
          resolve build owner path l = ((l.arena.insert column .related {}).1,
            ⟨(l.arena.insert column .related {}).2, l.asked ++ [hidden]⟩)) := by
  simp only [resolve]
  cases hplace : l.arena.byName.get? (l.arena.linkName owner path) with
  | some place => exact .inl ⟨place, rfl, rfl⟩
  | none =>
    refine .inr ⟨rfl, _, rfl, ?_⟩
    dsimp only
    cases build l.asked (l.arena.hiddenColumn path (l.arena.linkName owner path)) with
    | none => exact .inl ⟨rfl, rfl⟩
    | some column => exact .inr ⟨column, rfl, rfl⟩

/-- A search keeps the arena sound, adds a hidden column at most, and finds a place of it. -/
theorem resolve_sound (build : ColumnBuilder) (owner : Nat) (path : PropertyPath)
    (hl : l.arena.IsSound) :
    l.arena.Appends (resolve build owner path l).2.arena ∧
      (resolve build owner path l).2.arena.IsSound ∧
      ∀ i, (resolve build owner path l).1 = some i →
        i < (resolve build owner path l).2.arena.entries.length := by
  rcases resolve_cases build owner path l with
    ⟨place, hplace, heq⟩ | ⟨-, hidden, -, ⟨-, heq⟩ | ⟨column, -, heq⟩⟩
  · rw [heq]
    refine ⟨.refl _, hl, fun i hi => ?_⟩
    obtain rfl := Option.some.inj hi
    obtain ⟨c, hc, -⟩ := hl.exists_of_get? hplace
    exact (List.getElem?_eq_some_iff.1 hc).1
  · rw [heq]
    exact ⟨.refl _, hl, nofun⟩
  · rw [heq]
    refine ⟨hl.appends_insert column, hl.insert column .related {}, fun i hi => ?_⟩
    rcases hl.insert_cases column .related {} with ⟨-, -, hinsert⟩ | ⟨-, hinsert⟩
    · rw [hinsert] at hi ⊢
      obtain rfl := Option.some.inj hi
      rw [ColumnArena.push, List.length_append]
      exact Nat.lt_succ_self _
    · rw [hinsert] at hi
      cases hi

end ArenaLinking

end TableCompiler
