import Mathlib.Data.List.Nodup
import TableCompiler.Proofs.Column.Pool
import TableCompiler.Override
import TableCompiler.Proofs.Column.Entry

/-!
# Names, keys and growth of a pool

Names and keys of a pool are two spaces of their own, and both stay free of repetitions.  While
dependencies are linked a pool only grows: hidden columns are added at its end, and of the entries
that are there nothing but links and waiting dependencies changes.

* `Columns.AreDistinct`, `ColumnPool.IsDistinct` — no name and no key twice;
* `ColumnPool.insert?_eq_some_iff`, `ColumnPool.IsDistinct.insert` — what an insertion does;
* `ColumnPool.Extended` — a pool with hidden columns added;
* `ColumnPool.Grown` — the same but for links and waiting dependencies;
* `ColumnPool.linkName_eq_of_grown` — growth does not change which column a dependency needs.
-/

namespace TableCompiler

/-! ### Names and keys -/

namespace Columns

/-- No name and no key occurs twice among columns. -/
structure AreDistinct (columns : Columns) : Prop where
  keys : (columns.map (·.key)).Nodup
  names : (columns.map (·.name)).Nodup

variable {columns : Columns} {b c : Column}

/-- Among distinct columns a column is known by its name. -/
theorem AreDistinct.eq_of_name (h : columns.AreDistinct) (hb : b ∈ columns) (hc : c ∈ columns)
    (heq : b.name = c.name) : b = c :=
  List.inj_on_of_nodup_map h.names hb hc heq

/-- Among distinct columns a column is known by its key. -/
theorem AreDistinct.eq_of_key (h : columns.AreDistinct) (hb : b ∈ columns) (hc : c ∈ columns)
    (heq : b.key = c.key) : b = c :=
  List.inj_on_of_nodup_map h.keys hb hc heq

end Columns

namespace ColumnPool

/-- The names of the columns, in order. -/
def names (p : ColumnPool) : List String := p.entries.map (·.name)

/-- The keys of the columns, in order. -/
def keys (p : ColumnPool) : List String := p.entries.map (·.column.key)

/-- No name and no key occurs twice. -/
structure IsDistinct (p : ColumnPool) : Prop where
  names : p.names.Nodup
  keys : p.keys.Nodup

/-- What is distinct in a pool is so among its columns. -/
theorem IsDistinct.columns {p : ColumnPool} (hp : p.IsDistinct) :
    Columns.AreDistinct p.columns := by
  have hkeys := hp.keys
  have hnames := hp.names
  rw [ColumnPool.keys] at hkeys
  rw [ColumnPool.names] at hnames
  refine ⟨?_, ?_⟩
  · rw [ColumnPool.columns, List.map_map]
    exact hkeys
  · rw [ColumnPool.columns, List.map_map]
    exact hnames

@[simp] theorem containsName_store (p : ColumnPool) (name : String) :
    ColumnStore.containsName p name = p.containsName name := rfl

theorem isDistinct_empty : IsDistinct {} := ⟨List.nodup_nil, List.nodup_nil⟩

theorem containsName_iff {p : ColumnPool} {name : String} :
    p.containsName name = true ↔ name ∈ p.names := by
  rw [containsName, entry?, List.find?_isSome, names, List.mem_map]
  simp only [beq_iff_eq]

theorem containsKey_iff {p : ColumnPool} {key : String} :
    p.containsKey key = true ↔ key ∈ p.keys := by
  rw [containsKey, List.any_eq_true, keys, List.mem_map]
  simp only [beq_iff_eq]

theorem entry?_eq_some {p : ColumnPool} {name : String} {e : PooledColumn}
    (h : p.entry? name = some e) : e ∈ p.entries ∧ e.name = name :=
  ⟨List.mem_of_find?_eq_some h, by simpa using List.find?_some h⟩

theorem entry?_eq_none {p : ColumnPool} {name : String} :
    p.entry? name = none ↔ name ∉ p.names := by
  rw [← containsName_iff, containsName, Bool.not_eq_true, Option.isSome_eq_false_iff,
    Option.isNone_iff_eq_none]

/-- In a pool without repetitions an entry is known by its name. -/
theorem IsDistinct.eq_of_name {p : ColumnPool} (hp : p.IsDistinct) {d e : PooledColumn}
    (hd : d ∈ p.entries) (he : e ∈ p.entries) (h : d.name = e.name) : d = e :=
  List.inj_on_of_nodup_map hp.names hd he h

/-- In a pool without repetitions an entry is known by its key. -/
theorem IsDistinct.eq_of_key {p : ColumnPool} (hp : p.IsDistinct) {d e : PooledColumn}
    (hd : d ∈ p.entries) (he : e ∈ p.entries) (h : d.column.key = e.column.key) : d = e :=
  List.inj_on_of_nodup_map hp.keys hd he h

/-! ### Insertion -/

/-- The pool with one more entry. -/
def push (p : ColumnPool) (column : Column) (origin : ColumnOrigin) (r : RelatedProperties) :
    ColumnPool where
  entries := p.entries ++ [.ofColumn column origin r]
  textOnly := p.textOnly.extend r.textOnly
  units := p.units.extend r.units

theorem insert?_eq_some_iff {p q : ColumnPool} {column : Column} {origin : ColumnOrigin}
    {r : RelatedProperties} :
    p.insert? column origin r = some q ↔
      column.name ∉ p.names ∧ column.key ∉ p.keys ∧ q = p.push column origin r := by
  rw [insert?]
  split
  · rename_i h
    rw [Bool.or_eq_true, containsName_iff, containsKey_iff] at h
    constructor
    · intro hnone
      cases hnone
    · rintro ⟨hname, hkey, -⟩
      exact (h.elim hname hkey).elim
  · rename_i h
    rw [Bool.or_eq_true, containsName_iff, containsKey_iff, not_or] at h
    constructor
    · intro hsome
      exact ⟨h.1, h.2, (Option.some.inj hsome).symm⟩
    · rintro ⟨-, -, rfl⟩
      rfl

theorem insert?_eq_none_iff {p : ColumnPool} {column : Column} {origin : ColumnOrigin}
    {r : RelatedProperties} :
    p.insert? column origin r = none ↔ column.name ∈ p.names ∨ column.key ∈ p.keys := by
  rw [insert?]
  split
  · rename_i h
    rw [Bool.or_eq_true, containsName_iff, containsKey_iff] at h
    exact iff_of_true rfl h
  · rename_i h
    rw [Bool.or_eq_true, containsName_iff, containsKey_iff] at h
    exact iff_of_false (fun hsome => by cases hsome) h

/-- An insertion either adds its column at the end or changes nothing. -/
theorem insert_cases (p : ColumnPool) (column : Column) (origin : ColumnOrigin)
    (r : RelatedProperties) :
    (column.name ∉ p.names ∧ column.key ∉ p.keys ∧
      p.insert column origin r = p.push column origin r) ∨
    ((column.name ∈ p.names ∨ column.key ∈ p.keys) ∧ p.insert column origin r = p) := by
  cases h : p.insert? column origin r with
  | none => exact .inr ⟨insert?_eq_none_iff.1 h, by rw [insert, h, Option.getD_none]⟩
  | some q =>
    obtain ⟨hname, hkey, rfl⟩ := insert?_eq_some_iff.1 h
    exact .inl ⟨hname, hkey, by rw [insert, h, Option.getD_some]⟩

theorem names_push (p : ColumnPool) (column : Column) (origin : ColumnOrigin)
    (r : RelatedProperties) : (p.push column origin r).names = p.names ++ [column.name] := by
  rw [names, push, List.map_append]
  rfl

theorem keys_push (p : ColumnPool) (column : Column) (origin : ColumnOrigin)
    (r : RelatedProperties) : (p.push column origin r).keys = p.keys ++ [column.key] := by
  rw [keys, push, List.map_append]
  rfl

theorem IsDistinct.push {p : ColumnPool} (hp : p.IsDistinct) {column : Column}
    (hname : column.name ∉ p.names) (hkey : column.key ∉ p.keys) (origin : ColumnOrigin)
    (r : RelatedProperties) : (p.push column origin r).IsDistinct := by
  refine ⟨?_, ?_⟩
  · rw [names_push, ← List.concat_eq_append]
    exact hp.names.concat hname
  · rw [keys_push, ← List.concat_eq_append]
    exact hp.keys.concat hkey

theorem IsDistinct.insert {p : ColumnPool} (hp : p.IsDistinct) (column : Column)
    (origin : ColumnOrigin) (r : RelatedProperties) : (p.insert column origin r).IsDistinct := by
  rcases p.insert_cases column origin r with ⟨hname, hkey, heq⟩ | ⟨-, heq⟩
  · rw [heq]
    exact hp.push hname hkey origin r
  · rw [heq]
    exact hp

/-- An entry after an insertion was there before, or is the new one. -/
theorem mem_insert {p : ColumnPool} {column : Column} {origin : ColumnOrigin}
    {r : RelatedProperties} {e : PooledColumn} (h : e ∈ (p.insert column origin r).entries) :
    e ∈ p.entries ∨ e = .ofColumn column origin r := by
  rcases p.insert_cases column origin r with ⟨-, -, heq⟩ | ⟨-, heq⟩
  · rw [heq, ColumnPool.push, List.mem_append, List.mem_singleton] at h
    exact h
  · rw [heq] at h
    exact .inl h

end ColumnPool

/-! ### Growth -/

/-- A column that `build` answers when it is asked for a hidden column of a property, under one of
the names and keys of the property; the second name is for a property whose own name is among those
taken. -/
def Answers (build : HiddenColumn → Option Column) (taken : List String) (column : Column) : Prop :=
  ∃ h : HiddenColumn, build h = some column ∧
    (h.name = h.path ∨ h.name = propertyAlias h.path ∧ h.path ∈ taken) ∧
    (h.key = propertyKey h.path ∨ h.key = propertyKey h.name)

theorem Answers.mono {build : HiddenColumn → Option Column} {taken more : List String}
    {column : Column} (h : Answers build taken column) (hsub : taken ⊆ more) :
    Answers build more column := by
  obtain ⟨hidden, hbuild, hname, hkey⟩ := h
  refine ⟨hidden, hbuild, hname.imp_right ?_, hkey⟩
  rintro ⟨halias, hmem⟩
  exact ⟨halias, hsub hmem⟩

namespace ColumnPool

/-- `q` is `p` with hidden columns at its end. -/
def Extended (build : HiddenColumn → Option Column) (p q : ColumnPool) : Prop :=
  ∃ added : List Column, (∀ column ∈ added, Answers build q.names column) ∧
    q = { p with entries := p.entries ++ added.map .related }

/-- Links aside, `q` is `p` with hidden columns at its end. -/
def Grown (build : HiddenColumn → Option Column) (p q : ColumnPool) : Prop :=
  ∃ added : List Column, (∀ column ∈ added, Answers build q.names column) ∧
    q.entries.map (·.core) = p.entries.map (·.core) ++ added.map fun c => (c, .related, false)

section Growth

variable {build : HiddenColumn → Option Column} {p q r : ColumnPool}

theorem names_eq_cores (p : ColumnPool) :
    p.names = (p.entries.map (·.core)).map fun c => c.1.name := by
  rw [names, List.map_map]
  rfl

theorem keys_eq_cores (p : ColumnPool) :
    p.keys = (p.entries.map (·.core)).map fun c => c.1.key := by
  rw [keys, List.map_map]
  rfl

theorem Grown.names_prefix (h : Grown build p q) : p.names <+: q.names := by
  obtain ⟨added, -, hq⟩ := h
  rw [names_eq_cores, names_eq_cores, hq, List.map_append]
  exact List.prefix_append _ _

theorem Extended.grown (h : Extended build p q) : Grown build p q := by
  obtain ⟨added, hadded, rfl⟩ := h
  refine ⟨added, hadded, ?_⟩
  rw [List.map_append, List.map_map]
  rfl

theorem Extended.refl (p : ColumnPool) : Extended build p p :=
  ⟨[], by simp, by simp⟩

theorem Extended.trans (hpq : Extended build p q) (hqr : Extended build q r) :
    Extended build p r := by
  have hnames := hqr.grown.names_prefix.subset
  obtain ⟨xs, hxs, rfl⟩ := hpq
  obtain ⟨ys, hys, rfl⟩ := hqr
  refine ⟨xs ++ ys, ?_, by simp⟩
  intro column hcolumn
  exact (List.mem_append.1 hcolumn).elim (fun hx => (hxs column hx).mono hnames) (hys column)

theorem Extended.push {column : Column} (h : Answers build p.names column) :
    Extended build p (p.push column .related {}) := by
  refine ⟨[column], ?_, rfl⟩
  intro other hother
  rw [List.mem_singleton.1 hother, names_push]
  exact h.mono (List.subset_append_left _ _)

theorem Grown.of_cores (h : q.entries.map (·.core) = p.entries.map (·.core)) :
    Grown build p q :=
  ⟨[], by simp, by simp [h]⟩

theorem Grown.refl (p : ColumnPool) : Grown build p p := .of_cores rfl

theorem Grown.trans (hpq : Grown build p q) (hqr : Grown build q r) : Grown build p r := by
  have hnames := hqr.names_prefix.subset
  obtain ⟨xs, hxs, hq⟩ := hpq
  obtain ⟨ys, hys, hr⟩ := hqr
  refine ⟨xs ++ ys, ?_, ?_⟩
  · intro column hcolumn
    exact (List.mem_append.1 hcolumn).elim (fun hx => (hxs column hx).mono hnames) (hys column)
  · rw [hr, hq, List.map_append, List.append_assoc]

theorem IsDistinct.of_cores (hp : p.IsDistinct)
    (h : q.entries.map (·.core) = p.entries.map (·.core)) : q.IsDistinct :=
  ⟨by rw [names_eq_cores, h, ← names_eq_cores]; exact hp.names,
   by rw [keys_eq_cores, h, ← keys_eq_cores]; exact hp.keys⟩

/-- An entry of the smaller pool lives on with the same core. -/
theorem Grown.exists_of_mem (h : Grown build p q) {e : PooledColumn} (he : e ∈ p.entries) :
    ∃ d ∈ q.entries, d.core = e.core := by
  obtain ⟨added, -, hq⟩ := h
  have hmem : e.core ∈ q.entries.map (·.core) := by
    rw [hq]
    exact List.mem_append_left _ (List.mem_map_of_mem he)
  obtain ⟨d, hd, hcore⟩ := List.mem_map.1 hmem
  exact ⟨d, hd, hcore⟩

/-! ### The column that a dependency needs -/

/-- Whether an entry with the given core serves a column is told by the core alone. -/
theorem linkName_eq_cores (p : ColumnPool) (owner : String) (path : PropertyPath) :
    p.linkName owner path =
      match (p.entries.map (·.core)).find? (·.1.name == path) with
      | some (column, origin, isComposite) =>
        if column.name != owner && !isComposite && origin != .lineItem then path
        else propertyAlias path
      | none => path := by
  rw [linkName, entry?, List.find?_map]
  cases h : p.entries.find? (fun e => e.name == path) with
  | none =>
    rw [show p.entries.find? ((fun c => c.1.name == path) ∘ ColumnEntry.core) = none from h]
    rfl
  | some e =>
    rw [show p.entries.find? ((fun c => c.1.name == path) ∘ ColumnEntry.core) = some e from h]
    rfl

/-- **Growth does not change needs.**  Which column shows a property to another one is settled by
the columns from before the linking. -/
theorem linkName_eq_of_grown (h : Grown build p q) {owner : String} (howner : owner ∈ p.names)
    (path : PropertyPath) : q.linkName owner path = p.linkName owner path := by
  obtain ⟨added, -, hq⟩ := h
  rw [linkName_eq_cores, linkName_eq_cores, hq, List.find?_append]
  cases hfind : (p.entries.map (·.core)).find? (·.1.name == path) with
  | some core => rfl
  | none =>
    rw [Option.none_or]
    cases hadded : (added.map fun c => (c, ColumnOrigin.related, false)).find?
        (·.1.name == path) with
    | none => rfl
    | some core =>
      obtain ⟨column, hcolumn, rfl⟩ := List.mem_map.1 (List.mem_of_find?_eq_some hadded)
      have hname : column.name = path := by simpa using List.find?_some hadded
      -- the owner is in the smaller pool and a column of the path is not
      have hne : column.name ≠ owner := by
        rintro heq
        rw [names_eq_cores, List.mem_map] at howner
        obtain ⟨core, hcore, rfl⟩ := howner
        have hnone := List.find?_eq_none.1 hfind core hcore
        exact hnone (by rw [← hname, heq, beq_self_eq_true])
      simp [hne]

end Growth

end ColumnPool

end TableCompiler
