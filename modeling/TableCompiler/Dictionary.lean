/-!
# Dictionaries

Snapshots and descriptors hold maps from names to values whose order is that of the names.
A `Dictionary` is the list of its entries together with the proof that the names strictly
increase, so two dictionaries with the same entries are equal and no name occurs twice.

* `Dictionary.empty`, `Dictionary.insert`, `Dictionary.ofList` — a later value replaces an
  earlier one of the same name;
* `Dictionary.extend` — further names of a set;
* `Dictionary.get?`, `Dictionary.contains`, `Dictionary.keys`.
-/

namespace TableCompiler

variable {α β : Type}

/-- A map from names to values, kept in the order of the names. -/
@[ext] structure Dictionary (α : Type) where
  /-- The entries, by strictly increasing name. -/
  entries : List (String × α)
  /-- The names strictly increase. -/
  sorted : entries.Pairwise (fun a b => a.1 < b.1)

namespace Dictionary

def empty : Dictionary α := ⟨[], .nil⟩

instance : Inhabited (Dictionary α) := ⟨empty⟩

/-! ### Insertion -/

/-- Puts a value into a sorted list of entries, in place of one of the same name. -/
def put (key : String) (value : α) : List (String × α) → List (String × α)
  | [] => [(key, value)]
  | entry :: rest =>
    if key < entry.1 then (key, value) :: entry :: rest
    else if key = entry.1 then (key, value) :: rest
    else entry :: put key value rest

theorem mem_put {key : String} {value : α} {entry : String × α} {entries : List (String × α)}
    (h : entry ∈ put key value entries) : entry = (key, value) ∨ entry ∈ entries := by
  induction entries with
  | nil => simp_all [put]
  | cons first rest ih =>
    simp only [put] at h
    split at h
    · simpa using h
    · split at h
      · rcases List.mem_cons.1 h with h | h <;> simp [h]
      · rcases List.mem_cons.1 h with h | h
        · simp [h]
        · rcases ih h with h | h <;> simp [h]

theorem sorted_put (key : String) (value : α) {entries : List (String × α)}
    (h : entries.Pairwise (fun a b => a.1 < b.1)) :
    (put key value entries).Pairwise (fun a b => a.1 < b.1) := by
  induction entries with
  | nil => simp [put]
  | cons first rest ih =>
    obtain ⟨hfirst, hrest⟩ := List.pairwise_cons.1 h
    simp only [put]
    split
    case isTrue hlt =>
      refine List.pairwise_cons.2 ⟨fun entry hentry => ?_, h⟩
      rcases List.mem_cons.1 hentry with rfl | hentry
      · exact hlt
      · exact String.lt_trans hlt (hfirst _ hentry)
    case isFalse hlt =>
      split
      case isTrue heq =>
        exact List.pairwise_cons.2 ⟨fun entry hentry => heq ▸ hfirst _ hentry, hrest⟩
      case isFalse hne =>
        refine List.pairwise_cons.2 ⟨fun entry hentry => ?_, ih hrest⟩
        rcases mem_put hentry with rfl | hentry
        · rcases Std.lt_trichotomy key first.1 with h' | h' | h'
          · exact absurd h' hlt
          · exact absurd h' hne
          · exact h'
        · exact hfirst _ hentry

/-- The dictionary with one more entry, which replaces one of the same name. -/
def insert (d : Dictionary α) (key : String) (value : α) : Dictionary α :=
  ⟨put key value d.entries, sorted_put key value d.sorted⟩

/-- The dictionary of a list of entries; the last one of a name counts. -/
def ofList (entries : List (String × α)) : Dictionary α :=
  entries.foldl (fun d entry => d.insert entry.1 entry.2) empty

/-- A set with further names. -/
def extend (names : Dictionary Unit) (more : List String) : Dictionary Unit :=
  more.foldl (fun names name => names.insert name ()) names

/-! ### Lookup -/

def get? (d : Dictionary α) (key : String) : Option α :=
  d.entries.lookup key

def contains (d : Dictionary α) (key : String) : Bool :=
  (d.get? key).isSome

def keys (d : Dictionary α) : List String :=
  d.entries.map (·.1)

/-! ### Extensionality -/

theorem put_of_lt {key : String} {value : α} {entries : List (String × α)}
    (h : ∀ entry ∈ entries, entry.1 < key) :
    put key value entries = entries ++ [(key, value)] := by
  induction entries with
  | nil => rfl
  | cons first rest ih =>
    have hlt : first.1 < key := h first (by simp)
    have hne : ¬ key < first.1 := String.lt_asymm hlt
    have hne' : key ≠ first.1 := fun heq => String.lt_irrefl key (heq ▸ hlt)
    simp [put, hne, hne', ih fun entry hentry => h entry (by simp [hentry])]

theorem foldl_insert_entries (entries : List (String × α)) (d : Dictionary α)
    (h : (d.entries ++ entries).Pairwise (fun a b => a.1 < b.1)) :
    (entries.foldl (fun d entry => d.insert entry.1 entry.2) d).entries
      = d.entries ++ entries := by
  induction entries generalizing d with
  | nil => simp
  | cons first rest ih =>
    have hput : (d.insert first.1 first.2).entries = d.entries ++ [first] := by
      refine put_of_lt fun entry hentry => ?_
      exact (List.pairwise_append.1 h).2.2 entry hentry first (by simp)
    rw [List.foldl_cons, ih _ (by simpa [hput] using h), hput]
    simp

/-- A dictionary is rebuilt from its entries. -/
@[simp] theorem ofList_entries (d : Dictionary α) : ofList d.entries = d := by
  ext1
  simpa [ofList, empty] using foldl_insert_entries d.entries empty (by simpa [empty] using d.sorted)

end Dictionary

end TableCompiler
