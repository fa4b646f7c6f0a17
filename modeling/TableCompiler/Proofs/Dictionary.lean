import TableCompiler.Dictionary

/-!
# Keys of dictionaries

* `Dictionary.nodup_keys` — no key occurs twice;
* `Dictionary.nodup_filterMap` — nor among what is made of the entries, if keys are kept;
* `Dictionary.mem_keys_insert`, `Dictionary.mem_keys_ofList` — every key was put in;
* `Dictionary.contains_iff`, `Dictionary.contains_insert`, `Dictionary.contains_ofList`,
  `Dictionary.contains_extend` — the keys that have a value;
* `Dictionary.get?_eq_some_iff_mem`, `Dictionary.get?_insert` — the value under a key, which is that
  of its entry, and after an insertion.
-/

namespace TableCompiler

namespace Dictionary

variable {α : Type}

theorem nodup_keys (d : Dictionary α) : d.keys.Nodup := by
  refine List.pairwise_map.2 (d.sorted.imp ?_)
  intro a b hlt heq
  exact String.lt_irrefl b.1 (heq ▸ hlt)

/-- What is made of some of the entries under their own keys has no key twice. -/
theorem nodup_filterMap {β : Type} (d : Dictionary α) (f : String × α → Option β)
    (key : β → String) (hf : ∀ entry b, f entry = some b → key b = entry.1) :
    ((d.entries.filterMap f).map key).Nodup := by
  refine d.nodup_keys.sublist ?_
  rw [keys]
  induction d.entries with
  | nil => exact .refl _
  | cons entry rest ih =>
    cases hentry : f entry with
    | none =>
      rw [List.filterMap_cons_none hentry, List.map_cons]
      exact ih.cons entry.1
    | some b =>
      rw [List.filterMap_cons_some hentry, List.map_cons, List.map_cons, hf entry b hentry]
      exact ih.cons_cons entry.1

theorem mem_keys_insert {d : Dictionary α} {key other : String} {value : α}
    (h : other ∈ (d.insert key value).keys) : other = key ∨ other ∈ d.keys := by
  obtain ⟨entry, hentry, rfl⟩ := List.mem_map.1 h
  rcases mem_put hentry with rfl | hold
  · exact .inl rfl
  · exact .inr (List.mem_map_of_mem hold)

theorem mem_keys_ofList {entries : List (String × α)} {key : String}
    (h : key ∈ (ofList entries).keys) : key ∈ entries.map (·.1) := by
  revert h
  rw [ofList]
  refine List.foldlRecOn (motive := fun d : Dictionary α =>
    key ∈ d.keys → key ∈ entries.map (·.1)) _ _ ?_ ?_
  · intro h
    cases h
  · intro d ih entry hentry h
    rcases mem_keys_insert h with rfl | hold
    · exact List.mem_map_of_mem hentry
    · exact ih hold

theorem contains_iff {d : Dictionary α} {key : String} : d.contains key = true ↔ key ∈ d.keys := by
  rw [contains, get?, List.lookup_isSome_iff, keys, List.mem_map]
  simp only [beq_iff_eq, eq_comm (a := key)]

/-- No name occurs twice, so every entry is found. -/
theorem get?_eq_some_of_mem {d : Dictionary α} {key : String} {value : α}
    (h : (key, value) ∈ d.entries) : d.get? key = some value := by
  obtain ⟨front, back, hentries⟩ := List.append_of_mem h
  have hsorted := d.sorted
  rw [hentries, List.pairwise_append] at hsorted
  rw [get?, hentries, List.lookup_eq_some_iff]
  refine ⟨front, back, rfl, fun entry hentry => bne_iff_ne.2 ?_⟩
  exact (String.ne_of_lt (hsorted.2.2 entry hentry _ List.mem_cons_self)).symm

theorem get?_eq_some_iff_mem {d : Dictionary α} {key : String} {value : α} :
    d.get? key = some value ↔ (key, value) ∈ d.entries := by
  refine ⟨fun h => ?_, get?_eq_some_of_mem⟩
  obtain ⟨front, back, hentries, -⟩ := List.lookup_eq_some_iff.1 h
  rw [hentries]
  exact List.mem_append_right _ List.mem_cons_self

theorem mem_keys_put (key : String) (value : α) {entries : List (String × α)} {other : String}
    (h : other = key ∨ other ∈ entries.map (·.1)) : other ∈ (put key value entries).map (·.1) := by
  induction entries with
  | nil => simpa [put] using h
  | cons first rest ih =>
    rw [List.map_cons, List.mem_cons] at h
    rw [put]
    split
    · rw [List.map_cons, List.map_cons, List.mem_cons, List.mem_cons]
      exact h
    · split
      · rename_i heq
        rw [List.map_cons, List.mem_cons]
        rcases h with h | h | h
        · exact .inl h
        · exact .inl (h.trans heq.symm)
        · exact .inr h
      · rw [List.map_cons, List.mem_cons]
        rcases h with h | h | h
        · exact .inr (ih (.inl h))
        · exact .inl h
        · exact .inr (ih (.inr h))

theorem contains_insert {d : Dictionary α} {key other : String} {value : α} :
    (d.insert key value).contains other = true ↔ other = key ∨ d.contains other = true := by
  rw [contains_iff, contains_iff]
  exact ⟨mem_keys_insert, mem_keys_put key value⟩

/-- The keys that were put in are those that have a value. -/
theorem contains_ofList {entries : List (String × α)} {key : String} :
    (ofList entries).contains key = true ↔ key ∈ entries.map (·.1) := by
  refine ⟨fun h => mem_keys_ofList (contains_iff.1 h), fun h => ?_⟩
  have hrun : ∀ d : Dictionary α, key ∈ entries.map (·.1) ∨ d.contains key = true →
      (entries.foldl (fun d entry => d.insert entry.1 entry.2) d).contains key = true := by
    clear h
    induction entries with
    | nil => exact fun d h => h.resolve_left List.not_mem_nil
    | cons entry entries ih =>
      intro d h
      refine ih _ ?_
      rw [contains_insert]
      rw [List.map_cons, List.mem_cons, or_comm (b := key ∈ entries.map (·.1)), or_assoc] at h
      exact h
  exact hrun empty (.inl h)

theorem lookup_put (key other : String) (value : α) (entries : List (String × α)) :
    (put key value entries).lookup other =
      if other = key then some value else entries.lookup other := by
  induction entries with
  | nil =>
    rw [put, List.lookup_cons, List.lookup_nil]
    by_cases h : other = key
    · rw [if_pos h, beq_iff_eq.2 h]
    · rw [if_neg h, beq_eq_false_iff_ne.2 h]
  | cons first rest ih =>
    rw [put]
    split
    · rw [List.lookup_cons]
      by_cases h : other = key
      · rw [if_pos h, beq_iff_eq.2 h]
      · rw [if_neg h, beq_eq_false_iff_ne.2 h]
    · split
      · rename_i heq
        rw [List.lookup_cons, List.lookup_cons, ← heq]
        by_cases h : other = key
        · rw [if_pos h, beq_iff_eq.2 h]
        · rw [if_neg h, beq_eq_false_iff_ne.2 h]
      · rename_i hne
        rw [List.lookup_cons, List.lookup_cons, ih]
        by_cases h : other = first.1
        · have hkey : other ≠ key := fun heq => hne (heq.symm.trans h)
          rw [beq_iff_eq.2 h, if_neg hkey, if_neg hkey]
        · rw [beq_eq_false_iff_ne.2 h]

theorem get?_insert (d : Dictionary α) (key other : String) (value : α) :
    (d.insert key value).get? other = if other = key then some value else d.get? other :=
  lookup_put key other value d.entries

/-- The names of a set with further ones. -/
theorem contains_extend {names : Dictionary Unit} {more : List String} {name : String} :
    (names.extend more).contains name = true ↔ name ∈ more ∨ names.contains name = true := by
  induction more generalizing names with
  | nil => simp [extend]
  | cons first more ih =>
    rw [extend, List.foldl_cons, ← extend, ih, contains_insert, List.mem_cons]
    exact or_left_comm.trans or_assoc.symm

end Dictionary

end TableCompiler
