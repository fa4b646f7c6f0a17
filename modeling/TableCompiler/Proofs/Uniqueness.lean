import TableCompiler.Proofs.Table
import TableCompiler.Proofs.Toolbar

/-!
# Names and keys of a table are distinct

Columns are known by their names to other columns and by their keys to the manifest, actions by
their keys.  Every producer of columns and actions guards these spaces on its own: the pool refuses
what is taken, hidden columns are inserted like all others, and an entry of the manifest becomes a
custom element only if it is neither key nor name of an element that is there.

* `Scope.builtColumns_areDistinct` — the linked columns;
* `Columns.AreDistinct.append_custom`, `Scope.Yields.columns_areDistinct` — with the custom ones;
* `Context.names_and_keys_nodup` — a whole table.
-/

namespace TableCompiler

/-- The linked columns have distinct names and keys. -/
theorem Scope.builtColumns_areDistinct (s : Scope) : Columns.AreDistinct s.builtColumns := by
  have hpool : s.pool.value.IsDistinct := by
    rw [value_pool]
    exact (ColumnPool.link_spec s.hiddenColumn? s.collected_isDistinct).1
  exact hpool.columns

/-- Custom columns go by their keys, so they clash neither with built ones nor among each other. -/
theorem Columns.AreDistinct.append_custom {columns custom : Columns} (h : columns.AreDistinct)
    (hnodup : (custom.map (·.key)).Nodup)
    (hcustom : ∀ c ∈ custom, Columns.IsCustom columns c) :
    Columns.AreDistinct (columns ++ custom) := by
  have hname : custom.map (·.name) = custom.map (·.key) := by
    refine List.map_congr_left fun c hc => ?_
    obtain ⟨entry, names, -, heq⟩ := (hcustom c hc).exists_entry
    rw [heq]
    rfl
  refine ⟨?_, ?_⟩
  · rw [List.map_append, List.nodup_append]
    refine ⟨h.keys, hnodup, ?_⟩
    rintro key hkey other hother rfl
    obtain ⟨b, hb, heq⟩ := List.mem_map.1 hkey
    obtain ⟨c, hc, rfl⟩ := List.mem_map.1 hother
    exact (hcustom c hc).key_ne b hb heq
  · rw [List.map_append, List.nodup_append]
    refine ⟨h.names, hname ▸ hnodup, ?_⟩
    rintro name hbuilt other hother rfl
    obtain ⟨b, hb, heq⟩ := List.mem_map.1 hbuilt
    obtain ⟨c, hc, rfl⟩ := List.mem_map.1 hother
    exact (hcustom c hc).name_ne b hb heq

/-- Columns that are settled alike, in whatever order, have the same names and keys. -/
theorem Columns.AreDistinct.of_settled_perm {b c : Columns} (hb : b.AreDistinct)
    (h : (c.map (·.settled)).Perm (b.map (·.settled))) : c.AreDistinct := by
  have hmember : ∀ f : Column → String, (∀ c, f c.settled = f c) → (b.map f).Nodup →
      (c.map f).Nodup := by
    intro f hf hnodup
    have hperm : (c.map f).Perm (b.map f) := by
      have hmap := h.map f
      rw [List.map_map, List.map_map] at hmap
      rwa [show f ∘ Column.settled = f from funext hf] at hmap
    exact hperm.nodup_iff.2 hnodup
  exact ⟨hmember (·.key) (fun _ => rfl) hb.keys, hmember (·.name) (fun _ => rfl) hb.names⟩

/-- The columns of a table have distinct names and keys. -/
theorem Scope.Yields.columns_areDistinct {s : Scope} {t : Table} (h : s.Yields t) :
    Columns.AreDistinct t.columns := by
  obtain ⟨custom, hnodup, hcustom, hperm⟩ := h.settled_perm
  exact (s.builtColumns_areDistinct.append_custom hnodup hcustom).of_settled_perm hperm

namespace Context

/-- **Uniqueness.**  In a table that is compiled, no two columns share a key or a name, and no two
actions share a key, whatever the service, the manifest and the request. -/
theorem names_and_keys_nodup (c : Context) (r : TableRequest) (t : Table)
    (h : (c.compile r).value = .ok t) :
    (t.columns.map (·.key)).Nodup ∧ (t.columns.map (·.name)).Nodup ∧
      (t.actions.map (·.key)).Nodup := by
  obtain ⟨scope, -, hyields⟩ := exists_yields h
  have hcolumns := hyields.columns_areDistinct
  refine ⟨hcolumns.keys, hcolumns.names, ?_⟩
  rw [hyields.actions]
  exact scope.value.nodup_mergeActions

theorem names_and_keys_nodup_orders :
    ∃ t, (orders.compile { entitySet := "Orders" }).value = .ok t ∧
      (t.columns.map (·.key)).Nodup ∧ (t.columns.map (·.name)).Nodup ∧
      (t.actions.map (·.key)).Nodup := by
  obtain ⟨t, ht⟩ := orders_compiles
  exact ⟨t, ht, orders.names_and_keys_nodup { entitySet := "Orders" } t ht⟩

end Context

end TableCompiler
