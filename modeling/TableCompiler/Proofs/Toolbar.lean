import Mathlib.Data.List.Nodup
import TableCompiler.Override
import TableCompiler.Proofs.Dictionary
import TableCompiler.Proofs.Placement
import TableCompiler.Proofs.Reported

/-!
# Keys of toolbar actions

A record adds at most one action, and only under a key that no earlier action has.  Entries of the
manifest change actions but not their keys, and custom actions have keys of their own.

* `Toolbar.keys` — the keys of the actions, in order;
* `Scope.addAction_cases`, `Scope.nodup_toolbar` — no record brings a key a second time;
* `Toolbar.keys_override`, `Toolbar.nodup_custom` — nor does the manifest;
* `Scope.nodup_mergeActions` — the keys of all actions of a table are distinct.
-/

namespace TableCompiler

namespace Toolbar

/-- The keys of the actions, in order. -/
def keys (t : Toolbar) : List String := t.actions.map (·.key)

theorem containsKey_iff_mem {t : Toolbar} {key : String} :
    t.containsKey key = true ↔ key ∈ t.keys := by
  rw [containsKey, List.any_eq_true, keys, List.mem_map]
  simp only [beq_iff_eq]

end Toolbar

/-! ### Actions of records -/

namespace Scope

/-- What a record does to the actions, whether or not it is hidden: it adds one of its key, or
none. -/
def AddsAtMost (key : String) (t u : Toolbar) : Prop :=
  u.actions = t.actions ∨ ∃ action : Action, action.key = key ∧ u.actions = t.actions ++ [action]

theorem key_operationAction (s : Scope) (field : ActionField) (key path : String) :
    (s.operationAction field key path).value.key = key := by
  rw [operationAction]
  dsimp only
  split <;> rfl

theorem addOperation_addsAtMost (s : Scope) (t : Toolbar) (field : ActionField)
    (key path : String) : AddsAtMost key t (s.addOperation t field key path).value := by
  rw [addOperation]
  split
  · by_cases hcopy : t.canCopy = true
    · rw [if_pos hcopy]
      exact .inl rfl
    · rw [if_neg hcopy]
      exact .inr ⟨field.copyAction key path, rfl, rfl⟩
  · split
    · exact .inl rfl
    · split
      · exact .inl rfl
      · exact .inr ⟨_, s.key_operationAction field key path, rfl⟩

theorem addIntent_addsAtMost (t : Toolbar) (field : IntentField) (key path : String) :
    AddsAtMost key t (addIntent t field key path) := by
  rw [addIntent]
  split
  · exact .inl rfl
  · split
    · exact .inl rfl
    · exact .inr ⟨field.toAction key path, rfl, rfl⟩

/-- **A record and its action.**  A record changes nothing, or adds an action under a new key. -/
theorem addAction_cases (s : Scope) (t : Toolbar) (record : DataField × Nat) :
    (s.addAction t record).value.keys = t.keys ∨
      ∃ key, key ∉ t.keys ∧ (s.addAction t record).value.keys = t.keys ++ [key] := by
  have hstep : ∀ {key : String} {u : Toolbar}, ¬ t.containsKey key = true → AddsAtMost key t u →
      u.keys = t.keys ∨ ∃ key, key ∉ t.keys ∧ u.keys = t.keys ++ [key] := by
    rintro key u hnew (hsame | ⟨action, hkey, hadded⟩)
    · exact .inl (congrArg (List.map _) hsame)
    · refine .inr ⟨key, fun hmem => hnew (Toolbar.containsKey_iff_mem.2 hmem), ?_⟩
      rw [Toolbar.keys, hadded, List.map_append, List.map_singleton, hkey]
      rfl
  obtain ⟨field, index⟩ := record
  simp only [addAction]
  split
  · split
    · exact .inl rfl
    · rename_i hnew
      exact hstep hnew (s.addOperation_addsAtMost t _ _ _)
  · split
    · exact .inl rfl
    · rename_i hnew
      exact hstep hnew (addIntent_addsAtMost t _ _ _)
  · exact .inl rfl

/-- **The toolbar has no key twice**, however often the records repeat. -/
theorem nodup_toolbar (s : Scope) : s.toolbar.value.keys.Nodup := by
  rw [toolbar, Reported.value_foldlM]
  refine List.foldlRecOn (motive := fun t : Toolbar => t.keys.Nodup) _ _ List.nodup_nil ?_
  intro t ht record _
  rcases s.addAction_cases t record with hkeys | ⟨key, hnew, hkeys⟩
  · rw [hkeys]
    exact ht
  · rw [hkeys, ← List.concat_eq_append]
    exact ht.concat hnew

end Scope

/-! ### Entries of the manifest -/

namespace Toolbar

/-- Overrides keep the keys. -/
theorem keys_override (t : Toolbar) (entries : Dictionary ManifestAction) :
    (t.override entries).map (·.key) = t.keys := by
  rw [override, List.map_map, keys]
  refine List.map_congr_left fun action _ => ?_
  dsimp only [Function.comp_apply]
  split
  · rfl
  · split <;> rfl

/-- The custom actions have distinct keys. -/
theorem nodup_custom (t : Toolbar) (entries : Dictionary ManifestAction) :
    ((t.custom entries).map (·.1.key)).Nodup := by
  refine entries.nodup_filterMap _ (fun c : Custom Action => c.1.key) ?_
  rintro ⟨key, entry⟩ c hc
  dsimp only at hc
  split at hc
  · cases hc
  · obtain rfl := Option.some.inj hc
    rfl

/-- No custom action has the key of an action of a record. -/
theorem not_mem_keys_of_custom {t : Toolbar} {entries : Dictionary ManifestAction}
    {c : Custom Action} (h : c ∈ t.custom entries) : c.1.key ∉ t.keys := by
  rw [custom, List.mem_filterMap] at h
  obtain ⟨⟨key, entry⟩, -, hc⟩ := h
  dsimp only at hc
  split at hc
  · cases hc
  · rename_i hnew
    obtain rfl := Option.some.inj hc
    rw [Bool.or_eq_true, not_or, containsKey_iff_mem] at hnew
    exact hnew.2

end Toolbar

/-- **Action keys are distinct**, whatever the records and the manifest say. -/
theorem Scope.nodup_mergeActions (s : Scope) :
    ((s.mergeActions s.toolbar.value).value.map (·.key)).Nodup := by
  rw [mergeActions]
  split
  · rename_i control _
    have hperm := (placeAll_perm (·.key) (s.toolbar.value.override control.actions)
      (s.toolbar.value.custom control.actions)).map (·.key)
    refine hperm.nodup_iff.2 ?_
    rw [List.map_append, Toolbar.keys_override, List.nodup_append]
    rw [List.map_map]
    refine ⟨s.nodup_toolbar, Toolbar.nodup_custom _ control.actions, ?_⟩
    rintro key hkey other hother rfl
    obtain ⟨c, hc, rfl⟩ := List.mem_map.1 hother
    exact Toolbar.not_mem_keys_of_custom hc hkey
  · exact s.nodup_toolbar

end TableCompiler
