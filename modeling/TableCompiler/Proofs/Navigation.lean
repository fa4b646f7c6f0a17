import TableCompiler.Proofs.Dependencies
import TableCompiler.Proofs.Service

/-!
# Properties behind a navigation

The partners of a property are named as they are seen from the type that has the property, and are
looked up from the type of the rows behind the navigation to the property.  Both finds are the same.

* `Text.split_navigationText`, `Text.segments_navigationText` — a navigation in front of a path is
  split off, and read from its text;
* `Service.propertyAt?_append` — what is found behind a navigation is found from its end;
* `Service.property?_navigationText` — and put in front of the navigation that it crosses;
* `Service.follow?_of_propertyAt?` — the navigation to a property leads to its type;
* `Service.finds_behind_iff` — both together, for the path of a property.
-/

namespace TableCompiler

/-! ### Pieces behind a navigation -/

theorem navigationText_cons (segment : String) (segments : List String) :
    navigationText (segment :: segments) = segment ++ "/" ++ navigationText segments := by
  rw [navigationText, List.map_cons, String.join_cons, navigationText]

namespace Text

/-- **A navigation in front of a path** is split into its segments. -/
theorem split_navigationText {segments : List String} (h : ∀ segment ∈ segments,
    '/' ∉ segment.toList) (rest : String) :
    split '/' (navigationText segments ++ rest) = segments ++ split '/' rest := by
  induction segments with
  | nil => rw [navigationText, List.map_nil, String.join_nil, String.empty_append, List.nil_append]
  | cons segment segments ih =>
    obtain ⟨hsegment, hsegments⟩ := List.forall_mem_cons.1 h
    rw [navigationText_cons, String.append_assoc, split_append_slash, split_of_not_mem hsegment,
      ih hsegments, List.cons_append, List.nil_append, List.cons_append]

/-- The segments of names with a slash after each come before those of the path behind them. -/
theorem segments_navigationText_append (names : List String) (rest : String) :
    segments '/' (navigationText names ++ rest) =
      names.flatMap (segments '/') ++ segments '/' rest := by
  induction names with
  | nil => rw [navigationText, List.map_nil, String.join_nil, String.empty_append,
      List.flatMap_nil, List.nil_append]
  | cons name names ih =>
    rw [navigationText_cons, String.append_assoc, segments_append_slash, ih, List.flatMap_cons,
      List.append_assoc]

/-- A navigation has the segments of which it is made. -/
theorem segments_navigationText {names : List String}
    (h : ∀ name ∈ names, name ≠ "" ∧ '/' ∉ name.toList) :
    segments '/' (navigationText names) = names := by
  have happend := segments_navigationText_append names ""
  rwa [String.append_empty, show segments '/' "" = [] from rfl, List.append_nil,
    flatMap_segments h] at happend

end Text

/-! ### Texts of navigations -/

/-- The characters of a navigation are slashes and those of its segments. -/
theorem forall_mem_navigationText {P : Char → Prop} (hslash : P '/') {segments : List String}
    (h : ∀ segment ∈ segments, ∀ c ∈ segment.toList, P c) :
    ∀ c ∈ (navigationText segments).toList, P c := by
  induction segments with
  | nil => exact fun c hc => (List.not_mem_nil hc).elim
  | cons segment segments ih =>
    obtain ⟨hsegment, hsegments⟩ := List.forall_mem_cons.1 h
    intro c hc
    rw [navigationText_cons, String.toList_append, String.toList_append, List.append_assoc,
      List.mem_append, List.mem_append] at hc
    rcases hc with hc | hc | hc
    · exact hsegment c hc
    · rw [List.mem_singleton.1 hc]
      exact hslash
    · exact ih hsegments c hc

theorem navigationText_append (front rest : List String) :
    navigationText (front ++ rest) = navigationText front ++ navigationText rest := by
  rw [navigationText, List.map_append, String.join_append]
  rfl

/-! ### What is found behind a navigation -/

namespace Service

variable {s : Service} {t u : EntityType}

/-- The same property of the same type is found behind a navigation as from its end, and what is
crossed from there on is crossed behind the navigation. -/
theorem propertyAt?_append {front : List String} (h : s.follow? t front = some u)
    {rest : List String} (hrest : rest ≠ []) :
    (s.propertyAt? t (front ++ rest)).map (fun found => (found.1, found.2.1, found.2.2.1)) =
      (s.propertyAt? u rest).map fun found => (found.1, found.2.1, front ++ found.2.2.1) := by
  induction front generalizing t with
  | nil =>
    obtain rfl := Option.some.inj h
    rfl
  | cons segment front ih =>
    rw [follow?, Option.bind_eq_bind, Option.bind_eq_some_iff] at h
    obtain ⟨⟨navigation, target⟩, hnavigation, hfollow⟩ := h
    have hmore : front ++ rest ≠ [] := List.append_ne_nil_of_right_ne_nil front hrest
    obtain ⟨next, more, hnext⟩ := List.exists_cons_of_ne_nil hmore
    have hinner := congrArg (Option.map fun found => (found.1, found.2.1, segment :: found.2.2))
      (ih hfollow)
    rw [Option.map_map, Option.map_map] at hinner
    rw [List.cons_append, hnext, propertyAt?, hnavigation, ← hnext]
    · refine Eq.trans ?_ hinner
      dsimp only
      cases s.propertyAt? target (front ++ rest) with
      | none => rfl
      | some found => rfl
    · exact List.cons_ne_nil next more

/-- The same property of the same type is found behind a navigation, and the way to it is longer. -/
theorem property?_navigationText {segments : List String}
    (hslash : ∀ segment ∈ segments, '/' ∉ segment.toList) (h : s.follow? t segments = some u)
    (path : PropertyPath) :
    (s.property? t (navigationText segments ++ path)).map
        (fun target => (target.property, target.entityType, target.navigationPrefix)) =
      (s.property? u path).map fun target => (target.property, target.entityType,
        navigationText segments ++ target.navigationPrefix) := by
  have hfound := congrArg (Option.map fun found : Property × EntityType × List String =>
    (found.1, found.2.1, navigationText found.2.2))
    (propertyAt?_append h (Text.split_ne_nil '/' path))
  rw [Option.map_map, Option.map_map] at hfound
  rw [property?, property?, Option.map_map, Option.map_map, Text.split_navigationText hslash]
  refine hfound.trans (Option.map_congr fun found _ => ?_)
  exact congrArg (fun text => (found.1, found.2.1, text))
    (navigationText_append segments found.2.2.1)

/-- The navigation to a property leads to the type that has the property. -/
theorem follow?_of_propertyAt? {segments : List String}
    {found : Property × EntityType × List String × Bool}
    (h : s.propertyAt? t segments = some found) :
    s.follow? t found.2.2.1 = some found.2.1 ∧ found.2.2.1 <+: segments := by
  induction segments generalizing t found with
  | nil => cases h
  | cons name rest ih =>
    cases rest with
    | nil =>
      obtain ⟨p, -, rfl⟩ := Option.map_eq_some_iff.1 h
      exact ⟨rfl, List.nil_prefix⟩
    | cons next rest =>
      rw [propertyAt?] at h
      split at h
      · rename_i navigation target hnavigation
        simp only [Option.bind_eq_bind, Option.bind_eq_some_iff] at h
        obtain ⟨inner, hinner, heq⟩ := h
        obtain rfl := Option.some.inj heq
        obtain ⟨hfollow, hfront⟩ := ih hinner
        refine ⟨?_, List.cons_prefix_cons.2 ⟨rfl, hfront⟩⟩
        rw [follow?, hnavigation, Option.bind_eq_bind, Option.bind_some]
        exact hfollow
      · simp only [Option.bind_eq_bind, Option.bind_eq_some_iff] at h
        obtain ⟨host, -, type, -, inner, -, heq⟩ := h
        obtain rfl := Option.some.inj heq
        exact ⟨rfl, List.nil_prefix⟩
      · exact List.cons_ne_nil _ _

/-- **Partners behind a navigation.**  A path behind the navigation to a property leads somewhere
exactly if it does from the type that has the property. -/
theorem finds_behind_iff {path : PropertyPath} {target : PropertyTarget}
    (h : s.property? t path = some target) (partner : PropertyPath) :
    s.Finds t (target.navigationPrefix ++ partner) ↔ s.Finds target.entityType partner := by
  obtain ⟨found, hfound, rfl⟩ := Option.map_eq_some_iff.1 h
  obtain ⟨hfollow, hfront⟩ := follow?_of_propertyAt? hfound
  have hslash : ∀ segment ∈ found.2.2.1, '/' ∉ segment.toList :=
    fun segment hsegment => Text.not_mem_of_mem_split (hfront.subset hsegment)
  have hsame := congrArg Option.isSome
    (propertyAt?_append hfollow (Text.split_ne_nil '/' partner))
  rw [Option.isSome_map, Option.isSome_map] at hsame
  rw [Finds, Finds, property?, property?, Option.isSome_map, Option.isSome_map, ← hsame]
  rw [PropertyTarget.navigationPrefix, Text.split_navigationText hslash]

end Service

end TableCompiler
