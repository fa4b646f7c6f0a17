import TableCompiler.Proofs.Navigation
import TableCompiler.Proofs.Reach

/-!
# Paths of properties and their navigation

The path of a property crosses navigation properties first and goes through complex properties from
then on.  It can be cut behind the last navigation: what stands in front leads to the type that has
the property, and from there the rest leads to the same property without any navigation.  The other
way round, a navigation can be put in front of every path that starts where it ends.

* `Service.Crosses`, `Service.Enters` — the navigation properties and the properties on a path;
* `Service.Splits` — a path that is cut behind its last navigation;
* `Service.splits_of_propertyAt?` — the step along the segments;
* `Service.paths_split` — the path of a property, and paths behind a navigation.
-/

namespace TableCompiler

/-! ### The size of a navigation -/

/-- The bytes of some segments, with a slash behind each. -/
def navigationSize : List String → Nat
  | [] => 0
  | name :: names => name.utf8ByteSize + 1 + navigationSize names

theorem utf8ByteSize_navigationText (names : List String) :
    (navigationText names).utf8ByteSize = navigationSize names := by
  induction names with
  | nil => rfl
  | cons name names ih =>
    rw [navigationSize, ← ih, navigationText, List.map_cons, String.join_cons,
      String.utf8ByteSize_append, String.utf8ByteSize_append]
    rfl

namespace Text

theorem flatMap_splitChars (separator : Char) (chars : List Char) :
    (splitChars separator chars).flatMap (· ++ [separator]) = chars ++ [separator] := by
  induction chars with
  | nil => rfl
  | cons c rest ih =>
    by_cases hc : c = separator
    · rw [hc, splitChars_cons_self, List.flatMap_cons, ih]
      rfl
    · obtain ⟨piece, pieces, hrest, hcons⟩ := splitChars_cons_of_ne hc rest
      rw [hrest, List.flatMap_cons] at ih
      rw [hcons, List.flatMap_cons, List.cons_append, List.cons_append, ih, List.cons_append]

/-- The pieces of a text, each with a slash behind it. -/
theorem navigationText_split (text : String) : navigationText (split '/' text) = text ++ "/" := by
  refine String.toList_injective ?_
  have hpieces := flatMap_splitChars '/' text.toList
  rw [navigationText, String.toList_join, split, List.map_map, List.flatMap_map,
    String.toList_append]
  refine Eq.trans (List.flatMap_congr fun piece _ => ?_) hpieces
  rw [Function.comp_apply, String.toList_append, String.toList_ofList]
  rfl

/-- Names with slashes between them are the pieces of what they make up. -/
theorem split_intercalate {names : List String} (hne : names ≠ [])
    (hslash : ∀ name ∈ names, '/' ∉ name.toList) : split '/' ("/".intercalate names) = names := by
  induction names with
  | nil => exact absurd rfl hne
  | cons name names ih =>
    obtain ⟨hname, hnames⟩ := List.forall_mem_cons.1 hslash
    cases names with
    | nil => rw [String.intercalate_singleton, split_of_not_mem hname]
    | cons next names =>
      rw [String.intercalate_cons_cons, split_append_slash, split_of_not_mem hname,
        ih (List.cons_ne_nil _ _) hnames, List.singleton_append]

end Text

/-- Slashes behind all names are slashes between them, and one more. -/
theorem navigationText_eq_intercalate {names : List String} (hne : names ≠ []) :
    navigationText names = "/".intercalate names ++ "/" := by
  induction names with
  | nil => exact absurd rfl hne
  | cons name names ih =>
    have hcons : navigationText (name :: names) = name ++ "/" ++ navigationText names :=
      String.join_cons
    cases names with
    | nil =>
      rw [hcons, String.intercalate_singleton]
      exact String.append_empty
    | cons next names =>
      rw [hcons, ih (List.cons_ne_nil _ _), String.intercalate_cons_cons, ← String.append_assoc]

namespace Service

/-! ### What is on a path -/

/-- Navigation properties of the names of a list are crossed from one type to another. -/
inductive Crosses (s : Service) :
    EntityType → List String → List NavigationProperty → EntityType → Prop
  | here {t : EntityType} : Crosses s t [] [] t
  | along {t next last : EntityType} {name : String} {names : List String}
    {navigation : NavigationProperty} {more : List NavigationProperty}
    (hnavigation : IsFirst (·.name = name) t.navigationProperties navigation)
    (hnext : s.HasType navigation.targetType next) (hrest : Crosses s next names more last) :
    Crosses s t (name :: names) (navigation :: more) last

/-- Properties of the names of a list are met one inside the other: the first one is among some
properties, and each of the others among those of the complex type of the one before. -/
inductive Enters (s : Service) : List Property → List String → List Property → Prop
  | last {members : List Property} {name : String} {p : Property}
    (hp : IsFirst (·.name = name) members p) : Enters s members [name] [p]
  | into {members more : List Property} {name : String} {names : List String} {p : Property}
    {type : ComplexType} (hp : IsFirst (·.name = name) members p)
    (htype : IsFirst (·.name = p.typeName) s.complexTypes type)
    (hrest : Enters s type.properties names more) : Enters s members (name :: names) (p :: more)

/-- The path to a property is cut behind its last navigation. -/
structure Splits (s : Service) (t : EntityType) (path : PropertyPath) (target : PropertyTarget)
    (rest : PropertyPath) : Prop where
  /-- The navigation is the start of the path. -/
  text : path = target.navigationPrefix ++ rest
  /-- It consists of whole segments. -/
  segments : Text.split '/' path = target.navigation ++ Text.split '/' rest
  /-- Counting the bytes of its segments, a slash behind each, leads to a place between two
  characters of the path, where the navigation ends. -/
  boundary : String.Pos.Raw.IsValid path ⟨navigationSize target.navigation⟩
  size : navigationSize target.navigation = target.navigationPrefix.utf8ByteSize
  /-- The navigation leads to the type that has the property. -/
  leads : s.entityTypeAt? t target.navigationPrefix = some target.entityType
  /-- From there the rest leads to the same property, without any navigation. -/
  inner : ∃ found, s.property? target.entityType rest = some found ∧
    found.property = target.property ∧ found.entityType = target.entityType ∧
    found.navigationPrefix = ""
  /-- There may be many values if something on the way, or at its end, is a collection. -/
  multiple : ∃ navigations properties,
    s.Crosses t target.navigation navigations target.entityType ∧
    s.Enters target.entityType.properties (Text.split '/' rest) properties ∧
    properties.getLast? = some target.property ∧
    (target.isMultiValue = true ↔
      (∃ n ∈ navigations, n.isCollection = true) ∨ ∃ p ∈ properties, p.isCollection = true)

variable {s : Service} {t u : EntityType}

/-! ### Along the segments -/

theorem isFirst_of_find? {members : List Property} {name : String} {p : Property}
    (h : members.find? (·.name == name) = some p) : IsFirst (·.name = name) members p :=
  (find?_eq_some_iff_isFirst fun _ => beq_iff_eq).1 h

/-- A path inside a complex type meets properties one inside the other. -/
theorem enters_of_complexProperty? {type : ComplexType} {names : List String}
    {found : Property × Bool} (h : s.complexProperty? type names = some found) :
    ∃ properties, s.Enters type.properties names properties ∧
      properties.getLast? = some found.1 ∧ found.2 = properties.any (·.isCollection) := by
  induction names generalizing type found with
  | nil => cases h
  | cons name rest ih =>
    cases rest with
    | nil =>
      obtain ⟨p, hp, rfl⟩ := Option.map_eq_some_iff.1 h
      exact ⟨[p], .last (isFirst_of_find? hp), rfl, (Bool.or_false _).symm⟩
    | cons next rest =>
      simp only [complexProperty?, Option.bind_eq_bind, Option.bind_eq_some_iff] at h
      obtain ⟨host, hhost, inside, hinside, inner, hinner, heq⟩ := h
      obtain rfl := Option.some.inj heq
      obtain ⟨properties, hmet, hlast, hany⟩ := ih hinner
      refine ⟨host :: properties, .into (isFirst_of_find? hhost) ?_ hmet, ?_, ?_⟩
      · exact (find?_eq_some_iff_isFirst fun _ => beq_iff_eq).1 hinside
      · rw [List.getLast?_cons, hlast]
        rfl
      · rw [List.any_cons, ← hany]

/-- What is known of the segments that lead to a property: navigation properties are crossed, and
from the type at their end the rest leads to the same property. -/
structure SegmentsSplit (s : Service) (t : EntityType) (names : List String)
    (found : Property × EntityType × List String × Bool) (rest : List String) : Prop where
  names : names = found.2.2.1 ++ rest
  leads : s.follow? t found.2.2.1 = some found.2.1
  inner : ∃ multiple, s.propertyAt? found.2.1 rest = some (found.1, found.2.1, [], multiple)
  multiple : ∃ navigations properties, s.Crosses t found.2.2.1 navigations found.2.1 ∧
    s.Enters found.2.1.properties rest properties ∧ properties.getLast? = some found.1 ∧
    found.2.2.2 = (navigations.any (·.isCollection) || properties.any (·.isCollection))

/-- A further navigation in front changes nothing behind it. -/
theorem SegmentsSplit.along {name : String} {names rest : List String}
    {navigation : NavigationProperty} {found : Property × EntityType × List String × Bool}
    (h : s.SegmentsSplit u names found rest) (hstep : s.navigation? t name = some (navigation, u)) :
    s.SegmentsSplit t (name :: names)
      (found.1, found.2.1, name :: found.2.2.1, navigation.isCollection || found.2.2.2) rest := by
  obtain ⟨navigations, properties, hcrosses, hmet, hlast, hmultiple⟩ := h.multiple
  obtain ⟨hnavigation, hnext⟩ := navigation?_eq_some_iff.1 hstep
  refine ⟨congrArg (name :: ·) h.names, ?_, h.inner, navigation :: navigations, properties,
    .along hnavigation hnext hcrosses, hmet, hlast, ?_⟩
  · rw [follow?, hstep, Option.bind_eq_bind, Option.bind_some]
    exact h.leads
  · rw [List.any_cons, Bool.or_assoc, ← hmultiple]

/-- **The segments of a path** split behind the last navigation, one segment after the other. -/
theorem exists_segmentsSplit {names : List String}
    {found : Property × EntityType × List String × Bool}
    (h : s.propertyAt? t names = some found) : ∃ rest, s.SegmentsSplit t names found rest := by
  induction names generalizing t found with
  | nil => cases h
  | cons name names ih =>
    cases names with
    | nil =>
      obtain ⟨p, hp, rfl⟩ := Option.map_eq_some_iff.1 h
      exact ⟨[name], rfl, rfl, ⟨_, h⟩, [], [p], .here, .last (isFirst_of_find? hp), rfl,
        (Bool.or_false _).symm⟩
    | cons next names =>
      rw [propertyAt?] at h
      split at h
      · rename_i navigation target hstep
        simp only [Option.bind_eq_bind, Option.bind_eq_some_iff] at h
        obtain ⟨inner, hinner, heq⟩ := h
        obtain rfl := Option.some.inj heq
        obtain ⟨rest, hrest⟩ := ih hinner
        exact ⟨rest, hrest.along hstep⟩
      · -- from here on the path goes through complex properties
        rename_i hstep
        have hwhole := h
        simp only [Option.bind_eq_bind, Option.bind_eq_some_iff] at h
        obtain ⟨host, hhost, type, htype, inner, hinner, heq⟩ := h
        obtain rfl := Option.some.inj heq
        obtain ⟨properties, hmet, hlast, hany⟩ := enters_of_complexProperty? hinner
        refine ⟨name :: next :: names, rfl, rfl, ⟨host.isCollection || inner.2, ?_⟩, [],
          host :: properties, .here, .into (isFirst_of_find? hhost) ?_ hmet, ?_, ?_⟩
        · rw [propertyAt?, hstep]
          · exact hwhole
          · exact List.cons_ne_nil _ _
        · exact (find?_eq_some_iff_isFirst fun _ => beq_iff_eq).1 htype
        · rw [List.getLast?_cons, hlast]
          rfl
        · rw [List.any_cons, ← hany]
          rfl
      · exact List.cons_ne_nil _ _

/-! ### Along the path -/

/-- The navigation properties of a type, and those of all types of a service, have names. -/
def NavigationsNamed (s : Service) (t : EntityType) : Prop :=
  ∀ u ∈ t :: s.entityTypes, ∀ n ∈ u.navigationProperties, n.name ≠ ""

instance (s : Service) (t : EntityType) : Decidable (s.NavigationsNamed t) :=
  inferInstanceAs (Decidable (∀ u ∈ t :: s.entityTypes, ∀ n ∈ u.navigationProperties, n.name ≠ ""))

/-- No segment of a navigation that can be followed is empty. -/
theorem NavigationsNamed.ne_empty (hs : s.NavigationsNamed t) {names : List String}
    (h : s.follow? t names = some u) : ∀ name ∈ names, name ≠ "" := by
  obtain ⟨ht, htypes⟩ := List.forall_mem_cons.1 hs
  cases names with
  | nil => exact nofun
  | cons first names =>
    simp only [follow?, Option.bind_eq_bind, Option.bind_eq_some_iff] at h
    obtain ⟨⟨navigation, target⟩, hstep, h⟩ := h
    obtain ⟨hn, rfl, htarget⟩ := navigation?_eq_some hstep
    exact List.forall_mem_cons.2 ⟨ht navigation hn,
      forall_mem_of_follow? (P := (· ≠ "")) htypes htarget h⟩

/-- Segments that can be followed are followed as a path. -/
theorem entityTypeAt?_navigationText {names : List String}
    (hnames : ∀ name ∈ names, name ≠ "" ∧ '/' ∉ name.toList) :
    s.entityTypeAt? t (navigationText names) = s.follow? t names := by
  rw [entityTypeAt?, Text.segments_navigationText hnames]

/-- **The path to a property** splits behind its last navigation. -/
theorem exists_splits (hs : s.NavigationsNamed t) {path : PropertyPath} {target : PropertyTarget}
    (h : s.property? t path = some target) : ∃ rest, s.Splits t path target rest := by
  obtain ⟨⟨p, host, crossed, multiple⟩, hfound, rfl⟩ := Option.map_eq_some_iff.1 h
  obtain ⟨names, hsplit⟩ := exists_segmentsSplit hfound
  obtain ⟨inside, hinside⟩ := hsplit.inner
  obtain ⟨navigations, properties, hcrosses, hmet, hlast, hmultiple⟩ := hsplit.multiple
  have hpieces : ∀ name ∈ crossed ++ names, '/' ∉ name.toList := fun name hname =>
    Text.not_mem_of_mem_split (hsplit.names ▸ hname)
  obtain ⟨hfront, hrest⟩ := List.forall_mem_append.1 hpieces
  -- the rest of the path is what the segments behind the navigation make up
  have hne : names ≠ [] := by
    rintro rfl
    cases hmet
  have hjoined : Text.split '/' ("/".intercalate names) = names := Text.split_intercalate hne hrest
  have htext : path = navigationText crossed ++ "/".intercalate names := by
    have hslash := Text.navigationText_split path
    rw [hsplit.names, navigationText_append, navigationText_eq_intercalate hne,
      ← String.append_assoc] at hslash
    exact (String.append_left_inj "/").1 hslash.symm
  have hsize := utf8ByteSize_navigationText crossed
  refine ⟨"/".intercalate names, htext, ?_, ?_, hsize.symm, ?_, ?_, ?_⟩
  · rw [hjoined]
    exact hsplit.names
  · rw [String.Pos.Raw.isValid_iff_exists_append]
    exact ⟨_, _, htext, congrArg String.Pos.Raw.mk hsize.symm⟩
  · rw [PropertyTarget.navigationPrefix, entityTypeAt?_navigationText]
    · exact hsplit.leads
    · exact fun name hname => ⟨hs.ne_empty hsplit.leads name hname, hfront name hname⟩
  · rw [property?, hjoined, hinside]
    exact ⟨_, rfl, rfl, rfl, rfl⟩
  · rw [hjoined]
    refine ⟨navigations, properties, hcrosses, hmet, hlast, ?_⟩
    rw [← List.any_eq_true, ← List.any_eq_true, ← Bool.or_eq_true]
    exact iff_of_eq (congrArg (· = true) hmultiple)

/-- **Navigation in front of a path.**  What is found behind a navigation of whole segments is what
is found where it ends. -/
theorem property?_append_slash {navigation : String}
    (hnavigation : ∀ segment ∈ Text.split '/' navigation, segment ≠ "")
    (h : s.entityTypeAt? t navigation = some u) (path : PropertyPath) :
    (s.property? t (navigation ++ "/" ++ path)).map
        (fun target => (target.property, target.entityType, target.navigationPrefix)) =
      (s.property? u path).map fun target =>
        (target.property, target.entityType, navigation ++ "/" ++ target.navigationPrefix) := by
  have hwhole : Text.segments '/' navigation = Text.split '/' navigation :=
    List.filter_eq_self.2 fun segment hsegment => decide_eq_true (hnavigation segment hsegment)
  rw [entityTypeAt?, hwhole] at h
  rw [← Text.navigationText_split]
  exact property?_navigationText (fun _ => Text.not_mem_of_mem_split) h path

/-- **Paths of properties.**  Where navigation properties have names, the path to a property splits
behind its last navigation.  A path behind a navigation of whole segments leads somewhere exactly if
it does from the end of the navigation, to the same property of the same type, with the navigation
in front of what is crossed from there. -/
theorem paths_split (s : Service) (t : EntityType) :
    (s.NavigationsNamed t → ∀ path target, s.property? t path = some target →
      ∃ rest, s.Splits t path target rest) ∧
    ∀ navigation u, (∀ segment ∈ Text.split '/' navigation, segment ≠ "") →
      s.entityTypeAt? t navigation = some u → ∀ path,
        ((s.property? t (navigation ++ "/" ++ path)).isSome = true ↔
          (s.property? u path).isSome = true) ∧
        ∀ target, s.property? u path = some target →
          ∃ outer, s.property? t (navigation ++ "/" ++ path) = some outer ∧
            outer.property = target.property ∧ outer.entityType = target.entityType ∧
            outer.navigationPrefix = navigation ++ "/" ++ target.navigationPrefix := by
  refine ⟨fun hs path target h => exists_splits hs h, fun navigation u hnavigation h path => ?_⟩
  have hsame := property?_append_slash hnavigation h path
  constructor
  · have hfound := congrArg Option.isSome hsame
    rw [Option.isSome_map, Option.isSome_map] at hfound
    rw [hfound]
  · intro target htarget
    rw [htarget, Option.map_some] at hsame
    obtain ⟨outer, houter, heq⟩ := Option.map_eq_some_iff.1 hsame
    obtain ⟨hproperty, heq⟩ := Prod.mk.inj heq
    obtain ⟨htype, hprefix⟩ := Prod.mk.inj heq
    exact ⟨outer, houter, hproperty, htype, hprefix⟩

/-! ### Items of an order -/

/-- The city of a place. -/
def city : Property := { name := "City", typeName := "Edm.String" }

/-- Items, each of which has a place. -/
def item : EntityType where
  name := "shop.Item"
  properties := [{ name := "Place", typeName := "shop.Place" }]

/-- Orders, which have many items. -/
def order : EntityType where
  name := "shop.Order"
  navigationProperties := [{ name := "toItems", targetType := "shop.Item", isCollection := true }]

/-- A service of orders, items and places. -/
def places : Service where
  entityTypes := [order, item]
  complexTypes := [{ name := "shop.Place", properties := [city] }]

/-- An order has many cities, as it has many items: the path to them splits behind the items, and is
found by putting the items in front of the path from one of them. -/
theorem paths_split_places :
    places.NavigationsNamed order ∧
    (∃ target rest, places.property? order "toItems/Place/City" = some target ∧
      places.Splits order "toItems/Place/City" target rest ∧ target.isMultiValue = true) ∧
    (∀ segment ∈ Text.split '/' "toItems", segment ≠ "") ∧
    places.entityTypeAt? order "toItems" = some item ∧
    ∃ target outer, places.property? item "Place/City" = some target ∧
      places.property? order ("toItems" ++ "/" ++ "Place/City") = some outer ∧
      outer.property = target.property ∧ outer.entityType = target.entityType ∧
      outer.navigationPrefix = "toItems" ++ "/" ++ target.navigationPrefix := by
  have hnamed : places.NavigationsNamed order := by decide
  have hsegments : ∀ segment ∈ Text.split '/' "toItems", segment ≠ "" := by decide
  have hleads : places.entityTypeAt? order "toItems" = some item := by cbv
  have hmany : places.property? order "toItems/Place/City" =
      some ⟨city, item, "toItems/Place/City", ["toItems"], true⟩ := by
    cbv
  have hone : places.property? item "Place/City" = some ⟨city, item, "Place/City", [], false⟩ := by
    cbv
  obtain ⟨hsplits, hbehind⟩ := paths_split places order
  obtain ⟨rest, hrest⟩ := hsplits hnamed _ _ hmany
  obtain ⟨outer, houter⟩ := (hbehind "toItems" item hsegments hleads "Place/City").2 _ hone
  exact ⟨hnamed, ⟨_, rest, hmany, hrest, rfl⟩, hsegments, hleads, _, outer, hone, houter⟩

end Service

end TableCompiler
