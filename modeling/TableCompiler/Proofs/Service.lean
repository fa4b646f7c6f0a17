import TableCompiler.Proofs.Text
import TableCompiler.Scope

/-!
# Names along the paths of a service

What a path leads to is found segment by segment, so every segment of a path that leads somewhere
is the name of a property or of a navigation property.

* `Service.EveryName`, `Service.NamesAvoid` — names of a kind, names without a character;
* `Service.follow?_mem`, `Context.entityType_mem` — navigation stays within the service;
* `Service.forall_mem_of_follow?`, `Service.EveryName.of_path` — the segments of paths are names;
* `Service.not_mem_of_follow?` — a navigation has no character that its names avoid;
* `Service.NamesAvoid.not_mem_path` — nor has the path of a property.
-/

namespace TableCompiler

namespace Service

/-- Every property and every navigation property that a path can go through has a name of a
kind. -/
structure EveryName (s : Service) (P : String → Prop) : Prop where
  property : ∀ t ∈ s.entityTypes, ∀ p ∈ t.properties, P p.name
  navigation : ∀ t ∈ s.entityTypes, ∀ n ∈ t.navigationProperties, P n.name
  member : ∀ t ∈ s.complexTypes, ∀ p ∈ t.properties, P p.name

instance (s : Service) (P : String → Prop) [DecidablePred P] : Decidable (s.EveryName P) :=
  decidable_of_iff ((∀ t ∈ s.entityTypes, ∀ p ∈ t.properties, P p.name) ∧
      (∀ t ∈ s.entityTypes, ∀ n ∈ t.navigationProperties, P n.name) ∧
      ∀ t ∈ s.complexTypes, ∀ p ∈ t.properties, P p.name)
    ⟨fun h => ⟨h.1, h.2.1, h.2.2⟩, fun h => ⟨h.property, h.navigation, h.member⟩⟩

/-- No property and no navigation property has a character in its name. -/
def NamesAvoid (s : Service) (c : Char) : Prop := s.EveryName fun name => c ∉ name.toList

instance (s : Service) (c : Char) : Decidable (s.NamesAvoid c) :=
  inferInstanceAs (Decidable (s.EveryName fun name => c ∉ name.toList))

/-! ### What a service has -/

section Members

variable {s : Service} {t u : EntityType}

theorem entityType?_mem {name : String} (h : s.entityType? name = some t) : t ∈ s.entityTypes :=
  List.mem_of_find?_eq_some h

theorem complexType?_mem {name : String} {t : ComplexType} (h : s.complexType? name = some t) :
    t ∈ s.complexTypes :=
  List.mem_of_find?_eq_some h

theorem navigation?_eq_some {name : String} {n : NavigationProperty}
    (h : s.navigation? t name = some (n, u)) :
    n ∈ t.navigationProperties ∧ n.name = name ∧ u ∈ s.entityTypes := by
  simp only [navigation?, Option.bind_eq_bind, Option.bind_eq_some_iff] at h
  obtain ⟨n', hn, u', hu, heq⟩ := h
  obtain ⟨rfl, rfl⟩ := Prod.mk.inj (Option.some.inj heq)
  exact ⟨List.mem_of_find?_eq_some hn, by simpa using List.find?_some hn, entityType?_mem hu⟩

/-- Navigation leads to types of the service. -/
theorem follow?_mem {segments : List String} (ht : t ∈ s.entityTypes)
    (h : s.follow? t segments = some u) : u ∈ s.entityTypes := by
  induction segments generalizing t with
  | nil =>
    obtain rfl := Option.some.inj h
    exact ht
  | cons segment rest ih =>
    simp only [follow?, Option.bind_eq_bind, Option.bind_eq_some_iff] at h
    obtain ⟨⟨n, target⟩, hn, h⟩ := h
    exact ih (navigation?_eq_some hn).2.2 h

/-- Every segment of a navigation is the name of a navigation property. -/
theorem forall_mem_of_follow? {P : String → Prop}
    (hnames : ∀ t ∈ s.entityTypes, ∀ n ∈ t.navigationProperties, P n.name)
    (ht : t ∈ s.entityTypes) {segments : List String} (h : s.follow? t segments = some u) :
    ∀ segment ∈ segments, P segment := by
  induction segments generalizing t with
  | nil => exact fun segment hsegment => (List.not_mem_nil hsegment).elim
  | cons segment rest ih =>
    simp only [follow?, Option.bind_eq_bind, Option.bind_eq_some_iff] at h
    obtain ⟨⟨n, target⟩, hnavigation, h⟩ := h
    obtain ⟨hn, hname, htarget⟩ := navigation?_eq_some hnavigation
    exact List.forall_mem_cons.2 ⟨hname ▸ hnames t ht n hn, ih htarget h⟩

/-- A navigation that can be followed has no character that the names of navigation properties
avoid, except slashes. -/
theorem not_mem_of_follow? {c : Char}
    (hnames : ∀ t ∈ s.entityTypes, ∀ n ∈ t.navigationProperties, c ∉ n.name.toList)
    (hslash : c ≠ '/') (ht : t ∈ s.entityTypes) {navigation : String}
    (h : s.follow? t (Text.segments '/' navigation) = some u) : c ∉ navigation.toList := by
  intro hmem
  rcases Text.eq_or_mem_split '/' hmem with heq | ⟨segment, hsegment, hc⟩
  · exact hslash heq
  · have hne : segment ≠ "" := by
      rintro rfl
      exact List.not_mem_nil hc
    have hkept : segment ∈ Text.segments '/' navigation := by
      rw [Text.segments, List.mem_filter]
      exact ⟨hsegment, decide_eq_true hne⟩
    have havoids : c ∉ segment.toList :=
      forall_mem_of_follow? (P := fun name => c ∉ name.toList) hnames ht h segment hkept
    exact havoids hc

theorem property?_path {path : PropertyPath} {target : PropertyTarget}
    (h : s.property? t path = some target) : target.path = path := by
  obtain ⟨found, -, rfl⟩ := Option.map_eq_some_iff.1 h
  rfl

/-- A property of a type is found by its name, if that is no path. -/
theorem property?_of_mem {p : Property} (hslash : '/' ∉ p.name.toList) (hp : p ∈ t.properties) :
    (s.property? t p.name).isSome := by
  have hfound : (t.property? p.name).isSome := by
    rw [EntityType.property?, List.find?_isSome]
    exact ⟨p, hp, beq_self_eq_true _⟩
  rw [property?, Text.split_of_not_mem hslash, propertyAt?, Option.isSome_map, Option.isSome_map]
  exact hfound

end Members

/-! ### Names along a path -/

namespace EveryName

variable {s : Service} {P : String → Prop} {t : EntityType}

theorem imp {Q : String → Prop} (hs : s.EveryName P) (h : ∀ name, P name → Q name) :
    s.EveryName Q :=
  ⟨fun t ht p hp => h _ (hs.property t ht p hp), fun t ht n hn => h _ (hs.navigation t ht n hn),
    fun t ht p hp => h _ (hs.member t ht p hp)⟩

theorem of_member (hs : s.EveryName P) {t : ComplexType} (ht : t ∈ s.complexTypes)
    {name : String} {p : Property} (h : t.property? name = some p) : P name := by
  have hname : p.name = name := by simpa using List.find?_some h
  exact hname ▸ hs.member t ht p (List.mem_of_find?_eq_some h)

theorem of_property (hs : s.EveryName P) (ht : t ∈ s.entityTypes) {name : String}
    {p : Property} (h : t.property? name = some p) : P name := by
  have hname : p.name = name := by simpa using List.find?_some h
  exact hname ▸ hs.property t ht p (List.mem_of_find?_eq_some h)

theorem of_navigation (hs : s.EveryName P) (ht : t ∈ s.entityTypes) {name : String}
    {n : NavigationProperty} {u : EntityType} (h : s.navigation? t name = some (n, u)) :
    P name := by
  obtain ⟨hmem, hname, -⟩ := navigation?_eq_some h
  exact hname ▸ hs.navigation t ht n hmem

theorem of_complexProperty? (hs : s.EveryName P) {t : ComplexType} (ht : t ∈ s.complexTypes)
    {segments : List String} {found : Property × Bool}
    (h : s.complexProperty? t segments = some found) : ∀ segment ∈ segments, P segment := by
  induction segments generalizing t found with
  | nil => cases h
  | cons name rest ih =>
    cases rest with
    | nil =>
      obtain ⟨p, hp, -⟩ := Option.map_eq_some_iff.1 h
      intro segment hsegment
      rw [List.mem_singleton.1 hsegment]
      exact hs.of_member ht hp
    | cons next rest =>
      simp only [complexProperty?, Option.bind_eq_bind, Option.bind_eq_some_iff] at h
      obtain ⟨host, hhost, type, htype, inner, hinner, -⟩ := h
      refine List.forall_mem_cons.2 ⟨hs.of_member ht hhost, ?_⟩
      exact ih (complexType?_mem htype) hinner

theorem of_propertyAt? (hs : s.EveryName P) (ht : t ∈ s.entityTypes) {segments : List String}
    {found : Property × EntityType × List String × Bool}
    (h : s.propertyAt? t segments = some found) : ∀ segment ∈ segments, P segment := by
  induction segments generalizing t found with
  | nil => cases h
  | cons name rest ih =>
    cases rest with
    | nil =>
      obtain ⟨p, hp, -⟩ := Option.map_eq_some_iff.1 h
      intro segment hsegment
      rw [List.mem_singleton.1 hsegment]
      exact hs.of_property ht hp
    | cons next rest =>
      rw [propertyAt?] at h
      refine List.forall_mem_cons.2 ?_
      split at h
      · rename_i n target hn
        simp only [Option.bind_eq_bind, Option.bind_eq_some_iff] at h
        obtain ⟨inner, hinner, -⟩ := h
        exact ⟨hs.of_navigation ht hn, ih (navigation?_eq_some hn).2.2 hinner⟩
      · simp only [Option.bind_eq_bind, Option.bind_eq_some_iff] at h
        obtain ⟨host, hhost, type, htype, inner, hinner, -⟩ := h
        exact ⟨hs.of_property ht hhost, hs.of_complexProperty? (complexType?_mem htype) hinner⟩
      · exact List.cons_ne_nil _ _

/-- **Every segment of the path of a property is a name.** -/
theorem of_path (hs : s.EveryName P) (ht : t ∈ s.entityTypes) {path : PropertyPath}
    {target : PropertyTarget} (h : s.property? t path = some target) :
    ∀ segment ∈ Text.split '/' path, P segment := by
  obtain ⟨found, hfound, -⟩ := Option.map_eq_some_iff.1 h
  exact hs.of_propertyAt? ht hfound

end EveryName

/-! ### Characters of names -/

namespace NamesAvoid

variable {s : Service} {c : Char} {t : EntityType}

/-- The path of a property has no character that names avoid, except slashes. -/
theorem not_mem_path (hs : s.NamesAvoid c) (hslash : c ≠ '/') (ht : t ∈ s.entityTypes)
    {path : PropertyPath} {target : PropertyTarget} (h : s.property? t path = some target) :
    c ∉ path.toList := by
  intro hmem
  rcases Text.eq_or_mem_split '/' hmem with heq | ⟨segment, hsegment, hc⟩
  · exact hslash heq
  · exact EveryName.of_path hs ht h segment hsegment hc

theorem not_mem_navigation (hs : s.NamesAvoid c) (hslash : c ≠ '/') (ht : t ∈ s.entityTypes)
    {navigation : String} {u : EntityType}
    (h : s.follow? t (Text.segments '/' navigation) = some u) : c ∉ navigation.toList :=
  not_mem_of_follow? hs.navigation hslash ht h

end NamesAvoid

end Service

/-! ### The type of the rows -/

/-- The rows of a settled request have a type of the service. -/
theorem Context.entityType_mem {c : Context} {r : TableRequest} {scope : Reported Scope}
    (h : c.resolve r = .ok scope) :
    scope.value.service = c.service ∧ scope.value.entityType ∈ c.service.entityTypes := by
  rw [resolve] at h
  split at h
  · split at h
    · dsimp only at h
      split at h
      · rename_i root hroot _ type htype
        split at h
        · obtain rfl := Except.ok.inj h
          exact ⟨rfl, Service.follow?_mem (Service.entityType?_mem hroot) htype⟩
        · cases h
      · cases h
    · cases h
  · cases h

end TableCompiler
