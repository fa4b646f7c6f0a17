import TableCompiler.Proofs.Service

/-!
# What a service leads to

Look-ups by name find the first member of that name, and paths are followed one name after the
other.  The relations here say so without the look-ups themselves.

* `IsFirst` — the first item of a list of a kind;
* `Service.HasSet`, `Service.HasType` — the entity set and the entity type that a name stands for;
* `Service.Leads` — where a navigation ends;
* `Service.HasLineItem` — the records of the line item that a path names;
* `Service.Arrives` — the entity set behind the bindings, as far as they exist.
-/

namespace TableCompiler

/-! ### First items -/

/-- An item is the first one of a kind. -/
def IsFirst {α : Type} (P : α → Prop) (items : List α) (a : α) : Prop :=
  ∃ front back, items = front ++ a :: back ∧ P a ∧ ∀ other ∈ front, ¬ P other

section Find

variable {α : Type} {P : α → Prop} {p : α → Bool} {items : List α}

theorem find?_eq_some_iff_isFirst (h : ∀ a, p a = true ↔ P a) {a : α} :
    items.find? p = some a ↔ IsFirst P items a := by
  rw [List.find?_eq_some_iff_append, h]
  constructor
  · rintro ⟨ha, front, back, hitems, hfront⟩
    refine ⟨front, back, hitems, ha, fun other hother hP => ?_⟩
    have hnot := hfront other hother
    rw [(h other).2 hP] at hnot
    cases hnot
  · rintro ⟨front, back, hitems, ha, hfront⟩
    refine ⟨ha, front, back, hitems, fun other hother => ?_⟩
    rw [Bool.not_eq_true', Bool.eq_false_iff, Ne, h]
    exact hfront other hother

theorem find?_eq_none_iff_forall (h : ∀ a, p a = true ↔ P a) :
    items.find? p = none ↔ ∀ a ∈ items, ¬ P a := by
  rw [List.find?_eq_none]
  simp only [h]

end Find

namespace Service

variable {s : Service}

/-! ### Names -/

/-- A name stands for an entity set. -/
def HasSet (s : Service) (name : String) (set : EntitySet) : Prop :=
  IsFirst (·.name = name) s.entitySets set

/-- A name, in full or short, stands for an entity type. -/
def HasType (s : Service) (name : String) (t : EntityType) : Prop :=
  IsFirst (fun t => t.name = name ∨ t.shortName = name) s.entityTypes t

theorem entitySet?_eq_some_iff {name : String} {set : EntitySet} :
    s.entitySet? name = some set ↔ s.HasSet name set :=
  find?_eq_some_iff_isFirst fun _ => beq_iff_eq

theorem entitySet?_eq_none_iff {name : String} :
    s.entitySet? name = none ↔ ∀ set ∈ s.entitySets, set.name ≠ name :=
  find?_eq_none_iff_forall fun _ => beq_iff_eq

theorem entityType?_eq_some_iff {name : String} {t : EntityType} :
    s.entityType? name = some t ↔ s.HasType name t :=
  find?_eq_some_iff_isFirst fun _ => by rw [Bool.or_eq_true, beq_iff_eq, beq_iff_eq]

theorem entityType?_eq_none_iff {name : String} :
    s.entityType? name = none ↔ ∀ t ∈ s.entityTypes, ¬ (t.name = name ∨ t.shortName = name) :=
  find?_eq_none_iff_forall fun _ => by rw [Bool.or_eq_true, beq_iff_eq, beq_iff_eq]

/-! ### Navigation -/

/-- Navigation properties of the names of a list lead from one type to another. -/
inductive Leads (s : Service) : EntityType → List String → EntityType → Prop
  | here {t : EntityType} : Leads s t [] t
  | along {t next last : EntityType} {name : String} {rest : List String}
    {navigation : NavigationProperty}
    (hnavigation : IsFirst (·.name = name) t.navigationProperties navigation)
    (hnext : s.HasType navigation.targetType next) (hrest : Leads s next rest last) :
    Leads s t (name :: rest) last

theorem navigation?_eq_some_iff {t next : EntityType} {name : String}
    {navigation : NavigationProperty} :
    s.navigation? t name = some (navigation, next) ↔
      IsFirst (·.name = name) t.navigationProperties navigation ∧
        s.HasType navigation.targetType next := by
  have hfirst : t.navigationProperty? name = some navigation ↔
      IsFirst (·.name = name) t.navigationProperties navigation :=
    find?_eq_some_iff_isFirst fun _ => beq_iff_eq
  rw [← hfirst, ← entityType?_eq_some_iff, Service.navigation?]
  constructor
  · intro h
    simp only [Option.bind_eq_bind, Option.bind_eq_some_iff] at h
    obtain ⟨n, hn, u, hu, heq⟩ := h
    obtain ⟨rfl, rfl⟩ := Prod.mk.inj (Option.some.inj heq)
    exact ⟨hn, hu⟩
  · rintro ⟨hn, hu⟩
    rw [hn]
    show (do let target ← s.entityType? navigation.targetType; some (navigation, target)) = _
    rw [hu]
    rfl

/-- **Navigation** is followed to the type that it leads to. -/
theorem follow?_eq_some_iff {t last : EntityType} {names : List String} :
    s.follow? t names = some last ↔ s.Leads t names last := by
  induction names generalizing t with
  | nil =>
    constructor
    · intro h
      obtain rfl := Option.some.inj h
      exact .here
    · rintro ⟨⟩
      rfl
  | cons name rest ih =>
    simp only [follow?, Option.bind_eq_bind, Option.bind_eq_some_iff]
    constructor
    · rintro ⟨⟨navigation, next⟩, hstep, hrest⟩
      obtain ⟨hnavigation, hnext⟩ := navigation?_eq_some_iff.1 hstep
      exact .along hnavigation hnext (ih.1 hrest)
    · rintro (_ | ⟨hnavigation, hnext, hrest⟩)
      exact ⟨_, navigation?_eq_some_iff.2 ⟨hnavigation, hnext⟩, ih.2 hrest⟩

theorem follow?_eq_none_iff {t : EntityType} {names : List String} :
    s.follow? t names = none ↔ ∀ last, ¬ s.Leads t names last := by
  rw [Option.eq_none_iff_forall_ne_some]
  simp only [Ne, follow?_eq_some_iff]

/-! ### Line items -/

/-- A path names the line item of a type, or of one that it navigates to. -/
def HasLineItem (s : Service) (t : EntityType) (path : AnnotationPath)
    (records : List DataField) : Prop :=
  path.term = .lineItem ∧ ∃ host,
    s.Leads t (Text.segments '/' path.navigationPath) host ∧
    host.annotations.lineItems.get? path.qualifierKey = some records

theorem lineItemAt?_eq_some_iff {t : EntityType} {path : AnnotationPath}
    {records : List DataField} :
    s.lineItemAt? t path = some records ↔ s.HasLineItem t path records := by
  rw [lineItemAt?, HasLineItem]
  by_cases hterm : path.term = .lineItem
  · rw [if_pos hterm]
    simp only [hterm, true_and, annotationAt?, entityTypeAt?, ← follow?_eq_some_iff]
    cases hfollow : s.follow? t (Text.segments '/' path.navigationPath) with
    | none => simp
    | some host =>
      cases hrecords : host.annotations.lineItems.get? path.qualifierKey with
      | none => simp [EntityTypeAnnotations.target?, hrecords]
      | some found => simp [EntityTypeAnnotations.target?, hrecords]
  · rw [if_neg hterm]
    simp only [hterm, false_and, reduceCtorEq]

theorem lineItemAt?_eq_none_iff {t : EntityType} {path : AnnotationPath} :
    s.lineItemAt? t path = none ↔ ∀ records, ¬ s.HasLineItem t path records := by
  rw [Option.eq_none_iff_forall_ne_some]
  simp only [Ne, lineItemAt?_eq_some_iff]

/-! ### Bindings -/

/-- The bindings of navigation properties lead from one entity set to another, as far as they
exist. -/
inductive Arrives (s : Service) : EntitySet → List String → EntitySet → Prop
  | here {set : EntitySet} : Arrives s set [] set
  | stays {set : EntitySet} {name : String} {rest : List String}
    (hunbound : ∀ bound, set.navigationPropertyBindings.get? name = some bound →
      ∀ other ∈ s.entitySets, other.name ≠ bound) : Arrives s set (name :: rest) set
  | along {set next last : EntitySet} {name bound : String} {rest : List String}
    (hbound : set.navigationPropertyBindings.get? name = some bound)
    (hnext : s.HasSet bound next) (hrest : Arrives s next rest last) :
    Arrives s set (name :: rest) last

/-- **Bindings** are followed to the set at which they arrive. -/
theorem lastSet_eq_iff {set last : EntitySet} {names : List String} :
    s.lastSet set names = last ↔ s.Arrives set names last := by
  induction names generalizing set with
  | nil =>
    constructor
    · rintro rfl
      exact .here
    · rintro ⟨⟩
      rfl
  | cons name rest ih =>
    rw [lastSet]
    cases hbound : set.navigationPropertyBindings.get? name with
    | none =>
      constructor
      · rintro rfl
        refine .stays fun bound h => ?_
        cases hbound.symm.trans h
      · rintro (_ | _ | ⟨hother, _, _⟩)
        · rfl
        · cases hbound.symm.trans hother
    | some bound =>
      rw [Option.bind_some]
      cases hnext : s.entitySet? bound with
      | none =>
        have hmissing := entitySet?_eq_none_iff.1 hnext
        constructor
        · rintro rfl
          refine .stays fun other h => ?_
          obtain rfl := Option.some.inj (hbound.symm.trans h)
          exact hmissing
        · rintro (_ | _ | ⟨hother, hset, _⟩)
          · rfl
          · obtain rfl := Option.some.inj (hbound.symm.trans hother)
            cases hnext.symm.trans (entitySet?_eq_some_iff.2 hset)
      | some next =>
        have hset := entitySet?_eq_some_iff.1 hnext
        constructor
        · intro h
          exact .along hbound hset (ih.1 h)
        · rintro (_ | hunbound | ⟨hother, hset', hrest⟩)
          · obtain ⟨front, back, hitems, hname, -⟩ := hset
            refine (hunbound bound hbound next ?_ hname).elim
            rw [hitems]
            exact List.mem_append_right _ List.mem_cons_self
          · obtain rfl := Option.some.inj (hbound.symm.trans hother)
            obtain rfl := Option.some.inj (hnext.symm.trans (entitySet?_eq_some_iff.2 hset'))
            exact ih.2 hrest

end Service

end TableCompiler
