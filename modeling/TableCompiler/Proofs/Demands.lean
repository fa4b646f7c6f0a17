import TableCompiler.Proofs.Column.Units

/-!
# What records need

A record asks for values and for properties to be loaded.  A value needs its partners; a member of a
group or of a data point needs itself too, and the value of a record does if it has partners.  All
this and nothing else is shown or loaded in the end, each path once in a list.  So the units are
among what is shown or loaded, although they are noted before, and the texts that stand for values
are shown.

* `Demand.value?`, `Property.partnerPaths`, `Service.HasPartner` — the value that is asked for, and
  the partners of a property;
* `Service.Needs`, `Service.includes_meet` — what a demand needs, and that this is what it adds;
* `Service.Meets`, `Service.meets_foldl` — what is collected for several demands;
* `RelatedProperties.IsOrderly` — lists without repetition, the texts among what is shown;
* `RelatedProperties.IsConsistent`, `Service.collected_consistent` — properties and records.
-/

namespace TableCompiler

/-! ### Values and partners -/

/-- The value that is asked for. -/
def Demand.value? : Demand → Option PropertyPath
  | .value _ path => some path
  | .loaded _ => none

/-- The paths by which a property names its text, its currency, its unit and its time zone. -/
def Property.partnerPaths (p : Property) : List PropertyPath :=
  p.textPath?.toList ++ (p.currencyPath?.toList ++ p.unitPath?.toList ++ p.timezonePath?.toList)

namespace Service

/-- The property at a path names a partner that is found behind the same navigation. -/
def HasPartner (s : Service) (t : EntityType) (path other : PropertyPath) : Prop :=
  ∃ target, s.property? t path = some target ∧
    ∃ partner ∈ target.property.partnerPaths,
      target.navigationPrefix ++ partner = other ∧ s.Finds t other

variable {s : Service} {t : EntityType} {path other : PropertyPath} {p : Partners}

theorem hasPartner_iff (h : s.partners? t path = some p) :
    s.HasPartner t path other ↔ other ∈ p.paths := by
  obtain ⟨target, htarget, rfl⟩ := Option.map_eq_some_iff.1 h
  simp only [HasPartner, htarget, Option.some_inj, exists_eq_left', ← partnerAt?_eq_some_iff,
    Property.partnerPaths, Partners.paths, Partners.technical, List.mem_append,
    List.mem_filterMap, Option.mem_toList, Option.bind_eq_some_iff, or_and_right, exists_or]

/-- A property that is found has partners, be there any or not. -/
theorem finds_iff_partners : s.Finds t path ↔ ∃ p, s.partners? t path = some p := by
  rw [Finds, ← Option.isSome_iff_exists, partners?, Option.isSome_map]

theorem HasPartner.exists_partners (h : s.HasPartner t path other) :
    ∃ p, s.partners? t path = some p ∧ other ∈ p.paths := by
  obtain ⟨target, htarget, -⟩ := id h
  obtain ⟨p, hp⟩ := finds_iff_partners.1 (Option.isSome_iff_exists.2 ⟨target, htarget⟩)
  exact ⟨p, hp, (hasPartner_iff hp).1 h⟩

theorem HasPartner.finds (h : s.HasPartner t path other) : s.Finds t other := by
  obtain ⟨_, _, _, _, _, hfinds⟩ := h
  exact hfinds

/-- The units of a property are partners. -/
theorem MeasuredBy.hasPartner (h : s.MeasuredBy t path other) : s.HasPartner t path other := by
  obtain ⟨target, partner, htarget, hpartner, hpath, hfinds⟩ := h
  refine ⟨target, htarget, partner, ?_, hpath, hfinds⟩
  simp only [Property.partnerPaths, List.mem_append, Option.mem_toList]
  exact .inr (.inl hpartner)

/-! ### What demands need -/

/-- What a demand needs, if it is found. -/
inductive Needs (s : Service) (t : EntityType) : Demand → PropertyPath → Prop
  | partner {mode : CollectMode} {path other : PropertyPath} (h : s.HasPartner t path other) :
      Needs s t (.value mode path) other
  /-- The value of a record is there with its partners. -/
  | column {path other : PropertyPath} (h : s.HasPartner t path other) :
      Needs s t (.value .column path) path
  /-- The value of a member is there in any case. -/
  | member {path : PropertyPath} (h : s.Finds t path) : Needs s t (.value .member path) path
  | loaded {path : PropertyPath} (h : s.Finds t path) : Needs s t (.loaded path) path

theorem Needs.finds {demand : Demand} (h : s.Needs t demand other) : s.Finds t other := by
  cases h with
  | partner h => exact h.finds
  | column h =>
    obtain ⟨p, hp, -⟩ := h.exists_partners
    exact finds_iff_partners.2 ⟨p, hp⟩
  | member h => exact h
  | loaded h => exact h

theorem needs_property_iff :
    s.Needs t (.value .property path) other ↔ s.HasPartner t path other := by
  refine ⟨fun h => ?_, .partner⟩
  cases h with
  | partner h => exact h

theorem needs_member_iff :
    s.Needs t (.value .member path) other ↔
      other = path ∧ s.Finds t path ∨ s.HasPartner t path other := by
  constructor
  · intro h
    cases h with
    | partner h => exact .inr h
    | member h => exact .inl ⟨rfl, h⟩
  · rintro (⟨rfl, h⟩ | h)
    · exact .member h
    · exact .partner h

theorem needs_column_iff :
    s.Needs t (.value .column path) other ↔
      other = path ∧ (∃ partner, s.HasPartner t path partner) ∨ s.HasPartner t path other := by
  constructor
  · intro h
    cases h with
    | partner h => exact .inr h
    | column h => exact .inl ⟨rfl, _, h⟩
  · rintro (⟨rfl, partner, h⟩ | h)
    · exact .column h
    · exact .partner h

theorem needs_loaded_iff : s.Needs t (.loaded path) other ↔ other = path ∧ s.Finds t path := by
  constructor
  · rintro ⟨⟩
    exact ⟨rfl, ‹_›⟩
  · rintro ⟨rfl, h⟩
    exact .loaded h

/-- **One value.**  However it is treated, just what it needs is shown or loaded. -/
theorem includes_collectValue {mode : CollectMode} {r : RelatedProperties} :
    (s.collectValue t mode path r).Includes other ↔
      r.Includes other ∨ s.Needs t (.value mode path) other := by
  rw [collectValue]
  cases hp : s.partners? t path with
  | none =>
    -- whatever is needed rests on a property at the path
    have hnot : ¬ ∃ p, s.partners? t path = some p := by simp [hp]
    refine (or_iff_left fun hneeds => hnot ?_).symm
    cases hneeds with
    | partner h => exact h.exists_partners.imp fun _ h => h.1
    | column h => exact h.exists_partners.imp fun _ h => h.1
    | member h => exact finds_iff_partners.1 h
  | some p =>
    have hfinds : s.Finds t path := finds_iff_partners.2 ⟨p, hp⟩
    have hnoted : (r.note p).Includes other ↔ r.Includes other := .rfl
    cases mode with
    | property =>
      rw [RelatedProperties.includes_addPartners, needs_property_iff, hasPartner_iff hp, hnoted]
    | member =>
      rw [RelatedProperties.includes_addShown, needs_member_iff, hasPartner_iff hp, hnoted,
        and_iff_left hfinds]
    | column =>
      simp only [needs_column_iff, hasPartner_iff hp]
      split
      · -- it stands alone: nothing is added, and nothing is needed
        rename_i hempty
        rw [Partners.isEmpty_iff] at hempty
        simp only [hempty, List.not_mem_nil, exists_false, and_false, or_false, hnoted]
      · rename_i hsome
        rw [Partners.isEmpty_iff] at hsome
        rw [RelatedProperties.includes_addShown, hnoted,
          and_iff_left (List.exists_mem_of_ne_nil _ hsome)]

/-- **One demand.** -/
theorem includes_meet (r : RelatedProperties) (demand : Demand) :
    (s.meet t r demand).Includes other ↔ r.Includes other ∨ s.Needs t demand other := by
  cases demand with
  | value mode path => exact includes_collectValue
  | loaded path =>
    rw [meet, collectLoaded, needs_loaded_iff]
    split
    · rename_i hfound
      have hfinds : s.Finds t path := hfound
      rw [RelatedProperties.includes_addAdditional, and_iff_left hfinds]
    · rename_i hmissing
      have hnot : ¬ s.Finds t path := hmissing
      rw [iff_false_intro hnot, and_false, or_false]

/-- A property that is loaded changes nothing that its addition does not change. -/
theorem collectLoaded_keeps {γ : Type} {g : RelatedProperties → γ}
    (h : ∀ r path, g (r.addAdditional path) = g r) (r : RelatedProperties) :
    g (s.collectLoaded t path r) = g r := by
  rw [collectLoaded]
  split
  · exact h r path
  · rfl

theorem mem_textOnly_meet (r : RelatedProperties) (demand : Demand) :
    other ∈ (s.meet t r demand).textOnly ↔
      other ∈ r.textOnly ∨ ∃ path ∈ demand.value?, s.ShowsText t path other := by
  cases demand with
  | value mode path =>
    rw [meet, mem_textOnly_collectValue]
    simp [Demand.value?]
  | loaded path =>
    rw [meet, collectLoaded_keeps (g := (·.textOnly)) RelatedProperties.textOnly_addAdditional]
    simp [Demand.value?]

theorem mem_units_meet (r : RelatedProperties) (demand : Demand) :
    other ∈ (s.meet t r demand).units ↔
      other ∈ r.units ∨ ∃ path ∈ demand.value?, s.MeasuredBy t path other := by
  cases demand with
  | value mode path =>
    rw [meet, mem_units_collectValue]
    simp [Demand.value?]
  | loaded path =>
    rw [meet, collectLoaded_keeps (g := (·.units)) RelatedProperties.units_addAdditional]
    simp [Demand.value?]

/-! ### What several demands need -/

/-- What is collected for demands, one after the other: what is shown or loaded, the texts that are
shown in place of a value, and the currencies and units. -/
structure Meets (s : Service) (t : EntityType) (demands : List Demand) (r : RelatedProperties) :
    Prop where
  includes : ∀ path, r.Includes path ↔ ∃ demand ∈ demands, s.Needs t demand path
  textOnly : ∀ text, text ∈ r.textOnly ↔
    ∃ demand ∈ demands, ∃ path ∈ demand.value?, s.ShowsText t path text
  units : ∀ unit, unit ∈ r.units ↔
    ∃ demand ∈ demands, ∃ path ∈ demand.value?, s.MeasuredBy t path unit

/-- **Demand after demand.** -/
theorem meets_foldl (s : Service) (t : EntityType) (demands : List Demand) :
    s.Meets t demands (demands.foldl (s.meet t) {}) where
  includes := by
    intro path
    have hnone : ¬ RelatedProperties.Includes {} path := by simp [RelatedProperties.Includes]
    rw [foldl_gathers (M := (RelatedProperties.Includes · path)) includes_meet]
    exact or_iff_right hnone
  textOnly := by
    intro text
    rw [foldl_gathers (M := (text ∈ RelatedProperties.textOnly ·)) mem_textOnly_meet]
    exact or_iff_right List.not_mem_nil
  units := by
    intro unit
    rw [foldl_gathers (M := (unit ∈ RelatedProperties.units ·)) mem_units_meet]
    exact or_iff_right List.not_mem_nil

end Service

/-! ### Consistent collections -/

namespace RelatedProperties

/-- No list repeats a path, and the texts that are shown in place of a value are shown. -/
structure IsOrderly (r : RelatedProperties) : Prop where
  properties_nodup : r.properties.Nodup
  additional_nodup : r.additional.Nodup
  textOnly_nodup : r.textOnly.Nodup
  units_nodup : r.units.Nodup
  textOnly_subset : r.textOnly ⊆ r.properties

theorem subset_addProperty (r : RelatedProperties) (path : PropertyPath) :
    r.properties ⊆ (r.addProperty path).properties :=
  fun _ h => mem_addUnique.2 (.inl h)

theorem isKept_isOrderly (P : PropertyPath → Prop) : IsKept P IsOrderly where
  empty := ⟨List.nodup_nil, List.nodup_nil, List.nodup_nil, List.nodup_nil, List.nil_subset _⟩
  note := by
    intro r p hr
    have hunits : (r.note p).units.Nodup :=
      List.foldlRecOn _ _ hr.units_nodup fun _ hunits unit _ => nodup_addUnique hunits unit
    exact { hr with units_nodup := hunits }
  addProperty := by
    intro r path _ hr
    exact { hr with
      properties_nodup := nodup_addUnique hr.properties_nodup path
      textOnly_subset := List.Subset.trans hr.textOnly_subset (r.subset_addProperty path) }
  addAdditional := by
    intro r path _ hr
    rw [addAdditional]
    split
    · exact hr
    · exact { hr with additional_nodup := nodup_addUnique hr.additional_nodup path }
  addTextOnly := by
    intro r path _ hr
    refine ⟨nodup_addUnique hr.properties_nodup path, hr.additional_nodup,
      nodup_addUnique hr.textOnly_nodup path, hr.units_nodup, ?_⟩
    intro text htext
    rcases mem_addUnique.1 htext with htext | rfl
    · exact r.subset_addProperty path (hr.textOnly_subset htext)
    · exact mem_addUnique.2 (.inr rfl)

/-- All paths are of a kind and none is there twice in a list, texts in place of a value are shown,
and units are shown or loaded. -/
structure IsConsistent (P : PropertyPath → Prop) (r : RelatedProperties) : Prop
    extends r.IsOrderly where
  properties : ∀ path ∈ r.properties, P path
  additional : ∀ path ∈ r.additional, P path
  textOnly : ∀ path ∈ r.textOnly, P path
  units : ∀ path ∈ r.units, P path
  units_included : ∀ unit ∈ r.units, unit ∈ r.properties ∨ unit ∈ r.additional

end RelatedProperties

namespace Service

variable {s : Service} {t : EntityType} {demands : List Demand} {r : RelatedProperties}

/-- What is needed is found; and units are partners of the values that have them, so they are
needed. -/
theorem Meets.isConsistent (h : s.Meets t demands r) (hr : r.IsOrderly) :
    r.IsConsistent (s.Finds t) := by
  have hfound : ∀ path, r.Includes path → s.Finds t path := by
    intro path hpath
    obtain ⟨demand, -, hneeds⟩ := (h.includes path).1 hpath
    exact hneeds.finds
  have hunits : ∀ unit ∈ r.units, r.Includes unit := by
    intro unit hunit
    obtain ⟨demand, hdemand, path, hpath, hmeasured⟩ := (h.units unit).1 hunit
    refine (h.includes unit).2 ⟨demand, hdemand, ?_⟩
    cases demand with
    | value mode value =>
      obtain rfl := Option.some.inj hpath
      exact .partner hmeasured.hasPartner
    | loaded value => cases hpath
  exact { hr with
    properties := fun path hpath => hfound path (.inl hpath)
    additional := fun path hpath => hfound path (.inr hpath)
    textOnly := fun path hpath => hfound path (.inl (hr.textOnly_subset hpath))
    units := fun unit hunit => hfound unit (hunits unit hunit)
    units_included := hunits }

/-- **Collected dependencies are consistent**, and just what is asked for.  For a property and for a
record, every path in one of the four lists is found and none is there twice; texts in place of a
value are shown; units are shown or loaded.  What is shown or loaded is what the demands need, and
texts and units are those of the values among them. -/
theorem collected_consistent (s : Service) (t : EntityType) :
    (∀ (path : PropertyPath) (mode : CollectMode),
      (s.collectProperty t path mode).IsConsistent (s.Finds t) ∧
        s.Meets t [.value mode path] (s.collectProperty t path mode)) ∧
    ∀ field : DataField,
      (s.collectField t field).IsConsistent (s.Finds t) ∧
        s.Meets t (s.demands t field) (s.collectField t field) := by
  have horderly := RelatedProperties.isKept_isOrderly (s.Finds t)
  constructor
  · intro path mode
    have hmeets : s.Meets t [.value mode path] (s.collectProperty t path mode) :=
      s.meets_foldl t [.value mode path]
    exact ⟨hmeets.isConsistent (horderly.collectProperty path mode), hmeets⟩
  · intro field
    have hmeets : s.Meets t (s.demands t field) (s.collectField t field) := by
      rw [collectField_eq_foldl]
      exact s.meets_foldl t (s.demands t field)
    exact ⟨hmeets.isConsistent (horderly.collectField field), hmeets⟩

end Service

end TableCompiler
