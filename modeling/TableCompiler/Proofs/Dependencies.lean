import Mathlib.Data.List.Nodup
import TableCompiler.Dependencies

/-!
# What is collected for a column

Whatever is collected for a column is the path of a property that can be reached from the type of
the rows, and no path is shown twice.  A record is collected demand after demand: each of the values
that it shows, and each of the properties that its data points load.  So what every addition keeps
holds of all that is collected, and what is collected is what the demands add.

* `foldl_keeps`, `foldl_gathers` — what a loop does not change, and what it gathers;
* `nodup_addUnique`, `mem_addUnique` — adding a path to a list without repetition;
* `RelatedProperties.Includes` — what is shown or loaded, and what each addition adds to it;
* `RelatedProperties.IsKept` — what every addition keeps;
* `Service.partners?_found` — partners exist;
* `Demand`, `Service.demands`, `Service.collectField_eq_foldl` — a record as a list of demands;
* `RelatedProperties.IsKept.collectProperty`, `RelatedProperties.IsKept.collectField` — it holds of
  all that is collected;
* `RelatedProperties.IsSound` — paths of a kind, of which none is shown twice;
* `Service.collectProperty_isSound`, `Service.collectField_isSound` — what is collected exists.
-/

namespace TableCompiler

/-! ### Loops and lists without repetition -/

/-- A loop keeps what each of its steps keeps. -/
theorem foldl_keeps {α β γ : Type} {f : β → α → β} {g : β → γ} (h : ∀ b a, g (f b a) = g b)
    (items : List α) (b : β) : g (items.foldl f b) = g b := by
  induction items generalizing b with
  | nil => rfl
  | cons a items ih => rw [List.foldl_cons, ih, h]

/-- A loop gathers what each of its steps adds. -/
theorem foldl_gathers {α β : Type} {f : β → α → β} {M : β → Prop} {P : α → Prop}
    (h : ∀ b a, M (f b a) ↔ M b ∨ P a) (items : List α) (b : β) :
    M (items.foldl f b) ↔ M b ∨ ∃ a ∈ items, P a := by
  induction items generalizing b with
  | nil => simp
  | cons a items ih => rw [List.foldl_cons, ih, h, List.exists_mem_cons_iff, or_assoc]

/-- A loop that adds its items gathers them. -/
theorem foldl_gathers_items {α β : Type} {f : β → α → β} {M : β → α → Prop}
    (h : ∀ b a c, M (f b a) c ↔ M b c ∨ c = a) (items : List α) (b : β) (c : α) :
    M (items.foldl f b) c ↔ M b c ∨ c ∈ items := by
  rw [foldl_gathers (M := fun b => M b c) fun b a => h b a c, exists_eq_right']

theorem nodup_addUnique {paths : List PropertyPath} (h : paths.Nodup) (path : PropertyPath) :
    (addUnique paths path).Nodup := by
  rw [addUnique]
  split
  · exact h
  · rename_i hnot
    rw [← List.concat_eq_append]
    exact h.concat fun hmem => hnot (List.contains_iff_mem.2 hmem)

theorem mem_addUnique {paths : List PropertyPath} {path other : PropertyPath} :
    other ∈ addUnique paths path ↔ other ∈ paths ∨ other = path := by
  rw [addUnique]
  split
  · rename_i h
    rw [List.contains_iff_mem] at h
    constructor
    · exact .inl
    · rintro (hmem | rfl)
      · exact hmem
      · exact h
  · rw [List.mem_append, List.mem_singleton]

/-! ### Partners -/

/-- The partners are all of a kind. -/
structure Partners.Are (P : PropertyPath → Prop) (p : Partners) : Prop where
  technical : ∀ path ∈ p.technical, P path
  text : ∀ path ∈ p.text.toList, P path

namespace Partners

variable {p : Partners} {text : PropertyPath}

/-- The paths of all partners. -/
def paths (p : Partners) : List PropertyPath :=
  p.text.toList ++ p.technical

theorem text_of_textOnly? (h : p.textOnly? = some text) : p.text = some text := by
  rw [textOnly?] at h
  split at h
  · exact h
  · cases h

theorem Are.textOnly {P : PropertyPath → Prop} (hp : p.Are P) (h : p.textOnly? = some text) :
    P text :=
  hp.text text (Option.mem_toList.2 (text_of_textOnly? h))

theorem isEmpty_iff : p.isEmpty = true ↔ p.paths = [] := by
  rw [isEmpty, paths, technical]
  cases p.text <;> cases p.timezone <;> simp

end Partners

/-! ### What is shown or loaded -/

namespace RelatedProperties

/-- A property is shown or loaded. -/
def Includes (r : RelatedProperties) (path : PropertyPath) : Prop :=
  path ∈ r.properties ∨ path ∈ r.additional

section Additions

variable (r : RelatedProperties) (p : Partners) (path other : PropertyPath)

theorem includes_addProperty :
    (r.addProperty path).Includes other ↔ r.Includes other ∨ other = path := by
  rw [Includes, Includes, addProperty, mem_addUnique, or_right_comm]

theorem includes_addAdditional :
    (r.addAdditional path).Includes other ↔ r.Includes other ∨ other = path := by
  rw [addAdditional]
  split
  · rename_i hshown
    refine (or_iff_left_of_imp ?_).symm
    rintro rfl
    exact .inl (List.contains_iff_mem.1 hshown)
  · rw [Includes, Includes, mem_addUnique, or_assoc]

/-- A text in place of a value is shown. -/
theorem includes_addTextOnly :
    (r.addTextOnly path).Includes other ↔ r.Includes other ∨ other = path :=
  r.includes_addProperty path other

theorem includes_foldl_addProperty (paths : List PropertyPath) :
    (paths.foldl addProperty r).Includes other ↔ r.Includes other ∨ other ∈ paths :=
  foldl_gathers_items (M := Includes) includes_addProperty paths r other

theorem includes_foldl_addAdditional (paths : List PropertyPath) :
    (paths.foldl addAdditional r).Includes other ↔ r.Includes other ∨ other ∈ paths :=
  foldl_gathers_items (M := Includes) includes_addAdditional paths r other

/-- A bare property needs its partners. -/
theorem includes_addPartners :
    (r.addPartners p).Includes other ↔ r.Includes other ∨ other ∈ p.paths := by
  rw [addPartners, includes_foldl_addAdditional, Partners.paths, List.mem_append, ← or_assoc]
  refine or_congr_left ?_
  cases htext : p.textOnly? with
  | none => exact r.includes_foldl_addAdditional other p.text.toList
  | some text =>
    dsimp only
    rw [includes_addTextOnly, Partners.text_of_textOnly? htext, Option.toList_some,
      List.mem_singleton]

/-- A value that is shown needs its partners, and itself even if a text stands for it. -/
theorem includes_addShown :
    (r.addShown path p).Includes other ↔ r.Includes other ∨ other = path ∨ other ∈ p.paths := by
  rw [addShown]
  cases htext : p.textOnly? with
  | none =>
    dsimp only
    rw [includes_foldl_addProperty, includes_addProperty, Partners.paths, or_assoc]
  | some text =>
    dsimp only
    rw [includes_addAdditional, includes_foldl_addProperty, includes_addTextOnly, Partners.paths,
      Partners.text_of_textOnly? htext, Option.toList_some, List.singleton_append, List.mem_cons,
      or_assoc, or_assoc, or_comm (a := other = path), or_assoc]

end Additions

/-! ### What every addition keeps -/

/-- A condition that every addition keeps, where what is added is of a kind. -/
structure IsKept (P : PropertyPath → Prop) (M : RelatedProperties → Prop) : Prop where
  empty : M {}
  note : ∀ r p, M r → M (r.note p)
  addProperty : ∀ r path, P path → M r → M (r.addProperty path)
  addAdditional : ∀ r path, P path → M r → M (r.addAdditional path)
  addTextOnly : ∀ r path, P path → M r → M (r.addTextOnly path)

namespace IsKept

variable {P : PropertyPath → Prop} {M : RelatedProperties → Prop} {r : RelatedProperties}
  {p : Partners} {paths : List PropertyPath}

theorem foldl_addProperty (h : IsKept P M) (hr : M r) (hpaths : ∀ path ∈ paths, P path) :
    M (paths.foldl RelatedProperties.addProperty r) :=
  List.foldlRecOn _ _ hr fun r hr path hpath => h.addProperty r path (hpaths path hpath) hr

theorem foldl_addAdditional (h : IsKept P M) (hr : M r) (hpaths : ∀ path ∈ paths, P path) :
    M (paths.foldl RelatedProperties.addAdditional r) :=
  List.foldlRecOn _ _ hr fun r hr path hpath => h.addAdditional r path (hpaths path hpath) hr

theorem addPartners (h : IsKept P M) (hr : M r) (hp : p.Are P) : M (r.addPartners p) := by
  refine h.foldl_addAdditional ?_ hp.technical
  cases htext : p.textOnly? with
  | some text => exact h.addTextOnly r text (hp.textOnly htext) hr
  | none => exact h.foldl_addAdditional hr hp.text

theorem addShown (h : IsKept P M) (hr : M r) (hp : p.Are P) {path : PropertyPath}
    (hpath : P path) : M (r.addShown path p) := by
  rw [RelatedProperties.addShown]
  split
  · rename_i text htext
    have htexts := h.addTextOnly r text (hp.textOnly htext) hr
    exact h.addAdditional _ path hpath (h.foldl_addProperty htexts hp.technical)
  · refine h.foldl_addProperty (h.addProperty r path hpath hr) fun other hother => ?_
    exact (List.mem_append.1 hother).elim (hp.text other) (hp.technical other)

end IsKept

end RelatedProperties

/-! ### What is found -/

namespace Service

variable (s : Service) (t : EntityType)

/-- There is a property at a path. -/
def Finds (path : PropertyPath) : Prop := (s.property? t path).isSome

variable {s t}

theorem partnerAt?_eq_some_iff {navigation : String} {partner path : PropertyPath} :
    s.partnerAt? t navigation partner = some path ↔
      navigation ++ partner = path ∧ s.Finds t path := by
  rw [partnerAt?, Option.ite_none_right_eq_some, Option.some_inj]
  constructor
  · rintro ⟨hfound, rfl⟩
    exact ⟨rfl, hfound⟩
  · rintro ⟨rfl, hfound⟩
    exact ⟨hfound, rfl⟩

/-- Partners exist, and so does the property that has them. -/
theorem partners?_found {path : PropertyPath} {p : Partners} (h : s.partners? t path = some p) :
    s.Finds t path ∧ p.Are (s.Finds t) := by
  obtain ⟨target, htarget, rfl⟩ := Option.map_eq_some_iff.1 h
  refine ⟨Option.isSome_iff_exists.2 ⟨target, htarget⟩, ?_, ?_⟩
  · intro other hother
    rcases List.mem_append.1 hother with hother | hother
    · obtain ⟨partner, -, hfound⟩ := List.mem_filterMap.1 hother
      exact (partnerAt?_eq_some_iff.1 hfound).2
    · obtain ⟨partner, -, hfound⟩ := Option.bind_eq_some_iff.1 (Option.mem_toList.1 hother)
      exact (partnerAt?_eq_some_iff.1 hfound).2
  · intro other hother
    obtain ⟨partner, -, hfound⟩ := Option.bind_eq_some_iff.1 (Option.mem_toList.1 hother)
    exact (partnerAt?_eq_some_iff.1 hfound).2

end Service

/-! ### Demands -/

/-- What is asked for in one go. -/
inductive Demand where
  /-- A value, and how the property that has the partners is itself treated. -/
  | value (mode : CollectMode) (path : PropertyPath)
  /-- A property that is loaded, if there is one. -/
  | loaded (path : PropertyPath)
deriving DecidableEq

/-- A data point behind a navigation asks for its value, and for the properties of its criticality
and target. -/
def DataPoint.demands (point : DataPoint) (navigation : String) : List Demand :=
  .value .member (navigation ++ point.value) ::
    ((point.criticality.bind (·.path?)).toList ++ (point.targetValue.bind (·.path?)).toList).map
      (.loaded <| navigation ++ ·)

namespace Service

/-- What a member of a group on `host` asks for, behind a navigation. -/
def memberDemands (s : Service) (host : EntityType) (navigation : String) :
    DataField → List Demand
  | .value field => [.value .member (navigation ++ field.value)]
  | .reference field =>
    match (AnnotationPath.ofText field.target).toOption.bind (s.annotationAt? host) with
    | some ⟨.dataPoint point, _, further⟩ => point.demands (navigation ++ further)
    | _ => []
  | _ => []

/-- What a record of a line item asks for: its value, or what the members of its group or its data
point do. -/
def demands (s : Service) (t : EntityType) : DataField → List Demand
  | .value field => [.value .column field.value]
  | .reference field =>
    match (AnnotationPath.ofText field.target).toOption.bind (s.annotationAt? t) with
    | some ⟨.fieldGroup group, host, navigation⟩ =>
      group.data.flatMap (s.memberDemands host navigation)
    | some ⟨.dataPoint point, _, navigation⟩ => point.demands navigation
    | _ => []
  | _ => []

/-- Adds what is collected for a demand. -/
def meet (s : Service) (t : EntityType) (r : RelatedProperties) : Demand → RelatedProperties
  | .value mode path => s.collectValue t mode path r
  | .loaded path => s.collectLoaded t path r

variable {s : Service} {t : EntityType}

theorem collectDataPoint_eq_foldl (navigation : String) (point : DataPoint)
    (r : RelatedProperties) :
    s.collectDataPoint t navigation point r = (point.demands navigation).foldl (s.meet t) r := by
  rw [collectDataPoint, DataPoint.demands, List.foldl_cons, List.foldl_map]
  rfl

theorem collectMember_eq_foldl (host : EntityType) (navigation : String) (member : DataField)
    (r : RelatedProperties) :
    s.collectMember t host navigation member r =
      (s.memberDemands host navigation member).foldl (s.meet t) r := by
  cases member with
  | value field => rfl
  | reference field =>
    dsimp only [collectMember, memberDemands]
    cases AnnotationPath.ofText field.target with
    | error fault => rfl
    | ok path =>
      simp only [Except.toOption, Option.bind_some]
      cases s.annotationAt? host path with
      | none => rfl
      | some resolved =>
        obtain ⟨target, _, further⟩ := resolved
        cases target with
        | dataPoint point => exact collectDataPoint_eq_foldl (navigation ++ further) point r
        | fieldGroup group => rfl
        | lineItem records => rfl
        | presentationVariant variant => rfl
  | action field => rfl
  | intent field => rfl
  | unknown => rfl

/-- **A record is collected demand after demand.** -/
theorem collectField_eq_foldl (s : Service) (t : EntityType) (field : DataField) :
    s.collectField t field = (s.demands t field).foldl (s.meet t) {} := by
  cases field with
  | value field => rfl
  | reference field =>
    dsimp only [collectField, demands]
    cases AnnotationPath.ofText field.target with
    | error fault => rfl
    | ok path =>
      simp only [Except.toOption, Option.bind_some]
      cases s.annotationAt? t path with
      | none => rfl
      | some resolved =>
        obtain ⟨target, host, navigation⟩ := resolved
        cases target with
        | fieldGroup group =>
          -- the demands of all members, or those of one member after the other
          dsimp only [collectTarget]
          rw [List.foldl_flatMap]
          congr 1
          funext r member
          exact collectMember_eq_foldl host navigation member r
        | dataPoint point => exact collectDataPoint_eq_foldl navigation point {}
        | lineItem records => rfl
        | presentationVariant variant => rfl
  | action field => rfl
  | intent field => rfl
  | unknown => rfl

end Service

/-! ### All that is collected -/

namespace RelatedProperties.IsKept

variable {s : Service} {t : EntityType} {M : RelatedProperties → Prop}

theorem collectValue (h : IsKept (s.Finds t) M) {r : RelatedProperties} (hr : M r)
    (mode : CollectMode) (path : PropertyPath) : M (s.collectValue t mode path r) := by
  rw [Service.collectValue]
  split
  · exact hr
  · rename_i p hp
    obtain ⟨hpath, hpartners⟩ := Service.partners?_found hp
    have hnoted := h.note r p hr
    cases mode with
    | property => exact h.addPartners hnoted hpartners
    | member => exact h.addShown hnoted hpartners hpath
    | column =>
      dsimp only
      split
      · exact hnoted
      · exact h.addShown hnoted hpartners hpath

theorem collectLoaded (h : IsKept (s.Finds t) M) {r : RelatedProperties} (hr : M r)
    (path : PropertyPath) : M (s.collectLoaded t path r) := by
  rw [Service.collectLoaded]
  split
  · rename_i hfound
    exact h.addAdditional r path hfound hr
  · exact hr

/-- **One demand.** -/
theorem meet (h : IsKept (s.Finds t) M) {r : RelatedProperties} (hr : M r) (demand : Demand) :
    M (s.meet t r demand) := by
  cases demand with
  | value mode path => exact h.collectValue hr mode path
  | loaded path => exact h.collectLoaded hr path

theorem collectProperty (h : IsKept (s.Finds t) M) (path : PropertyPath) (mode : CollectMode) :
    M (s.collectProperty t path mode) :=
  h.collectValue h.empty mode path

/-- **What every addition keeps holds of what is collected for a record.** -/
theorem collectField (h : IsKept (s.Finds t) M) (field : DataField) :
    M (s.collectField t field) := by
  rw [Service.collectField_eq_foldl]
  exact List.foldlRecOn _ _ h.empty fun r hr demand _ => h.meet hr demand

end RelatedProperties.IsKept

/-! ### Sound collections -/

/-- All paths are of a kind, and none is shown twice. -/
structure RelatedProperties.IsSound (P : PropertyPath → Prop) (r : RelatedProperties) : Prop where
  nodup : r.properties.Nodup
  properties : ∀ path ∈ r.properties, P path
  additional : ∀ path ∈ r.additional, P path

namespace RelatedProperties

variable {P : PropertyPath → Prop} {r : RelatedProperties} {path : PropertyPath}

theorem IsSound.addProperty (hr : r.IsSound P) (h : P path) : (r.addProperty path).IsSound P := by
  refine ⟨nodup_addUnique hr.nodup path, ?_, hr.additional⟩
  intro other hother
  rcases mem_addUnique.1 hother with hother | rfl
  · exact hr.properties other hother
  · exact h

theorem IsSound.addAdditional (hr : r.IsSound P) (h : P path) :
    (r.addAdditional path).IsSound P := by
  rw [RelatedProperties.addAdditional]
  split
  · exact hr
  · refine ⟨hr.nodup, hr.properties, ?_⟩
    intro other hother
    rcases mem_addUnique.1 hother with hother | rfl
    · exact hr.additional other hother
    · exact h

theorem isKept_isSound (P : PropertyPath → Prop) : IsKept P (IsSound P) where
  empty := ⟨List.nodup_nil, by simp, by simp⟩
  note := fun _ _ hr => ⟨hr.nodup, hr.properties, hr.additional⟩
  addProperty := fun _ _ hpath hr => hr.addProperty hpath
  addAdditional := fun _ _ hpath hr => hr.addAdditional hpath
  addTextOnly := fun _ _ hpath hr =>
    have hshown := hr.addProperty hpath
    ⟨hshown.nodup, hshown.properties, hshown.additional⟩

end RelatedProperties

/-- **What is collected for a property exists.** -/
theorem Service.collectProperty_isSound (s : Service) (t : EntityType) (path : PropertyPath)
    (mode : CollectMode) : (s.collectProperty t path mode).IsSound (s.Finds t) :=
  (RelatedProperties.isKept_isSound _).collectProperty path mode

/-- **What is collected for a record exists.** -/
theorem Service.collectField_isSound (s : Service) (t : EntityType) (field : DataField) :
    (s.collectField t field).IsSound (s.Finds t) :=
  (RelatedProperties.isKept_isSound _).collectField field

end TableCompiler
