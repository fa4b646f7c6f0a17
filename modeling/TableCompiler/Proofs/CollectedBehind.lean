import TableCompiler.Proofs.AnnotationPath
import TableCompiler.Proofs.Navigation

/-!
# Dependencies behind a navigation

What is collected for a path behind a navigation is what is collected from the end of the
navigation, with the navigation in front of every path.  So it is with the groups and data points
that a record refers to behind a navigation: their members, the data points among them and all
partners are looked up from the type of the rows, and found as they are from the type that has the
annotation.

* `RelatedProperties.behind`, `Partners.behind` — paths with a navigation in front;
* `RelatedProperties.behind_addShown` and its neighbours — it is put in front before or after;
* `Service.property?_behind`, `Service.partners?_behind`, `Service.annotationAt?_behind` — what is
  found behind a navigation;
* `AnnotationPath.ofText_behind` — a text with a navigation in front of it;
* `Service.entityTypeAt?_navigationPrefix` — the navigation to an annotation leads to its type;
* `Service.collectValue_behind`, `Service.collectMember_behind` — one property, one member of a
  group;
* `Service.collected_behind` — properties and records.
-/

namespace TableCompiler

/-! ### Paths with a navigation in front -/

theorem append_injective (front : String) : Function.Injective (front ++ ·) := by
  intro a b h
  have hchars := congrArg String.toList h
  rw [String.toList_append, String.toList_append] at hchars
  exact String.toList_injective (List.append_cancel_left hchars)

theorem contains_map_append (front : String) (paths : List PropertyPath) (path : PropertyPath) :
    (paths.map (front ++ ·)).contains (front ++ path) = paths.contains path := by
  rw [Bool.eq_iff_iff, List.contains_iff_mem, List.contains_iff_mem]
  exact List.mem_map_of_injective (append_injective front)

theorem addUnique_map_append (front : String) (paths : List PropertyPath) (path : PropertyPath) :
    addUnique (paths.map (front ++ ·)) (front ++ path) =
      (addUnique paths path).map (front ++ ·) := by
  rw [addUnique, addUnique, contains_map_append]
  split
  · rfl
  · rw [List.map_append, List.map_singleton]

namespace Partners

/-- The partners with a navigation in front of their paths. -/
def behind (front : String) (p : Partners) : Partners where
  units := p.units.map (front ++ ·)
  timezone := p.timezone.map (front ++ ·)
  text := p.text.map (front ++ ·)
  arrangement := p.arrangement

variable (front : String) (p : Partners)

theorem isEmpty_behind : (p.behind front).isEmpty = p.isEmpty := by
  rw [isEmpty, isEmpty, behind, List.isEmpty_map, Option.isNone_map, Option.isNone_map]

theorem textOnly?_behind : (p.behind front).textOnly? = p.textOnly?.map (front ++ ·) := by
  rw [textOnly?, textOnly?, behind]
  split <;> rfl

theorem toList_text_behind : (p.behind front).text.toList = p.text.toList.map (front ++ ·) := by
  rw [behind]
  cases p.text <;> rfl

theorem technical_behind : (p.behind front).technical = p.technical.map (front ++ ·) := by
  rw [technical, technical, behind, List.map_append]
  cases p.timezone <;> rfl

end Partners

namespace RelatedProperties

/-- The properties with a navigation in front of their paths. -/
def behind (front : String) (r : RelatedProperties) : RelatedProperties where
  properties := r.properties.map (front ++ ·)
  additional := r.additional.map (front ++ ·)
  textOnly := r.textOnly.map (front ++ ·)
  units := r.units.map (front ++ ·)
  exportTemplate := r.exportTemplate

variable (front : String) (r : RelatedProperties)

theorem behind_addProperty (path : PropertyPath) :
    (r.behind front).addProperty (front ++ path) = (r.addProperty path).behind front := by
  rw [addProperty, addProperty, behind, addUnique_map_append]
  rfl

theorem behind_addAdditional (path : PropertyPath) :
    (r.behind front).addAdditional (front ++ path) = (r.addAdditional path).behind front := by
  rw [addAdditional, addAdditional, behind, contains_map_append]
  split
  · rfl
  · rw [addUnique_map_append]
    rfl

theorem behind_addTextOnly (path : PropertyPath) :
    (r.behind front).addTextOnly (front ++ path) = (r.addTextOnly path).behind front := by
  rw [addTextOnly, behind_addProperty, addTextOnly, behind, behind, addUnique_map_append]
  rfl

/-- What holds of one path holds of several, one after the other. -/
theorem behind_foldl {add : RelatedProperties → PropertyPath → RelatedProperties}
    (h : ∀ r path, add (r.behind front) (front ++ path) = (add r path).behind front)
    (paths : List PropertyPath) :
    (paths.map (front ++ ·)).foldl add (r.behind front) = (paths.foldl add r).behind front := by
  rw [List.foldl_map]
  exact List.foldl_hom (behind front) h

theorem behind_note (p : Partners) :
    (r.behind front).note (p.behind front) = (r.note p).behind front := by
  have hunits : (p.units.map (front ++ ·)).foldl addUnique (r.units.map (front ++ ·)) =
      (p.units.foldl addUnique r.units).map (front ++ ·) := by
    rw [List.foldl_map]
    exact List.foldl_hom (List.map (front ++ ·)) (addUnique_map_append front)
  rw [note, note, behind, Partners.behind, behind, hunits]

theorem behind_addPartners (p : Partners) :
    (r.behind front).addPartners (p.behind front) = (r.addPartners p).behind front := by
  have hloaded := fun r => behind_foldl front r (behind_addAdditional front)
  rw [addPartners, addPartners, p.textOnly?_behind, p.technical_behind, p.toList_text_behind]
  cases p.textOnly? with
  | none =>
    dsimp only [Option.map_none]
    rw [hloaded, hloaded]
  | some text =>
    dsimp only [Option.map_some]
    rw [behind_addTextOnly, hloaded]

theorem behind_addShown (path : PropertyPath) (p : Partners) :
    (r.behind front).addShown (front ++ path) (p.behind front) =
      (r.addShown path p).behind front := by
  have hshown := fun r => behind_foldl front r (behind_addProperty front)
  rw [addShown, addShown, p.textOnly?_behind, p.technical_behind, p.toList_text_behind]
  cases p.textOnly? with
  | none =>
    dsimp only [Option.map_none]
    rw [behind_addProperty, ← List.map_append, hshown]
  | some text =>
    dsimp only [Option.map_some]
    rw [behind_addTextOnly, hshown, behind_addAdditional]

end RelatedProperties

/-! ### Navigations -/

/-- A segment of a navigation: a name without white space and without the characters that stand
between segments and after them. -/
structure IsSegment (name : String) : Prop where
  nonempty : name ≠ ""
  clean : ∀ c ∈ name.toList, c ≠ '/' ∧ c ≠ '@' ∧ Text.isBlank c = false

-- the second part by a test of the characters that are there
instance (name : String) : Decidable (IsSegment name) :=
  decidable_of_iff (name ≠ "" ∧
      name.toList.all (fun c => c ≠ '/' ∧ c ≠ '@' ∧ Text.isBlank c = false) = true) <| by
    simp only [List.all_eq_true, decide_eq_true_iff]
    exact ⟨fun h => ⟨h.1, h.2⟩, fun h => ⟨h.nonempty, h.clean⟩⟩

namespace IsSegment

variable {segments : List String} (hsegments : ∀ segment ∈ segments, IsSegment segment)

include hsegments

theorem not_mem_slash : ∀ segment ∈ segments, '/' ∉ segment.toList :=
  fun segment hsegment hmem => ((hsegments segment hsegment).clean '/' hmem).1 rfl

theorem flatMap_segments : segments.flatMap (Text.segments '/') = segments :=
  Text.flatMap_segments fun segment hsegment =>
    ⟨(hsegments segment hsegment).nonempty, not_mem_slash hsegments segment hsegment⟩

end IsSegment

namespace Service

variable {s : Service} {t u : EntityType} {segments : List String}

theorem follow?_append (h : s.follow? t segments = some u) (rest : List String) :
    s.follow? t (segments ++ rest) = s.follow? u rest := by
  induction segments generalizing t with
  | nil =>
    obtain rfl := Option.some.inj h
    rfl
  | cons segment segments ih =>
    rw [follow?, Option.bind_eq_bind, Option.bind_eq_some_iff] at h
    obtain ⟨⟨navigation, target⟩, hnavigation, hfollow⟩ := h
    rw [List.cons_append, follow?, hnavigation, Option.bind_eq_bind, Option.bind_some]
    exact ih hfollow

/-- The type that has an annotation is the one at the end of the navigation to it, so the members of
a group stand on the type that its navigation leads to. -/
theorem entityTypeAt?_navigationPrefix {path : AnnotationPath} {resolved : ResolvedAnnotation}
    (h : s.annotationAt? t path = some resolved) :
    s.entityTypeAt? t resolved.navigationPrefix = some resolved.entityType := by
  obtain ⟨hhost, -, hnavigation⟩ := annotationAt?_eq_some h
  have hsegments : Text.segments '/' path.navigationPrefix =
      Text.segments '/' path.navigationPath := by
    have happend := Text.segments_navigationText_append path.navigation ""
    rwa [String.append_empty, show Text.segments '/' "" = [] from rfl, List.append_nil,
      ← Text.segments_intercalate] at happend
  rw [hnavigation, entityTypeAt?, hsegments]
  exact hhost

/-! ### What is found -/

/-- The partners of a property at the end of a navigation. -/
def partnersOf (s : Service) (t : EntityType) (p : Property) (navigation : String) : Partners :=
  let text := p.textPath?.bind (s.partnerAt? t navigation)
  { units := (p.currencyPath?.toList ++ p.unitPath?.toList).filterMap (s.partnerAt? t navigation)
    timezone := p.timezonePath?.bind (s.partnerAt? t navigation)
    text := text
    arrangement := text.bind fun _ => p.textArrangement? }

/-- The partners depend on the property and on the way to it. -/
theorem partners?_eq (t : EntityType) (path : PropertyPath) :
    s.partners? t path =
      ((s.property? t path).map fun target => (target.property, target.navigationPrefix)).map
        fun found => s.partnersOf t found.1 found.2 := by
  rw [partners?, Option.map_map]
  rfl

variable (hslash : ∀ segment ∈ segments, '/' ∉ segment.toList)
  (h : s.follow? t segments = some u)

include hslash h

/-- The same property is found behind a navigation, and the way to it is longer. -/
theorem property?_behind (path : PropertyPath) :
    (s.property? t (navigationText segments ++ path)).map
        (fun target => (target.property, target.navigationPrefix)) =
      (s.property? u path).map fun target =>
        (target.property, navigationText segments ++ target.navigationPrefix) := by
  have hfound := congrArg (Option.map fun found : Property × EntityType × String =>
    (found.1, found.2.2)) (property?_navigationText hslash h path)
  rw [Option.map_map, Option.map_map] at hfound
  exact hfound

theorem isSome_property?_behind (path : PropertyPath) :
    (s.property? t (navigationText segments ++ path)).isSome = (s.property? u path).isSome := by
  have hfound := congrArg Option.isSome (property?_behind hslash h path)
  rwa [Option.isSome_map, Option.isSome_map] at hfound

theorem partnerAt?_behind (navigation : String) (partner : PropertyPath) :
    s.partnerAt? t (navigationText segments ++ navigation) partner =
      (s.partnerAt? u navigation partner).map (navigationText segments ++ ·) := by
  rw [partnerAt?, partnerAt?, String.append_assoc, isSome_property?_behind hslash h]
  split <;> rfl

theorem partnersOf_behind (p : Property) (navigation : String) :
    s.partnersOf t p (navigationText segments ++ navigation) =
      (s.partnersOf u p navigation).behind (navigationText segments) := by
  have hresolve : s.partnerAt? t (navigationText segments ++ navigation) =
      fun partner => (s.partnerAt? u navigation partner).map (navigationText segments ++ ·) :=
    funext fun partner => partnerAt?_behind hslash h navigation partner
  rw [partnersOf, partnersOf, Partners.behind, hresolve]
  congr 1
  · exact (List.map_filterMap ..).symm
  · exact (Option.map_bind ..).symm
  · exact (Option.map_bind ..).symm
  · cases p.textPath? with
    | none => rfl
    | some text => exact Option.bind_map ..

/-- The partners of a property behind a navigation lie behind it. -/
theorem partners?_behind (path : PropertyPath) :
    s.partners? t (navigationText segments ++ path) =
      (s.partners? u path).map (·.behind (navigationText segments)) := by
  rw [partners?_eq, partners?_eq, property?_behind hslash h, Option.map_map, Option.map_map,
    Option.map_map]
  exact Option.map_congr fun target _ => partnersOf_behind hslash h _ _

/-! ### What is collected -/

/-- **One property.** -/
theorem collectValue_behind (mode : CollectMode) (path : PropertyPath) (r : RelatedProperties) :
    s.collectValue t mode (navigationText segments ++ path) (r.behind (navigationText segments)) =
      (s.collectValue u mode path r).behind (navigationText segments) := by
  rw [collectValue, collectValue, partners?_behind hslash h]
  cases s.partners? u path with
  | none => rfl
  | some p =>
    dsimp only [Option.map_some]
    rw [RelatedProperties.behind_note, Partners.isEmpty_behind]
    cases mode with
    | property => exact (r.note p).behind_addPartners _ p
    | member => exact (r.note p).behind_addShown _ path p
    | column =>
      dsimp only
      split
      · rfl
      · exact (r.note p).behind_addShown _ path p

theorem collectLoaded_behind (path : PropertyPath) (r : RelatedProperties) :
    s.collectLoaded t (navigationText segments ++ path) (r.behind (navigationText segments)) =
      (s.collectLoaded u path r).behind (navigationText segments) := by
  rw [collectLoaded, collectLoaded, isSome_property?_behind hslash h]
  split
  · exact r.behind_addAdditional _ path
  · rfl

/-- One data point. -/
theorem collectDataPoint_behind (navigation : String) (point : DataPoint) (r : RelatedProperties) :
    s.collectDataPoint t (navigationText segments ++ navigation) point
        (r.behind (navigationText segments)) =
      (s.collectDataPoint u navigation point r).behind (navigationText segments) := by
  rw [collectDataPoint, collectDataPoint, String.append_assoc, collectValue_behind hslash h]
  refine List.foldl_hom (RelatedProperties.behind (navigationText segments)) fun r path => ?_
  rw [String.append_assoc]
  exact collectLoaded_behind hslash h _ r

/-- **One member of a group.**  A data point that it refers to is found from the type of the group,
on whichever way that is reached. -/
theorem collectMember_behind (host : EntityType) (navigation : String) (member : DataField)
    (r : RelatedProperties) :
    s.collectMember t host (navigationText segments ++ navigation) member
        (r.behind (navigationText segments)) =
      (s.collectMember u host navigation member r).behind (navigationText segments) := by
  cases member with
  | value field =>
    rw [collectMember, collectMember, String.append_assoc]
    exact collectValue_behind hslash h .member _ r
  | reference field =>
    rw [collectMember, collectMember]
    split
    · rfl
    · split
      · rw [String.append_assoc]
        exact collectDataPoint_behind hslash h _ _ r
      · rfl
  | action field => rfl
  | intent field => rfl
  | unknown => rfl

/-- One group or data point. -/
theorem collectTarget_behind (resolved : ResolvedAnnotation) :
    s.collectTarget t { resolved with
        navigationPrefix := navigationText segments ++ resolved.navigationPrefix } =
      (s.collectTarget u resolved).behind (navigationText segments) := by
  obtain ⟨target, host, navigation⟩ := resolved
  cases target with
  | fieldGroup group =>
    have hrun (r : RelatedProperties) : group.data.foldl
          (fun r member => s.collectMember t host (navigationText segments ++ navigation) member r)
          (r.behind (navigationText segments)) =
        (group.data.foldl (fun r member => s.collectMember u host navigation member r) r).behind
          (navigationText segments) :=
      List.foldl_hom (RelatedProperties.behind (navigationText segments)) fun r member =>
        collectMember_behind hslash h host navigation member r
    exact hrun {}
  | dataPoint point => exact collectDataPoint_behind hslash h navigation point {}
  | lineItem records => rfl
  | presentationVariant variant => rfl

omit hslash h in
/-- A record that refers to nothing depends on nothing. -/
theorem collectField_reference (s : Service) (t : EntityType) (field : ReferenceField) :
    s.collectField t (.reference field) =
      match (AnnotationPath.ofText field.target).toOption.bind (s.annotationAt? t) with
      | some resolved => s.collectTarget t resolved
      | none => {} := by
  rw [collectField]
  cases AnnotationPath.ofText field.target with
  | error fault => rfl
  | ok path => rfl

end Service

/-! ### Paths of annotations -/

section Annotations

variable {s : Service} {t u : EntityType} {segments : List String}
  (hsegments : ∀ segment ∈ segments, IsSegment segment)

include hsegments

theorem IsSegment.segments_navigationText (rest : String) :
    Text.segments '/' (navigationText segments ++ rest) = segments ++ Text.segments '/' rest := by
  rw [Text.segments_navigationText_append, flatMap_segments hsegments]

/-- Nothing of a navigation in front of a text is trimmed, if the text begins with a character other
than white space. -/
theorem IsSegment.trim_navigationText {text : String}
    (htext : ∃ c ∈ text.toList.head?, Text.isBlank c = false) :
    Text.trim (navigationText segments ++ text) = navigationText segments ++ Text.trim text := by
  obtain ⟨c, hc, hfirst⟩ := htext
  obtain ⟨rest, hrest⟩ := List.head?_eq_some_iff.1 hc
  refine String.toList_injective ?_
  rw [Text.trim, Text.trim, String.toList_ofList, String.toList_append, String.toList_append,
    String.toList_ofList, hrest]
  by_cases hnil : (navigationText segments).toList = []
  · rw [hnil, List.nil_append, List.nil_append]
  · have hfirm : Text.IsFirm (navigationText segments).toList :=
      .of_forall hnil (forall_mem_navigationText (by decide) fun segment hsegment c hc =>
        ((hsegments segment hsegment).clean c hc).2.2)
    exact hfirm.trimChars_append hfirst rest

/-- **A navigation in front of the text of a path** is in front of that of the path, and a text that
is no path does not become one. -/
theorem AnnotationPath.ofText_behind {text : String}
    (htext : ∃ c ∈ text.toList.head?, Text.isBlank c = false) :
    (AnnotationPath.ofText (navigationText segments ++ text)).toOption =
      (AnnotationPath.ofText text).toOption.map fun path =>
        { path with navigation := segments ++ path.navigation } := by
  have hmarker : '@' ∉ (navigationText segments).toList := fun hmem =>
    forall_mem_navigationText (P := (· ≠ '@')) (by decide)
      (fun segment hsegment c hc => ((hsegments segment hsegment).clean c hc).2.1) '@' hmem rfl
  rw [ofText, ofText, IsSegment.trim_navigationText hsegments htext, Text.cut?, Text.cut?,
    String.toList_append, Text.cutChars?_append hmarker]
  cases Text.cutChars? '@' (Text.trim text).toList with
  | none => rfl
  | some sides =>
    obtain ⟨navigation, marked⟩ := sides
    dsimp only [Option.map_some]
    cases ofMarked (String.ofList marked) with
    | error fault => rfl
    | ok parts =>
      dsimp only
      rw [String.ofList_append, String.ofList_toList,
        IsSegment.segments_navigationText hsegments]
      rfl

variable (h : s.follow? t segments = some u)

include h

/-- The same annotation is found behind a navigation. -/
theorem Service.annotationAt?_behind (path : AnnotationPath) :
    s.annotationAt? t { path with navigation := segments ++ path.navigation } =
      (s.annotationAt? u path).map fun resolved => { resolved with
        navigationPrefix := navigationText segments ++ resolved.navigationPrefix } := by
  have hprefix : ({ path with navigation := segments ++ path.navigation } :
      AnnotationPath).navigationPrefix = navigationText segments ++ path.navigationPrefix :=
    navigationText_append segments path.navigation
  have hhost : s.entityTypeAt? t ({ path with navigation := segments ++ path.navigation } :
      AnnotationPath).navigationPath = s.entityTypeAt? u path.navigationPath := by
    rw [entityTypeAt?, entityTypeAt?, AnnotationPath.navigationPath, AnnotationPath.navigationPath,
      Text.segments_intercalate, Text.segments_intercalate, List.flatMap_append,
      IsSegment.flatMap_segments hsegments, follow?_append h]
  simp only [annotationAt?, hhost, hprefix, Option.bind_eq_bind]
  cases s.entityTypeAt? u path.navigationPath with
  | none => rfl
  | some host =>
    show (host.annotations.target? path.term path.qualifierKey).bind _ =
      ((host.annotations.target? path.term path.qualifierKey).bind _).map _
    cases host.annotations.target? path.term path.qualifierKey <;> rfl

end Annotations

namespace Service

/-- **Dependencies behind a navigation.**  Those of a property are the dependencies that the
property has at the end of the navigation, with the navigation in front of every path; and so are
those of a record that refers to a group or data point, or to anything else. -/
theorem collected_behind {s : Service} {t u : EntityType} {segments : List String}
    (hsegments : ∀ segment ∈ segments, IsSegment segment) (h : s.follow? t segments = some u) :
    (∀ (path : PropertyPath) (mode : CollectMode),
      s.collectProperty t (navigationText segments ++ path) mode =
        (s.collectProperty u path mode).behind (navigationText segments)) ∧
    ∀ field : ReferenceField, (∃ c ∈ field.target.toList.head?, Text.isBlank c = false) →
      s.collectField t (.reference
          { field with target := navigationText segments ++ field.target }) =
        (s.collectField u (.reference field)).behind (navigationText segments) := by
  have hslash := IsSegment.not_mem_slash hsegments
  refine ⟨fun path mode => collectValue_behind hslash h mode path {}, fun field htext => ?_⟩
  rw [collectField_reference, collectField_reference,
    AnnotationPath.ofText_behind hsegments htext]
  cases (AnnotationPath.ofText field.target).toOption with
  | none => rfl
  | some path =>
    rw [Option.map_some, Option.bind_some, Option.bind_some, annotationAt?_behind hsegments h]
    cases s.annotationAt? u path with
    | none => rfl
    | some resolved => exact collectTarget_behind hslash h resolved

end Service

/-! ### Offers and their sellers -/

/-- Offers have sellers, and these are in regions. -/
def EntityType.offer : EntityType where
  name := "shop.Offer"
  navigationProperties := [{ name := "Seller", targetType := "shop.Seller" }]

/-- A seller is shown with a text and with the risk of the region. -/
def EntityType.seller : EntityType where
  name := "shop.Seller"
  properties := [
    { name := "ID", typeName := "Edm.String"
      annotations := { text := some "Name", textArrangement := some .textOnly } },
    { name := "Name", typeName := "Edm.String" }]
  navigationProperties := [{ name := "Region", targetType := "shop.Region" }]
  annotations := { fieldGroups := .ofList [("Main", {
    label := none
    data := [.value ⟨.plain, "ID", none, {}⟩,
      .reference ⟨none, "Region/@UI.DataPoint#Risk", {}⟩] })] }

/-- The risk of a region has a unit. -/
def EntityType.region : EntityType where
  name := "shop.Region"
  properties := [
    { name := "Risk", typeName := "Edm.Decimal", annotations := { unit := some (.path "Scale") } },
    { name := "Scale", typeName := "Edm.String" },
    { name := "Level", typeName := "Edm.Byte" }]
  annotations := { dataPoints := .ofList [("Risk", {
    title := none
    value := "Risk"
    targetValue := none
    criticality := some (.path "Level")
    visualization := none })] }

/-- A service of offers. -/
def Service.offers : Service where
  entityTypes := [.offer, .seller, .region]

/-- What a record of an offer needs that refers to the group of its seller. -/
theorem Service.collected_behind_offers :
    (∀ segment ∈ ["Seller"], IsSegment segment) ∧ offers.follow? .offer ["Seller"] = some .seller ∧
    offers.collectField .offer (.reference ⟨none, "Seller/@UI.FieldGroup#Main", {}⟩) =
      (offers.collectField .seller
        (.reference ⟨none, "@UI.FieldGroup#Main", {}⟩)).behind "Seller/" ∧
    (offers.collectField .seller (.reference ⟨none, "@UI.FieldGroup#Main", {}⟩)).properties =
      ["Name", "Region/Risk", "Region/Scale"] := by
  have hsegments : ∀ segment ∈ ["Seller"], IsSegment segment := by decide
  have hfollow : offers.follow? .offer ["Seller"] = some .seller := rfl
  have htext : ∃ c ∈ "@UI.FieldGroup#Main".toList.head?, Text.isBlank c = false :=
    ⟨'@', rfl, by decide⟩
  exact ⟨hsegments, hfollow,
    (collected_behind hsegments hfollow).2 ⟨none, "@UI.FieldGroup#Main", {}⟩ htext,
    by decide +kernel⟩

end TableCompiler
