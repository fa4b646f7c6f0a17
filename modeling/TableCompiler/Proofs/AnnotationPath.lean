import TableCompiler.Column.Key
import TableCompiler.Proofs.Service

/-!
# Paths of annotations that are found

* `AnnotationPath.ofText_eq_ok`, `AnnotationPath.ofText_ne_ok` — a text that is read has its
  navigation before the marker;
* `AnnotationPath.segments_navigationPath` — and the navigation is followed as it was read;
* `Service.annotationAt?_eq_some` — what it takes to find an annotation;
* `Service.NamesAvoid.not_mark_prefix` — the second name of a property is no such text.
-/

namespace TableCompiler

namespace AnnotationPath

/-- A text that is read consists of a navigation, a marker and more, but for blanks around it. -/
theorem ofText_eq_ok {text : String} {path : AnnotationPath} (h : ofText text = .ok path) :
    ∃ navigation marked, Text.cutChars? '@' (Text.trimChars text.toList) =
        some (navigation, marked) ∧
      path.navigation = Text.segments '/' (String.ofList navigation) := by
  rw [ofText] at h
  split at h
  · cases h
  · rename_i navigation marked hcut
    split at h
    · cases h
    · obtain rfl := Except.ok.inj h
      obtain ⟨⟨start, rest⟩, hchars, heq⟩ := Option.map_eq_some_iff.1 hcut
      obtain ⟨rfl, -⟩ := Prod.mk.inj heq
      rw [Text.trim, String.toList_ofList] at hchars
      exact ⟨start, rest, hchars, rfl⟩

/-- The navigation that was read is followed segment by segment. -/
theorem segments_navigationPath {text : String} {path : AnnotationPath}
    (h : ofText text = .ok path) : Text.segments '/' path.navigationPath = path.navigation := by
  obtain ⟨navigation, -, -, hnavigation⟩ := ofText_eq_ok h
  rw [navigationPath, Text.segments_intercalate, hnavigation]
  exact Text.flatMap_segments fun _ => Text.of_mem_segments

/-- A text without the marker is no path of an annotation. -/
theorem ofText_ne_ok {text : String} (h : '@' ∉ text.toList) (path : AnnotationPath) :
    ofText text ≠ .ok path := by
  intro hpath
  obtain ⟨navigation, marked, hcut, -⟩ := ofText_eq_ok hpath
  obtain ⟨-, heq⟩ := Text.cutChars?_eq_some_iff.1 hcut
  have hmarker : '@' ∈ Text.trimChars text.toList := by
    rw [heq]
    exact List.mem_append_right _ List.mem_cons_self
  exact h (Text.mem_of_mem_trimChars hmarker)

end AnnotationPath

namespace Service

variable {s : Service} {t : EntityType}

theorem annotationAt?_eq_some {path : AnnotationPath} {resolved : ResolvedAnnotation}
    (h : s.annotationAt? t path = some resolved) :
    s.entityTypeAt? t path.navigationPath = some resolved.entityType ∧
      resolved.entityType.annotations.target? path.term path.qualifierKey =
        some resolved.target ∧
      resolved.navigationPrefix = path.navigationPrefix := by
  simp only [annotationAt?, Option.bind_eq_bind, Option.bind_eq_some_iff] at h
  obtain ⟨host, hhost, target, htarget, heq⟩ := h
  obtain rfl := Option.some.inj heq
  exact ⟨hhost, htarget, rfl⟩

/-- **No annotation under a second name.**  Where names have no colon, a text that starts like the
second name of a property leads to no annotation. -/
theorem NamesAvoid.not_mark_prefix (hs : s.NamesAvoid ':') (ht : t ∈ s.entityTypes)
    {text : String} {path : AnnotationPath} (hpath : AnnotationPath.ofText text = .ok path)
    {resolved : ResolvedAnnotation} (h : s.annotationAt? t path = some resolved) :
    ¬ propertyMark.toList <+: text.toList := by
  rintro ⟨rest, hrest⟩
  obtain ⟨navigation, marked, hcut, hnavigation⟩ := AnnotationPath.ofText_eq_ok hpath
  -- the mark starts and ends with characters that are no blanks
  have htrim : Text.trimChars text.toList =
      propertyMark.toList ++ Text.dropEndWhile Text.isBlank rest := by
    have hend : Text.dropEndWhile Text.isBlank propertyMark.toList = propertyMark.toList := by
      decide
    have hstart : (propertyMark.toList ++ rest).dropWhile Text.isBlank =
        propertyMark.toList ++ rest := rfl
    rw [← hrest, Text.trimChars, hstart, Text.dropEndWhile_append hend]
  rw [htrim] at hcut
  have hmarked : propertyMark.toList <+: navigation :=
    Text.prefix_of_cutChars? (by decide) hcut
  have hcolon : ':' ∈ navigation := hmarked.subset (by decide)
  obtain ⟨hfollow, -⟩ := annotationAt?_eq_some h
  rw [entityTypeAt?, AnnotationPath.segments_navigationPath hpath, hnavigation] at hfollow
  refine hs.not_mem_navigation (by decide) ht hfollow ?_
  rwa [String.toList_ofList]

end Service

end TableCompiler
