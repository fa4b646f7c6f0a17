import TableCompiler.Proofs.Navigation

/-!
# Annotation paths read back

A path is written with the alias of the vocabulary and one slash behind each segment, however it was
spelled where it was read.  What is read has no marker in its navigation, no hash in its term and
nothing blank at its end, so the written path is cut at the same places.  Only its start may be
trimmed: a first segment that begins with white space stood behind a slash, and does so no longer.

* `Text.flatten_segments` — no character but the separators is lost among the segments;
* `Text.trimChars_append_of_isFirm` — what stands in front of a firm end is trimmed at its start;
* `AnnotationPath.IsRead`, `AnnotationPath.isRead_of_ofText` — what is known of a path that was
  read;
* `AnnotationPath.IsRead.ofText_text` — what its text is read as;
* `AnnotationPath.written_path_kept` — which paths read back as themselves.
-/

namespace TableCompiler

namespace Text

/-! ### Segments -/

theorem flatten_splitChars (separator : Char) (chars : List Char) :
    (splitChars separator chars).flatten = chars.filter (· ≠ separator) := by
  induction chars with
  | nil => rfl
  | cons c rest ih =>
    by_cases hc : c = separator
    · rw [hc, splitChars_cons_self, List.flatten_cons, List.nil_append, ih,
        List.filter_cons_of_neg (by simp)]
    · obtain ⟨piece, pieces, hrest, hcons⟩ := splitChars_cons_of_ne hc rest
      rw [hrest, List.flatten_cons] at ih
      rw [hcons, List.flatten_cons, List.cons_append, ih,
        List.filter_cons_of_pos (by simpa using hc)]

/-- The segments have the characters of the text other than separators. -/
theorem flatten_segments (separator : Char) (text : String) :
    ((segments separator text).map String.toList).flatten =
      text.toList.filter (· ≠ separator) := by
  rw [← flatten_splitChars, segments, split]
  induction splitChars separator text.toList with
  | nil => rfl
  | cons piece pieces ih =>
    rw [List.map_cons, List.flatten_cons, ← ih]
    by_cases hpiece : String.ofList piece = ""
    · rw [List.filter_cons_of_neg (by simpa using hpiece), String.ofList_eq_empty_iff.1 hpiece,
        List.nil_append]
    · rw [List.filter_cons_of_pos (by simpa using hpiece), List.map_cons, List.flatten_cons,
        String.toList_ofList]

/-! ### Firm ends -/

/-- What stands in front of a firm end is trimmed at its start only. -/
theorem trimChars_append_of_isFirm {rest : List Char} (hrest : IsFirm rest) (start : List Char) :
    trimChars (start ++ rest) = start.dropWhile isBlank ++ rest := by
  obtain ⟨c, hc, hfirst⟩ := hrest.head
  obtain ⟨d, hd, hlast⟩ := hrest.last
  obtain ⟨more, hmore⟩ := List.head?_eq_some_iff.1 hc
  obtain ⟨front, hfront⟩ := List.getLast?_eq_some_iff.1 hd
  have hstart : (start ++ rest).dropWhile isBlank = start.dropWhile isBlank ++ rest := by
    rw [List.dropWhile_append]
    split
    · rename_i hempty
      rw [List.isEmpty_iff.1 hempty, hmore,
        List.dropWhile_cons_of_neg (Bool.eq_false_iff.1 hfirst), List.nil_append]
    · rfl
  rw [trimChars, hstart, dropEndWhile, hfront, ← List.append_assoc, List.reverse_append,
    List.reverse_singleton, List.singleton_append,
    List.dropWhile_cons_of_neg (Bool.eq_false_iff.1 hlast), List.reverse_cons,
    List.reverse_reverse]

/-- A text begins with white space. -/
def BeginsBlank (text : String) : Prop :=
  ∃ c rest, text.toList = c :: rest ∧ isBlank c = true

/-! ### Cuts -/

theorem cutChars?_eq_none_iff {separator : Char} {chars : List Char} :
    cutChars? separator chars = none ↔ separator ∉ chars := by
  induction chars with
  | nil => exact iff_of_true rfl List.not_mem_nil
  | cons c rest ih =>
    rw [cutChars?, List.mem_cons, not_or, ← ih]
    by_cases hc : c = separator
    · rw [if_pos hc]
      exact iff_of_false (Option.some_ne_none _) fun h => h.1 hc.symm
    · rw [if_neg hc, Option.map_eq_none_iff]
      exact (and_iff_right fun h => hc h.symm).symm

theorem cut?_eq_some_iff {separator : Char} {text before after : String} :
    cut? separator text = some (before, after) ↔
      separator ∉ before.toList ∧ text.toList = before.toList ++ separator :: after.toList := by
  rw [← cutChars?_eq_some_iff, cut?, Option.map_eq_some_iff]
  constructor
  · rintro ⟨⟨start, rest⟩, hcut, heq⟩
    obtain ⟨rfl, rfl⟩ := Prod.mk.inj heq
    rw [hcut, String.toList_ofList, String.toList_ofList]
  · intro hcut
    exact ⟨_, hcut, Prod.ext String.ofList_toList String.ofList_toList⟩

theorem cut?_eq_none_iff {separator : Char} {text : String} :
    cut? separator text = none ↔ separator ∉ text.toList := by
  rw [cut?, Option.map_eq_none_iff, cutChars?_eq_none_iff]

end Text

/-! ### Names of terms -/

@[simp] theorem Term.name_ofName (name : String) : (Term.ofName name).name = name := by
  unfold ofName
  -- four terms have a name of their own
  iterate 4
    split
    · rename_i h
      exact h.symm
  rfl

namespace AnnotationPath

/-- The name of a term stands at the end of the text that holds it. -/
theorem exists_append_termName (text : String) : ∃ front, text = front ++ termName text := by
  unfold termName
  split
  · rename_i name h
    exact ⟨vocabulary, Text.stripStart?_eq_some_iff.1 h⟩
  · cases h : Text.stripStart? vocabularyAlias text with
    | none => exact ⟨"", (String.empty_append).symm⟩
    | some name => exact ⟨vocabularyAlias, Text.stripStart?_eq_some_iff.1 h⟩

/-- The alias is taken off once. -/
theorem termName_alias_append (name : String) : termName (vocabularyAlias ++ name) = name := by
  have hfull : Text.stripStart? vocabulary (vocabularyAlias ++ name) = none := by
    rw [Option.eq_none_iff_forall_ne_some]
    intro rest h
    have hlist := congrArg String.toList (Text.stripStart?_eq_some_iff.1 h)
    rw [String.toList_append, String.toList_append] at hlist
    exact absurd (List.cons.inj hlist).1 (by decide)
  have halias : Text.stripStart? vocabularyAlias (vocabularyAlias ++ name) = some name :=
    Text.stripStart?_eq_some_iff.2 rfl
  rw [termName, hfull, halias]
  rfl

/-! ### Paths that were read -/

/-- The qualifier as it stands behind a term, with a hash in front of it. -/
def qualifierText (qualifier : Option String) : String :=
  match qualifier with
  | some qualifier => "#" ++ qualifier
  | none => ""

theorem toList_append_qualifierText_ne_nil {name : String} (h : name ≠ "")
    (qualifier : Option String) : (name ++ qualifierText qualifier).toList ≠ [] := by
  rw [Ne, String.toList_eq_nil_iff, String.append_eq_empty_iff]
  exact fun hboth => h hboth.1

/-- What is known of a path that was read: where its text may be cut, and that it does not end in
white space. -/
structure IsRead (p : AnnotationPath) : Prop where
  segment : ∀ name ∈ p.navigation, name ≠ "" ∧ '/' ∉ name.toList
  unmarked : ∀ name ∈ p.navigation, '@' ∉ name.toList
  term : Term.ofName p.term.name = p.term
  name : p.term.name ≠ ""
  unhashed : '#' ∉ p.term.name.toList
  qualifier : p.qualifier ≠ some ""
  last : ∃ c ∈ (p.term.name ++ qualifierText p.qualifier).toList.getLast?, Text.isBlank c = false

theorem ofTermText_eq_ok {text : String} {given qualifier : Option String} {term : Term}
    (h : ofMarked.ofTermText text given = .ok (term, qualifier)) :
    qualifier = given ∧ Term.ofName term.name = term ∧ term.name ≠ "" ∧
      ∃ front, text = front ++ term.name := by
  rw [ofMarked.ofTermText] at h
  split at h
  · cases h
  · rename_i hname
    obtain ⟨rfl, rfl⟩ := Prod.mk.inj (Except.ok.inj h)
    rw [Term.name_ofName]
    exact ⟨rfl, rfl, hname, exists_append_termName text⟩

/-- What is read behind a marker: a term without a hash, and the qualifier behind the first one. -/
theorem ofMarked_eq_ok {marked : String} {term : Term} {qualifier : Option String}
    (h : ofMarked marked = .ok (term, qualifier)) :
    Term.ofName term.name = term ∧ term.name ≠ "" ∧ '#' ∉ term.name.toList ∧
      qualifier ≠ some "" ∧ ∃ front, marked = front ++ (term.name ++ qualifierText qualifier) := by
  have hunhashed : ∀ {front : String}, '#' ∉ (front ++ term.name).toList →
      '#' ∉ term.name.toList := by
    intro front hnot hmem
    rw [String.toList_append] at hnot
    exact hnot (List.mem_append_right _ hmem)
  rw [ofMarked] at h
  split at h
  · cases h
  · rename_i before after hafter hcut
    obtain ⟨rfl, hterm, hname, front, rfl⟩ := ofTermText_eq_ok h
    obtain ⟨hnot, htext⟩ := Text.cut?_eq_some_iff.1 hcut
    refine ⟨hterm, hname, hunhashed hnot, ?_, front, ?_⟩
    · exact fun heq => hafter (Option.some.inj heq)
    · refine String.toList_injective ?_
      simp only [htext, qualifierText, String.toList_append, List.append_assoc]
      rfl
  · rename_i hcut
    obtain ⟨rfl, hterm, hname, front, rfl⟩ := ofTermText_eq_ok h
    refine ⟨hterm, hname, hunhashed (Text.cut?_eq_none_iff.1 hcut), nofun, front, ?_⟩
    rw [qualifierText, String.append_empty]

/-- **Paths that are read** can be cut where they were, and do not end in white space. -/
theorem isRead_of_ofText {text : String} {p : AnnotationPath} (h : ofText text = .ok p) :
    p.IsRead := by
  rw [ofText] at h
  split at h
  · cases h
  rename_i navigation marked hcut
  split at h
  · cases h
  rename_i term qualifier hmarked
  obtain rfl := Except.ok.inj h
  obtain ⟨hterm, hname, hunhashed, hqualifier, front, rfl⟩ := ofMarked_eq_ok hmarked
  obtain ⟨hunmarked, htrimmed⟩ := Text.cut?_eq_some_iff.1 hcut
  refine ⟨fun _ => Text.of_mem_segments, fun name hname hmem => ?_, hterm, hname, hunhashed,
    hqualifier, ?_⟩
  · -- the characters of a segment are those of the navigation
    have hkept : '@' ∈ ((Text.segments '/' navigation).map String.toList).flatten :=
      List.mem_flatten.2 ⟨_, List.mem_map_of_mem hname, hmem⟩
    rw [Text.flatten_segments] at hkept
    exact hunmarked (List.mem_filter.1 hkept).1
  · rw [Text.trim, String.toList_ofList] at htrimmed
    rcases Text.trimChars_cases text.toList with hempty | hfirm
    · rw [hempty] at htrimmed
      exact absurd htrimmed (List.append_ne_nil_of_right_ne_nil _ (List.cons_ne_nil _ _)).symm
    · obtain ⟨d, hd, hlast⟩ := hfirm.last
      have hne := toList_append_qualifierText_ne_nil hname qualifier
      refine ⟨d, ?_, hlast⟩
      rwa [htrimmed, List.getLast?_append_cons, String.toList_append, ← List.cons_append,
        List.getLast?_append_of_ne_nil _ hne] at hd

namespace IsRead

variable {p : AnnotationPath}

/-! ### Paths that are written -/

theorem not_mem_navigationPrefix (h : p.IsRead) : '@' ∉ p.navigationPrefix.toList := fun hmem =>
  forall_mem_navigationText (P := (· ≠ '@')) (by decide)
    (fun name hname _ hc heq => h.unmarked name hname (heq ▸ hc)) '@' hmem rfl

/-- Behind the marker of a written path stand the term and the qualifier. -/
theorem ofMarked_text (h : p.IsRead) :
    ofMarked (vocabularyAlias ++ (p.term.name ++ qualifierText p.qualifier)) =
      .ok (p.term, p.qualifier) := by
  have hterm : ∀ qualifier, ofMarked.ofTermText (vocabularyAlias ++ p.term.name) qualifier =
      .ok (p.term, qualifier) := by
    intro qualifier
    rw [ofMarked.ofTermText, termName_alias_append, if_neg h.name, h.term]
  have hhash : '#' ∉ (vocabularyAlias ++ p.term.name).toList := by
    rw [String.toList_append, List.mem_append, not_or]
    exact ⟨by decide, h.unhashed⟩
  cases hq : p.qualifier with
  | none =>
    rw [qualifierText, String.append_empty, ofMarked, Text.cut?_eq_none_iff.2 hhash]
    exact hterm none
  | some qualifier =>
    have hcut : Text.cut? '#' (vocabularyAlias ++ (p.term.name ++ qualifierText (some qualifier))) =
        some (vocabularyAlias ++ p.term.name, qualifier) := by
      refine Text.cut?_eq_some_iff.2 ⟨hhash, ?_⟩
      simp only [qualifierText, String.toList_append, List.append_assoc]
      rfl
    rw [ofMarked, hcut]
    split
    · rename_i hempty
      obtain ⟨-, rfl⟩ := Prod.mk.inj (Option.some.inj hempty)
      exact absurd hq h.qualifier
    · rename_i hsome
      obtain ⟨rfl, rfl⟩ := Prod.mk.inj (Option.some.inj hsome)
      exact hterm (some _)
    · rename_i hnone
      cases hnone

/-- **Written paths.**  What a path that was read is read as again: its navigation may lose white
space at the start. -/
theorem ofText_text (h : p.IsRead) :
    ofText p.text = .ok ⟨Text.segments '/'
      (String.ofList (p.navigationPrefix.toList.dropWhile Text.isBlank)), p.term, p.qualifier⟩ := by
  have hne := toList_append_qualifierText_ne_nil h.name p.qualifier
  have hfirm : Text.IsFirm
      ('@' :: (vocabularyAlias ++ (p.term.name ++ qualifierText p.qualifier)).toList) := by
    obtain ⟨d, hd, hlast⟩ := h.last
    refine ⟨⟨'@', rfl, by decide⟩, d, ?_, hlast⟩
    rwa [String.toList_append, ← List.cons_append, List.getLast?_append_of_ne_nil _ hne]
  have htext : p.text.toList = p.navigationPrefix.toList ++
      '@' :: (vocabularyAlias ++ (p.term.name ++ qualifierText p.qualifier)).toList := by
    have hparts : p.text =
        p.navigationPrefix ++ "@UI." ++ p.term.name ++ qualifierText p.qualifier := rfl
    simp only [hparts, String.toList_append, List.append_assoc]
    rfl
  have hcut : Text.cut? '@' (Text.trim p.text) =
      some (String.ofList (p.navigationPrefix.toList.dropWhile Text.isBlank),
        vocabularyAlias ++ (p.term.name ++ qualifierText p.qualifier)) := by
    refine Text.cut?_eq_some_iff.2 ?_
    rw [Text.trim, String.toList_ofList, String.toList_ofList, htext,
      Text.trimChars_append_of_isFirm hfirm]
    exact ⟨fun hmem => h.not_mem_navigationPrefix ((List.dropWhile_sublist _).subset hmem), rfl⟩
  rw [ofText, hcut]
  dsimp only
  rw [h.ofMarked_text]

end IsRead

/-! ### What is trimmed -/

/-- Trimming white space off the start of a text costs segments some of their characters. -/
theorem segments_dropWhile_ne {text : String} {c : Char} {rest : List Char}
    (htext : text.toList = c :: rest) (hblank : Text.isBlank c = true) :
    Text.segments '/' (String.ofList (text.toList.dropWhile Text.isBlank)) ≠
      Text.segments '/' text := by
  intro hsame
  have hslash : c ≠ '/' := by
    rintro rfl
    exact absurd hblank (by decide)
  have hchars := congrArg (fun segments => (segments.map String.toList).flatten) hsame
  rw [Text.flatten_segments, Text.flatten_segments, String.toList_ofList, htext,
    List.dropWhile_cons_of_pos hblank, List.filter_cons_of_pos (by simpa using hslash)] at hchars
  have hsub : (rest.dropWhile Text.isBlank).Sublist rest := List.dropWhile_sublist _
  have hfewer := (hsub.filter (· ≠ '/')).length_le
  rw [hchars, List.length_cons] at hfewer
  omega

/-- A path keeps its navigation when its start is trimmed, unless it begins with white space. -/
theorem IsRead.segments_dropWhile_eq_iff {p : AnnotationPath} (h : p.IsRead) :
    Text.segments '/' (String.ofList (p.navigationPrefix.toList.dropWhile Text.isBlank)) =
        p.navigation ↔
      p.navigation = [] ∨
        ∃ first more, p.navigation = first :: more ∧ ¬ Text.BeginsBlank first := by
  have hkept : Text.segments '/' p.navigationPrefix = p.navigation :=
    Text.segments_navigationText h.segment
  cases hnavigation : p.navigation with
  | nil =>
    rw [navigationPrefix, hnavigation]
    exact iff_of_true rfl (.inl rfl)
  | cons first more =>
    obtain ⟨hfirst, -⟩ := h.segment first (hnavigation ▸ List.mem_cons_self)
    obtain ⟨c, rest, hchars⟩ := List.exists_cons_of_ne_nil (mt String.toList_eq_nil_iff.1 hfirst)
    have hstart : p.navigationPrefix.toList =
        c :: (rest ++ ("/" ++ navigationText more).toList) := by
      rw [navigationPrefix, hnavigation, navigationText, List.map_cons, String.join_cons,
        String.append_assoc, String.toList_append, hchars]
      rfl
    by_cases hblank : Text.isBlank c = true
    · refine iff_of_false ?_ ?_
      · rw [← hnavigation, ← hkept]
        exact segments_dropWhile_ne hstart hblank
      · rintro (hnil | ⟨other, _, heq, hbegins⟩)
        · cases hnil
        · obtain ⟨rfl, -⟩ := List.cons.inj heq
          exact hbegins ⟨c, rest, hchars, hblank⟩
    · refine iff_of_true ?_ (.inr ⟨first, more, rfl, ?_⟩)
      · rw [hstart, List.dropWhile_cons_of_neg hblank, ← hstart, String.ofList_toList, hkept,
          hnavigation]
      · rintro ⟨other, _, heq, hother⟩
        obtain ⟨rfl, -⟩ := List.cons.inj (hchars.symm.trans heq)
        exact hblank hother

/-- **Written paths.**  The text of a path that was read is read again, with the same term and
qualifier; and as the same path exactly if this has no navigation, or begins with a segment that
does not begin with white space. -/
theorem written_path_kept (text : String) (p : AnnotationPath) (h : ofText text = .ok p) :
    (∃ q, ofText p.text = .ok q ∧ q.term = p.term ∧ q.qualifier = p.qualifier) ∧
      (ofText p.text = .ok p ↔
        p.navigation = [] ∨
          ∃ first more, p.navigation = first :: more ∧ ¬ Text.BeginsBlank first) := by
  have hread := isRead_of_ofText h
  refine ⟨⟨_, hread.ofText_text, rfl, rfl⟩, ?_⟩
  obtain ⟨navigation, term, qualifier⟩ := p
  rw [hread.ofText_text, Except.ok.injEq, ← hread.segments_dropWhile_eq_iff, mk.injEq]
  exact and_iff_left ⟨rfl, rfl⟩

/-- Of two paths with redundant slashes and a term that looks like one in the vocabulary, the first
reads back; the second one does not, as it begins with a blank behind a slash. -/
theorem written_path_kept_spaced :
    ∃ p q, ofText " /toItems//_Tax/@com.sap.vocabularies.UI.v1.UI.Chart#a#b " = .ok p ∧
      ofText p.text = .ok p ∧
      ofText "/ toItems/@UI.Chart" = .ok q ∧ ofText q.text ≠ .ok q := by
  have hspaced : ofText " /toItems//_Tax/@com.sap.vocabularies.UI.v1.UI.Chart#a#b " =
      .ok ⟨["toItems", "_Tax"], .other "UI.Chart", some "a#b"⟩ := by
    cbv
  have hblank : ofText "/ toItems/@UI.Chart" = .ok ⟨[" toItems"], .other "Chart", none⟩ := by
    cbv
  refine ⟨_, _, hspaced, (written_path_kept _ _ hspaced).2.2 (.inr ⟨_, _, rfl, ?_⟩), hblank, ?_⟩
  · rintro ⟨c, rest, heq, hc⟩
    obtain ⟨rfl, -⟩ := List.cons.inj heq
    exact absurd hc (by decide)
  · rw [Ne, (written_path_kept _ _ hblank).2]
    rintro (hnil | ⟨first, _, heq, hbegins⟩)
    · cases hnil
    · obtain ⟨rfl, -⟩ := List.cons.inj heq
      exact hbegins ⟨' ', _, rfl, by decide⟩

end AnnotationPath

end TableCompiler
