import TableCompiler.Column.Key
import TableCompiler.Proofs.Text

/-!
# Keys of paths

A key of a bare property is its path with every slash made a pair of colons.  As long as no name
has a character that keys change, the path can be read off the key again; the key of a second name
then is that of a path which starts with the name `Property`.

* `IsClean` — a list without the characters that keys change or bring in;
* `sanitizeChars_injective`, `propertyKey_injective` — clean paths have different keys;
* `propertyAlias_injective`, `propertyKey_propertyAlias_injective` — so have their second names;
* `propertyKey_propertyAlias_ne` — a key of a second name is no key of a path of other names;
* `propertyKey_eq_propertyAlias`, `propertyKey_propertyAlias_ne_of_name` — keys of mere names;
* `DataField.not_mark_prefix_of_key?` — the key of a record is no key of a bare property.
-/

namespace TableCompiler

/-- A list without the characters that keys change, or bring in. -/
structure IsClean (chars : List Char) : Prop where
  colon : ':' ∉ chars
  marker : '@' ∉ chars
  hash : '#' ∉ chars

namespace IsClean

theorem nil : IsClean [] :=
  ⟨List.not_mem_nil, List.not_mem_nil, List.not_mem_nil⟩

theorem slash : IsClean ['/'] :=
  ⟨by decide, by decide, by decide⟩

theorem append {a b : List Char} (ha : IsClean a) (hb : IsClean b) : IsClean (a ++ b) where
  colon := fun h => (List.mem_append.1 h).elim ha.colon hb.colon
  marker := fun h => (List.mem_append.1 h).elim ha.marker hb.marker
  hash := fun h => (List.mem_append.1 h).elim ha.hash hb.hash

end IsClean

theorem IsClean.of_cons {c : Char} {chars : List Char} (h : IsClean (c :: chars)) :
    IsClean chars :=
  ⟨fun hc => h.colon (List.mem_cons_of_mem _ hc), fun hc => h.marker (List.mem_cons_of_mem _ hc),
    fun hc => h.hash (List.mem_cons_of_mem _ hc)⟩

/-! ### Sanitized lists -/

theorem sanitizeChars_append (a b : List Char) :
    sanitizeChars (a ++ b) = sanitizeChars a ++ sanitizeChars b := by
  rw [sanitizeChars, List.filter_append, List.flatMap_append]
  rfl

theorem sanitizeChars_slash (chars : List Char) :
    sanitizeChars ('/' :: chars) = ':' :: ':' :: sanitizeChars chars := rfl

theorem sanitizeChars_cons {c : Char} {chars : List Char} (h : IsClean (c :: chars))
    (hslash : c ≠ '/') : sanitizeChars (c :: chars) = c :: sanitizeChars chars := by
  have hmarker : c ≠ '@' := fun heq => h.marker (heq ▸ List.mem_cons_self)
  have hhash : c ≠ '#' := fun heq => h.hash (heq ▸ List.mem_cons_self)
  rw [sanitizeChars, List.filter_cons_of_pos (by simpa using hmarker), List.flatMap_cons,
    if_neg (not_or.2 ⟨hslash, hhash⟩)]
  rfl

theorem sanitizeChars_ne_nil {c : Char} {chars : List Char} (h : IsClean (c :: chars)) :
    sanitizeChars (c :: chars) ≠ [] := by
  by_cases hslash : c = '/'
  · subst hslash
    rw [sanitizeChars_slash]
    exact List.cons_ne_nil _ _
  · rw [sanitizeChars_cons h hslash]
    exact List.cons_ne_nil _ _

/-- **A clean list is known by its sanitized one.** -/
theorem sanitizeChars_injective {a b : List Char} (ha : IsClean a) (hb : IsClean b)
    (h : sanitizeChars a = sanitizeChars b) : a = b := by
  induction a generalizing b with
  | nil =>
    cases b with
    | nil => rfl
    | cons d b => exact (sanitizeChars_ne_nil hb h.symm).elim
  | cons c a ih =>
    cases b with
    | nil => exact (sanitizeChars_ne_nil ha h).elim
    | cons d b =>
      have hc : c ≠ ':' := fun heq => ha.colon (heq ▸ List.mem_cons_self)
      have hd : d ≠ ':' := fun heq => hb.colon (heq ▸ List.mem_cons_self)
      by_cases hcs : c = '/' <;> by_cases hds : d = '/'
      · subst hcs hds
        rw [sanitizeChars_slash, sanitizeChars_slash] at h
        have hrest := (List.cons.inj (List.cons.inj h).2).2
        rw [ih ha.of_cons hb.of_cons hrest]
      · subst hcs
        rw [sanitizeChars_slash, sanitizeChars_cons hb hds] at h
        exact (hd (List.cons.inj h).1.symm).elim
      · subst hds
        rw [sanitizeChars_slash, sanitizeChars_cons ha hcs] at h
        exact (hc (List.cons.inj h).1).elim
      · rw [sanitizeChars_cons ha hcs, sanitizeChars_cons hb hds] at h
        obtain ⟨rfl, hrest⟩ := List.cons.inj h
        rw [ih ha.of_cons hb.of_cons hrest]

theorem dropSeparators_of_head {chars : List Char} (h : chars.head? ≠ some ':') :
    dropSeparators chars = chars := by
  rw [dropSeparators]
  rintro rest rfl
  exact h rfl

/-- What does not start with a slash starts with no separator. -/
theorem dropSeparators_sanitizeChars {chars : List Char} (h : IsClean chars)
    (hslash : chars.head? ≠ some '/') :
    dropSeparators (sanitizeChars chars) = sanitizeChars chars := by
  cases chars with
  | nil => rfl
  | cons c chars =>
    have hc : c ≠ '/' := fun heq => hslash (congrArg some heq)
    refine dropSeparators_of_head ?_
    rw [sanitizeChars_cons h hc]
    exact fun heq => h.colon (Option.some.inj heq ▸ List.mem_cons_self)

/-! ### Keys of properties -/

/-- A path of clean names of which the first one is not empty. -/
structure IsPlainPath (path : PropertyPath) : Prop where
  clean : IsClean path.toList
  head : path.toList.head? ≠ some '/'

theorem toList_propertyKey {path : PropertyPath} (h : IsPlainPath path) :
    (propertyKey path).toList = propertyMark.toList ++ sanitizeChars path.toList := by
  rw [propertyKey, String.toList_append, sanitize, String.toList_ofList,
    dropSeparators_sanitizeChars h.clean h.head]

theorem toList_propertyAlias (path : PropertyPath) :
    (propertyAlias path).toList = propertyMark.toList ++ path.toList := by
  rw [propertyAlias, String.toList_append]

theorem toList_propertyKey_propertyAlias (path : PropertyPath) :
    (propertyKey (propertyAlias path)).toList =
      propertyMark.toList ++ (propertyMark.toList ++ sanitizeChars path.toList) := by
  have hmark : sanitizeChars propertyMark.toList = propertyMark.toList := by decide
  rw [propertyKey, String.toList_append, sanitize, String.toList_ofList, toList_propertyAlias,
    sanitizeChars_append, hmark, dropSeparators_of_head]
  exact fun heq => absurd (Option.some.inj heq) (by decide)

theorem propertyAlias_injective {a b : PropertyPath} (h : propertyAlias a = propertyAlias b) :
    a = b := by
  have hlist := congrArg String.toList h
  rw [toList_propertyAlias, toList_propertyAlias] at hlist
  exact String.toList_injective (List.append_cancel_left hlist)

theorem propertyKey_injective {a b : PropertyPath} (ha : IsPlainPath a) (hb : IsPlainPath b)
    (h : propertyKey a = propertyKey b) : a = b := by
  have hlist := congrArg String.toList h
  rw [toList_propertyKey ha, toList_propertyKey hb] at hlist
  exact String.toList_injective
    (sanitizeChars_injective ha.clean hb.clean (List.append_cancel_left hlist))

theorem propertyKey_propertyAlias_injective {a b : PropertyPath} (ha : IsPlainPath a)
    (hb : IsPlainPath b) (h : propertyKey (propertyAlias a) = propertyKey (propertyAlias b)) :
    a = b := by
  have hlist := congrArg String.toList h
  rw [toList_propertyKey_propertyAlias, toList_propertyKey_propertyAlias] at hlist
  have hrest := List.append_cancel_left (List.append_cancel_left hlist)
  exact String.toList_injective (sanitizeChars_injective ha.clean hb.clean hrest)

/-- **The only clash.**  A key of a second name is the key of a path only if the path starts with
the name `Property`. -/
theorem propertyKey_propertyAlias_ne {a b : PropertyPath} (ha : IsPlainPath a)
    (hb : IsPlainPath b) (hname : "Property" ∉ Text.split '/' b) :
    propertyKey (propertyAlias a) ≠ propertyKey b := by
  intro h
  have hlist := congrArg String.toList h
  rw [toList_propertyKey_propertyAlias, toList_propertyKey hb] at hlist
  have hclash : sanitizeChars ("Property".toList ++ '/' :: a.toList) =
      sanitizeChars b.toList := by
    rw [sanitizeChars_append, sanitizeChars_slash, ← List.append_cancel_left hlist]
    rfl
  have hclean : IsClean ("Property".toList ++ '/' :: a.toList) := by
    refine ⟨?_, ?_, ?_⟩
    · simpa using ha.clean.colon
    · simpa using ha.clean.marker
    · simpa using ha.clean.hash
  have hb' := sanitizeChars_injective hclean hb.clean hclash
  refine hname ?_
  rw [Text.split, ← hb', Text.splitChars_append (by decide), List.map_cons]
  exact List.mem_cons_self

/-! ### Mere names -/

theorem sanitizeChars_of_name {chars : List Char} (h : IsClean chars) (hslash : '/' ∉ chars) :
    sanitizeChars chars = chars := by
  induction chars with
  | nil => rfl
  | cons c chars ih =>
    rw [List.mem_cons, not_or] at hslash
    rw [sanitizeChars_cons h (fun heq => hslash.1 heq.symm), ih h.of_cons hslash.2]

theorem IsPlainPath.of_name {name : PropertyPath} (h : IsClean name.toList)
    (hslash : '/' ∉ name.toList) : IsPlainPath name :=
  ⟨h, fun hhead => hslash (List.mem_of_head? hhead)⟩

/-- The key of a mere name is its second name. -/
theorem propertyKey_eq_propertyAlias {name : PropertyPath} (h : IsClean name.toList)
    (hslash : '/' ∉ name.toList) : propertyKey name = propertyAlias name := by
  refine String.toList_injective ?_
  rw [toList_propertyKey (.of_name h hslash), toList_propertyAlias,
    sanitizeChars_of_name h hslash]

/-- A key of a second name is no key of a mere name. -/
theorem propertyKey_propertyAlias_ne_of_name {a b : PropertyPath} (h : IsClean b.toList)
    (hslash : '/' ∉ b.toList) : propertyKey (propertyAlias a) ≠ propertyKey b := by
  intro heq
  have hlist := congrArg String.toList heq
  rw [toList_propertyKey_propertyAlias, toList_propertyKey (.of_name h hslash),
    sanitizeChars_of_name h hslash] at hlist
  have hmarked := List.append_cancel_left hlist
  refine h.colon ?_
  rw [← hmarked]
  exact List.mem_append_left _ (by decide)

/-! ### Keys of records -/

namespace DataField

theorem exists_typeName_eq {field : DataField} (h : field ≠ .unknown) :
    ∃ rest, field.typeName = "DataField" ++ rest := by
  cases field with
  | value record =>
    obtain ⟨kind, value, label, annotations⟩ := record
    cases kind with
    | plain => exact ⟨"", rfl⟩
    | withUrl url => exact ⟨"WithUrl", rfl⟩
    | withNavigationPath target => exact ⟨"WithNavigationPath", rfl⟩
    | withAction action => exact ⟨"WithAction", rfl⟩
    | withIntent semanticObject action => exact ⟨"WithIntentBasedNavigation", rfl⟩
  | reference record => exact ⟨"ForAnnotation", rfl⟩
  | action record => exact ⟨"ForAction", rfl⟩
  | intent record => exact ⟨"ForIntentBasedNavigation", rfl⟩
  | unknown => exact (h rfl).elim

/-- The key of a record starts like no key of a bare property. -/
theorem not_mark_prefix_of_key? {field : DataField} {key : String} (h : field.key? = some key) :
    ¬ propertyMark.toList <+: key.toList := by
  have hknown : field ≠ .unknown := by
    rintro rfl
    cases h
  obtain ⟨rest, hname⟩ := exists_typeName_eq hknown
  have hkey : key = "DataField" ++ "::".intercalate (rest :: field.keyParts.map sanitize) := by
    rw [← String.intercalate_cons_append, ← hname]
    cases field with
    | unknown => exact (hknown rfl).elim
    | value record => exact (Option.some.inj h).symm
    | reference record => exact (Option.some.inj h).symm
    | action record => exact (Option.some.inj h).symm
    | intent record => exact (Option.some.inj h).symm
  rintro ⟨more, hmore⟩
  rw [hkey, String.toList_append] at hmore
  exact absurd (List.cons.inj hmore).1 (by decide)

end DataField

end TableCompiler
