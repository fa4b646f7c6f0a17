import TableCompiler.Proofs.Failure
import TableCompiler.Proofs.LineItem
import TableCompiler.Proofs.Navigation
import TableCompiler.Proofs.PropertyColumns

/-!
# What the id of a table tells

The id of a table is made of the path of its rows, the term `LineItem` and the qualifier of the line
item, with one separator between all of them.  Where names are simple, path and qualifier can be
read off an id with a single exception: the table of the unqualified line item behind a navigation
property `LineItem` has the id of the table in front of that whose line item is qualified by
`LineItem`.

* `TableName`, `TableName.Shadows` — what tells tables apart, and the exception;
* `Service.HasSimpleTableNames`, `Service.RepeatsTerm` — names in ids, and those that the exception
  needs;
* `Scope.toList_tableId`, `Scope.tableId_eq_iff` — ids of settled requests;
* `Context.repeatsTerm_of_shadows` — the exception needs a name that is used twice;
* `Context.ids_told_apart` — ids of tables.
-/

namespace TableCompiler

/-! ### Names of tables -/

/-- The path of the rows of a table and the qualifier of its line item. -/
structure TableName where
  collection : String
  qualifier : Option String

/-- A table shows the unqualified line item behind a navigation property `LineItem`, and another one
the line item with that qualifier in front of it. -/
structure TableName.Shadows (n m : TableName) : Prop where
  collection : n.collection = m.collection ++ "/LineItem"
  unqualified : n.qualifier = none
  qualified : m.qualifier = some "LineItem"

/-- The name of the table of a request. -/
def Table.nameFor (t : Table) (r : TableRequest) : TableName :=
  ⟨t.configuration.collection, r.lineItem.qualifier⟩

/-- The names of entity sets and navigation properties are simple, and so are the qualifiers of line
items. -/
structure Service.HasSimpleTableNames (s : Service) : Prop where
  set : ∀ set ∈ s.entitySets, IsSimpleName set.name
  navigation : ∀ t ∈ s.entityTypes, ∀ n ∈ t.navigationProperties, IsSimpleName n.name
  lineItem : ∀ t ∈ s.entityTypes, ∀ key ∈ t.annotations.lineItems.keys, key ≠ "" → IsSimpleName key

instance (s : Service) : Decidable s.HasSimpleTableNames :=
  decidable_of_iff ((∀ set ∈ s.entitySets, IsSimpleName set.name) ∧
      (∀ t ∈ s.entityTypes, ∀ n ∈ t.navigationProperties, IsSimpleName n.name) ∧
      ∀ t ∈ s.entityTypes, ∀ key ∈ t.annotations.lineItems.keys, key ≠ "" → IsSimpleName key)
    ⟨fun h => ⟨h.1, h.2.1, h.2.2⟩, fun h => ⟨h.set, h.navigation, h.lineItem⟩⟩

/-- A navigation property and the qualifier of a line item are both called `LineItem`. -/
def Service.RepeatsTerm (s : Service) : Prop :=
  (∃ t ∈ s.entityTypes, ∃ n ∈ t.navigationProperties, n.name = "LineItem") ∧
    ∃ t ∈ s.entityTypes, "LineItem" ∈ t.annotations.lineItems.keys

/-! ### Ids of settled requests -/

/-- The term of line items with a qualifier behind it. -/
def qualifiedTerm (qualifier : Option String) : List Char :=
  Term.lineItem.name.toList ++ (qualifier.map fun q => '/' :: q.toList).getD []

namespace Scope

variable {s u : Scope}

/-- The name of the table of a settled request. -/
def name (s : Scope) : TableName :=
  ⟨"/" ++ s.dataPath, s.lineItemPath.qualifier⟩

/-- The path of the rows has simple names only, and so has the qualifier. -/
structure HasPlainName (s : Scope) : Prop where
  path : IsPlainPath s.dataPath
  clean : ∀ q, s.lineItemPath.qualifier = some q → IsClean q.toList
  slash : ∀ q, s.lineItemPath.qualifier = some q → '/' ∉ q.toList

/-- The path of the rows with term and qualifier of the line item behind it. -/
def idPath (s : Scope) : List Char :=
  s.dataPath.toList ++ '/' :: qualifiedTerm s.lineItemPath.qualifier

theorem HasPlainName.idPath_isClean (h : s.HasPlainName) : IsClean s.idPath := by
  refine h.path.clean.append (IsClean.slash.append ?_)
  have hterm : IsClean Term.lineItem.name.toList := ⟨by decide, by decide, by decide⟩
  refine hterm.append ?_
  cases hq : s.lineItemPath.qualifier with
  | none => exact .nil
  | some q => exact IsClean.slash.append (h.clean q hq)

/-- The id is this path with its slashes as separators of keys. -/
theorem toList_tableId (h : s.HasPlainName) : s.tableId.toList = sanitizeChars s.idPath := by
  have hterm : sanitizeChars ('/' :: Term.lineItem.name.toList) = "::LineItem".toList := by decide
  rw [tableId, sanitize, dropSeparators_sanitizeChars h.path.clean h.path.head,
    String.toList_append, String.toList_append, String.toList_ofList, idPath, qualifiedTerm,
    ← List.cons_append, ← List.append_assoc, sanitizeChars_append, sanitizeChars_append, hterm]
  cases hq : s.lineItemPath.qualifier with
  | none => rfl
  | some q =>
    rw [Option.map_some, Option.getD_some, sanitizeChars_slash,
      sanitizeChars_of_name (h.clean q hq) (h.slash q hq)]
    dsimp only
    rw [String.toList_append]
    rfl

/-- A path with the term behind it, and a qualifier behind that: the last slash tells. -/
theorem idPath_of_some {q : String} (hq : s.lineItemPath.qualifier = some q) :
    s.idPath =
      (s.dataPath.toList ++ '/' :: Term.lineItem.name.toList) ++ '/' :: q.toList := by
  rw [idPath, qualifiedTerm, hq, Option.map_some, Option.getD_some, List.append_assoc,
    List.cons_append]

theorem idPath_of_none (hq : s.lineItemPath.qualifier = none) :
    s.idPath = s.dataPath.toList ++ '/' :: Term.lineItem.name.toList := by
  rw [idPath, qualifiedTerm, hq, Option.map_none, Option.getD_none, List.append_nil]

theorem shadows_name_iff : s.name.Shadows u.name ↔
    s.dataPath = u.dataPath ++ "/LineItem" ∧ s.lineItemPath.qualifier = none ∧
      u.lineItemPath.qualifier = some "LineItem" := by
  constructor
  · rintro ⟨hpath, hnone, hsome⟩
    rw [name, name, String.append_assoc, String.append_right_inj] at hpath
    exact ⟨hpath, hnone, hsome⟩
  · rintro ⟨hpath, hnone, hsome⟩
    exact ⟨by rw [name, name, hpath, String.append_assoc], hnone, hsome⟩

theorem name_eq_iff : s.name = u.name ↔
    s.dataPath = u.dataPath ∧ s.lineItemPath.qualifier = u.lineItemPath.qualifier := by
  rw [name, name, TableName.mk.injEq, String.append_right_inj]

/-- One path is that of an unqualified line item and the other that of a qualified one. -/
theorem shadows_of_idPath_eq (hu : u.HasPlainName) (hnone : s.lineItemPath.qualifier = none)
    {q : String} (hq : u.lineItemPath.qualifier = some q) (h : s.idPath = u.idPath) :
    s.name.Shadows u.name := by
  rw [idPath_of_none hnone, idPath_of_some hq] at h
  obtain ⟨hpath, hterm⟩ := Text.append_cons_inj_last (by decide) (hu.slash q hq) h
  have hterm : q = "LineItem" := String.toList_injective hterm.symm
  refine shadows_name_iff.2 ⟨?_, hnone, hterm ▸ hq⟩
  refine String.toList_injective (hpath.trans ?_)
  rw [String.toList_append]
  rfl

/-- **Ids of settled requests.**  Two are equal for equal names, and where one name shadows the
other. -/
theorem tableId_eq_iff (hs : s.HasPlainName) (hu : u.HasPlainName) :
    s.tableId = u.tableId ↔
      s.name = u.name ∨ s.name.Shadows u.name ∨ u.name.Shadows s.name := by
  have hpaths : s.tableId = u.tableId ↔ s.idPath = u.idPath := by
    rw [← String.toList_inj, toList_tableId hs, toList_tableId hu]
    exact ⟨sanitizeChars_injective hs.idPath_isClean hu.idPath_isClean, congrArg _⟩
  rw [hpaths]
  constructor
  · intro h
    cases hq : s.lineItemPath.qualifier with
    | none =>
      cases hr : u.lineItemPath.qualifier with
      | none =>
        rw [idPath_of_none hq, idPath_of_none hr] at h
        obtain ⟨hpath, -⟩ := Text.append_cons_inj_last (by decide) (by decide) h
        exact .inl (name_eq_iff.2 ⟨String.toList_injective hpath, hq.trans hr.symm⟩)
      | some r => exact .inr (.inl (shadows_of_idPath_eq hu hq hr h))
    | some q =>
      cases hr : u.lineItemPath.qualifier with
      | none => exact .inr (.inr (shadows_of_idPath_eq hs hr hq h.symm))
      | some r =>
        rw [idPath_of_some hq, idPath_of_some hr] at h
        obtain ⟨hpath, hsame⟩ := Text.append_cons_inj_last (hs.slash q hq) (hu.slash r hr) h
        obtain rfl : q = r := String.toList_injective hsame
        have hpath := String.toList_injective (List.append_cancel_right hpath)
        exact .inl (name_eq_iff.2 ⟨hpath, hq.trans hr.symm⟩)
  · have hshadows : ∀ {a b : Scope}, a.name.Shadows b.name → a.idPath = b.idPath := by
      intro a b h
      obtain ⟨hpath, hnone, hsome⟩ := shadows_name_iff.1 h
      rw [idPath_of_none hnone, idPath_of_some hsome, hpath, String.toList_append]
      rfl
    rintro (h | h | h)
    · obtain ⟨hpath, hqualifier⟩ := name_eq_iff.1 h
      rw [idPath, idPath, hpath, hqualifier]
    · exact hshadows h
    · exact (hshadows h).symm

end Scope

/-! ### Ids of tables -/

namespace Context

variable {c d : Context} {r q : TableRequest} {scope other : Reported Scope}

/-- The request gives navigation and line item. -/
theorem paths_of_resolve (h : c.resolve r = .ok scope) :
    scope.value.navigationPath = r.navigation ∧ scope.value.lineItemPath = r.lineItem := by
  rw [resolve] at h
  split at h
  · split at h
    · dsimp only at h
      split at h
      · split at h
        · obtain rfl := Except.ok.inj h
          exact ⟨rfl, rfl⟩
        · cases h
      · cases h
    · cases h
  · cases h

/-- Where the rows of a settled request are: behind navigation properties of the service. -/
theorem follow?_of_resolve (h : c.resolve r = .ok scope) :
    scope.value.entitySet ∈ c.service.entitySets ∧ ∃ root ∈ c.service.entityTypes,
      c.service.follow? root (Text.segments '/' scope.value.navigationPath) =
        some scope.value.entityType := by
  rcases c.resolve_cases r with ⟨e, herror, -⟩ | ⟨settled, hsettled, hsettles⟩
  · cases herror.symm.trans h
  obtain rfl := Except.ok.inj (hsettled.symm.trans h)
  obtain ⟨hset, root, hroot, hleads⟩ := hsettles.rows
  rw [(paths_of_resolve h).1]
  exact ⟨List.mem_of_find?_eq_some (Service.entitySet?_eq_some_iff.2 hset), root,
    Service.entityType?_mem (Service.entityType?_eq_some_iff.2 hroot),
    Service.follow?_eq_some_iff.2 hleads⟩

/-- The qualifier of the line item of a settled request is one that the service has. -/
theorem exists_qualifier_of_resolve (h : c.resolve r = .ok scope) {key : String}
    (hkey : scope.value.lineItemPath.qualifier = some key) :
    ∃ t ∈ c.service.entityTypes, key ∈ t.annotations.lineItems.keys := by
  obtain ⟨hservice, hrows⟩ := entityType_mem h
  obtain ⟨host, hfollow, hrecords⟩ := carrier h
  rw [hservice] at hfollow
  rw [(paths_of_resolve h).2] at hkey
  have hdefault : r.lineItem.qualifierKey = key := by rw [AnnotationPath.qualifierKey, hkey]; rfl
  refine ⟨host, Service.follow?_mem hrows hfollow, Dictionary.contains_iff.1 ?_⟩
  rw [Dictionary.contains, ← hdefault, hrecords]
  rfl

/-- None of the characters is in the navigation, whose segments are names. -/
theorem isClean_navigation (hnames : c.service.HasSimpleTableNames)
    (h : c.resolve r = .ok scope) : IsClean scope.value.navigationPath.toList := by
  obtain ⟨-, root, hroot, hfollow⟩ := follow?_of_resolve h
  have havoids : ∀ char ∈ ['@', '#', ':'], char ∉ scope.value.navigationPath.toList := by
    intro char hchar
    have hin : char ∈ ['/', '@', '#', ':'] := List.mem_cons_of_mem _ hchar
    refine Service.not_mem_of_follow? (fun t ht n hn => (hnames.navigation t ht n hn).2 char hin)
      ?_ hroot hfollow
    rintro rfl
    exact absurd hchar (by decide)
  exact ⟨havoids ':' (by decide), havoids '@' (by decide), havoids '#' (by decide)⟩

/-- The path of the rows starts with the name of the entity set. -/
theorem isPlainPath_dataPath (hnames : c.service.HasSimpleTableNames)
    (h : c.resolve r = .ok scope) : IsPlainPath scope.value.dataPath := by
  have hset := hnames.set _ (follow?_of_resolve h).1
  have hname : scope.value.entitySet.name.toList ≠ [] := fun heq =>
    hset.1 (String.toList_injective heq)
  obtain ⟨first, rest, hfirst⟩ := List.exists_cons_of_ne_nil hname
  have hslash : first ≠ '/' := by
    rintro rfl
    refine hset.not_mem_slash ?_
    rw [hfirst]
    exact List.mem_cons_self
  rw [Scope.dataPath]
  split
  · refine ⟨hset.isClean, ?_⟩
    rw [hfirst]
    exact fun heq => hslash (Option.some.inj heq)
  · refine ⟨?_, ?_⟩
    · rw [String.toList_append, String.toList_append]
      exact (hset.isClean.append .slash).append (isClean_navigation hnames h)
    · rw [String.toList_append, String.toList_append, hfirst]
      exact fun heq => hslash (Option.some.inj heq)

theorem hasPlainName (hnames : c.service.HasSimpleTableNames) (h : c.resolve r = .ok scope) :
    scope.value.HasPlainName := by
  have hqualifier : ∀ key, scope.value.lineItemPath.qualifier = some key →
      IsClean key.toList ∧ '/' ∉ key.toList := by
    intro key hkey
    obtain ⟨t, ht, hmem⟩ := exists_qualifier_of_resolve h hkey
    by_cases hempty : key = ""
    · rw [hempty]
      exact ⟨.nil, List.not_mem_nil⟩
    · have hsimple := hnames.lineItem t ht key hmem hempty
      exact ⟨hsimple.isClean, hsimple.not_mem_slash⟩
  exact ⟨isPlainPath_dataPath hnames h, fun key hkey => (hqualifier key hkey).1,
    fun key hkey => (hqualifier key hkey).2⟩

/-- The exception needs a navigation property and a qualifier of one name. -/
theorem repeatsTerm_of_shadows (hnames : c.service.HasSimpleTableNames)
    (h : c.resolve r = .ok scope) (hother : d.resolve q = .ok other)
    (hservice : d.service = c.service) (hshadows : scope.value.name.Shadows other.value.name) :
    c.service.RepeatsTerm := by
  obtain ⟨hpath, -, hqualifier⟩ := Scope.shadows_name_iff.1 hshadows
  obtain ⟨hset, root, hroot, hfollow⟩ := follow?_of_resolve h
  have hslash := (hnames.set _ hset).not_mem_slash
  have hpieces : Text.split '/' scope.value.dataPath =
      Text.split '/' other.value.dataPath ++ ["LineItem"] := by
    have hterm : Text.split '/' "LineItem" = ["LineItem"] := Text.split_of_not_mem (by decide)
    have hslashed : other.value.dataPath ++ "/LineItem" =
        other.value.dataPath ++ "/" ++ "LineItem" := by
      rw [String.append_assoc]
      rfl
    rw [hpath, hslashed, Text.split_append_slash, hterm]
  obtain ⟨piece, pieces, hsplit⟩ :=
    List.exists_cons_of_ne_nil (Text.split_ne_nil '/' other.value.dataPath)
  rw [hsplit, List.cons_append, Scope.dataPath] at hpieces
  refine ⟨?_, hservice ▸ exists_qualifier_of_resolve hother hqualifier⟩
  have hsegment : "LineItem" ∈ Text.segments '/' scope.value.navigationPath := by
    split at hpieces
    · -- a mere name has no term behind it
      rw [Text.split_of_not_mem hslash] at hpieces
      exact absurd (List.cons.inj hpieces).2.symm (by simp)
    · rw [Text.split_append_slash, Text.split_of_not_mem hslash, List.singleton_append] at hpieces
      rw [Text.segments, (List.cons.inj hpieces).2, List.mem_filter]
      exact ⟨List.mem_append_right _ (List.mem_singleton_self _), by decide⟩
  by_contra hnone
  refine Service.forall_mem_of_follow? (P := (· ≠ "LineItem")) ?_ hroot hfollow _ hsegment rfl
  intro t ht n hn hname
  exact hnone ⟨t, ht, n, hn, hname⟩

theorem nameFor_eq {t : Table} (hscope : c.resolve r = .ok scope)
    (h : (c.compile r).value = .ok t) :
    t.nameFor r = scope.value.name ∧ t.configuration.id = scope.value.tableId := by
  obtain ⟨creation, variant, conditions, hconfiguration⟩ := exists_configuration hscope h
  rw [Table.nameFor, Scope.name, hconfiguration, (paths_of_resolve hscope).2]
  exact ⟨rfl, rfl⟩

/-- **Ids tell tables apart.**  Where names are simple, two tables of a service have one id exactly
if they have one name or the name of one shadows that of the other.  The latter needs a navigation
property and a line item qualifier that are both called `LineItem`. -/
theorem ids_told_apart (c d : Context) (hservice : d.service = c.service)
    (hnames : c.service.HasSimpleTableNames) (r₁ r₂ : TableRequest) (t₁ t₂ : Table)
    (h₁ : (c.compile r₁).value = .ok t₁) (h₂ : (d.compile r₂).value = .ok t₂) :
    (t₁.configuration.id = t₂.configuration.id ↔
      t₁.nameFor r₁ = t₂.nameFor r₂ ∨ (t₁.nameFor r₁).Shadows (t₂.nameFor r₂) ∨
        (t₂.nameFor r₂).Shadows (t₁.nameFor r₁)) ∧
    (¬ c.service.RepeatsTerm →
      (t₁.configuration.id = t₂.configuration.id ↔ t₁.nameFor r₁ = t₂.nameFor r₂)) := by
  obtain ⟨s₁, hs₁, -⟩ := exists_yields h₁
  obtain ⟨s₂, hs₂, -⟩ := exists_yields h₂
  obtain ⟨hname₁, hid₁⟩ := nameFor_eq hs₁ h₁
  obtain ⟨hname₂, hid₂⟩ := nameFor_eq hs₂ h₂
  have hnames' : d.service.HasSimpleTableNames := hservice ▸ hnames
  have hids := Scope.tableId_eq_iff (hasPlainName hnames hs₁) (hasPlainName hnames' hs₂)
  rw [hname₁, hname₂, hid₁, hid₂]
  refine ⟨hids, fun hnone => hids.trans (or_iff_left ?_)⟩
  rintro (hshadows | hshadows)
  · exact hnone (repeatsTerm_of_shadows hnames hs₁ hs₂ hservice hshadows)
  · exact hnone (hservice ▸ repeatsTerm_of_shadows hnames' hs₂ hs₁ hservice.symm hshadows)

/-- Invoices with two line items, and their parts behind a navigation property of a given name. -/
def invoices (navigation : String) : Context where
  service := {
    entitySets := [{ name := "Invoices", entityType := "shop.Invoice" }]
    entityTypes := [
      { name := "shop.Invoice"
        navigationProperties := [{ name := navigation, targetType := "shop.Part" }]
        annotations := { lineItems := .ofList [("", []), ("LineItem", [])] } },
      { name := "shop.Part", annotations := { lineItems := .ofList [("", [])] } }] }

/-- The second line item of invoices. -/
def qualifiedLineItem : TableRequest where
  entitySet := "Invoices"
  lineItem := ⟨[], .lineItem, some "LineItem"⟩

/-- The parts behind `toParts` do not have the id of the second line item. -/
theorem ids_told_apart_invoices :
    ∃ t₁ t₂,
      ((invoices "toParts").compile
        { entitySet := "Invoices", navigationPath := "toParts" }).value = .ok t₁ ∧
      ((invoices "toParts").compile qualifiedLineItem).value = .ok t₂ ∧
      t₁.configuration.id ≠ t₂.configuration.id := by
  have hrun : (match ((invoices "toParts").compile
        { entitySet := "Invoices", navigationPath := "toParts" }).value,
      ((invoices "toParts").compile qualifiedLineItem).value with
    | .ok _, .ok _ => true
    | _, _ => false) = true := by
    decide +kernel
  split at hrun
  · rename_i t₁ t₂ h₁ h₂
    refine ⟨t₁, t₂, h₁, h₂, fun hid => ?_⟩
    have hnone : ¬ (invoices "toParts").service.RepeatsTerm := by
      rintro ⟨⟨t, ht, n, hn, hname⟩, -⟩
      have hall : ∀ t ∈ (invoices "toParts").service.entityTypes,
          ∀ n ∈ t.navigationProperties, n.name ≠ "LineItem" := by decide
      exact hall t ht n hn hname
    have hnames := ((ids_told_apart (invoices "toParts") (invoices "toParts") rfl (by decide) _ _
      t₁ t₂ h₁ h₂).2 hnone).1 hid
    have hqualifier : (none : Option String) = some "LineItem" :=
      congrArg TableName.qualifier hnames
    cases hqualifier
  · cases hrun

-- behind a navigation property of the name of the term they have
example :
    ["toParts", "LineItem"].map (fun navigation =>
      [{ entitySet := "Invoices", navigationPath := navigation }, qualifiedLineItem].map
        fun request => match ((invoices navigation).compile request).value with
          | .ok t => t.configuration.id
          | .error _ => "") =
      [["Invoices::toParts::LineItem", "Invoices::LineItem::LineItem"],
        ["Invoices::LineItem::LineItem", "Invoices::LineItem::LineItem"]] := by
  decide +kernel

end Context

end TableCompiler
