import Mathlib.Data.List.Induction
import TableCompiler.Proofs.Column.Origin

/-!
# The marks of texts that are shown in place of a value

Whoever collects a column marks the texts that stand for values in it, and marks only grow.  A bare
property is looked up among the marks when it is its turn, so what counts is who came before.

* `Service.ShowsText` — a property has a text that is shown in place of its value;
* `Service.mem_textOnly_collectValue` — just that is collected with the property;
* `ColumnPool.isTextOnly_push_of_mem`, `Scope.isTextOnly_poolBefore_append` — marks are set, and
  stay;
* `Scope.poolBefore`, `Scope.TakesColumn` — the turn of a property;
* `Scope.Adds`, `Scope.mem_poolBefore` — who has taken a column before that turn;
* `Scope.Gains`, `Scope.gains_of_mem` — how an entry was collected, and with which mark;
* `Scope.isTextOnly_of_recordEntry`, `Scope.TakesColumn.isTextOnly` — what is marked.
-/

namespace TableCompiler

/-! ### Collected texts -/

namespace RelatedProperties

theorem textOnly_foldl_addProperty (r : RelatedProperties) (paths : List PropertyPath) :
    (paths.foldl addProperty r).textOnly = r.textOnly :=
  foldl_keeps (f := addProperty) (g := (·.textOnly)) (fun _ _ => rfl) paths r

theorem textOnly_addAdditional (r : RelatedProperties) (path : PropertyPath) :
    (r.addAdditional path).textOnly = r.textOnly := by
  rw [addAdditional]
  split <;> rfl

theorem textOnly_foldl_addAdditional (r : RelatedProperties) (paths : List PropertyPath) :
    (paths.foldl addAdditional r).textOnly = r.textOnly :=
  foldl_keeps (g := (·.textOnly)) textOnly_addAdditional paths r

variable {p : Partners} {text : PropertyPath}

theorem mem_textOnly_addPartners (r : RelatedProperties) :
    text ∈ (r.addPartners p).textOnly ↔ text ∈ r.textOnly ∨ p.textOnly? = some text := by
  rw [addPartners, textOnly_foldl_addAdditional]
  cases p.textOnly? with
  | none => simp only [textOnly_foldl_addAdditional, reduceCtorEq, or_false]
  | some other => simp only [addTextOnly, mem_addUnique, Option.some_inj, eq_comm]

theorem mem_textOnly_addShown (r : RelatedProperties) (path : PropertyPath) :
    text ∈ (r.addShown path p).textOnly ↔ text ∈ r.textOnly ∨ p.textOnly? = some text := by
  rw [addShown]
  cases p.textOnly? with
  | none =>
    rw [textOnly_foldl_addProperty]
    simp only [addProperty, reduceCtorEq, or_false]
  | some other =>
    rw [textOnly_addAdditional, textOnly_foldl_addProperty]
    simp only [addTextOnly, mem_addUnique, Option.some_inj, eq_comm]

end RelatedProperties

theorem Partners.isEmpty_of_textOnly? {p : Partners} {text : PropertyPath}
    (h : p.textOnly? = some text) : p.isEmpty = false := by
  rw [isEmpty, text_of_textOnly? h, Option.isNone_some, Bool.and_false]

namespace Service

/-- The property at a path has a text that is found and shown in place of its value. -/
def ShowsText (s : Service) (t : EntityType) (path text : PropertyPath) : Prop :=
  ∃ target partner, s.property? t path = some target ∧
    target.property.annotations.text = some partner ∧
    target.property.annotations.textArrangement = some .textOnly ∧
    target.navigationPrefix ++ partner = text ∧ s.Finds t text

namespace ShowsText

variable {s : Service} {t : EntityType} {path text : PropertyPath}

/-- A text is shown in place of a value exactly if the partners of the property say so. -/
theorem iff_partners :
    s.ShowsText t path text ↔ (s.partners? t path).bind (·.textOnly?) = some text := by
  rw [partners?, Option.bind_map]
  cases htarget : s.property? t path with
  | none => simp [ShowsText, htarget]
  | some target =>
    cases htext : target.property.annotations.text with
    | none => simp [ShowsText, htarget, htext, Partners.textOnly?, Property.textPath?]
    | some partner =>
      have hshows : s.ShowsText t path text ↔
          target.property.annotations.textArrangement = some .textOnly ∧
            s.partnerAt? t target.navigationPrefix partner = some text := by
        simp only [ShowsText, htarget, htext, Option.some_inj, exists_and_left, exists_eq_left',
          partnerAt?_eq_some_iff]
      rw [hshows]
      cases hpartner : s.partnerAt? t target.navigationPrefix partner with
      | none => simp [Partners.textOnly?, Property.textPath?, htext, hpartner]
      | some found =>
        simp [Partners.textOnly?, Property.textPath?, Property.textArrangement?, htext, hpartner]

instance : Decidable (s.ShowsText t path text) := decidable_of_iff' _ iff_partners

end ShowsText

variable {s : Service} {t : EntityType} {path text : PropertyPath}

/-- **Just the text is collected with the property**, however the property is treated. -/
theorem mem_textOnly_collectValue {mode : CollectMode} {r : RelatedProperties} :
    text ∈ (s.collectValue t mode path r).textOnly ↔
      text ∈ r.textOnly ∨ s.ShowsText t path text := by
  rw [ShowsText.iff_partners, collectValue]
  cases s.partners? t path with
  | none => simp only [Option.bind_none, reduceCtorEq, or_false]
  | some p =>
    rw [Option.bind_some]
    cases mode with
    | property => exact (r.note p).mem_textOnly_addPartners
    | member => exact (r.note p).mem_textOnly_addShown path
    | column =>
      dsimp only
      split
      · rename_i hempty
        -- a property without partners has no text
        refine (or_iff_left fun htext => ?_).symm
        rw [Partners.isEmpty_of_textOnly? htext] at hempty
        cases hempty
      · exact (r.note p).mem_textOnly_addShown path

theorem ShowsText.mem_collectProperty (h : s.ShowsText t path text) :
    text ∈ (s.collectProperty t path .property).textOnly :=
  mem_textOnly_collectValue.2 (.inr h)

theorem ShowsText.mem_collectField {record : ValueField} (h : s.ShowsText t record.value text) :
    text ∈ (s.collectField t (.value record)).textOnly :=
  mem_textOnly_collectValue.2 (.inr h)

/-- What a bare property collects as a text in place of its value is one. -/
theorem showsText_of_mem_collectProperty
    (h : text ∈ (s.collectProperty t path .property).textOnly) : s.ShowsText t path text :=
  (mem_textOnly_collectValue.1 h).resolve_left List.not_mem_nil

end Service

/-! ### Marks are set, and stay -/

namespace ColumnPool

variable {p : ColumnPool} {column : Column} {origin : ColumnOrigin} {r : RelatedProperties}
  {path : PropertyPath}

/-- What is inserted marks its texts. -/
theorem isTextOnly_push_of_mem (h : path ∈ r.textOnly) :
    (p.push column origin r).isTextOnly path = true :=
  Dictionary.contains_extend.2 (.inl h)

theorem isTextOnly_push (h : p.isTextOnly path = true) :
    (p.push column origin r).isTextOnly path = true :=
  Dictionary.contains_extend.2 (.inr h)

theorem isTextOnly_insert (h : p.isTextOnly path = true) :
    (p.insert column origin r).isTextOnly path = true := by
  rcases p.insert_cases column origin r with ⟨-, -, heq⟩ | ⟨-, heq⟩
  · rw [heq]
    exact isTextOnly_push h
  · rw [heq]
    exact h

end ColumnPool

namespace Scope

variable {s : Scope} {p : ColumnPool} {path : PropertyPath}

theorem isTextOnly_addText (h : p.isTextOnly path = true) (text : PropertyPath) :
    (s.addText p text).isTextOnly path = true := by
  rcases s.addText_cases p text with heq | ⟨t, -, heq⟩
  · rw [heq]
    exact h
  · rw [heq]
    exact ColumnPool.isTextOnly_insert h

theorem isTextOnly_foldl_addText (h : p.isTextOnly path = true) (texts : List PropertyPath) :
    (texts.foldl s.addText p).isTextOnly path = true :=
  List.foldlRecOn (motive := fun q : ColumnPool => q.isTextOnly path = true) _ _ h
    fun _ hq text _ => isTextOnly_addText hq text

theorem isTextOnly_addProperty (h : p.isTextOnly path = true) (property : Property) :
    (s.addProperty p property).isTextOnly path = true := by
  rcases s.addProperty_cases p property with heq | ⟨-, -, t, -, heq⟩
  · rw [heq]
    exact h
  · rw [heq]
    exact isTextOnly_foldl_addText (ColumnPool.isTextOnly_insert h) _

/-! ### The turn of a property -/

/-- The pool when it is the turn of the property that is declared after others. -/
def poolBefore (s : Scope) (before : List Property) : ColumnPool :=
  before.foldl s.addProperty s.addLineItem.value

/-- A property takes a column of its own when it is its turn: it is primitive, and neither a record
nor a property before it has taken its name or its key. -/
structure TakesColumn (s : Scope) (before : List Property) (p : Property) : Prop where
  turn : ∃ after, s.entityType.properties = before ++ p :: after
  primitive : p.isPrimitive = true
  name : p.name ∉ (s.poolBefore before).names
  key : propertyKey p.name ∉ (s.poolBefore before).keys

theorem TakesColumn.isPrefix {before : List Property} {property : Property}
    (h : s.TakesColumn before property) : before ++ [property] <+: s.entityType.properties := by
  obtain ⟨after, hturn⟩ := h.turn
  exact ⟨after, by rw [hturn, List.append_assoc, List.singleton_append]⟩

theorem poolBefore_append (s : Scope) (before more : List Property) :
    s.poolBefore (before ++ more) = more.foldl s.addProperty (s.poolBefore before) :=
  List.foldl_append

theorem collected_eq_poolBefore (s : Scope) : s.collected = s.poolBefore s.entityType.properties :=
  rfl

/-- What is marked at the turn of a property is marked ever after. -/
theorem isTextOnly_poolBefore_append {before : List Property}
    (h : (s.poolBefore before).isTextOnly path = true) (more : List Property) :
    (s.poolBefore (before ++ more)).isTextOnly path = true := by
  rw [poolBefore_append]
  exact List.foldlRecOn (motive := fun q : ColumnPool => q.isTextOnly path = true) _ _ h
    fun _ hq property _ => isTextOnly_addProperty hq property

/-- What is there at the turn of a property is collected. -/
theorem poolBefore_subset_collected {before after : List Property}
    (h : s.entityType.properties = before ++ after) :
    (s.poolBefore before).entries ⊆ s.collected.entries := by
  rw [collected_eq_poolBefore, h, poolBefore_append]
  refine List.foldlRecOn (motive := fun q : ColumnPool =>
    (s.poolBefore before).entries ⊆ q.entries) _ _ (List.Subset.refl _) ?_
  intro q hq property _
  exact List.Subset.trans hq (s.entries_subset_addProperty q property)

/-- The column that a property takes is collected, with the mark that the property has. -/
theorem TakesColumn.mem_collected {before : List Property} {property : Property}
    (h : s.TakesColumn before property) {t : PropertyTarget}
    (ht : s.property? property.name = some t) :
    s.propertyEntry property t ((s.poolBefore before).isTextOnly property.name) ∈
      s.collected.entries := by
  obtain ⟨after, hturn⟩ := h.turn
  have hsplit : s.entityType.properties = before ++ [property] ++ after := by
    rw [hturn, List.append_assoc, List.singleton_append]
  refine poolBefore_subset_collected hsplit ?_
  rw [poolBefore_append, List.foldl_cons, List.foldl_nil]
  exact propertyEntry_mem_addProperty h.primitive h.name h.key ht

/-! ### How entries are collected -/

/-- What the turn of a property adds to a pool. -/
inductive Adds (s : Scope) (p : ColumnPool) (q : Property) : PooledColumn → Prop
  | property {t : PropertyTarget} (hprimitive : q.isPrimitive = true) (hname : q.name ∉ p.names)
      (hkey : propertyKey q.name ∉ p.keys) (ht : s.property? q.name = some t) :
      Adds s p q (s.propertyEntry q t (p.isTextOnly q.name))
  | text {text : PropertyPath} {t : PropertyTarget} (hprimitive : q.isPrimitive = true)
      (hname : q.name ∉ p.names) (htext : s.service.ShowsText s.entityType q.name text)
      (ht : s.property? text = some t) : Adds s p q (s.textEntry text t)

theorem mem_addProperty {q : Property} {e : PooledColumn}
    (he : e ∈ (s.addProperty p q).entries) : e ∈ p.entries ∨ s.Adds p q e := by
  rcases s.addProperty_cases p q with heq | ⟨hprimitive, hname, t, ht, heq⟩
  · rw [heq] at he
    exact .inl he
  · rw [heq] at he
    revert e
    refine List.foldlRecOn (motive := fun pool : ColumnPool =>
      ∀ {e}, e ∈ pool.entries → e ∈ p.entries ∨ s.Adds p q e) _ _ ?_ ?_
    · intro e he
      rcases insert_rawColumn_cases (s := s) hname t (p.isTextOnly q.name)
        (s.service.collectProperty s.entityType q.name .property) with
        ⟨hkey, hpush⟩ | ⟨-, hrefused⟩
      · rw [hpush, ColumnPool.push, List.mem_append, List.mem_singleton] at he
        rcases he with he | rfl
        · exact .inl he
        · exact .inr (.property hprimitive hname hkey ht)
      · rw [hrefused] at he
        exact .inl he
    · intro pool hpool text htext e he
      rcases s.addText_cases pool text with heq | ⟨target, htarget, heq⟩
      · rw [heq] at he
        exact hpool he
      · rw [heq] at he
        rcases ColumnPool.mem_insert he with he | rfl
        · exact hpool he
        · exact .inr (.text hprimitive hname (Service.showsText_of_mem_collectProperty htext)
            htarget)

/-- What is there before a turn is the column of a record or was added at an earlier turn. -/
theorem mem_poolBefore {before : List Property} {e : PooledColumn}
    (he : e ∈ (s.poolBefore before).entries) :
    e ∈ s.addLineItem.value.entries ∨
      ∃ earlier q, earlier ++ [q] <+: before ∧ s.Adds (s.poolBefore earlier) q e := by
  induction before using List.reverseRecOn with
  | nil => exact .inl he
  | append_singleton before q ih =>
    rw [poolBefore_append, List.foldl_cons, List.foldl_nil] at he
    rcases mem_addProperty he with he | hadds
    · refine (ih he).imp_right ?_
      rintro ⟨earlier, q, hfront, hadds⟩
      exact ⟨earlier, q, hfront.trans (List.prefix_append _ _), hadds⟩
    · exact .inr ⟨before, q, List.prefix_refl _, hadds⟩

/-- How an entry was collected: for a record, at the turn of a property, with the mark that the
property had then, or for a text in place of a value. -/
inductive Gains (s : Scope) : PooledColumn → Prop
  | record {e : PooledColumn} (he : e ∈ s.addLineItem.value.entries) : Gains s e
  | property {before : List Property} {p : Property} {t : PropertyTarget}
      (hp : s.TakesColumn before p) (ht : s.property? p.name = some t) :
      Gains s (s.propertyEntry p t ((s.poolBefore before).isTextOnly p.name))
  | text {path : PropertyPath} {t : PropertyTarget} (ht : s.property? path = some t) :
      Gains s (s.textEntry path t)

/-- **All turns.**  An entry that was collected was gained at some turn. -/
theorem gains_of_mem {e : PooledColumn} (he : e ∈ s.collected.entries) : s.Gains e := by
  rw [collected_eq_poolBefore] at he
  rcases mem_poolBefore he with he | ⟨before, p, ⟨after, hturn⟩, hadds⟩
  · exact .record he
  · rw [List.append_assoc, List.singleton_append] at hturn
    cases hadds with
    | property hprimitive hname hkey ht =>
      exact .property ⟨⟨after, hturn.symm⟩, hprimitive, hname, hkey⟩ ht
    | text hprimitive hname htext ht => exact .text ht

/-! ### What is marked -/

theorem mem_addLineItem {e : PooledColumn} (he : e ∈ s.collected.entries)
    (horigin : e.origin = .lineItem) : e ∈ s.addLineItem.value.entries := by
  cases gains_of_mem he with
  | record he => exact he
  | property hp ht => cases horigin
  | text ht => cases horigin

/-- The columns of records so far have marked the texts that they show. -/
structure MarksRecords (s : Scope) (p : ColumnPool) : Prop where
  marked : ∀ e ∈ p.entries, ∃ index field column, s.lineItem[index]? = some field ∧
    e = s.recordEntry index field column ∧
    ∀ path ∈ (s.service.collectField s.entityType field).textOnly, p.isTextOnly path = true

theorem MarksRecords.addRecord (hp : s.MarksRecords p) {record : DataField × Nat}
    (hrecord : s.lineItem[record.2]? = some record.1) :
    s.MarksRecords (s.addRecord p record).value := by
  obtain ⟨field, index⟩ := record
  rcases s.addRecord_cases p field index with ⟨heq, -⟩ | ⟨column, -, -, -, heq⟩
  · rw [heq]
    exact hp
  · rw [heq]
    refine ⟨fun e he => ?_⟩
    rw [ColumnPool.push, List.mem_append, List.mem_singleton] at he
    rcases he with he | rfl
    · obtain ⟨index', field', column', hfield', he', hmarked⟩ := hp.marked e he
      exact ⟨index', field', column', hfield', he',
        fun path hpath => ColumnPool.isTextOnly_push (hmarked path hpath)⟩
    · exact ⟨index, field, column, hrecord, rfl,
        fun path hpath => ColumnPool.isTextOnly_push_of_mem hpath⟩

theorem marksRecords_addLineItem (s : Scope) : s.MarksRecords s.addLineItem.value := by
  rw [addLineItem, addRecords, Reported.value_foldlM]
  refine List.foldlRecOn _ _ ⟨by simp⟩ fun p hp record hrecord => ?_
  exact hp.addRecord (List.mem_zipIdx_iff_getElem?.1 hrecord)

/-- **Records mark first.**  What the column of a record shows is marked before it is the turn of
any property. -/
theorem isTextOnly_of_recordEntry {index : Nat} {field : DataField} {column : Column}
    (hfield : s.lineItem[index]? = some field)
    (he : s.recordEntry index field column ∈ s.collected.entries)
    (hpath : path ∈ (s.service.collectField s.entityType field).textOnly) :
    (s.poolBefore []).isTextOnly path = true := by
  obtain ⟨index', field', column', hfield', heq, hmarked⟩ :=
    s.marksRecords_addLineItem.marked _ (mem_addLineItem he rfl)
  have hplace : s.recordPath index = s.recordPath index' :=
    Option.some.inj (congrArg (·.column.annotationPath) heq)
  rw [← s.recordPath_injective hplace, hfield] at hfield'
  obtain rfl := Option.some.inj hfield'
  exact hmarked path hpath

/-- **Properties mark at their turn.**  A property that takes a column of its own marks the texts
that stand for its value. -/
theorem TakesColumn.isTextOnly {before : List Property} {property : Property}
    (h : s.TakesColumn before property)
    (hpath : path ∈ (s.service.collectProperty s.entityType property.name .property).textOnly)
    {t : PropertyTarget} (ht : s.property? property.name = some t) :
    (s.poolBefore (before ++ [property])).isTextOnly path = true := by
  rw [poolBefore_append, List.foldl_cons, List.foldl_nil,
    addProperty_of_free h.primitive h.name h.key ht]
  exact isTextOnly_foldl_addText (ColumnPool.isTextOnly_push_of_mem hpath) _

end Scope

end TableCompiler
