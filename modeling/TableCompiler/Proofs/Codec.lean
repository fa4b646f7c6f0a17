import TableCompiler.Dynamic
import TableCompiler.Proofs.Dictionary
import TableCompiler.Proofs.Json

/-!
# Written values read back

A codec keeps a value if it reads what it writes for it.  Two more facts travel with that, since the
parts around a value rely on them: what is written is plain, and it is not `null`, which stands for
an unset value.

* `Codec.Keeps` — what is written for a value is plain, not `null`, and reads back;
* `Codec.list_keeps`, `Codec.dictionary_keeps` — containers are kept if their parts are;
* `Codec.put_hasPlainValue`, `Codec.bind_put` and those after them — the members of a record;
* `Codec.Keeps.record` — a record is kept if its members read back one by one.
-/

namespace TableCompiler

variable {α : Type}

namespace Codec

/-! ### Values that are kept -/

/-- What a codec writes for a value is plain and not `null`, and reads back. -/
structure Keeps (c : Codec α) (a : α) : Prop where
  read_write : c.read (c.write a) = some a
  isPlain : (c.write a).IsPlain
  ne_null : c.write a ≠ .null

@[simp] theorem text_keeps (s : String) : text.Keeps s :=
  ⟨rfl, Json.isPlain_str s, Json.noConfusion⟩

@[simp] theorem flag_keeps (b : Bool) : flag.Keeps b :=
  ⟨rfl, Json.isPlain_bool b, Json.noConfusion⟩

@[simp] theorem word_keeps (n : UInt32) : word.Keeps n := by
  refine ⟨?_, Json.isPlain_int _, Json.noConfusion⟩
  have hbound : (0 : Int) ≤ n.toNat ∧ (n.toNat : Int) < UInt32.size := by
    have hlt := n.toNat_lt_size
    omega
  simp only [word, if_pos hbound, Int.toNat_natCast, UInt32.ofNat_toNat]

/-- Names that tell the members of a vocabulary apart. -/
theorem enumeration_keeps {all : List α} {name : α → String} {a : α}
    (h : (all.find? fun b => name b = name a) = some a) : (enumeration all name).Keeps a :=
  ⟨h, Json.isPlain_str _, Json.noConfusion⟩

theorem taggedEnumeration_keeps {all : List α} {name : α → String} {a : α}
    (h : (all.find? fun b => name b = name a) = some a) : (taggedEnumeration all name).Keeps a :=
  ⟨h, Json.isPlain_str _, Json.noConfusion⟩

theorem readable_keeps {c : Codec α} {a : α} (h : c.Keeps a) : c.readable.Keeps a where
  read_write := by
    rw [readable]
    dsimp only
    rw [if_pos h.isPlain.isReadable, h.read_write]
  isPlain := h.isPlain
  ne_null := h.ne_null

/-! ### Containers -/

/-- The values of a list read back one after the other. -/
theorem mapM_eq_some {β : Type} {f : β → Option α} {g : α → β} {items : List α}
    (h : ∀ a ∈ items, f (g a) = some a) : (items.map g).mapM f = some items := by
  induction items with
  | nil => rfl
  | cons a items ih =>
    obtain ⟨hfirst, hrest⟩ := List.forall_mem_cons.1 h
    rw [List.map_cons, List.mapM_cons, hfirst, ih hrest]
    rfl

@[simp] theorem list_keeps {c : Codec α} {items : List α} (h : ∀ a ∈ items, c.Keeps a) :
    c.list.Keeps items where
  read_write := mapM_eq_some fun a ha => (h a ha).read_write
  isPlain := by
    refine Json.isPlain_arr ?_
    intro item hitem
    obtain ⟨a, ha, rfl⟩ := List.mem_map.1 hitem
    exact (h a ha).isPlain
  ne_null := Json.noConfusion

@[simp] theorem dictionary_keeps {c : Codec α} {d : Dictionary α}
    (h : ∀ entry ∈ d.entries, c.Keeps entry.2) : c.dictionary.Keeps d where
  read_write := by
    have hentries : (d.entries.map fun entry => (entry.1, c.write entry.2)).mapM c.readEntry =
        some d.entries := by
      refine mapM_eq_some fun entry hentry => ?_
      rw [readEntry, (h entry hentry).read_write]
      rfl
    rw [dictionary]
    dsimp only
    rw [hentries, Option.map_some, Dictionary.ofList_entries]
  isPlain := by
    refine Json.isPlain_obj ?_ ?_
    · rw [List.map_map]
      exact d.nodup_keys
    · intro member hmember
      obtain ⟨entry, hentry, rfl⟩ := List.mem_map.1 hmember
      exact (h entry hentry).isPlain
  ne_null := Json.noConfusion

/-- A value that may be unset is told from `null`. -/
theorem nullable_read_write {c : Codec α} {a : Option α} (h : ∀ b, a = some b → c.Keeps b) :
    c.nullable.read (c.nullable.write a) = some a := by
  cases a with
  | none => rfl
  | some b =>
    have hnull := (h b rfl).ne_null
    have hread := (h b rfl).read_write
    have hwrite : c.nullable.write (some b) = c.write b := rfl
    rw [hwrite, nullable]
    dsimp only
    split
    · rename_i heq
      exact absurd heq hnull
    · rw [hread, Option.map_some]

/-! ### The members of a record -/

/-- What is written for a member, if anything, is plain. -/
def HasPlainValue (member : String × Option Json) : Prop :=
  ∀ value, member.2 = some value → value.IsPlain

variable {c : Codec α} {name : String}

@[simp] theorem put_hasPlainValue {a : α} (h : c.Keeps a) : HasPlainValue (c.put name a) := by
  rintro value hvalue
  obtain rfl := Option.some.inj hvalue
  exact h.isPlain

@[simp] theorem putNullable_hasPlainValue {a : Option α} (h : ∀ b, a = some b → c.Keeps b) :
    HasPlainValue (c.putNullable name a) := by
  rintro value hvalue
  obtain rfl := Option.some.inj hvalue
  cases a with
  | none => exact Json.isPlain_null
  | some b => exact (h b rfl).isPlain

@[simp] theorem putSet_hasPlainValue {a : Option α} (h : ∀ b, a = some b → c.Keeps b) :
    HasPlainValue (c.putSet name a) := by
  rintro value hvalue
  obtain ⟨b, rfl, rfl⟩ := Option.map_eq_some_iff.1 hvalue
  exact (h b rfl).isPlain

@[simp] theorem putList_hasPlainValue {items : List α} (h : ∀ a ∈ items, c.Keeps a) :
    HasPlainValue (c.putList name items) := by
  rintro value hvalue
  rw [putList] at hvalue
  dsimp only at hvalue
  split at hvalue
  · cases hvalue
  · obtain rfl := Option.some.inj hvalue
    exact (list_keeps h).isPlain

end Codec

namespace Members

variable {m : Members} {name : String} {c : Codec α}

@[simp] theorem required_eq : m.required name c = (m name).bind c.read := rfl

@[simp] theorem orElse_eq {default : α} :
    m.orElse name c default = (m name).elim (some default) c.read := by
  rw [orElse]
  cases m name <;> rfl

@[simp] theorem optional_eq :
    m.optional name c = (m name).elim (some none) c.nullable.read := orElse_eq

@[simp] theorem listOrEmpty_eq :
    m.listOrEmpty name c = (m name).elim (some []) c.list.read := orElse_eq

@[simp] theorem dictionaryOrEmpty_eq :
    m.dictionaryOrEmpty name c = (m name).elim (some .empty) c.dictionary.read := orElse_eq

end Members

namespace Codec

variable {c : Codec α} {name : String}

/-! ### Records -/

@[simp] theorem put_fst {a : α} : (c.put name a).1 = name := rfl

@[simp] theorem putNullable_fst {a : Option α} : (c.putNullable name a).1 = name := rfl

@[simp] theorem putSet_fst {a : Option α} : (c.putSet name a).1 = name := rfl

@[simp] theorem putList_fst {items : List α} : (c.putList name items).1 = name := rfl

@[simp] theorem bind_put {a : α} (h : c.Keeps a) : (c.put name a).2.bind c.read = some a :=
  h.read_write

@[simp] theorem elim_put {a default : α} (h : c.Keeps a) :
    (c.put name a).2.elim (some default) c.read = some a :=
  h.read_write

@[simp] theorem elim_putNullable {a : Option α} (h : ∀ b, a = some b → c.Keeps b) :
    (c.putNullable name a).2.elim (some none) c.nullable.read = some a :=
  nullable_read_write h

@[simp] theorem elim_putSet {a : Option α} (h : ∀ b, a = some b → c.Keeps b) :
    (c.putSet name a).2.elim (some none) c.nullable.read = some a := by
  cases a with
  | none => rfl
  | some b => exact nullable_read_write h

@[simp] theorem elim_putList {items : List α} (h : ∀ a ∈ items, c.Keeps a) :
    (c.putList name items).2.elim (some []) c.list.read = some items := by
  cases items with
  | nil => rfl
  | cons a items => exact (list_keeps h).read_write

variable {a : α} {names : List String} {members : List (String × Option Json)}
  {read : Members → Option α}

/-- **Records with a tag.**  A record is kept if its members have names of their own and read back
one by one, whatever the tag before them is for. -/
theorem Keeps.tagged {tag : String × Option Json}
    (hwrite : c.write a = .record (tag :: members))
    (hread : c.read (.record (tag :: members)) =
      ((Json.record (tag :: members)).members? names).bind read)
    (hnames : members.map (·.1) = names) (hnodup : (tag.1 :: names).Nodup)
    (hplain : ∀ member ∈ tag :: members, HasPlainValue member)
    (hmembers : ∀ m : Members, (∀ member ∈ members, m member.1 = member.2) → read m = some a) :
    c.Keeps a := by
  subst hnames
  have hall : ((tag :: members).map (·.1)).Nodup := hnodup
  obtain ⟨m, hm, hgiven⟩ := Json.exists_members?_record hall (members.map (·.1))
  refine ⟨?_, ?_, ?_⟩
  · rw [hwrite, hread, hm]
    exact hmembers m fun member hmember =>
      hgiven member (List.mem_cons_of_mem _ hmember) (List.mem_map_of_mem hmember)
  · rw [hwrite]
    exact Json.isPlain_record hall hplain
  · rw [hwrite]
    exact Json.noConfusion

/-- **Records.**  A record is kept if its members have names of their own and read back one by
one. -/
theorem Keeps.record (hread : c.read = fun j => j.members? names >>= read)
    (hwrite : c.write a = .record members) (hnames : members.map (·.1) = names)
    (hnodup : names.Nodup) (hplain : ∀ member ∈ members, HasPlainValue member)
    (hmembers : ∀ m : Members, (∀ member ∈ members, m member.1 = member.2) → read m = some a) :
    c.Keeps a := by
  subst hnames
  obtain ⟨m, hm, hgiven⟩ := Json.exists_members?_record hnodup (members.map (·.1))
  refine ⟨?_, ?_, ?_⟩
  · rw [hread, hwrite]
    dsimp only
    rw [hm]
    exact hmembers m fun member hmember =>
      hgiven member hmember (List.mem_map_of_mem hmember)
  · rw [hwrite]
    exact Json.isPlain_record hnodup hplain
  · rw [hwrite]
    exact Json.noConfusion

end Codec

end TableCompiler
