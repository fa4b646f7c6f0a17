import Mathlib.Logic.Relation
import TableCompiler.Proofs.Column.Arena

/-!
# Runs of an arena

An arena is filled by insertions and linked, in any order and as often as one likes.  Linking goes
over the entries by their places while it adds further ones behind the last, and comes to an end
because those depend on nothing.  The builder that it asks for hidden columns may answer anything,
and not the same when it is asked the same again.

* `ArenaLinking.Sweeps` — the loop over the places of an arena that grows;
* `ColumnArena.Keeps`, `ColumnArena.Advances` — what stays of the entries, and what linking does to
  them;
* `ArenaLinking.linkAt_advances`, `ArenaLinking.Sweeps.advances` — linking one entry, and all of
  them;
* `ArenaLinking.sweeps_link` — the loop ends where `ColumnArena.link` does;
* `ColumnArena.Reaches`, `ColumnArena.runs` — any insertions and linkings, and what holds after
  them.
-/

namespace TableCompiler

namespace ArenaLinking

/-! ### The loop -/

/-- Linking the entries from a place on, one after the other, until there is none at the place. -/
inductive Sweeps (build : ColumnBuilder) : Nat → ArenaLinking → ArenaLinking → Prop
  | done {i : Nat} {l : ArenaLinking} (h : l.arena.entries.length ≤ i) : Sweeps build i l l
  | next {i : Nat} {l m : ArenaLinking} (hi : i < l.arena.entries.length)
    (h : Sweeps build (i + 1) (l.linkAt build i) m) : Sweeps build i l m

/-- A sweep has one result at most. -/
theorem Sweeps.unique {build : ColumnBuilder} {i : Nat} {l m n : ArenaLinking}
    (hm : Sweeps build i l m) (hn : Sweeps build i l n) : m = n := by
  induction hm with
  | done h =>
    cases hn with
    | done _ => rfl
    | next hi _ => exact (Nat.not_lt.2 h hi).elim
  | next hi _ ih =>
    cases hn with
    | done h => exact (Nat.not_lt.2 h hi).elim
    | next _ hrest => exact ih hrest

end ArenaLinking

/-! ### What stays -/

namespace ColumnArena

/-- Every entry of `a` is at its place in `b`, with its key, name and origin; if it was linked, it
has not changed at all. -/
def Keeps (a b : ColumnArena) : Prop :=
  ∀ (i : Nat) (c : ColumnEntry Nat), a.entries[i]? = some c →
    ∃ d, b.entries[i]? = some d ∧ d.core = c.core ∧ (c.IsLinked → d = c)

/-- What linking does to an arena: it keeps the entries and adds hidden columns behind them. -/
structure Advances (a b : ColumnArena) : Prop where
  sound : b.IsSound
  keeps : a.Keeps b
  appended : ∀ (i : Nat) (c : ColumnEntry Nat), a.entries.length ≤ i → b.entries[i]? = some c →
    c.origin = .related ∧ c.IsLinked
  textOnly : b.textOnly = a.textOnly
  units : b.units = a.units

variable {a b c : ColumnArena}

theorem Keeps.refl (a : ColumnArena) : a.Keeps a := fun _ e he => ⟨e, he, rfl, fun _ => rfl⟩

theorem Keeps.trans (hab : a.Keeps b) (hbc : b.Keeps c) : a.Keeps c := by
  intro i d hd
  obtain ⟨e, he, hcore, hsame⟩ := hab i d hd
  obtain ⟨f, hf, hcore', hsame'⟩ := hbc i e he
  refine ⟨f, hf, hcore'.trans hcore, fun hlinked => ?_⟩
  obtain rfl := hsame hlinked
  exact hsame' hlinked

theorem Advances.refl (h : a.IsSound) : a.Advances a := by
  refine ⟨h, .refl a, fun i e hle he => ?_, rfl, rfl⟩
  rw [List.getElem?_eq_none hle] at he
  cases he

theorem Advances.trans (hab : a.Advances b) (hbc : b.Advances c) : a.Advances c := by
  refine ⟨hbc.sound, hab.keeps.trans hbc.keeps, fun i e hle he => ?_,
    hbc.textOnly.trans hab.textOnly, hbc.units.trans hab.units⟩
  cases hb : b.entries[i]? with
  | none => exact hbc.appended i e (List.getElem?_eq_none_iff.1 hb) he
  | some d =>
    -- an entry that was added first was linked, and has not changed since
    obtain ⟨horigin, hlinked⟩ := hab.appended i d hle hb
    obtain ⟨e', he', -, hsame⟩ := hbc.keeps i d hb
    obtain rfl := Option.some.inj (he'.symm.trans he)
    rw [hsame hlinked]
    exact ⟨horigin, hlinked⟩

theorem IsSound.keeps_insert (h : a.IsSound) (column : Column) (origin : ColumnOrigin)
    (r : RelatedProperties) : a.Keeps (a.insert column origin r).2 := by
  rcases h.insert_cases column origin r with ⟨-, -, heq⟩ | ⟨-, heq⟩
  · rw [heq]
    intro i e he
    refine ⟨e, ?_, rfl, fun _ => rfl⟩
    rw [ColumnArena.push, List.getElem?_append_left (List.getElem?_eq_some_iff.1 he).1, he]
  · rw [heq]
    exact .refl a

end ColumnArena

/-! ### Linking one entry -/

namespace ArenaLinking

variable {build : ColumnBuilder} {l m : ArenaLinking} {c : ColumnEntry Nat} {i : Nat}

/-- Links that were found one after the other, from an arena on. -/
structure Finds (a : ColumnArena) (state : List Nat × ArenaLinking) : Prop where
  appends : a.Appends state.2.arena
  sound : state.2.arena.IsSound
  below : ∀ i ∈ state.1, i < state.2.arena.entries.length

/-- One more of them. -/
theorem Finds.step {a : ColumnArena} {state : List Nat × ArenaLinking} (h : Finds a state)
    (build : ColumnBuilder) (owner : Nat) (others : List Nat) (path : PropertyPath) :
    Finds a (addFound (resolve build owner) others state path) := by
  obtain ⟨happends, hsound, hplace⟩ := resolve_sound build owner path h.sound
  have hbelow : ∀ i ∈ state.1, i < (resolve build owner path state.2).2.arena.entries.length :=
    fun i hi => Nat.lt_of_lt_of_le (h.below i hi) happends.length_le
  have hstate := addFound_snd (resolve build owner) others state path
  refine ⟨?_, ?_, ?_⟩
  · rw [hstate]
    exact h.appends.trans happends
  · rw [hstate]
    exact hsound
  · rw [hstate]
    rcases addFound_fst (resolve build owner) others state path with
      heq | ⟨place, hfound, -, -, heq⟩
    · rw [heq]
      exact hbelow
    · rw [heq]
      intro i hi
      rcases List.mem_append.1 hi with hold | hnew
      · exact hbelow i hold
      · exact hplace i (List.mem_singleton.1 hnew ▸ hfound)

theorem Finds.run {a : ColumnArena} {state : List Nat × ArenaLinking} (h : Finds a state)
    (build : ColumnBuilder) (owner : Nat) (others : List Nat) (paths : List PropertyPath) :
    Finds a (paths.foldl (addFound (resolve build owner) others) state) :=
  List.foldlRecOn (motive := Finds a) _ _ h fun _ hstate path _ =>
    hstate.step build owner others path

section Entry

variable (build : ColumnBuilder) (owner : Nat) (hl : l.arena.IsSound) (hc : c ∈ l.arena.entries)

include hl hc

/-- The links that an entry has are where its shown properties are linked from. -/
theorem finds_links : Finds l.arena (c.links, l) :=
  ⟨.refl _, hl, fun i hi => (hl.linked c hc).below i (List.mem_append_left _ hi)⟩

theorem finds_shown : Finds l.arena (c.shown (resolve build owner) l) :=
  (finds_links hl hc).run build owner [] c.pending

/-- The loaded properties are linked from where the shown ones have led. -/
theorem finds_additionalLinks : Finds (c.shown (resolve build owner) l).2.arena
    (c.additionalLinks, (c.shown (resolve build owner) l).2) := by
  have hshown := finds_shown build owner hl hc
  exact ⟨.refl _, hshown.sound, fun i hi => Nat.lt_of_lt_of_le
    ((hl.linked c hc).below i (List.mem_append_right _ hi)) hshown.appends.length_le⟩

theorem finds_loaded : Finds (c.shown (resolve build owner) l).2.arena
    (c.loaded (resolve build owner) l) :=
  (finds_additionalLinks build owner hl hc).run build owner _ c.pendingAdditional

/-- The links of an entry are places, of the old columns and of those that are added. -/
theorem link_spec :
    l.arena.Appends (c.link (resolve build owner) l).2.arena ∧
      (c.link (resolve build owner) l).2.arena.IsSound ∧
      (c.link (resolve build owner) l).1.LinksBelow
        (c.link (resolve build owner) l).2.arena.entries.length := by
  have hshown := finds_shown build owner hl hc
  have hloaded := finds_loaded build owner hl hc
  refine ⟨hshown.appends.trans hloaded.appends, hloaded.sound, fun i hi => ?_, ?_,
    .inl (ColumnEntry.isLinked_link ..)⟩
  · rcases List.mem_append.1 hi with hi | hi
    · exact Nat.lt_of_lt_of_le (hshown.below i hi) hloaded.appends.length_le
    · exact hloaded.below i hi
  · rcases (hl.linked c hc).atOnce with hlinked | hfresh
    · rw [hlinked.link]
      exact (hl.linked c hc).nodup
    · exact hfresh.nodup_link l

end Entry

theorem linkAt_eq (build : ColumnBuilder) (hc : l.arena.entries[i]? = some c) :
    l.linkAt build i =
      (c.link (resolve build i) l).2.set i (c.link (resolve build i) l).1 := by
  rw [linkAt, hc]

/-- **Linking one entry.**  It stays at its place, and hidden columns are added at the end. -/
theorem linkAt_advances (build : ColumnBuilder) (hl : l.arena.IsSound)
    (hc : l.arena.entries[i]? = some c) :
    l.arena.Advances (l.linkAt build i).arena ∧ ∃ added : List Column,
      (l.linkAt build i).arena.entries =
        l.arena.entries.set i (c.link (resolve build i) l).1 ++ added.map .related := by
  obtain ⟨happends, hsound, hbelow⟩ := link_spec build i hl (List.mem_of_getElem? hc)
  obtain ⟨added, hadded⟩ := happends.entries
  obtain ⟨hi, -⟩ := List.getElem?_eq_some_iff.1 hc
  have hentries : (l.linkAt build i).arena.entries =
      l.arena.entries.set i (c.link (resolve build i) l).1 ++ added.map .related := by
    rw [linkAt_eq build hc, set, hadded, List.set_append_left _ _ hi]
  have hlength : (l.linkAt build i).arena.entries.length =
      (c.link (resolve build i) l).2.arena.entries.length := by
    rw [linkAt_eq build hc]
    exact List.length_set
  refine ⟨⟨?_, ?_, ?_, ?_, ?_⟩, added, hentries⟩
  · refine hsound.of_cores ?_ (by rw [linkAt_eq build hc]; rfl) (by rw [linkAt_eq build hc]; rfl)
      fun d hd => ?_
    · rw [linkAt_eq build hc]
      exact ColumnArena.cores_set (happends.getElem? hc) (ColumnEntry.core_link ..)
    · rw [hlength]
      rw [linkAt_eq build hc] at hd
      rcases List.mem_or_eq_of_mem_set hd with hold | rfl
      · exact hsound.linked d hold
      · exact hbelow
  · intro j d hd
    obtain ⟨hj, -⟩ := List.getElem?_eq_some_iff.1 hd
    rw [hentries, List.getElem?_append_left (by rwa [List.length_set])]
    by_cases hplace : i = j
    · subst hplace
      obtain rfl := Option.some.inj (hc.symm.trans hd)
      exact ⟨_, List.getElem?_set_self hj, ColumnEntry.core_link .., fun h => by rw [h.link]⟩
    · exact ⟨d, by rw [List.getElem?_set_ne hplace, hd], rfl, fun _ => rfl⟩
  · intro j d hle hd
    rw [hentries, List.getElem?_append_right (by rwa [List.length_set])] at hd
    obtain ⟨column, -, rfl⟩ := List.mem_map.1 (List.mem_of_getElem? hd)
    exact ⟨rfl, ColumnEntry.isLinked_related column⟩
  · rw [linkAt_eq build hc]
    exact happends.textOnly
  · rw [linkAt_eq build hc]
    exact happends.units

/-- The entry that stands behind the linked ones is linked, and hidden columns come behind all. -/
theorem linkAt_front (build : ColumnBuilder) {front back : List (ColumnEntry Nat)}
    (hl : l.arena.IsSound) (hentries : l.arena.entries = front ++ c :: back) :
    l.arena.entries[front.length]? = some c ∧
      l.arena.Advances (l.linkAt build front.length).arena ∧ ∃ added : List Column,
        (l.linkAt build front.length).arena.entries =
          (front ++ [(c.link (resolve build front.length) l).1]) ++ (back ++ added.map .related) := by
  have hc : l.arena.entries[front.length]? = some c := by
    rw [hentries, List.getElem?_append_right (Nat.le_refl _), Nat.sub_self]
    rfl
  obtain ⟨hadvances, added, hnext⟩ := linkAt_advances build hl hc
  refine ⟨hc, hadvances, added, ?_⟩
  rw [hnext, hentries, List.set_append_right _ _ (Nat.le_refl _), Nat.sub_self, List.set_cons_zero]
  simp only [List.append_assoc, List.cons_append, List.nil_append]

/-- A linked entry is passed over. -/
theorem linkAt_of_isLinked (build : ColumnBuilder) (hc : l.arena.entries[i]? = some c)
    (h : c.IsLinked) : l.linkAt build i = l := by
  rw [linkAt_eq build hc, h.link, set, ColumnArena.set_of_getElem? hc]

/-! ### Linking all entries -/

/-- **What a sweep does.**  If the entries before a place are linked, then linking from that place
on leaves none that is not. -/
theorem Sweeps.advances (h : Sweeps build i l m) (hl : l.arena.IsSound)
    (hdone : ∀ j < i, ∀ c, l.arena.entries[j]? = some c → c.IsLinked) :
    l.arena.Advances m.arena ∧ ∀ c ∈ m.arena.entries, c.IsLinked := by
  induction h with
  | done hlength =>
    refine ⟨.refl hl, fun c hc => ?_⟩
    obtain ⟨j, hj⟩ := List.getElem?_of_mem hc
    exact hdone j (Nat.lt_of_lt_of_le (List.getElem?_eq_some_iff.1 hj).1 hlength) c hj
  | @next i l m hi _ ih =>
    have hc := List.getElem?_eq_getElem hi
    obtain ⟨hstep, added, hentries⟩ := linkAt_advances build hl hc
    obtain ⟨hrest, hall⟩ := ih hstep.sound fun j hj d hd => by
      rcases Nat.lt_succ_iff_lt_or_eq.1 hj with hbefore | rfl
      · obtain ⟨e, he⟩ : ∃ e, l.arena.entries[j]? = some e :=
          ⟨_, List.getElem?_eq_getElem (Nat.lt_trans hbefore hi)⟩
        have hlinked := hdone j hbefore e he
        obtain ⟨d', hd', -, hsame⟩ := hstep.keeps j e he
        obtain rfl := Option.some.inj (hd'.symm.trans hd)
        rwa [hsame hlinked]
      · rw [hentries, List.getElem?_append_left (by rwa [List.length_set]),
          List.getElem?_set_self hi] at hd
        obtain rfl := Option.some.inj hd
        exact ColumnEntry.isLinked_link ..
    exact ⟨hstep.trans hrest, hall⟩

/-- A sweep over linked entries changes nothing. -/
theorem Sweeps.of_isLinked (build : ColumnBuilder) {linked front : List (ColumnEntry Nat)}
    (hentries : l.arena.entries = front ++ linked) (h : ∀ c ∈ linked, c.IsLinked) :
    Sweeps build front.length l l := by
  induction linked generalizing front with
  | nil =>
    refine .done (Nat.le_of_eq ?_)
    rw [hentries, List.append_nil]
  | cons c linked ih =>
    have hc : l.arena.entries[front.length]? = some c := by
      rw [hentries, List.getElem?_append_right (Nat.le_refl _), Nat.sub_self]
      rfl
    have hrest : Sweeps build (front ++ [c]).length l l := by
      refine ih ?_ fun d hd => h d (List.mem_cons_of_mem _ hd)
      rw [hentries, List.append_assoc, List.singleton_append]
    rw [List.length_append, List.length_singleton] at hrest
    refine .next (List.getElem?_eq_some_iff.1 hc).1 ?_
    rwa [linkAt_of_isLinked build hc (h c List.mem_cons_self)]

/-- **Linking ends.**  The entries that a sweep adds are linked, so it is over once it has seen
those that were there before it. -/
theorem sweeps_foldl (build : ColumnBuilder) (todo : List (ColumnEntry Nat))
    {front linked : List (ColumnEntry Nat)} (hl : l.arena.IsSound)
    (hentries : l.arena.entries = front ++ (todo ++ linked)) (h : ∀ c ∈ linked, c.IsLinked) :
    Sweeps build front.length l
      ((List.range' front.length todo.length).foldl (linkAt build) l) := by
  induction todo generalizing front linked l with
  | nil => exact .of_isLinked build hentries h
  | cons c todo ih =>
    rw [List.cons_append] at hentries
    obtain ⟨hc, hstep, added, hnext⟩ := linkAt_front build hl hentries
    rw [List.append_assoc todo] at hnext
    have hrun := ih hstep.sound hnext fun d hd => by
      rcases List.mem_append.1 hd with hold | hnew
      · exact h d hold
      · obtain ⟨column, -, rfl⟩ := List.mem_map.1 hnew
        exact ColumnEntry.isLinked_related column
    rw [List.length_append, List.length_singleton] at hrun
    exact .next (List.getElem?_eq_some_iff.1 hc).1 hrun

theorem sweeps_link {a : ColumnArena} (ha : a.IsSound) (build : ColumnBuilder) :
    Sweeps build 0 ⟨a, []⟩ (a.link build) := by
  have hentries : a.entries = [] ++ (a.entries ++ []) := by
    rw [List.append_nil, List.nil_append]
  rw [ColumnArena.link, List.range_eq_range']
  exact sweeps_foldl build a.entries (l := ⟨a, []⟩) ha hentries
    fun _ h => (List.not_mem_nil h).elim

end ArenaLinking

namespace ColumnArena

open ArenaLinking (Sweeps sweeps_link)

/-! ### Runs -/

/-- One step: a column is inserted, or dependencies are linked. -/
inductive Step (a : ColumnArena) : ColumnArena → Prop
  | insert (column : Column) (origin : ColumnOrigin) (r : RelatedProperties) :
    Step a (a.insert column origin r).2
  | link {build : ColumnBuilder} {m : ArenaLinking} (h : Sweeps build 0 ⟨a, []⟩ m) :
    Step a m.arena

/-- Any number of steps. -/
def Reaches : ColumnArena → ColumnArena → Prop := Relation.ReflTransGen Step

variable {a b : ColumnArena}

/-- **One step** keeps a sound arena so, and its entries at their places. -/
theorem Step.sound_keeps (h : a.Step b) (ha : a.IsSound) : b.IsSound ∧ a.Keeps b := by
  cases h with
  | insert column origin r => exact ⟨ha.insert column origin r, ha.keeps_insert column origin r⟩
  | link h =>
    obtain ⟨hadvances, -⟩ := h.advances ha fun j hj => absurd hj (Nat.not_lt_zero j)
    exact ⟨hadvances.sound, hadvances.keeps⟩

/-- **Any steps** do. -/
theorem Reaches.sound_keeps (h : a.Reaches b) (ha : a.IsSound) : b.IsSound ∧ a.Keeps b := by
  induction h with
  | refl => exact ⟨ha, .refl a⟩
  | tail _ hstep ih =>
    obtain ⟨hsound, hkeeps⟩ := hstep.sound_keeps ih.1
    exact ⟨hsound, ih.2.trans hkeeps⟩

/-- **Runs of an arena.**  After any insertions and linkings names and keys are distinct, the table
of names leads from every name to the place of its own column and the set of keys has just the keys,
and the links of an entry are places of the arena, each once.  Linking ends, in one way only, with
nothing left to be linked, and adds hidden columns at most; a column of a name or key that is taken
is refused, and then nothing changes; and whatever comes after keeps every entry at its place, and
all that is linked as it is. -/
theorem runs (h : Reaches {} a) :
    a.IsSound ∧
    (∀ build : ColumnBuilder, Sweeps build 0 ⟨a, []⟩ (a.link build) ∧
      ∀ m, Sweeps build 0 ⟨a, []⟩ m →
        m = a.link build ∧ a.Advances m.arena ∧ ∀ c ∈ m.arena.entries, c.IsLinked) ∧
    (∀ column origin r,
      ((a.insert column origin r).1 = none ↔
        column.name ∈ a.names ∨ column.key ∈ a.columnKeys) ∧
      ((a.insert column origin r).1 = none → (a.insert column origin r).2 = a) ∧
      ∀ i, (a.insert column origin r).1 = some i → i = a.entries.length ∧
        (a.insert column origin r).2.entries = a.entries ++ [.ofColumn column origin r]) ∧
    ∀ b, a.Reaches b → a.Keeps b := by
  obtain ⟨ha, -⟩ := h.sound_keeps isSound_empty
  refine ⟨ha, fun build => ⟨sweeps_link ha build, ?_⟩,
    fun column origin r => ⟨ha.insert_eq_none_iff, insert_of_none, ?_⟩,
    fun b hb => (hb.sound_keeps ha).2⟩
  · intro m hm
    obtain ⟨hadvances, hlinked⟩ := hm.advances ha fun j hj => absurd hj (Nat.not_lt_zero j)
    exact ⟨hm.unique (sweeps_link ha build), hadvances, hlinked⟩
  · intro i hi
    rcases ha.insert_cases column origin r with ⟨-, -, heq⟩ | ⟨-, heq⟩
    · rw [heq] at hi ⊢
      exact ⟨(Option.some.inj hi).symm, rfl⟩
    · rw [heq] at hi
      cases hi

/-! ### An arena of totals -/

/-- A total, which shows the net amount and the tax. -/
def withTotal : ColumnArena :=
  (insert {} { key := "DataField::Total", name := "Total", kind := .lineItem } .lineItem
    { properties := ["Net", "Tax"] }).2

/-- A builder that answers only when it is asked for the first time. -/
def answersOnce : ColumnBuilder := fun asked hidden =>
  if asked.isEmpty then some { key := hidden.key, name := hidden.name, kind := .property }
  else none

/-- The net amount gets its hidden column and the tax does not; linking again, after a column of
the tax is there, does not change that. -/
theorem runs_totals :
    Reaches {} (withTotal.link answersOnce).arena ∧
    (withTotal.link answersOnce).arena.names = ["Total", "Net"] ∧
    (withTotal.link answersOnce).arena.byName.entries = [("Net", 1), ("Total", 0)] ∧
    (withTotal.link answersOnce).arena.IsSound ∧
    ∀ b, (withTotal.link answersOnce).arena.Reaches b →
      (withTotal.link answersOnce).arena.Keeps b := by
  have hinsert : Reaches {} withTotal := .single (.insert _ _ _)
  have hlink := (runs hinsert).2.1 answersOnce
  have hreaches := hinsert.tail (.link hlink.1)
  obtain ⟨hsound, -, -, hkeeps⟩ := runs hreaches
  exact ⟨hreaches, by decide, by decide, hsound, hkeeps⟩

end ColumnArena

end TableCompiler
