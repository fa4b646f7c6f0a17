import Mathlib.Logic.Relation
import TableCompiler.Proofs.Placement

/-!
# Where custom elements stand

A custom element stands beside its anchor, with none but custom elements between the two.  It finds
its anchor exactly if the anchor has a place without it, however the anchors of the others chain or
circle; all that wait in vain stand at the end.

* `Precedes` — one element stands before another one, and what is between them is of a kind;
* `Placed.StandsBeside` — an element stands on its side of its anchor;
* `Placed.Grounded` — the keys of the elements that find a place;
* `Placed.Places` — one element is placed; `Placed.settle_places` — nothing else ever happens;
* `Placed.Settling` — what placing an element keeps;
* `Placed.mem_settle_iff`, `Placed.standsBeside_settle` — which elements are lost, and where the
  others stand;
* `IsArrangement`, `placeAll_isArrangement` — the whole placement.
-/

namespace TableCompiler

variable {α : Type}

/-! ### One element before another one -/

/-- `x` stands before `y`, and all elements between the two are of a kind. -/
def Precedes (P : α → Prop) (x y : α) (items : List α) : Prop :=
  ∃ front between back, items = front ++ x :: (between ++ y :: back) ∧ ∀ z ∈ between, P z

namespace Precedes

variable {P : α → Prop} {x y : α} {front back : List α}

theorem mem_left {items : List α} (h : Precedes P x y items) : x ∈ items := by
  obtain ⟨front, between, back, rfl, -⟩ := h
  exact List.mem_append_right _ List.mem_cons_self

theorem mem_right {items : List α} (h : Precedes P x y items) : y ∈ items := by
  obtain ⟨front, between, back, rfl, -⟩ := h
  refine List.mem_append_right _ (List.mem_cons_of_mem _ ?_)
  exact List.mem_append_right _ List.mem_cons_self

theorem append {items : List α} (h : Precedes P x y items) (more : List α) :
    Precedes P x y (items ++ more) := by
  obtain ⟨front, between, back, rfl, hbetween⟩ := h
  exact ⟨front, between, back ++ more, by simp, hbetween⟩

/-- An element of the kind may come in anywhere. -/
theorem insert (h : Precedes P x y (front ++ back)) {z : α} (hz : P z) :
    Precedes P x y (front ++ z :: back) := by
  obtain ⟨before, between, after, heq, hbetween⟩ := h
  rcases List.append_eq_append_iff.1 heq with ⟨rest, rfl, rfl⟩ | ⟨rest, rfl, htail⟩
  · -- it comes in before `x`
    exact ⟨front ++ z :: rest, between, after, by simp, hbetween⟩
  · rcases List.append_eq_cons_iff.1 htail.symm with ⟨rfl, rfl⟩ | ⟨rest, rfl, hrest⟩
    · exact ⟨before ++ [z], between, after, by simp, hbetween⟩
    · rcases List.append_eq_append_iff.1 hrest with ⟨inner, rfl, hafter⟩ | ⟨inner, rfl, rfl⟩
      · rcases List.append_eq_cons_iff.1 hafter.symm with ⟨rfl, rfl⟩ | ⟨later, rfl, rfl⟩
        · -- it comes in between the two, right before `y`
          refine ⟨before, between ++ [z], after, by simp, ?_⟩
          intro w hw
          rcases List.mem_append.1 hw with hw | hw
          · exact hbetween w hw
          · rw [List.mem_singleton.1 hw]
            exact hz
        · -- it comes in after `y`
          exact ⟨before, between, later ++ z :: back, by simp, hbetween⟩
      · -- it comes in between the two
        refine ⟨before, rest ++ z :: inner, after, by simp, ?_⟩
        intro w hw
        rcases List.mem_append.1 hw with hw | hw
        · exact hbetween w (List.mem_append_left _ hw)
        · rcases List.mem_cons.1 hw with rfl | hw
          · exact hz
          · exact hbetween w (List.mem_append_right _ hw)

end Precedes

namespace Placed

variable (key : α → String)

/-! ### Anchors -/

/-- An element stands on its side of one that has the key of its anchor, and all that is between
the two is of a kind. -/
def StandsBeside (P : α → Prop) (p : Placed α) (items : List α) : Prop :=
  ∃ anchor, key anchor = p.anchor ∧
    match p.side with
    | .before => Precedes P p.element anchor items
    | .after => Precedes P anchor p.element items

/-- The keys of the elements that have a place: those that are fixed, and those whose anchor has a
place. -/
inductive Grounded (fixed : List α) (placed : List (Placed α)) : String → Prop
  | fixed {x : α} (hx : x ∈ fixed) : Grounded fixed placed (key x)
  | beside {p : Placed α} (hp : p ∈ placed) (hanchor : Grounded fixed placed p.anchor) :
      Grounded fixed placed (key p.element)

variable {key}

namespace StandsBeside

variable {P : α → Prop} {p : Placed α}

theorem exists_anchor {items : List α} (h : p.StandsBeside key P items) :
    ∃ anchor ∈ items, key anchor = p.anchor := by
  obtain ⟨anchor, hanchor, hside⟩ := h
  refine ⟨anchor, ?_, hanchor⟩
  split at hside
  · exact hside.mem_right
  · exact hside.mem_left

theorem mem {items : List α} (h : p.StandsBeside key P items) : p.element ∈ items := by
  obtain ⟨anchor, -, hside⟩ := h
  split at hside
  · exact hside.mem_left
  · exact hside.mem_right

theorem append {items : List α} (h : p.StandsBeside key P items) (more : List α) :
    p.StandsBeside key P (items ++ more) := by
  obtain ⟨anchor, hanchor, hside⟩ := h
  refine ⟨anchor, hanchor, ?_⟩
  split at hside
  · exact hside.append more
  · exact hside.append more

theorem insert {front back : List α} (h : p.StandsBeside key P (front ++ back)) {z : α}
    (hz : P z) : p.StandsBeside key P (front ++ z :: back) := by
  obtain ⟨anchor, hanchor, hside⟩ := h
  refine ⟨anchor, hanchor, ?_⟩
  split at hside
  · exact hside.insert hz
  · exact hside.insert hz

end StandsBeside

theorem isAnchored_iff {p : Placed α} {items : List α} :
    p.isAnchored key items = true ↔ ∃ x ∈ items, key x = p.anchor := by
  rw [isAnchored, List.any_eq_true]
  simp only [beq_iff_eq]

/-! ### Placing one element -/

/-- **One element.**  It is put in beside its anchor, and the others stay as they are. -/
theorem insertAt_spec (P : α → Prop) {p : Placed α} {items : List α}
    (h : p.isAnchored key items = true) :
    p.StandsBeside key P (p.insertAt key items) ∧
      ∃ front back, items = front ++ back ∧ p.insertAt key items = front ++ p.element :: back := by
  induction items with
  | nil => cases h
  | cons x rest ih =>
    rw [insertAt]
    split
    · rename_i hx
      cases hside : p.side with
      | before =>
        refine ⟨⟨x, hx, ?_⟩, [], x :: rest, rfl, rfl⟩
        rw [hside]
        exact ⟨[], [], rest, rfl, by simp⟩
      | after =>
        refine ⟨⟨x, hx, ?_⟩, [x], rest, rfl, rfl⟩
        rw [hside]
        exact ⟨[], [], rest, rfl, by simp⟩
    · rename_i hx
      have hrest : p.isAnchored key rest = true := by
        rw [isAnchored, List.any_cons, Bool.or_eq_true, beq_iff_eq] at h
        exact h.resolve_left hx
      obtain ⟨⟨anchor, hanchor, hbeside⟩, front, back, hitems, hinsert⟩ := ih hrest
      refine ⟨⟨anchor, hanchor, ?_⟩, x :: front, back, by rw [hitems]; rfl,
        by rw [hinsert]; rfl⟩
      split at hbeside
      · obtain ⟨before, between, after, heq, hbetween⟩ := hbeside
        exact ⟨x :: before, between, after, by rw [heq]; rfl, hbetween⟩
      · obtain ⟨before, between, after, heq, hbetween⟩ := hbeside
        exact ⟨x :: before, between, after, by rw [heq]; rfl, hbetween⟩

variable (key) in
/-- One of the waiting elements is placed. -/
inductive Places : List α × List (Placed α) → List α × List (Placed α) → Prop
  | place (front : List (Placed α)) {items : List α} {back : List (Placed α)} {p : Placed α}
      (h : p.isAnchored key items = true) :
      Places (items, front ++ p :: back) (p.insertAt key items, front ++ back)

open Relation (ReflTransGen)

/-- A pass places elements one by one. -/
theorem pass_places (waiting : List (Placed α)) (items : List α) :
    ReflTransGen (Places key) (items, waiting) (pass key waiting items) := by
  induction waiting generalizing items with
  | nil => exact .refl
  | cons p waiting ih =>
    rw [pass]
    split
    · rename_i h
      have hfirst : Places key (items, p :: waiting) (p.insertAt key items, waiting) := .place [] h
      exact .head hfirst (ih _)
    · -- what is placed behind `p` is placed all the same
      refine ReflTransGen.lift (p := Places key)
        (fun s : List α × List (Placed α) => (s.1, p :: s.2)) ?_ _ _ (ih items)
      rintro _ _ ⟨front, h⟩
      exact .place (p :: front) h

/-- **All that happens.**  Whatever is placed, is placed one by one. -/
theorem settle_places (waiting : List (Placed α)) (items : List α) :
    ReflTransGen (Places key) (items, waiting) (settle key waiting items) := by
  fun_induction settle key waiting items with
  | case1 waiting items next h ih => exact (pass_places waiting items).trans ih
  | case2 waiting items next h => exact pass_places waiting items

/-- A pass after which as many elements wait as before has found no anchor. -/
theorem not_isAnchored_of_pass {waiting : List (Placed α)} {items : List α}
    (h : ¬ (pass key waiting items).2.length < waiting.length) :
    pass key waiting items = (items, waiting) ∧
      ∀ p ∈ waiting, ¬ p.isAnchored key items = true := by
  induction waiting with
  | nil => exact ⟨rfl, by simp⟩
  | cons p waiting ih =>
    rw [pass] at h ⊢
    split at h
    · have hle := length_pass_le key waiting (p.insertAt key items)
      rw [List.length_cons] at h
      omega
    · rename_i hp
      have hrest : ¬ (pass key waiting items).2.length < waiting.length := by
        simpa using h
      obtain ⟨hpass, hwaiting⟩ := ih hrest
      rw [if_neg hp, hpass]
      exact ⟨rfl, List.forall_mem_cons.2 ⟨hp, hwaiting⟩⟩

/-- No element that waits in the end has its anchor in the list. -/
theorem not_isAnchored_settle (waiting : List (Placed α)) (items : List α) :
    ∀ p ∈ (settle key waiting items).2,
      ¬ p.isAnchored key (settle key waiting items).1 = true := by
  fun_induction settle key waiting items with
  | case1 waiting items next h ih => exact ih
  | case2 waiting items next h =>
    obtain ⟨hpass, hwaiting⟩ := not_isAnchored_of_pass h
    show ∀ p ∈ (pass key waiting items).2,
      ¬ p.isAnchored key (pass key waiting items).1 = true
    rw [hpass]
    exact hwaiting

/-! ### What placing keeps -/

variable (key) in
/-- What is kept while elements are placed: those that were there stay in order, those that wait
wait in order, all others stand beside their anchors, and every key is that of an element with a
place. -/
structure Settling (P : α → Prop) (fixed : List α) (placed : List (Placed α))
    (s : List α × List (Placed α)) : Prop where
  kept : fixed.Sublist s.1
  waiting : s.2.Sublist placed
  stands : ∀ p ∈ placed, p ∈ s.2 ∨ p.StandsBeside key P s.1
  grounded : ∀ x ∈ s.1, Grounded key fixed placed (key x)

section Settling

variable {P : α → Prop} {fixed : List α} {placed : List (Placed α)}

theorem Settling.start (P : α → Prop) (fixed : List α) (placed : List (Placed α)) :
    Settling key P fixed placed (fixed, placed) where
  kept := .refl _
  waiting := .refl _
  stands := fun _ hp => .inl hp
  grounded := fun _ hx => .fixed hx

/-- **Step.**  Placing an element of the kind keeps all of this. -/
theorem Settling.step (hP : ∀ p ∈ placed, P p.element) {s t : List α × List (Placed α)}
    (hs : Settling key P fixed placed s) (h : Places key s t) :
    Settling key P fixed placed t := by
  obtain @⟨before, items, behind, p, hanchored⟩ := h
  have hp : p ∈ placed :=
    hs.waiting.subset (List.mem_append_right _ List.mem_cons_self)
  obtain ⟨hbeside, front, back, hitems, hinsert⟩ := insertAt_spec P hanchored
  have hitems' : items = front ++ back := hitems
  refine ⟨?_, ?_, ?_, ?_⟩
  · have hgrown : items.Sublist (p.insertAt key items) := by
      rw [hinsert, hitems']
      exact (List.Sublist.refl front).append (List.sublist_cons_self _ back)
    exact hs.kept.trans hgrown
  · have hshrunk : (before ++ behind).Sublist (before ++ p :: behind) :=
      (List.Sublist.refl before).append (List.sublist_cons_self _ behind)
    exact hshrunk.trans hs.waiting
  · intro q hq
    rcases hs.stands q hq with hwaits | hstands
    · rcases List.mem_append.1 hwaits with hmem | hmem
      · exact .inl (List.mem_append_left _ hmem)
      · rcases List.mem_cons.1 hmem with rfl | hmem
        · exact .inr hbeside
        · exact .inl (List.mem_append_right _ hmem)
    · refine .inr ?_
      have hstands' : q.StandsBeside key P (front ++ back) := hitems' ▸ hstands
      show q.StandsBeside key P (p.insertAt key items)
      rw [hinsert]
      exact hstands'.insert (hP p hp)
  · intro x hx
    have hx' : x ∈ p.insertAt key items := hx
    rw [hinsert, List.mem_append, List.mem_cons] at hx'
    obtain ⟨anchor, hmem, hanchor⟩ := isAnchored_iff.1 hanchored
    rcases hx' with hmem' | rfl | hmem'
    · exact hs.grounded x (hitems ▸ List.mem_append_left _ hmem')
    · exact .beside hp (hanchor ▸ hs.grounded anchor hmem)
    · exact hs.grounded x (hitems ▸ List.mem_append_right _ hmem')

/-- **Run.**  So it is kept to the end. -/
theorem settling_settle (hP : ∀ p ∈ placed, P p.element) :
    Settling key P fixed placed (settle key placed fixed) := by
  have hrun : ReflTransGen (Places key) (fixed, placed) (settle key placed fixed) :=
    settle_places placed fixed
  generalize settle key placed fixed = t at hrun
  induction hrun with
  | refl => exact .start P fixed placed
  | tail _ hstep ih => exact ih.step hP hstep

/-- Every key with a place is that of an element of the list in the end. -/
theorem exists_mem_settle_of_grounded {k : String} (h : Grounded key fixed placed k) :
    ∃ x ∈ (settle key placed fixed).1, key x = k := by
  have hkept : Settling key (fun _ => True) fixed placed (settle key placed fixed) :=
    settling_settle fun _ _ => trivial
  induction h with
  | @fixed x hx => exact ⟨x, hkept.kept.subset hx, rfl⟩
  | @beside p hp _ ih =>
    have hanchored : p.isAnchored key (settle key placed fixed).1 = true := isAnchored_iff.2 ih
    rcases hkept.stands p hp with hwaits | hstands
    · exact (not_isAnchored_settle placed fixed p hwaits hanchored).elim
    · exact ⟨p.element, hstands.mem, rfl⟩

/-- **Lost elements** are those whose anchor has no place. -/
theorem mem_settle_iff {p : Placed α} (hp : p ∈ placed) :
    p ∈ (settle key placed fixed).2 ↔ ¬ Grounded key fixed placed p.anchor := by
  have hkept : Settling key (fun _ => True) fixed placed (settle key placed fixed) :=
    settling_settle fun _ _ => trivial
  constructor
  · intro hlost hgrounded
    have hanchored : p.isAnchored key (settle key placed fixed).1 = true :=
      isAnchored_iff.2 (exists_mem_settle_of_grounded hgrounded)
    exact not_isAnchored_settle placed fixed p hlost hanchored
  · intro hfree
    rcases hkept.stands p hp with hwaits | hstands
    · exact hwaits
    · obtain ⟨anchor, hmem, hanchor⟩ := hstands.exists_anchor
      exact (hfree (hanchor ▸ hkept.grounded anchor hmem)).elim

/-- The others stand beside their anchors. -/
theorem standsBeside_settle (hP : ∀ p ∈ placed, P p.element) {p : Placed α} (hp : p ∈ placed)
    (h : Grounded key fixed placed p.anchor) :
    p.StandsBeside key P (settle key placed fixed).1 := by
  have hkept : Settling key P fixed placed (settle key placed fixed) := settling_settle hP
  rcases hkept.stands p hp with hwaits | hstands
  · exact ((mem_settle_iff hp).1 hwaits h).elim
  · exact hstands

end Settling

end Placed

/-! ### The whole placement -/

/-- The custom elements without an anchor. -/
def unanchored (custom : List (Custom α)) : List α :=
  custom.filterMap fun c => if c.placed?.isSome then none else some c.1

/-- The custom elements with an anchor. -/
def anchored (custom : List (Custom α)) : List (Placed α) :=
  custom.filterMap Custom.placed?

/-- A list of built and custom elements as it should be: each stands there once; the built ones keep
their order, and those without an anchor follow them in theirs; those with an anchor that has a place
stand beside it, with none but custom elements between; and the others stand at the end, in their
order, with one report each. -/
structure IsArrangement (key : α → String) (built : List α) (custom : List (Custom α))
    (result : Reported (List α)) : Prop where
  perm : result.value.Perm (built ++ custom.map (·.1))
  fixed : (built ++ unanchored custom).Sublist result.value
  beside : ∀ p ∈ anchored custom,
    Placed.Grounded key (built ++ unanchored custom) (anchored custom) p.anchor →
      p.StandsBeside key (· ∈ custom.map (·.1)) result.value
  lost : ∃ (front : List α) (lost : List (Placed α)),
    result.value = front ++ lost.map (·.element) ∧ lost.Sublist (anchored custom) ∧
    (∀ p ∈ anchored custom, p ∈ lost ↔
      ¬ Placed.Grounded key (built ++ unanchored custom) (anchored custom) p.anchor) ∧
    result.problems.filter (fun problem => problem.code == "UNKNOWN_ANCHOR") =
      lost.map fun p => .unknownAnchor p.anchor (key p.element)

/-- Every lost element is reported, once and in order. -/
theorem problems_appendLost (key : α → String) (items : List α) (lost : List (Placed α)) :
    (appendLost key items lost).problems =
      lost.map fun p => .unknownAnchor p.anchor (key p.element) := by
  have hloop : ∀ lost : List (Placed α), (forIn lost PUnit.unit fun p _ => do
      Reported.report (.unknownAnchor p.anchor (key p.element))
      pure (ForInStep.yield PUnit.unit) : Reported PUnit).problems =
        lost.map fun p => .unknownAnchor p.anchor (key p.element) := by
    intro lost
    induction lost with
    | nil => rfl
    | cons p lost ih =>
      rw [List.forIn_cons, Reported.problems_bind, List.map_cons]
      show [_] ++ _ = _
      rw [List.singleton_append]
      exact congrArg _ ih
  rw [appendLost, Reported.problems_bind, hloop, Reported.problems_pure, List.append_nil]

/-- **Custom elements find their places.** -/
theorem placeAll_isArrangement (key : α → String) (built : List α) (custom : List (Custom α)) :
    IsArrangement key built custom (placeAll key built custom) := by
  have hcustom : ∀ p ∈ anchored custom, p.element ∈ custom.map (·.1) := by
    intro p hp
    obtain ⟨c, hc, hplaced⟩ := List.mem_filterMap.1 hp
    exact Custom.element_of_placed? hplaced ▸ List.mem_map_of_mem hc
  have hkept : Placed.Settling key (· ∈ custom.map (·.1)) (built ++ unanchored custom)
      (anchored custom) (Placed.settle key (anchored custom) (built ++ unanchored custom)) :=
    Placed.settling_settle hcustom
  have hvalue : (placeAll key built custom).value =
      (Placed.settle key (anchored custom) (built ++ unanchored custom)).1 ++
        (Placed.settle key (anchored custom) (built ++ unanchored custom)).2.map (·.element) := rfl
  refine ⟨placeAll_perm key built custom, ?_, ?_, ?_⟩
  · rw [hvalue]
    exact hkept.kept.trans (List.sublist_append_left _ _)
  · intro p hp hgrounded
    rw [hvalue]
    exact (Placed.standsBeside_settle hcustom hp hgrounded).append _
  · refine ⟨_, _, hvalue, hkept.waiting, fun p hp => Placed.mem_settle_iff hp, ?_⟩
    have hproblems : (placeAll key built custom).problems =
        (Placed.settle key (anchored custom) (built ++ unanchored custom)).2.map
          fun p => .unknownAnchor p.anchor (key p.element) := problems_appendLost key _ _
    rw [hproblems, List.filter_eq_self]
    intro problem hproblem
    obtain ⟨p, -, rfl⟩ := List.mem_map.1 hproblem
    rfl

end TableCompiler
