import TableCompiler.Proofs.CustomElements

/-!
# Anchors that are reported

An anchor is reported where the elements that wait are given up.  They all go to the end of the list
then, so an anchor that is reported may be that of an element that waited in vain as well: it is
missing just if no element of its key is reported itself.  Every anchor that is missing is reported.

* `ReportedAnchor`, `ReportsAnchors` — what a report of an anchor says about the list, and when an
  anchor is reported;
* `IsArrangement.mem_problems_iff` — which elements are reported;
* `IsArrangement.exists_mem`, `IsArrangement.exists_report` — reports and elements of the list;
* `IsArrangement.reportedAnchor`, `IsArrangement.reportsAnchors` — the reports of an arrangement;
* `ControlConfiguration.anchors_reported` — merged columns and actions.
-/

namespace TableCompiler

variable {α : Type} {key : α → String} {built : List α} {custom : List (Custom α)}
  {result : Reported (List α)}

/-- What a report of an anchor says about a list: the element that is anchored there is in the
list, the anchor is no built element, and an element of its key is in the list exactly if one is
reported for an anchor of its own. -/
structure ReportedAnchor (key : α → String) (built : List String) (result : Reported (List α))
    (anchor element : String) : Prop where
  stands : ∃ x ∈ result.value, key x = element
  notBuilt : anchor ∉ built
  missing : (∃ x ∈ result.value, key x = anchor) ↔
    ∃ other, .unknownAnchor other anchor ∈ result.problems

/-- A list with custom elements reports every anchor that is missing; what it reports is an anchor
that is missing or reported itself. -/
structure ReportsAnchors (key : α → String) (built : List String) (custom : List (Custom α))
    (result : Reported (List α)) : Prop where
  reported : ∀ anchor element, .unknownAnchor anchor element ∈ result.problems →
    ReportedAnchor key built result anchor element
  complete : ∀ p ∈ anchored custom, (∀ x ∈ result.value, key x ≠ p.anchor) →
    .unknownAnchor p.anchor (key p.element) ∈ result.problems

namespace IsArrangement

/-- What is reported is an element with an anchor that has no place. -/
theorem mem_problems_iff (h : IsArrangement key built custom result) {anchor element : String} :
    .unknownAnchor anchor element ∈ result.problems ↔
      ∃ p ∈ anchored custom, p.anchor = anchor ∧ key p.element = element ∧
        ¬ Placed.Grounded key (built ++ unanchored custom) (anchored custom) anchor := by
  obtain ⟨front, lost, -, hsub, hlost, hproblems⟩ := h.lost
  have hreported : .unknownAnchor anchor element ∈ result.problems ↔
      Problem.unknownAnchor anchor element ∈
        lost.map fun p => .unknownAnchor p.anchor (key p.element) := by
    rw [← hproblems, List.mem_filter]
    exact (and_iff_left rfl).symm
  rw [hreported, List.mem_map]
  constructor
  · rintro ⟨p, hp, hsame⟩
    obtain ⟨rfl, rfl⟩ := Problem.unknownAnchor.inj hsame
    have hanchored := hsub.subset hp
    exact ⟨p, hanchored, rfl, rfl, (hlost p hanchored).1 hp⟩
  · rintro ⟨p, hp, rfl, rfl, hfree⟩
    exact ⟨p, (hlost p hp).2 hfree, rfl⟩

/-- An element that is reported is in the list. -/
theorem exists_mem (h : IsArrangement key built custom result) {anchor element : String}
    (hreport : .unknownAnchor anchor element ∈ result.problems) :
    ∃ x ∈ result.value, key x = element := by
  obtain ⟨p, hp, -, rfl, -⟩ := h.mem_problems_iff.1 hreport
  obtain ⟨c, hc, hplaced⟩ := List.mem_filterMap.1 hp
  refine ⟨p.element, h.perm.mem_iff.2 (List.mem_append_right _ ?_), rfl⟩
  rw [Custom.element_of_placed? hplaced]
  exact List.mem_map_of_mem hc

/-- An element whose key has no place is reported. -/
theorem exists_report (h : IsArrangement key built custom result) {x : α} (hx : x ∈ result.value)
    (hfree : ¬ Placed.Grounded key (built ++ unanchored custom) (anchored custom) (key x)) :
    ∃ anchor, .unknownAnchor anchor (key x) ∈ result.problems := by
  -- all elements are built ones, or have no anchor, or have one
  have hperm : result.value.Perm
      (built ++ (unanchored custom ++ (anchored custom).map (·.element))) :=
    h.perm.trans ((free_append_placed_perm custom).symm.append_left built)
  have hmem := hperm.mem_iff.1 hx
  rw [← List.append_assoc, List.mem_append] at hmem
  rcases hmem with hfixed | hanchored
  · exact absurd (.fixed hfixed) hfree
  · obtain ⟨p, hp, rfl⟩ := List.mem_map.1 hanchored
    have hlost : ¬ Placed.Grounded key (built ++ unanchored custom) (anchored custom) p.anchor :=
      fun hplace => hfree (.beside hp hplace)
    exact ⟨p.anchor, h.mem_problems_iff.2 ⟨p, hp, rfl, rfl, hlost⟩⟩

/-- **Every report of an arrangement.** -/
theorem reportedAnchor (h : IsArrangement key built custom result) {anchor element : String}
    (hreport : .unknownAnchor anchor element ∈ result.problems) :
    ReportedAnchor key (built.map key) result anchor element := by
  obtain ⟨-, -, -, -, hfree⟩ := h.mem_problems_iff.1 hreport
  refine ⟨h.exists_mem hreport, ?_, ?_, fun ⟨_, hother⟩ => h.exists_mem hother⟩
  · intro hbuilt
    obtain ⟨b, hb, rfl⟩ := List.mem_map.1 hbuilt
    exact hfree (.fixed (List.mem_append_left _ hb))
  · rintro ⟨x, hx, rfl⟩
    exact h.exists_report hx hfree

/-- **The reports of an arrangement.** -/
theorem reportsAnchors (h : IsArrangement key built custom result) :
    ReportsAnchors key (built.map key) custom result := by
  refine ⟨fun _ _ => h.reportedAnchor, fun p hp hmissing => ?_⟩
  refine h.mem_problems_iff.2 ⟨p, hp, rfl, rfl, fun hplace => ?_⟩
  obtain ⟨x, hx, hanchor⟩ := (h.beside p hp hplace).exists_anchor
  exact hmissing x hx hanchor

end IsArrangement

namespace ControlConfiguration

/-- **Reported anchors.**  Whatever the manifest says of the columns and actions, an anchor that is
missing in the merged list is reported.  An anchor that is reported is no built element, and it is
missing exactly if it is not reported for an anchor of its own. -/
theorem anchors_reported (control : ControlConfiguration) :
    (∀ columns : Columns, ReportsAnchors (·.key) (columns.map (·.key))
      (columns.custom control.columns).value (columns.merge control.columns)) ∧
    ∀ t : Toolbar, ReportsAnchors (·.key) t.keys (t.custom control.actions)
      (t.merge control.actions) := by
  constructor
  · intro columns
    rw [← columns.keys_override control.columns]
    exact (columns.merge_isArrangement control.columns).reportsAnchors
  · intro t
    rw [← t.keys_override control.actions]
    exact (t.merge_isArrangement control.actions).reportsAnchors

/-- An element that is anchored at one that is anchored at nothing. -/
def trailing : ControlConfiguration where
  columns := .ofList [
    ("A", { template := some "A", position := some ⟨some "Nowhere", .after⟩ }),
    ("B", { template := some "B", position := some ⟨some "A", .after⟩ })]
  actions := .ofList [
    ("A", { position := some ⟨some "Nowhere", .after⟩ }),
    ("B", { position := some ⟨some "A", .after⟩ })]

/-- The anchor of the second one is reported although it is there, as it is reported itself; that of
the first one is missing. -/
theorem anchors_reported_trailing :
    (Columns.merge [] trailing.columns).problems =
      [.unknownAnchor "Nowhere" "A", .unknownAnchor "A" "B"] ∧
    (Toolbar.merge {} trailing.actions).problems =
      [.unknownAnchor "Nowhere" "A", .unknownAnchor "A" "B"] ∧
    (∃ column ∈ (Columns.merge [] trailing.columns).value, column.key = "A") ∧
    (¬ ∃ column ∈ (Columns.merge [] trailing.columns).value, column.key = "Nowhere") ∧
    (∃ action ∈ (Toolbar.merge {} trailing.actions).value, action.key = "A") ∧
    ¬ ∃ action ∈ (Toolbar.merge {} trailing.actions).value, action.key = "Nowhere" := by
  have hcolumns : (Columns.merge [] trailing.columns).problems =
      [.unknownAnchor "Nowhere" "A", .unknownAnchor "A" "B"] := by
    decide +kernel
  have hactions : (Toolbar.merge {} trailing.actions).problems =
      [.unknownAnchor "Nowhere" "A", .unknownAnchor "A" "B"] := by
    decide +kernel
  obtain ⟨hcolumn, haction⟩ := trailing.anchors_reported
  have hchained := ((hcolumn []).reported "A" "B" (by rw [hcolumns]; decide)).missing
  have hfree := ((hcolumn []).reported "Nowhere" "A" (by rw [hcolumns]; decide)).missing
  have hchained' := ((haction {}).reported "A" "B" (by rw [hactions]; decide)).missing
  have hfree' := ((haction {}).reported "Nowhere" "A" (by rw [hactions]; decide)).missing
  rw [hcolumns] at hchained hfree
  rw [hactions] at hchained' hfree'
  have hnobody : ¬ ∃ other, Problem.unknownAnchor other "Nowhere" ∈
      [.unknownAnchor "Nowhere" "A", .unknownAnchor "A" "B"] := by
    simp
  exact ⟨hcolumns, hactions, hchained.2 ⟨"Nowhere", List.mem_cons_self⟩, mt hfree.1 hnobody,
    hchained'.2 ⟨"Nowhere", List.mem_cons_self⟩, mt hfree'.1 hnobody⟩

example :
    (Columns.merge [] trailing.columns).value.map (·.key) = ["A", "B"] ∧
    (Columns.merge [] trailing.columns).problems.map (·.message) =
      ["anchor Nowhere of A does not exist", "anchor A of B does not exist"] := by
  decide +kernel

end ControlConfiguration

end TableCompiler
