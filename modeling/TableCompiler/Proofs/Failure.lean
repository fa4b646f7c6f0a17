import TableCompiler.Compile
import TableCompiler.Proofs.Reach

/-!
# When there is no table

A compilation fails under five conditions, each looked at only if none of those before it holds.
Whatever else is wrong with annotations, manifest or request is reported and leaves a table.

* `Context.Fails` — the five conditions, each with its error;
* `Context.Settles` — what is settled if none of the first four holds;
* `Context.resolve_cases` — settling a request;
* `Scope.table_eq_error_iff` — compiling it after that;
* `Context.compile_fails_iff` — the outcome of a compilation.
-/

namespace TableCompiler

/-! ### The conditions -/

/-- The navigation of a request, without slashes around it. -/
def TableRequest.navigation (r : TableRequest) : String :=
  Text.trimBoth '/' r.navigationPath

/-- An action creates the entities of a set: that of its drafts, or else that of its sessions. -/
def EntitySet.HasNewAction (set : EntitySet) (action : String) : Prop :=
  (∃ root, set.annotations.draftRoot = some root ∧ root.newAction = some action) ∨
    (∀ root, set.annotations.draftRoot = some root → root.newAction = none) ∧
      set.annotations.stickySession = some (some action)

namespace Context

/-- The rows of a request are those of a type, reached from an entity set. -/
def ReachesRows (c : Context) (r : TableRequest) (set : EntitySet) (t : EntityType) : Prop :=
  c.service.HasSet r.entitySet set ∧ ∃ root, c.service.HasType set.entityType root ∧
    c.service.Leads root (Text.segments '/' r.navigation) t

/-- The table settings that the manifest has for a request ask for creation in a row of the
table. -/
def AsksForCreationRow (c : Context) (r : TableRequest) : Prop :=
  ∃ control settings, c.control? r.navigation r.lineItem = some control ∧
    control.tableSettings.creationMode = some settings ∧ settings.mode = some .creationRow

/-- Why there is no table for a request.  Each condition requires that those before it do not
hold. -/
inductive Fails (c : Context) (r : TableRequest) : CompileError → Prop
  /-- No entity set has the name. -/
  | entitySet (h : ∀ set ∈ c.service.entitySets, set.name ≠ r.entitySet) :
    Fails c r (.unknownEntitySet r.entitySet)
  /-- No entity type has the name that the entity set gives. -/
  | entityType {set : EntitySet} (hset : c.service.HasSet r.entitySet set)
    (h : ∀ t ∈ c.service.entityTypes, ¬ (t.name = set.entityType ∨ t.shortName = set.entityType)) :
    Fails c r (.unknownEntityType set.entityType)
  /-- The navigation leads nowhere. -/
  | navigation {set : EntitySet} {root : EntityType} (hset : c.service.HasSet r.entitySet set)
    (hroot : c.service.HasType set.entityType root)
    (h : ∀ t, ¬ c.service.Leads root (Text.segments '/' r.navigation) t) :
    Fails c r (.unknownNavigation set.name r.navigation)
  /-- The path of the line item names none. -/
  | lineItem {set : EntitySet} {t : EntityType} (hrows : c.ReachesRows r set t)
    (h : ∀ records, ¬ c.service.HasLineItem t r.lineItem records) :
    Fails c r (.missingLineItem r.lineItem t.name)
  /-- Rows are to be created in the table although the set that holds them has a new action. -/
  | creationRow {set last : EntitySet} {t : EntityType} {records : List DataField}
    {action : String} (hrows : c.ReachesRows r set t)
    (hrecords : c.service.HasLineItem t r.lineItem records) (hmode : c.AsksForCreationRow r)
    (hlast : c.service.Arrives set (Text.segments '/' r.navigation) last)
    (haction : last.HasNewAction action) :
    Fails c r (.creationRowWithNewAction action)

/-! ### Settling a request -/

/-- A request is settled as a scope. -/
structure Settles (c : Context) (r : TableRequest) (s : Scope) : Prop where
  rows : c.ReachesRows r s.entitySet s.entityType
  lineItem : c.service.HasLineItem s.entityType r.lineItem s.lineItem
  targetSet : c.service.Arrives s.entitySet (Text.segments '/' r.navigation) s.targetSet
  control : s.control = c.control? r.navigation r.lineItem

/-- What settling a request comes to: an error of the first four conditions, or a scope. -/
theorem resolve_cases (c : Context) (r : TableRequest) :
    (∃ e, c.resolve r = .error e ∧ c.Fails r e) ∨
      ∃ scope, c.resolve r = .ok scope ∧ c.Settles r scope.value := by
  rw [resolve]
  cases hset : c.service.entitySet? r.entitySet with
  | none => exact .inl ⟨_, rfl, .entitySet (Service.entitySet?_eq_none_iff.1 hset)⟩
  | some set =>
    have hhasSet := Service.entitySet?_eq_some_iff.1 hset
    dsimp only
    cases hroot : c.service.entityType? set.entityType with
    | none => exact .inl ⟨_, rfl, .entityType hhasSet (Service.entityType?_eq_none_iff.1 hroot)⟩
    | some root =>
      have hhasRoot := Service.entityType?_eq_some_iff.1 hroot
      dsimp only
      cases htype : c.service.entityTypeAt? root r.navigation with
      | none =>
        rw [TableRequest.navigation] at htype
        rw [htype]
        exact .inl ⟨_, rfl, .navigation hhasSet hhasRoot (Service.follow?_eq_none_iff.1 htype)⟩
      | some t =>
        have hrows : c.ReachesRows r set t :=
          ⟨hhasSet, root, hhasRoot, Service.follow?_eq_some_iff.1 htype⟩
        rw [TableRequest.navigation] at htype
        rw [htype]
        dsimp only
        cases hrecords : c.service.lineItemAt? t r.lineItem with
        | none =>
          exact .inl ⟨_, rfl, .lineItem hrows (Service.lineItemAt?_eq_none_iff.1 hrecords)⟩
        | some records =>
          have hlineItem := Service.lineItemAt?_eq_some_iff.1 hrecords
          refine .inr ⟨_, rfl, ?_⟩
          rw [Reported.value_bind, Reported.value_pure]
          refine ⟨hrows, hlineItem, ?_, rfl⟩
          rw [← Service.lastSet_eq_iff, TableRequest.navigation]

end Context

/-! ### Creation of rows -/

theorem EntitySet.newAction?_eq_some_iff {set : EntitySet} {action : String} :
    set.newAction? = some action ↔ set.HasNewAction action := by
  rw [newAction?, HasNewAction, Option.or_eq_some_iff, Option.bind_eq_some_iff,
    Option.bind_eq_none_iff, Option.join_eq_some_iff]

namespace Scope

/-- Rows are to be created in the table, and the set that holds them has a new action. -/
def Conflicts (s : Scope) (action : String) : Prop :=
  s.creationMode? = some .creationRow ∧ s.targetSet.HasNewAction action

/-- The error of a conflict is that of the action. -/
theorem exists_conflict_iff {s : Scope} {e : CompileError} {action : String}
    (hmode : s.creationMode? = some .creationRow) (haction : s.targetSet.newAction? = some action) :
    (∃ other, s.Conflicts other ∧ e = .creationRowWithNewAction other) ↔
      e = .creationRowWithNewAction action := by
  constructor
  · rintro ⟨other, ⟨-, hother⟩, rfl⟩
    obtain rfl := Option.some.inj (haction.symm.trans (EntitySet.newAction?_eq_some_iff.2 hother))
    rfl
  · rintro rfl
    exact ⟨action, ⟨hmode, EntitySet.newAction?_eq_some_iff.1 haction⟩, rfl⟩

theorem inAppCreation_eq_error_iff {s : Scope} {e : CompileError} :
    s.inAppCreation.value = .error e ↔
      ∃ action, s.Conflicts action ∧ e = .creationRowWithNewAction action := by
  rw [inAppCreation]
  by_cases hmode : s.creationMode? = some .creationRow
  · have hrow : s.creationMode?.getD .newPage = .creationRow := by
      rw [hmode]
      rfl
    rw [hrow]
    dsimp only
    cases haction : s.targetSet.newAction? with
    | none =>
      refine ⟨fun h => (by cases h), ?_⟩
      rintro ⟨action, ⟨-, hother⟩, -⟩
      cases haction.symm.trans (EntitySet.newAction?_eq_some_iff.2 hother)
    | some action =>
      rw [exists_conflict_iff hmode haction, eq_comm]
      exact ⟨Except.error.inj, congrArg _⟩
  · -- every other mode is carried out, if need be as inline creation
    refine ⟨fun h => ?_, fun ⟨_, hconflict, _⟩ => (hmode hconflict.1).elim⟩
    split at h
    · rename_i hrow
      refine (hmode ?_).elim
      cases hset : s.creationMode? with
      | none =>
        rw [hset] at hrow
        cases hrow
      | some mode =>
        rw [hset] at hrow
        exact congrArg some hrow
    · split at h <;> cases h
    · split at h <;> cases h
    · cases h

theorem creation_eq_error_iff {s : Scope} {e : CompileError} :
    s.creation.value = .error e ↔
      ∃ action, s.Conflicts action ∧ e = .creationRowWithNewAction action := by
  have hinApp : ((do return (← s.inAppCreation).map CreateBehavior.inApp :
      Reported (Except CompileError CreateBehavior))).value = .error e ↔
      ∃ action, s.Conflicts action ∧ e = .creationRowWithNewAction action := by
    rw [← inAppCreation_eq_error_iff, Reported.value_bind, Reported.value_pure]
    cases s.inAppCreation.value with
    | error other => simp only [Except.map, Except.error.injEq]
    | ok created => simp only [Except.map, reduceCtorEq]
  rw [creation]
  split
  · rename_i hexternal
    split
    · refine ⟨fun h => (by cases h), ?_⟩
      rintro ⟨action, ⟨hmode, -⟩, -⟩
      rw [isExternalCreation, hmode] at hexternal
      cases hexternal
    · exact hinApp
  · exact hinApp

/-- **A settled request** fails only at the creation of rows. -/
theorem table_eq_error_iff {s : Scope} {requested : Option AnnotationPath} {e : CompileError} :
    (s.table requested).value = .error e ↔
      ∃ action, s.Conflicts action ∧ e = .creationRowWithNewAction action := by
  rw [← creation_eq_error_iff, table]
  simp only [Reported.value_bind]
  cases s.creation.value with
  | error other => simp only [Reported.value_pure, Except.error.injEq]
  | ok created => simp only [Reported.value_bind, Reported.value_pure, reduceCtorEq]

end Scope

namespace Context

variable {c : Context} {r : TableRequest}

/-! ### The outcome -/

/-- The rows of a request are settled by it. -/
theorem ReachesRows.unique {set other : EntitySet} {t u : EntityType} (h : c.ReachesRows r set t)
    (h' : c.ReachesRows r other u) : set = other ∧ t = u := by
  obtain ⟨hset, root, hroot, ht⟩ := h
  obtain ⟨hset', root', hroot', hu⟩ := h'
  simp only [← Service.entitySet?_eq_some_iff, ← Service.entityType?_eq_some_iff,
    ← Service.follow?_eq_some_iff] at hset hroot ht hset' hroot' hu
  obtain rfl := Option.some.inj (hset.symm.trans hset')
  obtain rfl := Option.some.inj (hroot.symm.trans hroot')
  exact ⟨rfl, Option.some.inj (ht.symm.trans hu)⟩

/-- A request whose rows are found is settled unless the line item is missing. -/
theorem resolve_of_rows {set : EntitySet} {t : EntityType} (hrows : c.ReachesRows r set t) :
    (c.service.lineItemAt? t r.lineItem = none ∧
        c.resolve r = .error (.missingLineItem r.lineItem t.name)) ∨
      ∃ records scope, c.service.lineItemAt? t r.lineItem = some records ∧
        c.resolve r = .ok scope := by
  obtain ⟨hset, root, hroot, ht⟩ := hrows
  have htype : c.service.entityTypeAt? root (Text.trimBoth '/' r.navigationPath) = some t :=
    Service.follow?_eq_some_iff.2 ht
  rw [resolve, Service.entitySet?_eq_some_iff.2 hset]
  dsimp only
  rw [Service.entityType?_eq_some_iff.2 hroot]
  dsimp only
  rw [htype]
  dsimp only
  cases c.service.lineItemAt? t r.lineItem with
  | none => exact .inl ⟨rfl, rfl⟩
  | some records => exact .inr ⟨records, _, rfl, rfl⟩

/-- In a settled request creation conflicts as the request says. -/
theorem Settles.conflicts_iff {s : Scope} (h : c.Settles r s) {action : String} :
    s.Conflicts action ↔ c.AsksForCreationRow r ∧ s.targetSet.HasNewAction action := by
  refine and_congr_left fun _ => ?_
  rw [AsksForCreationRow, Scope.creationMode?, Scope.settings, h.control]
  cases c.control? r.navigation r.lineItem with
  | none => simp
  | some control => simp [Option.bind_eq_some_iff]

/-- A request that fails does so when it is settled, or at the creation of rows. -/
theorem Fails.resolve {e : CompileError} (h : c.Fails r e) :
    c.resolve r = .error e ∨ ∃ scope action, c.resolve r = .ok scope ∧
      scope.value.Conflicts action ∧ e = .creationRowWithNewAction action := by
  cases h with
  | entitySet h =>
    rw [Context.resolve, Service.entitySet?_eq_none_iff.2 h]
    exact .inl rfl
  | entityType hset h =>
    rw [Context.resolve, Service.entitySet?_eq_some_iff.2 hset]
    dsimp only
    rw [Service.entityType?_eq_none_iff.2 h]
    exact .inl rfl
  | @navigation set root hset hroot h =>
    have htype : c.service.entityTypeAt? root (Text.trimBoth '/' r.navigationPath) = none :=
      Service.follow?_eq_none_iff.2 h
    rw [Context.resolve, Service.entitySet?_eq_some_iff.2 hset]
    dsimp only
    rw [Service.entityType?_eq_some_iff.2 hroot]
    dsimp only
    rw [htype]
    exact .inl rfl
  | lineItem hrows h =>
    rcases resolve_of_rows hrows with ⟨-, herror⟩ | ⟨records, -, hrecords, -⟩
    · exact .inl herror
    · exact (h records (Service.lineItemAt?_eq_some_iff.1 hrecords)).elim
  | @creationRow _ _ _ records action hrows hrecords hmode hlast haction =>
    have hfound := Service.lineItemAt?_eq_some_iff.2 hrecords
    rcases resolve_of_rows hrows with ⟨hmissing, -⟩ | ⟨-, scope, -, hscope⟩
    · cases hmissing.symm.trans hfound
    have hsettles : c.Settles r scope.value := by
      rcases c.resolve_cases r with ⟨e, herror, -⟩ | ⟨other, hother, hsettles⟩
      · cases herror.symm.trans hscope
      · obtain rfl := Except.ok.inj (hother.symm.trans hscope)
        exact hsettles
    obtain ⟨rfl, rfl⟩ := hrows.unique hsettles.rows
    have htarget := Service.lastSet_eq_iff.2 hsettles.targetSet
    rw [Service.lastSet_eq_iff.2 hlast] at htarget
    rw [htarget] at haction
    exact .inr ⟨scope, action, hscope, hsettles.conflicts_iff.2 ⟨hmode, haction⟩, rfl⟩

/-- **Exactly five ways to fail.**  A compilation ends in an error exactly if the condition of the
error holds and none before it, and in a table exactly if no condition holds. -/
theorem compile_fails_iff (c : Context) (r : TableRequest) :
    (∀ e, (c.compile r).value = .error e ↔ c.Fails r e) ∧
      ((∃ t, (c.compile r).value = .ok t) ↔ ∀ e, ¬ c.Fails r e) := by
  have herror : ∀ e, (c.compile r).value = .error e ↔ c.Fails r e := by
    intro e
    constructor
    · intro h
      rw [compile] at h
      rcases c.resolve_cases r with ⟨other, hresolve, hfails⟩ | ⟨scope, hscope, hsettles⟩
      · rw [hresolve] at h
        obtain rfl := Except.error.inj h
        exact hfails
      · rw [hscope] at h
        obtain ⟨action, hconflict, rfl⟩ := Scope.table_eq_error_iff.1 h
        obtain ⟨hmode, haction⟩ := hsettles.conflicts_iff.1 hconflict
        exact .creationRow hsettles.rows hsettles.lineItem hmode hsettles.targetSet haction
    · intro hfails
      rw [compile]
      rcases hfails.resolve with hresolve | ⟨scope, action, hscope, hconflict, rfl⟩
      · rw [hresolve]
        rfl
      · rw [hscope]
        exact Scope.table_eq_error_iff.2 ⟨action, hconflict, rfl⟩
  refine ⟨herror, ?_⟩
  constructor
  · rintro ⟨t, ht⟩ e hfails
    cases ht.symm.trans ((herror e).2 hfails)
  · intro hnone
    cases h : (c.compile r).value with
    | error e => exact (hnone e ((herror e).1 h)).elim
    | ok t => exact ⟨t, rfl⟩

/-- Orders whose items are created as drafts, although the manifest wants a row for them. -/
def drafts : Context where
  service := {
    entitySets := [
      { name := "Orders", entityType := "shop.Order"
        navigationPropertyBindings := .ofList [("toItems", "Items")] },
      { name := "Items", entityType := "Item"
        annotations := { draftRoot := some { newAction := some "shop.addItem" } } }]
    entityTypes := [
      { name := "shop.Order"
        navigationProperties := [{ name := "toItems", targetType := "shop.Item" }] },
      { name := "shop.Item", annotations := { lineItems := .ofList [("", [])] } }] }
  manifest := { controls := .ofList [("toItems/@UI.LineItem",
    { tableSettings := { creationMode := some { mode := some .creationRow } } })] }

-- the conflict counts only where the line item is found
example :
    ["", "/toItems/"].map (fun navigation => match (drafts.compile
        { entitySet := "Orders", navigationPath := navigation }).value with
      | .ok _ => none
      | .error e => some e) =
      [some (.missingLineItem (.ofTerm .lineItem) "shop.Order"),
        some (.creationRowWithNewAction "shop.addItem")] := by
  decide +kernel

end Context

end TableCompiler
