import TableCompiler.Proofs.CreationProblems

/-!
# Creation of rows

How rows are created is decided once for a table, from the mode that the manifest configures and
from the targets of its navigation.  What is missing on the way is reported then and by nothing
else, so the creation of a compiled table and the report tell together what was configured.

* `Scope.Configures`, `Scope.GivesOutbound`, `Scope.GivesRoute`, `Scope.RemainsNewPage` — what the
  manifest configures;
* `Scope.CreatesAs`, `Scope.createsAs_of_creation` — the ways in which rows are created, each with
  what is reported about it;
* `Reports` — that a code is reported;
* `Scope.SettlesCreation`, `Context.creation_settled` — what follows for a table.
-/

namespace TableCompiler

/-! ### Where creation is decided -/

/-- A table creates rows as its scope says, and its control has the same mode. -/
theorem Scope.creation_of_table {s : Scope} {requested : Option AnnotationPath} {t : Table}
    (h : (s.table requested).value = .ok t) :
    s.creation.value = .ok t.configuration.create ∧
      t.control = s.tableControl t.configuration.create := by
  rw [table] at h
  simp only [Reported.value_bind] at h
  split at h
  · cases h
  · rename_i creation hcreation
    obtain rfl := Except.ok.inj h
    exact ⟨hcreation, rfl⟩

/-! ### What is configured -/

namespace Scope

variable {s : Scope}

/-- The manifest configures a mode of creation. -/
def Configures (s : Scope) (mode : CreationMode) : Prop :=
  ∃ settings, s.settings.creationMode = some settings ∧ settings.mode = some mode

/-- The target of creation gives an outbound navigation. -/
def TargetsOutbound (s : Scope) (outbound : String) : Prop :=
  ∃ navigation target, s.navigation? = some navigation ∧ navigation.create = some target ∧
    target.outbound = some outbound

/-- The creation settings or the target of creation give an outbound navigation. -/
def GivesOutbound (s : Scope) (outbound : String) : Prop :=
  (∃ settings, s.settings.creationMode = some settings ∧ settings.outbound = some outbound) ∨
    s.TargetsOutbound outbound

/-- The target of creation, or that of the details of a row, gives a route. -/
def GivesRoute (s : Scope) (route : String) : Prop :=
  ∃ navigation target, s.navigation? = some navigation ∧
    (navigation.create = some target ∨ navigation.detail = some target) ∧
    target.route = some route

/-- Creation on a new page is what remains: it is configured, or external creation is without an
outbound navigation, or nothing is configured and the target of creation is no outbound one. -/
def RemainsNewPage (s : Scope) : Prop :=
  s.Configures .newPage ∨ (s.Configures .external ∧ ∀ outbound, ¬ s.GivesOutbound outbound) ∨
    (∀ mode, ¬ s.Configures mode) ∧ ∀ outbound, ¬ s.TargetsOutbound outbound

theorem configures_iff {mode : CreationMode} : s.Configures mode ↔ s.creationMode? = some mode :=
  Option.bind_eq_some_iff.symm

theorem forall_not_configures_iff : (∀ mode, ¬ s.Configures mode) ↔ s.creationMode? = none := by
  rw [Option.eq_none_iff_forall_ne_some]
  exact forall_congr' fun mode => not_congr configures_iff

theorem targetsOutbound_iff {outbound : String} :
    s.TargetsOutbound outbound ↔ s.createTarget?.bind (·.outbound) = some outbound := by
  simp only [TargetsOutbound, createTarget?, Option.bind_eq_some_iff]
  constructor
  · rintro ⟨navigation, target, hnavigation, htarget, houtbound⟩
    exact ⟨target, ⟨navigation, hnavigation, htarget⟩, houtbound⟩
  · rintro ⟨target, ⟨navigation, hnavigation, htarget⟩, houtbound⟩
    exact ⟨navigation, target, hnavigation, htarget, houtbound⟩

theorem forall_not_targetsOutbound_iff :
    (∀ outbound, ¬ s.TargetsOutbound outbound) ↔ s.createTarget?.bind (·.outbound) = none := by
  rw [Option.eq_none_iff_forall_ne_some]
  exact forall_congr' fun outbound => not_congr targetsOutbound_iff

theorem givesOutbound_of_createOutbound? {outbound : String}
    (h : s.createOutbound? = some outbound) : s.GivesOutbound outbound := by
  rcases Option.or_eq_some_iff.1 h with h | ⟨-, h⟩
  · exact .inl (Option.bind_eq_some_iff.1 h)
  · exact .inr (targetsOutbound_iff.2 h)

theorem forall_not_givesOutbound_iff :
    (∀ outbound, ¬ s.GivesOutbound outbound) ↔ s.createOutbound? = none := by
  constructor
  · intro h
    rw [Option.eq_none_iff_forall_ne_some]
    exact fun outbound houtbound => h outbound (givesOutbound_of_createOutbound? houtbound)
  · intro h outbound hgives
    obtain ⟨hsettings, htarget⟩ := Option.or_eq_none_iff.1 h
    rcases hgives with hgives | hgives
    · cases hsettings.symm.trans (Option.bind_eq_some_iff.2 hgives)
    · cases htarget.symm.trans (targetsOutbound_iff.1 hgives)

theorem forall_not_givesRoute_iff :
    (∀ route, ¬ s.GivesRoute route) ↔ s.createRoute? = none := by
  rw [createRoute?, createTarget?, Option.or_eq_none_iff, Option.bind_eq_none_iff,
    Option.bind_eq_none_iff]
  constructor
  · intro h
    refine ⟨fun target htarget => ?_, fun target htarget => ?_⟩
    · obtain ⟨navigation, hnavigation, hcreate⟩ := Option.bind_eq_some_iff.1 htarget
      exact Option.eq_none_iff_forall_ne_some.2 fun route hroute =>
        h route ⟨navigation, target, hnavigation, .inl hcreate, hroute⟩
    · obtain ⟨navigation, hnavigation, hdetail⟩ := Option.bind_eq_some_iff.1 htarget
      exact Option.eq_none_iff_forall_ne_some.2 fun route hroute =>
        h route ⟨navigation, target, hnavigation, .inr hdetail, hroute⟩
  · rintro ⟨hcreate, hdetail⟩ route ⟨navigation, target, hnavigation, htarget | htarget, hroute⟩
    · cases (hcreate target (Option.bind_eq_some_iff.2 ⟨_, hnavigation, htarget⟩)).symm.trans hroute
    · cases (hdetail target (Option.bind_eq_some_iff.2 ⟨_, hnavigation, htarget⟩)).symm.trans hroute

/-! ### How creation is decided -/

/-- What is reported if external creation is without an outbound navigation. -/
def outboundProblems (s : Scope) : List Problem :=
  if s.isExternalCreation then [.missingOutbound] else []

/-- The ways in which rows are created, each with what is reported about it. -/
inductive CreatesAs (s : Scope) : CreateBehavior → List Problem → Prop
  | external {outbound : String} (houtbound : s.GivesOutbound outbound)
    (hpage : ¬ s.RemainsNewPage) :
    CreatesAs s (.external ⟨outbound, s.manifest.outbounds.get? outbound, s.navigation?⟩)
      (if (s.manifest.outbounds.get? outbound).isNone then [.undeclaredOutbound outbound] else [])
  | configured {mode : CreationMode} (hmode : mode ≠ .newPage ∧ mode ≠ .external)
    (hrow : mode = .creationRow → s.targetSet.newAction? = none)
    (hconfigured : s.Configures mode) : CreatesAs s (.inApp (s.creationIn mode none)) []
  | page {route : String} (hpage : s.RemainsNewPage) (hroute : s.createRoute? = some route) :
    CreatesAs s (.inApp (s.creationIn .newPage (some route))) s.outboundProblems
  | inline (hpage : s.RemainsNewPage) (hroute : s.createRoute? = none) :
    CreatesAs s (.inApp (s.creationIn .inline none))
      (s.outboundProblems ++ [.missingRoute s.navigationKey])

theorem externalCreation_eq (s : Scope) (outbound : String) :
    s.externalCreation outbound =
      ⟨⟨outbound, s.manifest.outbounds.get? outbound, s.navigation?⟩,
        if (s.manifest.outbounds.get? outbound).isNone then [.undeclaredOutbound outbound]
        else []⟩ := by
  rw [externalCreation]
  dsimp only
  split <;> rfl

/-- External creation that has an outbound navigation. -/
theorem createsAs_external {create : CreateBehavior} {outbound : String}
    (hexternal : s.isExternalCreation = true) (houtbound : s.createOutbound? = some outbound)
    (hpage : ¬ s.RemainsNewPage) (h : s.creation.value = .ok create) :
    s.CreatesAs create s.creation.problems := by
  rw [creation, if_pos hexternal, houtbound] at h ⊢
  dsimp only at h ⊢
  rw [externalCreation_eq] at h ⊢
  obtain rfl := Except.ok.inj h
  rw [Reported.problems_bind, Reported.problems_pure, List.append_nil]
  exact .external (givesOutbound_of_createOutbound? houtbound) hpage

theorem creation_eq_inApp (h : s.isExternalCreation = true → s.createOutbound? = none) :
    s.creation.value = s.inAppCreation.value.map .inApp ∧
      s.creation.problems = s.outboundProblems ++ s.inAppCreation.problems := by
  rw [creation, outboundProblems]
  by_cases hexternal : s.isExternalCreation = true
  · rw [if_pos hexternal, if_pos hexternal, h hexternal]
    exact ⟨rfl, congrArg _ (List.append_nil _)⟩
  · rw [if_neg hexternal, if_neg hexternal]
    exact ⟨rfl, List.append_nil _⟩

/-- Creation on a new page, as far as there is a route to it. -/
theorem createsAs_page {create : CreateBehavior}
    (hin : s.isExternalCreation = true → s.createOutbound? = none)
    (hmode : s.creationMode?.getD .newPage = .newPage ∨
      s.creationMode?.getD .newPage = .external)
    (hpage : s.RemainsNewPage) (h : s.creation.value = .ok create) :
    s.CreatesAs create s.creation.problems := by
  obtain ⟨hvalue, hproblems⟩ := creation_eq_inApp hin
  rw [hproblems]
  rw [hvalue] at h
  cases hroute : s.createRoute? with
  | some route =>
    have hinApp : s.inAppCreation = pure (.ok (s.creationIn .newPage (some route))) := by
      rw [inAppCreation, hroute]
      rcases hmode with hmode | hmode <;> rw [hmode]
    rw [hinApp] at h ⊢
    obtain rfl := Except.ok.inj h
    rw [Reported.problems_pure, List.append_nil]
    exact .page hpage hroute
  | none =>
    have hinApp : s.inAppCreation =
        .report (.missingRoute s.navigationKey) >>= fun _ =>
          pure (.ok (s.creationIn .inline none)) := by
      rw [inAppCreation, hroute]
      rcases hmode with hmode | hmode <;> rw [hmode]
    rw [hinApp] at h ⊢
    obtain rfl := Except.ok.inj h
    exact .inline hpage hroute

/-- Creation in another way that is configured. -/
theorem createsAs_configured {create : CreateBehavior} {mode : CreationMode}
    (hconfigured : s.creationMode? = some mode) (hmode : mode ≠ .newPage ∧ mode ≠ .external)
    (h : s.creation.value = .ok create) : s.CreatesAs create s.creation.problems := by
  have hexternal : s.isExternalCreation = false := by
    rw [isExternalCreation, hconfigured]
    exact beq_eq_false_iff_ne.2 hmode.2
  obtain ⟨hvalue, hproblems⟩ := creation_eq_inApp (s := s) fun h => by
    cases hexternal.symm.trans h
  have hnone : s.outboundProblems = [] := by
    rw [outboundProblems, hexternal]
    rfl
  rw [hproblems, hnone, List.nil_append]
  rw [hvalue] at h
  rw [inAppCreation, hconfigured] at h ⊢
  cases mode with
  | newPage => exact absurd rfl hmode.1
  | external => exact absurd rfl hmode.2
  | creationRow =>
    cases haction : s.targetSet.newAction? with
    | some action =>
      rw [haction] at h
      cases h
    | none =>
      rw [haction] at h
      obtain rfl := Except.ok.inj h
      exact .configured hmode (fun _ => haction) (configures_iff.2 hconfigured)
  | inline =>
    obtain rfl := Except.ok.inj h
    refine .configured hmode ?_ (configures_iff.2 hconfigured)
    rintro ⟨⟩
  | inlineCreationRows =>
    obtain rfl := Except.ok.inj h
    refine .configured hmode ?_ (configures_iff.2 hconfigured)
    rintro ⟨⟩

/-- Rows are created in one of the ways, unless there is no table. -/
theorem createsAs_of_creation {create : CreateBehavior} (h : s.creation.value = .ok create) :
    s.CreatesAs create s.creation.problems := by
  cases hmode : s.creationMode? with
  | none =>
    have hnone := forall_not_configures_iff.2 hmode
    cases htarget : s.createTarget?.bind (·.outbound) with
    | none =>
      refine createsAs_page (fun hexternal => ?_) (by rw [hmode]; exact .inl rfl)
        (.inr (.inr ⟨hnone, forall_not_targetsOutbound_iff.2 htarget⟩)) h
      rw [isExternalCreation, hmode, htarget] at hexternal
      cases hexternal
    | some target =>
      have htargets := targetsOutbound_iff.2 htarget
      have hexternal : s.isExternalCreation = true := by
        rw [isExternalCreation, hmode, htarget]
        rfl
      cases houtbound : s.createOutbound? with
      | none => exact absurd (.inr htargets) (forall_not_givesOutbound_iff.2 houtbound target)
      | some outbound =>
        refine createsAs_external hexternal houtbound ?_ h
        rintro (hpage | ⟨hpage, -⟩ | ⟨-, hfree⟩)
        · exact hnone _ hpage
        · exact hnone _ hpage
        · exact hfree target htargets
  | some mode =>
    by_cases hexternal : mode = .external
    · subst hexternal
      have hconfigured := configures_iff.2 hmode
      cases houtbound : s.createOutbound? with
      | none =>
        exact createsAs_page (fun _ => houtbound) (by rw [hmode]; exact .inr rfl)
          (.inr (.inl ⟨hconfigured, forall_not_givesOutbound_iff.2 houtbound⟩)) h
      | some outbound =>
        refine createsAs_external (by rw [isExternalCreation, hmode]; rfl) houtbound ?_ h
        rintro (hpage | ⟨-, hfree⟩ | ⟨hfree, -⟩)
        · cases hmode.symm.trans (configures_iff.1 hpage)
        · exact hfree outbound (givesOutbound_of_createOutbound? houtbound)
        · exact hfree _ hconfigured
    · by_cases hpage : mode = .newPage
      · subst hpage
        refine createsAs_page (fun hexternal => ?_) (by rw [hmode]; exact .inl rfl)
          (.inl (configures_iff.2 hmode)) h
        rw [isExternalCreation, hmode] at hexternal
        cases hexternal
      · exact createsAs_configured hmode ⟨hpage, hexternal⟩ h

theorem Configures.not_remainsNewPage {mode : CreationMode} (h : s.Configures mode)
    (hmode : mode ≠ .newPage ∧ mode ≠ .external) : ¬ s.RemainsNewPage := by
  have honly : ∀ {other}, s.Configures other → mode = other := fun hother =>
    Option.some.inj ((configures_iff.1 h).symm.trans (configures_iff.1 hother))
  rintro (hpage | ⟨hpage, -⟩ | ⟨hnone, -⟩)
  · exact hmode.1 (honly hpage)
  · exact hmode.2 (honly hpage)
  · exact hnone mode h

/-- Where a new page remains, creation was meant to be external exactly if that was configured
without an outbound navigation. -/
theorem RemainsNewPage.isExternalCreation_iff (h : s.RemainsNewPage) :
    s.isExternalCreation = true ↔
      s.Configures .external ∧ ∀ outbound, ¬ s.GivesOutbound outbound := by
  rcases h with h | ⟨h, hfree⟩ | ⟨hnone, hfree⟩
  · rw [isExternalCreation, configures_iff.1 h]
    refine iff_of_false Bool.false_ne_true fun hother => ?_
    cases (configures_iff.1 h).symm.trans (configures_iff.1 hother.1)
  · rw [isExternalCreation, configures_iff.1 h]
    exact iff_of_true rfl ⟨h, hfree⟩
  · rw [isExternalCreation, forall_not_configures_iff.1 hnone,
      forall_not_targetsOutbound_iff.1 hfree]
    exact iff_of_false Bool.false_ne_true fun hother => hnone _ hother.1

end Scope

/-! ### The outcome -/

/-- A problem with a code is among those that are reported. -/
def Reports (problems : List Problem) (code : String) : Prop :=
  ∃ p ∈ problems, p.code = code

instance (problems : List Problem) (code : String) : Decidable (Reports problems code) :=
  inferInstanceAs (Decidable (∃ p ∈ problems, p.code = code))

theorem not_reports_nil (code : String) : ¬ Reports [] code :=
  fun ⟨_, hp, _⟩ => List.not_mem_nil hp

theorem reports_singleton {p : Problem} {code : String} : Reports [p] code ↔ code = p.code := by
  simp only [Reports, List.mem_singleton, exists_eq_left]
  exact eq_comm

theorem reports_append {front back : List Problem} {code : String} :
    Reports (front ++ back) code ↔ Reports front code ∨ Reports back code := by
  simp only [Reports, List.mem_append, or_and_right, exists_or]

namespace Scope

variable {s : Scope} {code : String}

theorem reports_outboundProblems :
    Reports s.outboundProblems code ↔ s.isExternalCreation = true ∧ code = "MISSING_OUTBOUND" := by
  rw [outboundProblems]
  split
  · rename_i hexternal
    exact reports_singleton.trans (and_iff_right hexternal).symm
  · rename_i hexternal
    exact iff_of_false (not_reports_nil code) fun h => hexternal h.1

/-- What is reported about external creation. -/
theorem reports_externalCreation {outbound : String} :
    Reports (if (s.manifest.outbounds.get? outbound).isNone then [.undeclaredOutbound outbound]
      else []) code ↔ s.manifest.outbounds.get? outbound = none ∧ code = "UNKNOWN_OUTBOUND" := by
  rw [← Option.isNone_iff_eq_none]
  split
  · rename_i hnone
    exact reports_singleton.trans (and_iff_right hnone).symm
  · rename_i hsome
    exact iff_of_false (not_reports_nil code) fun h => hsome h.1

/-- What is reported where there is no route to a new page. -/
theorem reports_inline {key : String} :
    Reports (s.outboundProblems ++ [.missingRoute key]) code ↔
      s.isExternalCreation = true ∧ code = "MISSING_OUTBOUND" ∨
        code = "NEW_PAGE_WITHOUT_ROUTE" := by
  rw [reports_append, reports_outboundProblems]
  exact or_congr_right reports_singleton

end Scope

theorem Problem.isOfCreation_of_code {p : Problem}
    (h : p.code ∈ ["UNKNOWN_OUTBOUND", "MISSING_OUTBOUND", "NEW_PAGE_WITHOUT_ROUTE"]) :
    p.isOfCreation = true := by
  cases p <;> first | rfl | simp [code] at h

/-- The creation of rows follows from what is configured, and so does what is reported about it. -/
structure Scope.SettlesCreation (s : Scope) (t : Table) (problems : List Problem) : Prop where
  /-- Creation within the application is on a new page exactly if there is a target to navigate to,
  and calls no action from a creation row. -/
  inApp : ∀ c, t.configuration.create = .inApp c → c.mode ≠ .external ∧
    (c.navigateToTarget.isSome = true ↔ c.mode = .newPage) ∧
    (c.mode = .creationRow → c.newAction = none)
  /-- External creation has what the manifest says about its outbound navigation. -/
  external : ∀ e, t.configuration.create = .external e →
    s.GivesOutbound e.outbound ∧ e.outboundDetail = s.manifest.outbounds.get? e.outbound
  undeclared : Reports problems "UNKNOWN_OUTBOUND" ↔
    ∃ e, t.configuration.create = .external e ∧ e.outboundDetail = none
  withoutOutbound : Reports problems "MISSING_OUTBOUND" ↔
    s.Configures .external ∧ ∀ outbound, ¬ s.GivesOutbound outbound
  withoutRoute : Reports problems "NEW_PAGE_WITHOUT_ROUTE" ↔
    s.RemainsNewPage ∧ ∀ route, ¬ s.GivesRoute route
  /-- Without a route to a new page rows are created in the table. -/
  inline : Reports problems "NEW_PAGE_WITHOUT_ROUTE" →
    ∃ c, t.configuration.create = .inApp c ∧ c.mode = .inline
  /-- The control of the table tells the same. -/
  control : (∀ c, t.configuration.create = .inApp c →
      t.control.creationMode = c.mode ∧ t.control.createAtEnd = c.append) ∧
    ∀ e, t.configuration.create = .external e →
      t.control.creationMode = .external ∧ t.control.createAtEnd = false

namespace Scope.CreatesAs

variable {s : Scope} {create : CreateBehavior} {problems : List Problem}

theorem inApp (h : s.CreatesAs create problems) {c : InAppCreation} (hc : create = .inApp c) :
    c.mode ≠ .external ∧ (c.navigateToTarget.isSome = true ↔ c.mode = .newPage) ∧
      (c.mode = .creationRow → c.newAction = none) := by
  cases h with
  | external => cases hc
  | configured hmode hrow =>
    cases hc
    exact ⟨hmode.2, iff_of_false nofun hmode.1, hrow⟩
  | page =>
    cases hc
    exact ⟨nofun, iff_of_true rfl rfl, nofun⟩
  | inline =>
    cases hc
    exact ⟨nofun, iff_of_false nofun nofun, nofun⟩

theorem undeclared (h : s.CreatesAs create problems) :
    Reports problems "UNKNOWN_OUTBOUND" ↔ ∃ e, create = .external e ∧ e.outboundDetail = none := by
  have hinApp : ∀ c : InAppCreation, ¬ ∃ e, CreateBehavior.inApp c = .external e ∧
      e.outboundDetail = none := by
    rintro c ⟨e, he, -⟩
    cases he
  cases h with
  | @external outbound =>
    simp only [reports_externalCreation, and_true, CreateBehavior.external.injEq, exists_eq_left']
  | configured => exact iff_of_false (not_reports_nil _) (hinApp _)
  | page =>
    refine iff_of_false (fun h => ?_) (hinApp _)
    exact absurd (reports_outboundProblems.1 h).2 (by decide)
  | inline =>
    refine iff_of_false (fun h => ?_) (hinApp _)
    rcases reports_inline.1 h with ⟨-, h⟩ | h <;> exact absurd h (by decide)

theorem withoutOutbound (h : s.CreatesAs create problems) :
    Reports problems "MISSING_OUTBOUND" ↔
      s.Configures .external ∧ ∀ outbound, ¬ s.GivesOutbound outbound := by
  cases h with
  | @external outbound houtbound =>
    refine iff_of_false (fun h => ?_) fun hfree => hfree.2 outbound houtbound
    exact absurd (reports_externalCreation.1 h).2 (by decide)
  | configured hmode hrow hconfigured =>
    refine iff_of_false (not_reports_nil _) fun h => hmode.2 ?_
    exact Option.some.inj ((configures_iff.1 hconfigured).symm.trans (configures_iff.1 h.1))
  | page hpage =>
    rw [reports_outboundProblems, ← hpage.isExternalCreation_iff]
    exact and_iff_left rfl
  | inline hpage =>
    rw [reports_inline, ← hpage.isExternalCreation_iff, and_iff_left rfl]
    exact or_iff_left (by decide)

theorem withoutRoute (h : s.CreatesAs create problems) :
    Reports problems "NEW_PAGE_WITHOUT_ROUTE" ↔
      s.RemainsNewPage ∧ ∀ route, ¬ s.GivesRoute route := by
  cases h with
  | external houtbound hpage =>
    refine iff_of_false (fun h => ?_) fun hremains => hpage hremains.1
    exact absurd (reports_externalCreation.1 h).2 (by decide)
  | configured hmode hrow hconfigured =>
    refine iff_of_false (not_reports_nil _) fun ⟨hpage, _⟩ => ?_
    exact hconfigured.not_remainsNewPage hmode hpage
  | page hpage hroute =>
    refine iff_of_false (fun h => ?_) fun hfree => ?_
    · exact absurd (reports_outboundProblems.1 h).2 (by decide)
    · cases hroute.symm.trans (forall_not_givesRoute_iff.1 hfree.2)
  | inline hpage hroute =>
    exact iff_of_true (reports_inline.2 (.inr rfl)) ⟨hpage, forall_not_givesRoute_iff.2 hroute⟩

theorem outbound (h : s.CreatesAs create problems) {e : ExternalCreation}
    (he : create = .external e) :
    s.GivesOutbound e.outbound ∧ e.outboundDetail = s.manifest.outbounds.get? e.outbound := by
  cases h with
  | external houtbound =>
    cases he
    exact ⟨houtbound, rfl⟩
  | configured => cases he
  | page => cases he
  | inline => cases he

theorem exists_inline (h : s.CreatesAs create problems)
    (hreports : Reports problems "NEW_PAGE_WITHOUT_ROUTE") :
    ∃ c, create = .inApp c ∧ c.mode = .inline := by
  obtain ⟨hpage, hroute⟩ := h.withoutRoute.1 hreports
  cases h with
  | external _ hother => exact absurd hpage hother
  | configured hmode _ hconfigured => exact absurd hpage (hconfigured.not_remainsNewPage hmode)
  | page _ hsome => cases hsome.symm.trans (forall_not_givesRoute_iff.1 hroute)
  | inline => exact ⟨_, rfl, rfl⟩

end Scope.CreatesAs

namespace Context

variable {c : Context} {r : TableRequest}

/-- The codes of creation are reported for a request exactly if they are where creation is
decided. -/
theorem reports_compile_iff {scope : Reported Scope} (hscope : c.resolve r = .ok scope)
    {code : String}
    (hcode : code ∈ ["UNKNOWN_OUTBOUND", "MISSING_OUTBOUND", "NEW_PAGE_WITHOUT_ROUTE"]) :
    Reports (c.compile r).problems code ↔ Reports scope.value.creation.problems code := by
  refine exists_congr fun p => and_congr_left fun hp => ?_
  exact mem_problems_compile hscope (Problem.isOfCreation_of_code (hp ▸ hcode))

/-- **Creation of rows.**  Every table that is compiled creates rows as its scope settles, tells so
in its control, and reports what was missing exactly if it was. -/
theorem creation_settled (c : Context) (r : TableRequest) (t : Table)
    (h : (c.compile r).value = .ok t) :
    ∃ scope, c.resolve r = .ok scope ∧
      scope.value.SettlesCreation t (c.compile r).problems := by
  have htable := h
  rw [compile] at htable
  split at htable
  · cases htable
  rename_i scope hscope
  obtain ⟨hcreation, hcontrol⟩ := Scope.creation_of_table htable
  have hcreates := Scope.createsAs_of_creation hcreation
  refine ⟨scope, hscope, fun _ => hcreates.inApp, fun _ => hcreates.outbound, ?_, ?_, ?_, ?_, ?_⟩
  · rw [reports_compile_iff hscope (by decide), hcreates.undeclared]
  · rw [reports_compile_iff hscope (by decide), hcreates.withoutOutbound]
  · rw [reports_compile_iff hscope (by decide), hcreates.withoutRoute]
  · rw [reports_compile_iff hscope (by decide)]
    exact hcreates.exists_inline
  · constructor
    · intro created hcreated
      rw [hcontrol, hcreated]
      exact ⟨rfl, rfl⟩
    · intro e he
      rw [hcontrol, he]
      exact ⟨rfl, rfl⟩

/-- Orders that are to be created in another application, which nothing names; the settings ask for
new rows at the end. -/
def nowhere : Context where
  service := {
    entitySets := [{ name := "Orders", entityType := "shop.Order" }]
    entityTypes := [{ name := "shop.Order", annotations := { lineItems := .ofList [("", [])] } }] }
  manifest := { controls := .ofList [("@UI.LineItem", { tableSettings := {
    creationMode := some { mode := some .external, createAtEnd := some true } } })] }

/-- Both what is missing and what follows are reported, and rows are created in the table. -/
theorem creation_settled_nowhere :
    ∃ t scope, (nowhere.compile { entitySet := "Orders" }).value = .ok t ∧
      nowhere.resolve { entitySet := "Orders" } = .ok scope ∧
      scope.value.SettlesCreation t (nowhere.compile { entitySet := "Orders" }).problems ∧
      (∃ created, t.configuration.create = .inApp created ∧ created.mode = .inline ∧
        t.control.creationMode = .inline) ∧
      scope.value.Configures .external := by
  have hok : (nowhere.compile { entitySet := "Orders" }).value.isOk = true := by decide +kernel
  have hroute : Reports (nowhere.compile { entitySet := "Orders" }).problems
      "NEW_PAGE_WITHOUT_ROUTE" := by decide +kernel
  have hmissing : Reports (nowhere.compile { entitySet := "Orders" }).problems
      "MISSING_OUTBOUND" := by decide +kernel
  cases h : (nowhere.compile { entitySet := "Orders" }).value with
  | error e =>
    rw [h] at hok
    cases hok
  | ok t =>
    obtain ⟨scope, hscope, hsettles⟩ := creation_settled nowhere _ t h
    obtain ⟨created, hcreated, hmode⟩ := hsettles.inline hroute
    have hcontrol := (hsettles.control.1 created hcreated).1
    exact ⟨t, scope, rfl, hscope, hsettles, ⟨created, hcreated, hmode, hcontrol.trans hmode⟩,
      (hsettles.withoutOutbound.1 hmissing).1⟩

end Context

end TableCompiler
