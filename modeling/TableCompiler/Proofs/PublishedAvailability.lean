import TableCompiler.Proofs.Availability
import TableCompiler.Proofs.Json.Reading
import TableCompiler.Proofs.Text

/-!
# Availability as it is published

The renderer reads two texts: an object from the operations of a line item to the paths of the
properties that tell whether they are available, and the list of these properties.  The object is
filled by name, the list in the order of the records; both are told here from the records alone.

* `Operation.IsWithoutParameter`, `Operation.IsTold`, `Scope.Publishes` — what a record publishes;
* `Operation.rowAvailability?_eq_some_iff`, `Scope.publishes_iff` — that this is what is gathered
  from it;
* `Scope.ReadsBefore`, `Scope.pairwise_foldl` — the order of the list, record after record;
* `Scope.availability_published` — both texts together.
-/

namespace TableCompiler

/-! ### What a record publishes -/

namespace Operation

/-- A path without the segment of the binding parameter, if it begins with that. -/
def IsWithoutParameter (o : Operation) (path rest : PropertyPath) : Prop :=
  (∃ parameter, o.bindingParameter = some parameter ∧ path = parameter ++ "/" ++ rest) ∨
    ((∀ parameter, o.bindingParameter = some parameter → ∀ more, path ≠ parameter ++ "/" ++ more) ∧
      rest = path)

/-- What is told about an operation that is not available at all times: nothing but `null` if it
never is, and else the path that tells it. -/
inductive IsTold (o : Operation) : Json → Prop
  | never (h : o.operationAvailable = some (.literal false)) : o.IsTold .null
  | path {path rest : PropertyPath} (h : o.operationAvailable = some (.path path))
    (hrest : o.IsWithoutParameter path rest) : o.IsTold (.str rest)

theorem availablePath?_eq_some_iff {o : Operation} {path rest : PropertyPath}
    (h : o.operationAvailable = some (.path path)) :
    o.availablePath? = some rest ↔ o.IsWithoutParameter path rest := by
  have hfound : (some (Dynamic.path path) : Option (Dynamic Bool)).bind (·.path?) = some path := rfl
  rw [availablePath?, h, hfound, Option.map_some, Option.some.injEq, IsWithoutParameter]
  cases o.bindingParameter with
  | none => simp [eq_comm]
  | some parameter =>
    simp only [Option.some.injEq, exists_eq_left', forall_eq']
    cases hstrip : Text.stripStart? (parameter ++ "/") path with
    | none =>
      have hnot : ∀ more, path ≠ parameter ++ "/" ++ more := by
        intro more hmore
        rw [Text.stripStart?_eq_some_iff.2 hmore] at hstrip
        cases hstrip
      rw [Option.getD_none, eq_comm]
      exact ⟨fun heq => .inr ⟨hnot, heq⟩, fun hor => (hor.resolve_left (hnot rest)).2⟩
    | some more =>
      have hmore := Text.stripStart?_eq_some_iff.1 hstrip
      rw [Option.getD_some]
      refine ⟨fun heq => .inl (heq ▸ hmore), fun hor => ?_⟩
      have hrest := hor.resolve_right fun hnot => hnot.1 more hmore
      exact String.append_right_inj _ |>.1 (hmore.symm.trans hrest)

variable {o : Operation}

theorem isTold_null_iff : o.IsTold .null ↔ o.operationAvailable = some (.literal false) := by
  refine ⟨fun h => ?_, .never⟩
  cases h
  assumption

theorem isTold_str_iff {rest : PropertyPath} :
    o.IsTold (.str rest) ↔
      ∃ path, o.operationAvailable = some (.path path) ∧ o.IsWithoutParameter path rest := by
  refine ⟨fun h => ?_, fun ⟨_, h, hrest⟩ => .path h hrest⟩
  cases h with
  | path h hrest => exact ⟨_, h, hrest⟩

theorem requiresContext_iff : o.requiresContext = true ↔ o.isBound = true ∧ o.isStatic = false := by
  rw [requiresContext, Bool.and_eq_true, Bool.not_eq_true']

/-- What is evaluated for rows about an operation is what is told. -/
theorem rowAvailability?_eq_some_iff {told : Option PropertyPath} :
    o.rowAvailability? = some told ↔
      o.isBound = true ∧ o.isStatic = false ∧ o.IsTold (Json.nullableText told) := by
  rw [rowAvailability?, ← and_assoc, ← requiresContext_iff]
  by_cases hrows : o.requiresContext = true
  · rw [if_pos hrows, and_iff_right hrows]
    cases told with
    | none =>
      refine Iff.trans ?_ isTold_null_iff.symm
      split
      · rename_i h
        exact iff_of_true rfl h
      · rename_i h
        rw [availablePath?, h]
        simp [Dynamic.path?]
      · rename_i hliteral _
        exact iff_of_false (Option.some_ne_none _).symm hliteral
    | some rest =>
      refine Iff.trans ?_ isTold_str_iff.symm
      split
      · rename_i h
        simp [h]
      · rename_i path h
        rw [Option.map_eq_some_iff]
        simp only [Option.some.injEq, exists_eq_right, availablePath?_eq_some_iff h]
        constructor
        · exact fun hrest => ⟨path, h, hrest⟩
        · rintro ⟨other, hother, hrest⟩
          rw [h] at hother
          obtain rfl := Dynamic.path.inj (Option.some.inj hother)
          exact hrest
      · rename_i hpath
        refine iff_of_false (Option.some_ne_none _).symm ?_
        rintro ⟨path, h, -⟩
        exact hpath path h
  · rw [if_neg hrows]
    exact iff_of_false (Option.some_ne_none _).symm fun h => hrows h.1

end Operation

namespace Scope

/-- What a record publishes about the operation it calls, if this works on selected rows and is not
available at all times. -/
def Publishes (s : Scope) (record : ActionField) (value : Json) : Prop :=
  ∃ o, s.service.operation? record.action = some o ∧ o.isBound = true ∧ o.isStatic = false ∧
    o.IsTold value

variable {s : Scope}

theorem publishes_iff {record : ActionField} {told : Option PropertyPath} :
    s.Publishes record (Json.nullableText told) ↔ s.rowAvailability? record.action = some told := by
  rw [rowAvailability?, Option.bind_eq_some_iff]
  exact exists_congr fun o => and_congr_right fun _ => Operation.rowAvailability?_eq_some_iff.symm

theorem Publishes.exists_told {record : ActionField} {value : Json} (h : s.Publishes record value) :
    ∃ told, value = Json.nullableText told := by
  obtain ⟨o, -, -, -, htold⟩ := h
  cases htold with
  | never _ => exact ⟨none, rfl⟩
  | path _ _ => exact ⟨some _, rfl⟩

/-- What has been gathered from some records, in terms of what they publish. -/
theorem Covers.get?_eq_some_iff {records : List DataField} {a : OperationAvailability}
    (h : s.Covers records a) {name : String} {told : Option PropertyPath} :
    a.paths.get? name = some told ↔ ∃ record : ActionField, .action record ∈ records ∧
      record.action = name ∧ s.Publishes record (Json.nullableText told) := by
  rw [h.paths, CallsOperation]
  constructor
  · rintro ⟨⟨record, hrecord, rfl⟩, htold⟩
    exact ⟨record, hrecord, rfl, publishes_iff.2 htold⟩
  · rintro ⟨record, hrecord, rfl, htold⟩
    exact ⟨⟨record, hrecord, rfl⟩, publishes_iff.1 htold⟩

/-! ### The order of the list -/

/-- A path is read by one of some records. -/
def Reads (s : Scope) (records : List DataField) (p : PropertyPath) : Prop :=
  ∃ record : ActionField, .action record ∈ records ∧ s.Publishes record (.str p)

theorem Covers.mem_properties_iff {records : List DataField} {a : OperationAvailability}
    (h : s.Covers records a) {p : PropertyPath} : p ∈ a.properties ↔ s.Reads records p := by
  rw [h.properties]
  constructor
  · rintro ⟨_, ⟨record, hrecord, rfl⟩, htold⟩
    exact ⟨record, hrecord, publishes_iff.2 htold⟩
  · rintro ⟨record, hrecord, htold⟩
    exact ⟨_, ⟨record, hrecord, rfl⟩, publishes_iff.1 htold⟩

/-- One path is read before another: the records begin with some that read the one and not the
other. -/
def ReadsBefore (s : Scope) (records : List DataField) (p q : PropertyPath) : Prop :=
  ∃ front, front <+: records ∧ s.Reads front p ∧ ¬ s.Reads front q

theorem ReadsBefore.append {records : List DataField} {p q : PropertyPath}
    (h : s.ReadsBefore records p q) (more : List DataField) :
    s.ReadsBefore (records ++ more) p q := by
  obtain ⟨front, hfront, hreads⟩ := h
  exact ⟨front, hfront.trans (List.prefix_append _ _), hreads⟩

theorem ReadsBefore.ne {records : List DataField} {p q : PropertyPath}
    (h : s.ReadsBefore records p q) : p ≠ q := by
  rintro rfl
  obtain ⟨front, -, hp, hq⟩ := h
  exact hq hp

/-- A further record leaves the list in order: a path that it brings was not read before it. -/
theorem pairwise_step {records : List DataField} {a : OperationAvailability}
    (hcovers : s.Covers records a) (h : a.properties.Pairwise (s.ReadsBefore records))
    (field : DataField) :
    (s.addAvailability a field).properties.Pairwise (s.ReadsBefore (records ++ [field])) := by
  have hold : a.properties.Pairwise (s.ReadsBefore (records ++ [field])) :=
    h.imp fun hbefore => hbefore.append _
  unfold addAvailability
  split
  · split
    · rename_i told _
      cases told with
      | none => exact hold
      | some q =>
        dsimp only [OperationAvailability.add]
        split
        · exact hold
        · rename_i hnew
          rw [List.contains_iff_mem, hcovers.mem_properties_iff] at hnew
          refine List.pairwise_append.2 ⟨hold, List.pairwise_singleton _ _, fun p hp _ hq => ?_⟩
          obtain rfl := List.mem_singleton.1 hq
          exact ⟨records, List.prefix_append _ _, hcovers.mem_properties_iff.1 hp, hnew⟩
    · exact hold
  · exact hold

/-- The list of what is gathered from some records is in the order in which they read it. -/
theorem pairwise_foldl (s : Scope) (records : List DataField) :
    (records.foldl s.addAvailability {}).properties.Pairwise (s.ReadsBefore records) := by
  induction records using List.reverseRecOn with
  | nil => exact .nil
  | append_singleton records field ih =>
    rw [List.foldl_append]
    exact pairwise_step (s.covers_foldl records) ih field

/-! ### Both texts -/

/-- The members of the object, an operation with what is told about it. -/
def availabilityMembers (s : Scope) : List (String × Json) :=
  s.operationAvailability.paths.entries.map fun entry => (entry.1, Json.nullableText entry.2)

theorem nodup_availabilityMembers (s : Scope) : (s.availabilityMembers.map (·.1)).Nodup := by
  have hkeys : s.availabilityMembers.map (·.1) = s.operationAvailability.paths.keys := by
    rw [availabilityMembers, List.map_map]
    rfl
  rw [hkeys]
  exact s.operationAvailability.paths.nodup_keys

theorem mem_availabilityMembers (s : Scope) {name : String} {value : Json} :
    (name, value) ∈ s.availabilityMembers ↔ ∃ record : ActionField,
      .action record ∈ s.lineItem ∧ record.action = name ∧ s.Publishes record value := by
  have hentries : (name, value) ∈ s.availabilityMembers ↔
      ∃ told, s.operationAvailability.paths.get? name = some told ∧
        Json.nullableText told = value := by
    simp only [availabilityMembers, List.mem_map, Prod.exists, Prod.mk.injEq]
    constructor
    · rintro ⟨_, told, hentry, rfl, hvalue⟩
      exact ⟨told, Dictionary.get?_eq_some_iff_mem.2 hentry, hvalue⟩
    · rintro ⟨told, hentry, hvalue⟩
      exact ⟨name, told, Dictionary.get?_eq_some_iff_mem.1 hentry, rfl, hvalue⟩
  rw [hentries]
  constructor
  · rintro ⟨told, htold, rfl⟩
    exact s.covers_operationAvailability.get?_eq_some_iff.1 htold
  · rintro ⟨record, hrecord, hname, hvalue⟩
    -- a value that is published stands for a path or for none
    obtain ⟨told, rfl⟩ := hvalue.exists_told
    exact ⟨told, s.covers_operationAvailability.get?_eq_some_iff.2
      ⟨record, hrecord, hname, hvalue⟩, rfl⟩

/-- **Availability as the renderer reads it.**  The map is an object without repeated names, whose
members are what the records of the line item publish, each under the name by which it calls its
operation.  The list has the paths of this object, each one once and in the order in which the
records read them first. -/
theorem availability_published (s : Scope) :
    ∀ actions creation variant conditions,
      ∃ (members : List (String × Json)) (paths : List PropertyPath),
        Json.ofText? (s.configuration actions creation variant conditions).operationAvailableMap =
          some (.obj members) ∧
        (members.map (·.1)).Nodup ∧
        (∀ name value, (name, value) ∈ members ↔ ∃ record : ActionField,
          .action record ∈ s.lineItem ∧ record.action = name ∧ s.Publishes record value) ∧
        (s.configuration actions creation variant conditions).operationAvailableProperties =
          ",".intercalate paths ∧
        paths.Nodup ∧
        (∀ p, p ∈ paths ↔ ∃ name, (name, .str p) ∈ members) ∧
        paths.Pairwise (s.ReadsBefore s.lineItem) := by
  intro actions creation variant conditions
  have horder : s.operationAvailability.properties.Pairwise (s.ReadsBefore s.lineItem) :=
    s.pairwise_foldl s.lineItem
  refine ⟨s.availabilityMembers, s.operationAvailability.properties, Json.ofText?_compact _,
    s.nodup_availabilityMembers, fun name value => s.mem_availabilityMembers, rfl,
    horder.imp ReadsBefore.ne, fun p => ?_, horder⟩
  rw [s.covers_operationAvailability.mem_properties_iff]
  constructor
  · rintro ⟨record, hrecord, hreads⟩
    exact ⟨record.action, s.mem_availabilityMembers.2 ⟨record, hrecord, rfl, hreads⟩⟩
  · rintro ⟨name, hmember⟩
    obtain ⟨record, hrecord, -, hreads⟩ := s.mem_availabilityMembers.1 hmember
    exact ⟨record, hrecord, hreads⟩

end Scope

/-- Vouchers with an action for each of some names, available where a property says so. -/
def Context.vouchersWith (actions : List (String × PropertyPath)) : Context where
  service := {
    entitySets := [{ name := "Vouchers", entityType := "fin.Voucher" }]
    entityTypes := [{
      name := "fin.Voucher"
      annotations := { lineItems := .ofList [("", actions.map fun action =>
        .action { ActionField.release with action := action.1 })] } }]
    operations := actions.map fun action =>
      { Operation.release "fin.Voucher" with
        name := action.1, operationAvailable := some (.path action.2) } }

-- the map is in the order of the names, and the list in that of the records
example :
    (match ((Context.vouchersWith [("fin.reverse", "_it/IsPosted"), ("fin.post", "Ledger/Open"),
        ("fin.release", "IsPosted")]).compile { entitySet := "Vouchers" }).value with
      | .ok t =>
        (t.configuration.operationAvailableMap, t.configuration.operationAvailableProperties)
      | .error _ => ("", "")) =
    ("\x7b\"fin.post\":\"Ledger/Open\",\"fin.release\":\"IsPosted\"," ++
      "\"fin.reverse\":\"IsPosted\"\x7d", "IsPosted,Ledger/Open") := by
  decide +kernel

end TableCompiler
