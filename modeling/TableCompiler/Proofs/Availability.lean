import Mathlib.Data.List.Induction
import TableCompiler.Compile
import TableCompiler.Proofs.Dictionary

/-!
# Availability on rows and up front

An operation that is not available at all times is looked at twice: the renderer evaluates the map
of available operations for each row, and a toolbar action may bring a binding that enables it
without looking at rows.  Every such operation called by a line item is told one way or the other.
It is told both ways exactly if it is bound to rows of another type: the map has it although its
path is not a path from the rows of the table.

* `Operation.isConditional`, `Operation.isBoundElsewhere` — operations that may be unavailable, and
  those of other rows;
* `Operation.isSome_rowAvailability?`, `Operation.needsPrecomputedEnablement_eq` — the two ways;
* `Scope.Covers`, `Scope.covers_operationAvailability` — what is evaluated for the rows of a line
  item;
* `Scope.availability_told` — an operation that a line item calls.
-/

namespace TableCompiler

/-! ### Two ways to tell -/

namespace Operation

/-- Whether there are rows for which the operation may be unavailable. -/
def isConditional (o : Operation) : Bool :=
  match o.operationAvailable with
  | some (.literal b) => !b
  | some (.path _) => true
  | none => false

/-- Whether the operation works on selected rows, but on those of another type. -/
def isBoundElsewhere (o : Operation) (t : EntityType) : Bool :=
  o.requiresContext && o.sourceType.any fun type => type != t.name && type != t.shortName

/-- A conditional operation that works on rows is evaluated for each row, whatever their type. -/
theorem isSome_rowAvailability? (o : Operation) :
    o.rowAvailability?.isSome = (o.requiresContext && o.isConditional) := by
  rw [rowAvailability?, isConditional]
  by_cases hrows : o.requiresContext = true
  · rw [if_pos hrows, hrows, Bool.true_and]
    cases havailable : o.operationAvailable with
    | none => rfl
    | some available =>
      cases available with
      | literal b => cases b <;> rfl
      | path p =>
        rw [availablePath?, havailable]
        rfl
  · rw [if_neg hrows, Bool.eq_false_iff.2 hrows]
    rfl

/-- Only up-front enablement looks at the type of the rows. -/
theorem needsPrecomputedEnablement_eq (o : Operation) (t : EntityType) :
    o.needsPrecomputedEnablement t = (!o.requiresContext || o.isBoundElsewhere t) := by
  rw [needsPrecomputedEnablement, isBoundElsewhere]
  cases o.requiresContext <;> rfl

end Operation

/-! ### The map of a line item -/

namespace OperationAvailability

variable (a : OperationAvailability) (operation : String)

@[simp] theorem paths_add (path : Option PropertyPath) :
    (a.add operation path).paths = a.paths.insert operation path :=
  rfl

theorem mem_properties_add {path : Option PropertyPath} {p : PropertyPath} :
    p ∈ (a.add operation path).properties ↔ p ∈ a.properties ∨ path = some p := by
  cases path with
  | none => simp only [add, reduceCtorEq, or_false]
  | some q =>
    simp only [add, Option.some.injEq]
    split
    · rename_i hold
      refine (or_iff_left_of_imp ?_).symm
      rintro rfl
      exact List.contains_iff_mem.1 hold
    · rw [List.mem_append, List.mem_singleton, eq_comm (a := q)]

end OperationAvailability

/-- An operation is called by one of some records. -/
def CallsOperation (records : List DataField) (name : String) : Prop :=
  ∃ record : ActionField, .action record ∈ records ∧ record.action = name

theorem callsOperation_append_singleton {records : List DataField} {field : DataField}
    {name : String} : CallsOperation (records ++ [field]) name ↔
      CallsOperation records name ∨
        ∃ record : ActionField, field = .action record ∧ record.action = name := by
  simp only [CallsOperation, List.mem_append, List.mem_singleton, or_and_right, exists_or,
    eq_comm (b := field)]

namespace Scope

/-- What is evaluated for each row about the operation of a name. -/
def rowAvailability? (s : Scope) (name : String) : Option (Option PropertyPath) :=
  (s.service.operation? name).bind (·.rowAvailability?)

/-- What has been gathered from some records: an entry for every operation that they call and that
is evaluated for rows, and the paths of these. -/
structure Covers (s : Scope) (records : List DataField) (a : OperationAvailability) : Prop where
  paths : ∀ name path, a.paths.get? name = some path ↔
    CallsOperation records name ∧ s.rowAvailability? name = some path
  properties : ∀ p, p ∈ a.properties ↔
    ∃ name, CallsOperation records name ∧ s.rowAvailability? name = some (some p)

variable {s : Scope} {records : List DataField} {a : OperationAvailability}

/-- A record that calls no operation to be evaluated changes nothing. -/
theorem Covers.pass {field : DataField} (h : s.Covers records a)
    (hnone : ∀ record : ActionField, field = .action record →
      s.rowAvailability? record.action = none) : s.Covers (records ++ [field]) a := by
  have hcalls : ∀ name path, s.rowAvailability? name = some path →
      (CallsOperation (records ++ [field]) name ↔ CallsOperation records name) := by
    intro name path hpath
    refine callsOperation_append_singleton.trans (or_iff_left ?_)
    rintro ⟨record, hfield, rfl⟩
    rw [hnone record hfield] at hpath
    cases hpath
  refine ⟨fun name path => ?_, fun p => ?_⟩
  · rw [h.paths]
    exact and_congr_left fun hpath => (hcalls name path hpath).symm
  · rw [h.properties]
    exact exists_congr fun name => and_congr_left fun hpath => (hcalls name _ hpath).symm

/-- The operation of a record is added with what is evaluated about it. -/
theorem Covers.add {record : ActionField} {path : Option PropertyPath} (h : s.Covers records a)
    (hpath : s.rowAvailability? record.action = some path) :
    s.Covers (records ++ [.action record]) (a.add record.action path) := by
  have hcalls : ∀ name, CallsOperation (records ++ [.action record]) name ↔
      CallsOperation records name ∨ name = record.action := by
    intro name
    rw [callsOperation_append_singleton]
    simp only [DataField.action.injEq, exists_eq_left', eq_comm (a := record.action)]
  refine ⟨fun name other => ?_, fun p => ?_⟩
  · rw [OperationAvailability.paths_add, Dictionary.get?_insert, hcalls, or_and_right, ← h.paths]
    by_cases hname : name = record.action
    · -- an earlier entry for the operation was the same
      subst hname
      rw [if_pos rfl, h.paths, hpath]
      simp only [true_and]
      exact (or_iff_right_of_imp And.right).symm
    · rw [if_neg hname]
      simp only [hname, false_and, or_false]
  · rw [OperationAvailability.mem_properties_add, h.properties]
    simp only [hcalls, or_and_right, exists_or, exists_eq_left, hpath, Option.some.injEq]

/-- What has been gathered stays so with one more record. -/
theorem Covers.step (h : s.Covers records a) (field : DataField) :
    s.Covers (records ++ [field]) (s.addAvailability a field) := by
  unfold addAvailability
  split
  · rename_i record
    split
    · rename_i path hpath
      exact h.add hpath
    · rename_i hnone
      refine h.pass fun other heq => ?_
      rwa [← DataField.action.inj heq]
  · rename_i hother
    exact h.pass fun record heq => (hother record heq).elim

/-- What is gathered from the records of a list, one after the other. -/
theorem covers_foldl (s : Scope) (records : List DataField) :
    s.Covers records (records.foldl s.addAvailability {}) := by
  induction records using List.reverseRecOn with
  | nil =>
    refine ⟨fun name path => iff_of_false ?_ ?_, fun p => iff_of_false List.not_mem_nil ?_⟩
    · rintro ⟨⟩
    · rintro ⟨⟨record, hrecord, -⟩, -⟩
      cases hrecord
    · rintro ⟨name, ⟨record, hrecord, -⟩, -⟩
      cases hrecord
  | append_singleton records field ih =>
    rw [List.foldl_append]
    exact ih.step field

/-- **The operations that are evaluated for rows.**  They are those that the line item calls and
that are conditional and work on rows, whatever the type of these. -/
theorem covers_operationAvailability (s : Scope) :
    s.Covers s.lineItem s.operationAvailability :=
  s.covers_foldl s.lineItem

theorem mem_keys_operationAvailability {name : String} :
    name ∈ s.operationAvailability.paths.keys ↔
      CallsOperation s.lineItem name ∧ (s.rowAvailability? name).isSome = true := by
  rw [← Dictionary.contains_iff, Dictionary.contains, Option.isSome_iff_exists,
    Option.isSome_iff_exists, ← exists_and_left]
  exact exists_congr fun path => s.covers_operationAvailability.paths name path

/-- **Availability is told on rows or up front.**  A line item calls a conditional operation.  Then
it is a member of the object of available operations, or its action is enabled up front; and it is
one of these only, unless it works on rows of another type. -/
theorem availability_told (s : Scope) (record : ActionField)
    (hrecord : DataField.action record ∈ s.lineItem) (o : Operation)
    (ho : s.service.operation? record.action = some o) (hconditional : o.isConditional = true) :
    ∃ members : List (String × Json),
      (∀ actions creation variant conditions,
        (s.configuration actions creation variant conditions).operationAvailableMap =
          (Json.obj members).compact) ∧
      (∀ key path, (s.operationAction record key path).value.enabled.isSome =
        o.needsPrecomputedEnablement s.entityType) ∧
      (record.action ∈ members.map (·.1) ∨ o.needsPrecomputedEnablement s.entityType = true) ∧
      ((record.action ∈ members.map (·.1) ↔ o.needsPrecomputedEnablement s.entityType = false) ↔
        o.isBoundElsewhere s.entityType = false) := by
  refine ⟨_, fun _ _ _ _ => rfl, fun key path => ?_, ?_⟩
  · rw [operationAction, ho]
    dsimp only
    cases o.needsPrecomputedEnablement s.entityType <;> rfl
  have hkeys : record.action ∈ s.operationAvailability.paths.keys ↔ o.requiresContext = true := by
    rw [mem_keys_operationAvailability, rowAvailability?, ho, Option.bind_some,
      o.isSome_rowAvailability?, hconditional, Bool.and_true]
    exact and_iff_right ⟨record, hrecord, rfl⟩
  have hmembers : (s.operationAvailability.paths.entries.map fun entry =>
      (entry.1, (Codec.nullable .text).write entry.2)).map (·.1) =
        s.operationAvailability.paths.keys := by
    rw [List.map_map]
    rfl
  rw [hmembers, hkeys, o.needsPrecomputedEnablement_eq]
  cases hrows : o.requiresContext with
  | false =>
    have hhere : o.isBoundElsewhere s.entityType = false := by
      rw [Operation.isBoundElsewhere, hrows, Bool.false_and]
    simp [hhere]
  | true => cases o.isBoundElsewhere s.entityType <;> simp

end Scope

/-! ### An action of vouchers -/

/-- A record for the action that releases a voucher. -/
def ActionField.release : ActionField :=
  ⟨none, "fin.release", false, false, none, {}⟩

/-- The action that releases what is open, bound to rows of a given type. -/
def Operation.release (source : String) : Operation where
  name := "fin.release"
  isBound := true
  sourceType := some source
  bindingParameter := some "_it"
  operationAvailable := some (.path "_it/Open")

/-- Vouchers with the action in their line item. -/
def Context.vouchers (source : String) : Context where
  service := {
    entitySets := [{ name := "Vouchers", entityType := "fin.Voucher" }]
    entityTypes := [
      { name := "fin.Voucher"
        properties := [{ name := "ID", typeName := "Edm.String" }]
        annotations := { lineItems := .ofList [("", [.action .release])] } },
      { name := "fin.Batch", properties := [{ name := "Open", typeName := "Edm.Boolean" }] }]
    operations := [.release source] }

/-- The action that is bound to vouchers is evaluated for each of them and not enabled up front. -/
theorem Scope.availability_told_vouchers :
    ∃ scope, ∃ members : List (String × Json),
      (Context.vouchers "fin.Voucher").resolve { entitySet := "Vouchers" } = .ok scope ∧
      (∀ actions creation variant conditions,
        (scope.value.configuration actions creation variant conditions).operationAvailableMap =
          (Json.obj members).compact) ∧
      "fin.release" ∈ members.map (·.1) ∧
      ∀ key path, (scope.value.operationAction .release key path).value.enabled = none := by
  have hrun : ((Context.vouchers "fin.Voucher").resolve
      { entitySet := "Vouchers" }).toOption.any (fun scope =>
        decide (scope.value.lineItem = [.action .release]) &&
        decide (scope.value.service.operation? "fin.release" = some (.release "fin.Voucher")) &&
        decide ((Operation.release "fin.Voucher").needsPrecomputedEnablement
          scope.value.entityType = false)) = true := by
    decide +kernel
  cases hscope : (Context.vouchers "fin.Voucher").resolve { entitySet := "Vouchers" } with
  | error e =>
    rw [hscope] at hrun
    cases hrun
  | ok scope =>
    rw [hscope, Except.toOption, Option.any_some, Bool.and_eq_true, Bool.and_eq_true,
      decide_eq_true_iff, decide_eq_true_iff, decide_eq_true_iff] at hrun
    obtain ⟨⟨hitems, hoperation⟩, hrows⟩ := hrun
    have hrecord : DataField.action .release ∈ scope.value.lineItem := by
      rw [hitems]
      exact List.mem_singleton_self _
    obtain ⟨members, hmap, henabled, htold, -⟩ :=
      scope.value.availability_told .release hrecord (.release "fin.Voucher") hoperation rfl
    rw [hrows] at htold henabled
    refine ⟨scope, members, rfl, hmap, htold.resolve_right Bool.false_ne_true, ?_⟩
    intro key path
    exact Option.isNone_iff_eq_none.1 (Option.isSome_eq_false_iff.1 (henabled key path))

-- bound to batches it is enabled up front, and evaluated for vouchers all the same
example :
    ["fin.Voucher", "fin.Batch"].map (fun source =>
      match ((Context.vouchers source).compile { entitySet := "Vouchers" }).value with
      | .ok t => (t.configuration.operationAvailableMap, t.actions.map Action.enabled)
      | .error _ => ("", [])) =
    [("\x7b\"fin.release\":\"Open\"\x7d", [none]),
      ("\x7b\"fin.release\":\"Open\"\x7d", [some "\x7b= %\x7bOpen\x7d === true\x7d"])] := by
  decide +kernel

end TableCompiler
