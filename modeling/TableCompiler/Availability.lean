import TableCompiler.Json.Printing
import TableCompiler.Scope

/-!
# Availability of operations

The renderer evaluates for each row whether an operation of the line item is available there.

* `Operation.rowAvailability?` — what there is to evaluate: nothing at all, a fixed no, or the
  path of a property;
* `OperationAvailability` — the operations of a line item with their paths;
* `OperationAvailability.mapText`, `OperationAvailability.propertiesText` — as the renderer reads
  them.
-/

namespace TableCompiler

namespace Operation

/-- What is evaluated for a row: `some none` stands for an operation that is never available. -/
def rowAvailability? (o : Operation) : Option (Option PropertyPath) :=
  if o.requiresContext then
    match o.operationAvailable with
    | some (.literal false) => some none
    | some (.path _) => o.availablePath?.map some
    | _ => none
  else none

end Operation

/-- The operations of a line item whose availability is evaluated for each row. -/
structure OperationAvailability where
  /-- The path for each operation; unset for one that is never available. -/
  paths : Dictionary (Option PropertyPath) := .empty
  /-- The paths, in the order in which they were found. -/
  properties : List PropertyPath := []

namespace OperationAvailability

def add (a : OperationAvailability) (operation : String) (path : Option PropertyPath) :
    OperationAvailability where
  paths := a.paths.insert operation path
  properties := match path with
    | some p => if a.properties.contains p then a.properties else a.properties ++ [p]
    | none => a.properties

/-- A JSON object from operations to paths. -/
def mapText (a : OperationAvailability) : String :=
  ((Codec.nullable .text).dictionary.write a.paths).compact

/-- The paths, separated by commas. -/
def propertiesText (a : OperationAvailability) : String :=
  ",".intercalate a.properties

end OperationAvailability

namespace Scope

def addAvailability (s : Scope) (a : OperationAvailability) (field : DataField) :
    OperationAvailability :=
  match field with
  | .action record =>
    match (s.service.operation? record.action).bind (·.rowAvailability?) with
    | some path => a.add record.action path
    | none => a
  | _ => a

/-- The operations of the line item whose availability is evaluated for each row. -/
def operationAvailability (s : Scope) : OperationAvailability :=
  s.lineItem.foldl s.addAvailability {}

end Scope

end TableCompiler
