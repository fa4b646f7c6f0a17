import TableCompiler.Descriptor
import TableCompiler.Service

/-!
# Types of columns

Primitive types are mapped to types of a spreadsheet and to types of the user interface.

* `exportTypeOf`, `isSortableType` — by the name of a type;
* `Property.typeConfig?` — the model type of a property with its constraints.
-/

namespace TableCompiler

def numericTypes : List String := ["Edm.Decimal", "Edm.Int16", "Edm.Int32", "Edm.Int64",
  "Edm.Double", "Edm.Single", "Edm.Byte", "Edm.SByte"]

def exportTypeOf (typeName : String) : ExportType :=
  if numericTypes.contains typeName then .number
  else if typeName = "Edm.Date" ∨ typeName = "Edm.DateOfTime" then .date
  else if typeName = "Edm.DateTimeOffset" then .dateTime
  else if typeName = "Edm.TimeOfDay" then .time
  else if typeName = "Edm.Boolean" then .boolean
  else .string

/-- Whether rows can be ordered by values of a type: streams and places have no order. -/
def isSortableType (typeName : String) : Bool :=
  !(typeName == "Edm.Stream" || Text.startsWith "Edm.Geography" typeName
    || Text.startsWith "Edm.Geometry" typeName)

/-- The primitive types that have a model type of their own, without the vocabulary. -/
def modelTypes : List String := ["Boolean", "Byte", "Date", "DateTimeOffset", "Decimal",
  "Double", "Guid", "Int16", "Int32", "Int64", "SByte", "Single", "Stream", "String", "TimeOfDay"]

def modelNamespace : String := "sap.ui.model.odata.type."

namespace Property

/-- The constraints of a property that its model type knows. -/
def typeConstraints (p : Property) (modelType : String) : TypeConstraints :=
  let hasPrecision := ["Decimal", "DateTimeOffset", "TimeOfDay"].contains modelType
  { precision := if hasPrecision then p.precision else none
    scale := if modelType = "Decimal" then p.scale else none
    maxLength := if modelType = "String" then p.maxLength else none
    nullable := if p.nullable then none else some false
    isDigitSequence :=
      if modelType = "String" ∧ p.annotations.isDigitSequence then some true else none }

/-- The model type of a property, if it is of a primitive type that has one. -/
def typeConfig? (p : Property) : Option TypeConfig := do
  let modelType ← Text.stripStart? "Edm." p.typeName
  if modelTypes.contains modelType then
    return ⟨modelNamespace ++ modelType, p.typeConstraints modelType⟩
  else none

end Property

end TableCompiler
