import TableCompiler.Service

/-!
# Labels

* `DataField.columnLabel?` — the label of a record that is a column of its own;
* `DataField.memberLabel?` — the label of a record inside a group, which does without the
  labels and names of properties;
* `Property.columnLabel` — the label of the column of a bare property.
-/

namespace TableCompiler

namespace Property

def defaultLabel? (p : Property) : Option String :=
  p.annotations.dataFieldDefault.bind (·.label?)

/-- The label of the column of a bare property: that of the default record, its own or its
name. -/
def columnLabel (p : Property) : String :=
  p.defaultLabel?.getD (p.annotations.label.getD p.name)

end Property

namespace DataField

/-- The label of a record inside a group: that of the default record of the property it shows,
or its own. -/
def memberLabel? (field : DataField) (property : Option Property) : Option String :=
  (property.bind (·.defaultLabel?)).or field.label?

/-- The label of a record that is a column of its own, which falls back to the property. -/
def columnLabel? (field : DataField) (property : Option Property) : Option String :=
  (field.memberLabel? property).or (property.map fun p => p.annotations.label.getD p.name)

end DataField

end TableCompiler
